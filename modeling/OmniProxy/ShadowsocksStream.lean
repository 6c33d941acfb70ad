import OmniProxy.CarryCounters
import OmniProxy.CryptoPrimitives
import OmniProxy.FramedStreams
import OmniProxy.ProxyTargets

/-!
# Shadowsocks streams

A connection starts with a salt from which both sides derive one subkey. Each
direction is a sequence of chunks, and a chunk is a sealed two-octet length
followed by a sealed payload of at most 0x3FFF octets. A writer uses its nonce
counter twice per chunk, and so does the reader; both start at zero. The client
sends its target in front of its data.

A writer also keeps the history of its seals, as pairs of subkey and nonce, so
that their uniqueness can be stated. The history is read by no operation. A
refused payload seal panics in the program; here the action fails with the
panic's text.
-/

namespace OmniProxy.ShadowsocksStream

open ByteStrings BufferedReads CarryCounters Connections CryptoPrimitives Digests EStateM
  FramedStreams ProxyTargets SealedBoxes

/-- The longest payload of a chunk. -/
def maxPayload : Nat := 0x3FFF

/-- The supported ciphers. -/
inductive Method where
  | aes128Gcm
  | aes256Gcm
  | chaCha20IetfPoly1305
deriving DecidableEq, Repr

/-- The method of a name, in any case of ASCII letters. -/
def Method.parse (name : String) : Option Method :=
  let lower := toAsciiLowercase name
  if lower = "aes-128-gcm" then some aes128Gcm
  else if lower = "aes-256-gcm" then some aes256Gcm
  else if lower = "chacha20-ietf-poly1305" ∨ lower = "chacha20-poly1305" then
    some chaCha20IetfPoly1305
  else none

/-- Octets of a key. -/
def Method.keyLen : Method → Nat
  | aes128Gcm => 16
  | aes256Gcm => 32
  | chaCha20IetfPoly1305 => 32

/-- Octets of a salt. -/
def Method.saltLen (method : Method) : Nat := method.keyLen

/-- A method with a key of its length. -/
structure SsAead where
  method : Method
  key : Octets method.keyLen

/-- The subkey a cipher was made from. -/
def SsAead.subkey (cipher : SsAead) : Bytes := cipher.key.toList

variable (crypto : Primitives)

/-- The authenticated cipher of a method. -/
def Method.aead : (method : Method) → Aead method.keyLen 12
  | aes128Gcm => crypto.aes128Gcm
  | aes256Gcm => crypto.aes256Gcm
  | chaCha20IetfPoly1305 => crypto.chacha20Poly1305

/-- Seal a buffer: ciphertext followed by its tag. -/
def SsAead.seal (cipher : SsAead) (nonce : Octets 12) (plaintext : Bytes) : Option Bytes :=
  (cipher.method.aead crypto).combine cipher.key nonce [] plaintext

/-- Open a buffer that ends with its tag. -/
def SsAead.openBox (cipher : SsAead) (nonce : Octets 12) (box : Bytes) : Option Bytes :=
  (cipher.method.aead crypto).split cipher.key nonce [] box

/-- A short buffer is sealed and opens again under the same nonce. -/
theorem seal_exact (cipher : SsAead) (nonce : Octets 12) (plaintext : Bytes)
    (short : plaintext.length ≤ maxPayload) :
    ∃ box, cipher.seal crypto nonce plaintext = some box ∧
      box.length = plaintext.length + 16 ∧ cipher.openBox crypto nonce box = some plaintext :=
  (cipher.method.aead crypto).combine_exact cipher.key nonce [] plaintext (Nat.zero_le _)
    (Nat.le_trans short (by decide))

section Writer

/-- A writer: the octets written, its cipher and nonce, and the history of its seals. -/
structure AeadStreamWriter where
  inner : Bytes
  cipher : SsAead
  nonce : Octets 12
  seals : List (Bytes × Octets 12)

/-- A writer on a stream that already carries some octets. -/
def AeadStreamWriter.new (inner : Bytes) (cipher : SsAead) (nonce : Octets 12) :
    AeadStreamWriter := ⟨inner, cipher, nonce, []⟩

/-- Seal a buffer and advance the nonce. -/
def AeadStreamWriter.seal (writer : AeadStreamWriter) (buf : Bytes) :
    Option (Bytes × AeadStreamWriter) :=
  (writer.cipher.seal crypto writer.nonce buf).map fun box =>
    (box, { writer with
      nonce := incrementOctets writer.nonce
      seals := writer.seals ++ [(writer.cipher.subkey, writer.nonce)] })

/-- Write one piece: its sealed length and the sealed piece. -/
def AeadStreamWriter.writePiece (writer : AeadStreamWriter) (piece : Bytes) :
    Result IoError AeadStreamWriter Unit :=
  match writer.seal crypto (bigEndian16 (UInt16.ofNat piece.length)) with
  | none => .error (.ofText "shadowsocks: encrypt failed") writer
  | some (hdr, counted) =>
      match counted.seal crypto piece with
      | none => .error (.ofText "called `Option::unwrap()` on a `None` value") counted
      | some (payload, sealed) => .ok () { sealed with inner := sealed.inner ++ hdr ++ payload }

/-- Write a slice, cut into pieces; an empty slice writes nothing. -/
def AeadStreamWriter.writeChunk (writer : AeadStreamWriter) (data : Bytes) :
    Result IoError AeadStreamWriter Unit :=
  emitAll (AeadStreamWriter.writePiece crypto) (pieces maxPayload data) writer

end Writer

section Reader

/-- A reader: the octets not yet decoded, its cipher and nonce, the decoded
payload with the number of its octets handed out, and whether the end was seen. -/
structure AeadStreamReader where
  inner : Bytes
  cipher : SsAead
  nonce : Octets 12
  rbuf : Bytes
  rpos : Nat
  eof : Bool

/-- A reader that has read nothing. -/
def AeadStreamReader.new (inner : Bytes) (cipher : SsAead) (nonce : Octets 12) :
    AeadStreamReader := ⟨inner, cipher, nonce, [], 0, false⟩

/-- The error of a stream that ends inside a chunk or before one. -/
def closedMidChunk : IoError := ⟨.unexpectedEof, "shadowsocks: stream closed mid-chunk"⟩

/-- An error of malformed data. -/
def invalidData (message : String) : IoError := ⟨.invalidData, message⟩

/-- Read and open the payload of a chunk of known length. -/
def AeadStreamReader.fillBody (reader : AeadStreamReader) (len : Nat) :
    Result IoError AeadStreamReader Unit :=
  match splitExact (len + 16) reader.inner with
  | none => .error closedMidChunk { reader with inner := [] }
  | some (box, rest) =>
      let read := { reader with inner := rest }
      match reader.cipher.openBox crypto reader.nonce box with
      | none => .error (invalidData "shadowsocks: payload decrypt failed") read
      | some body =>
          .ok () { read with
            nonce := incrementOctets reader.nonce
            rbuf := body
            rpos := 0
            eof := if len = 0 then true else reader.eof }

/-- Read and open the next chunk. -/
def AeadStreamReader.fillChunk (reader : AeadStreamReader) :
    Result IoError AeadStreamReader Unit :=
  match splitExact (2 + 16) reader.inner with
  | none => .error closedMidChunk { reader with inner := [] }
  | some (hdr, rest) =>
      let read := { reader with inner := rest }
      match reader.cipher.openBox crypto reader.nonce hdr with
      | none => .error (invalidData "shadowsocks: length decrypt failed") read
      | some lenPlain =>
          let counted := { read with nonce := incrementOctets reader.nonce }
          let len := (ofBigEndian16 (lenPlain.getD 0 0) (lenPlain.getD 1 0)).toNat
          if maxPayload < len then .error (invalidData "shadowsocks: payload too large") counted
          else counted.fillBody crypto len

/-- Read the target in front of the data, from the first chunk. -/
def AeadStreamReader.readTarget (reader : AeadStreamReader) :
    Result IoError AeadStreamReader ProxyTarget :=
  let filled :=
    if reader.rbuf.length ≤ reader.rpos ∧ reader.eof = false then reader.fillChunk crypto
    else .ok () reader
  match filled with
  | .error error after => .error error after
  | .ok _ reader =>
      match Socks5Addr.decode (reader.rbuf.drop reader.rpos) with
      | .error message => .error (invalidData message) reader
      | .ok (addr, used) => .ok addr.toProxyTarget { reader with rpos := reader.rpos + used }

/-- A decoded chunk consumed its payload. -/
theorem fill_body_inner (reader after : AeadStreamReader) (len : Nat)
    (filled : reader.fillBody crypto len = .ok () after) :
    after.inner.length ≤ reader.inner.length := by
  unfold AeadStreamReader.fillBody at filled
  split at filled
  · simp at filled
  · rename_i box rest split
    obtain ⟨-, joined⟩ := split_exact_some _ _ _ _ split
    dsimp only at filled
    split at filled
    · simp at filled
    · obtain ⟨-, rfl⟩ := Result.ok.inj filled
      simp only [← joined, List.length_append]
      omega

/-- Every decoded chunk consumed at least its sealed length. -/
theorem fill_chunk_consumes (reader after : AeadStreamReader)
    (filled : reader.fillChunk crypto = .ok () after) :
    after.inner.length < reader.inner.length := by
  unfold AeadStreamReader.fillChunk at filled
  split at filled
  · simp at filled
  · rename_i hdr rest split
    obtain ⟨width, joined⟩ := split_exact_some _ _ _ _ split
    have shorter : rest.length + 18 = reader.inner.length := by
      rw [← joined, List.length_append, width]
      omega
    dsimp only at filled
    split at filled
    · simp at filled
    · split at filled
      · simp at filled
      · have body := fill_body_inner crypto _ after _ filled
        simp only at body
        omega

/-- The reader as a buffered source of octets: `readData` at this source is the
reader's own `read_data`. -/
def streamSource : Source AeadStreamReader IoError where
  unread reader := reader.rbuf.drop reader.rpos
  advance reader count := { reader with rpos := reader.rpos + count }
  ended reader := reader.eof
  fill reader := reader.fillChunk crypto
  inputLeft reader := reader.inner.length
  unread_advance reader count := by simp
  advance_zero reader := rfl
  advance_add reader first second := by simp [Nat.add_assoc]
  fill_consumes := fill_chunk_consumes crypto

end Reader

section Connections

/-- What a client is configured with. -/
structure SsOutboundConfig where
  server : String
  serverPort : UInt16
  method : String
  password : String
deriving DecidableEq

/-- What a server is configured with. -/
structure SsInboundConfig where
  method : String
  password : String

/-- The method of a name, or the error both sides report. -/
def parsedMethod (name : String) : Except IoError Method :=
  match Method.parse name with
  | some method => .ok method
  | none => .error (invalidData ("shadowsocks: unsupported method '" ++ name ++ "'"))

/-- The master key of a password. -/
def masterKey (method : Method) (password : String) : Bytes :=
  evpBytesToKey (asBytes password) method.keyLen

/-- The cipher of a connection, from the salt in front of it. -/
def connectionCipher (method : Method) (password : String) (salt : Bytes) : SsAead where
  method := method
  key := ⟨deriveSubkey (masterKey method password) salt,
    by rw [derive_subkey_length, masterKey, evp_bytes_to_key_length]⟩

/-- Connect to a target: write the salt and the target. `incoming` is what the
server will send and `random` the random salt of each length. -/
def connectTcp (random : (count : Nat) → Octets count) (incoming : Bytes) (cfg : SsOutboundConfig)
    (target : ProxyTarget) : Except IoError (AeadStreamReader × AeadStreamWriter) :=
  match parsedMethod cfg.method with
  | .error error => .error error
  | .ok method =>
      let salt := (random method.saltLen).toList
      let cipher := connectionCipher method cfg.password salt
      let addr := (Socks5Addr.fromProxyTarget target).encodeInto []
      let writer := AeadStreamWriter.new salt cipher (zeroOctets 12)
      match writer.writeChunk crypto addr with
      | .error error _ => .error error
      | .ok _ writer => .ok (AeadStreamReader.new incoming cipher (zeroOctets 12), writer)

/-- Accept a connection whose client sends `incoming`. -/
def acceptTcp (incoming : Bytes) (cfg : SsInboundConfig) :
    Except IoError (AeadStreamReader × AeadStreamWriter) :=
  match parsedMethod cfg.method with
  | .error error => .error error
  | .ok method =>
      match splitExact method.saltLen incoming with
      | none => .error earlyEof
      | some (salt, rest) =>
          let cipher := connectionCipher method cfg.password salt
          .ok (AeadStreamReader.new rest cipher (zeroOctets 12),
            AeadStreamWriter.new [] cipher (zeroOctets 12))

end Connections

section RoundTrip

/-- Reader and writer as two sides of a framed stream: they are aligned when
their ciphers and nonces agree. -/
def streamFraming : Framing AeadStreamReader AeadStreamWriter IoError where
  source := streamSource crypto
  input reader := reader.inner
  sent writer := writer.inner
  aligned reader writer := reader.cipher = writer.cipher ∧ reader.nonce = writer.nonce
  input_advance _ _ := rfl
  ended_advance _ _ := rfl
  aligned_advance _ _ _ aligned := aligned

/-- A written piece is two sealed boxes under consecutive nonces. -/
theorem write_piece_exact (writer : AeadStreamWriter) (piece : Bytes)
    (fits : piece.length ≤ maxPayload) :
    ∃ hdr payload, writer.writePiece crypto piece = .ok ()
        { writer with
          inner := writer.inner ++ (hdr ++ payload)
          nonce := incrementOctets (incrementOctets writer.nonce)
          seals := writer.seals ++ [(writer.cipher.subkey, writer.nonce),
            (writer.cipher.subkey, incrementOctets writer.nonce)] } ∧
      hdr.length = 18 ∧ payload.length = piece.length + 16 ∧
      writer.cipher.openBox crypto writer.nonce hdr =
        some (bigEndian16 (UInt16.ofNat piece.length)) ∧
      writer.cipher.openBox crypto (incrementOctets writer.nonce) payload = some piece := by
  obtain ⟨hdr, sealedHdr, hdrLength, openedHdr⟩ := seal_exact crypto writer.cipher writer.nonce
    (bigEndian16 (UInt16.ofNat piece.length)) (by simp [maxPayload])
  obtain ⟨payload, sealedPayload, payloadLength, openedPayload⟩ :=
    seal_exact crypto writer.cipher (incrementOctets writer.nonce) piece fits
  refine ⟨hdr, payload, ?_, by simpa using hdrLength, payloadLength, openedHdr, openedPayload⟩
  simp [AeadStreamWriter.writePiece, AeadStreamWriter.seal, sealedHdr, sealedPayload]

/-- A written piece is decoded by every aligned reader that has it at the front
of its input. -/
theorem write_piece_decoded (writer : AeadStreamWriter) (piece : Bytes) (nonempty : piece ≠ [])
    (fits : piece.length ≤ maxPayload) :
    DecodedAs (streamFraming crypto) (fun writer => writer.writePiece crypto piece) piece
      writer := by
  obtain ⟨hdr, payload, written, hdrLength, payloadLength, openedHdr, openedPayload⟩ :=
    write_piece_exact crypto writer piece fits
  refine ⟨hdr ++ payload, _, written, rfl, ?_⟩
  rintro reader rest ⟨sameCipher, sameNonce⟩ front running
  obtain ⟨high, low, octets, value⟩ := of_big_endian16_exact (UInt16.ofNat piece.length)
  have length : (ofBigEndian16 high low).toNat = piece.length := by
    simp only [maxPayload] at fits
    simp [value]
    omega
  have hdrSplit : splitExact (2 + 16) reader.inner = some (hdr, payload ++ rest) := by
    rw [show reader.inner = _ from front, List.append_assoc]
    exact split_exact_append _ hdr _ hdrLength
  have payloadSplit : splitExact (piece.length + 16) (payload ++ rest) = some (payload, rest) :=
    split_exact_append _ payload _ payloadLength
  have positive : piece.length ≠ 0 := by simpa using nonempty
  refine ⟨{ reader with
    inner := rest
    nonce := incrementOctets (incrementOctets writer.nonce)
    rbuf := piece
    rpos := 0 }, ?_, ⟨sameCipher, rfl⟩, rfl, rfl, running⟩
  show reader.fillChunk crypto = _
  simp only [AeadStreamReader.fillChunk, AeadStreamReader.fillBody, hdrSplit, sameCipher, sameNonce,
    openedHdr, octets, List.getD_cons_zero, List.getD_cons_succ, length, Nat.not_lt.mpr fits,
    ↓reduceIte, payloadSplit, openedPayload, positive]

/-- The reader's input has run out. -/
def Dry (reader : AeadStreamReader) : Prop := reader.inner = []

/-- A slice of any length is carried by its chunks, up to any final condition. -/
theorem write_chunk_carries_until (final : AeadStreamReader → Prop) (slice : Bytes)
    (writer : AeadStreamWriter) :
    Carries (streamFraming crypto) final (fun writer => writer.writeChunk crypto slice) slice
      writer :=
  carries_pieces (streamFraming crypto) final (AeadStreamWriter.writePiece crypto) maxPayload slice
    writer (by decide) fun piece writer nonempty fits =>
      carries_of_decoded _ _ nonempty (write_piece_decoded crypto writer piece nonempty fits)

/-- Slices are carried in order, up to any final condition. -/
theorem write_chunks_carries_until (final : AeadStreamReader → Prop) (slices : List Bytes)
    (writer : AeadStreamWriter) :
    Carries (streamFraming crypto) final (emitAll (AeadStreamWriter.writeChunk crypto) slices)
      slices.flatten writer :=
  carries_items (streamFraming crypto) final (AeadStreamWriter.writeChunk crypto) slices writer
    fun slice _ writer => write_chunk_carries_until crypto final slice writer

/-- The first chunk of a connection: the address of the target. -/
def addressOf (target : ProxyTarget) : Bytes := (Socks5Addr.fromProxyTarget target).encodeInto []

/-- Connecting writes the salt and then the address as one piece. -/
theorem connect_exact (random : (count : Nat) → Octets count) (incoming : Bytes)
    (cfg : SsOutboundConfig) (method : Method) (target : ProxyTarget) (writer : AeadStreamWriter)
    (known : Method.parse cfg.method = some method)
    (short : (addressOf target).length ≤ maxPayload)
    (written : (AeadStreamWriter.new (random method.saltLen).toList (connectionCipher method
      cfg.password (random method.saltLen).toList) (zeroOctets 12)).writePiece crypto
      (addressOf target) = .ok () writer) :
    connectTcp crypto random incoming cfg target =
      .ok (AeadStreamReader.new incoming (connectionCipher method cfg.password
        (random method.saltLen).toList) (zeroOctets 12), writer) := by
  have nonempty := encode_into_nonempty (Socks5Addr.fromProxyTarget target)
  have single := pieces_single maxPayload (addressOf target) nonempty short
  rw [addressOf] at single written
  simp only [connectTcp, parsedMethod, known, AeadStreamWriter.writeChunk, single, emitAll, written]

/-- A first chunk that holds exactly an address is read as its target and used
up. -/
theorem read_target_exact (reader next : AeadStreamReader) (target : ProxyTarget)
    (named : target.named) (empty : reader.rbuf.length ≤ reader.rpos) (running : reader.eof = false)
    (filled : reader.fillChunk crypto = .ok () next)
    (front : next.rbuf.drop next.rpos = addressOf target) :
    reader.readTarget crypto =
      .ok target { next with rpos := next.rpos + (addressOf target).length } := by
  have address := decode_encode_target target named []
  rw [List.append_nil, ← addressOf] at address
  simp [AeadStreamReader.readTarget, empty, running, filled, front, address]

/-- Client and server agree. With the same method and password, the server finds
the target of the client at the front of its stream and then receives exactly
the slices the client writes, in order and without an error, for any sequence of
nonempty buffers, until the written octets run out. -/
theorem client_server_agreement (random : (count : Nat) → Octets count) (incoming : Bytes)
    (out : SsOutboundConfig) (inbound : SsInboundConfig) (method : Method) (target : ProxyTarget)
    (slices : List Bytes) (sizes : List Nat) (outMethod : Method.parse out.method = some method)
    (inMethod : Method.parse inbound.method = some method)
    (samePassword : inbound.password = out.password) (named : target.named)
    (room : ∀ size ∈ sizes, 0 < size) :
    ∃ clientReader connected writer,
      connectTcp crypto random incoming out target = .ok (clientReader, connected) ∧
      emitAll (AeadStreamWriter.writeChunk crypto) slices connected = .ok () writer ∧
      ∃ accepted serverWriter reader,
        acceptTcp writer.inner inbound = .ok (accepted, serverWriter) ∧
        accepted.readTarget crypto = .ok target reader ∧
        ∃ first later outs last,
          readMany (streamSource crypto) first reader = (outs, none, last) ∧
          DeliversUntilDry slices.flatten sizes first later outs ∧
          (slices.flatten.length ≤ sizes.length → outs.flatten = slices.flatten) := by
  have short : (addressOf target).length ≤ maxPayload :=
    Nat.le_trans (encode_into_length target named) (by decide)
  have nonempty : addressOf target ≠ [] := encode_into_nonempty _
  generalize saltBytes : (random method.saltLen).toList = salt
  have saltWidth : salt.length = method.saltLen := by rw [← saltBytes, List.Vector.toList_length]
  generalize ciphered : connectionCipher method out.password salt = cipher
  obtain ⟨frame, connected, address, sent, decoded⟩ := write_piece_decoded crypto
    (AeadStreamWriter.new salt cipher (zeroOctets 12)) (addressOf target) nonempty short
  obtain ⟨frames, writer, written, sentRest, expects⟩ := carried_expected (streamFraming crypto)
    Dry (write_chunks_carries_until crypto Dry slices connected) fun _ dry _ => dry
  have stream : writer.inner = salt ++ (frame ++ frames) := by
    rw [show writer.inner = connected.inner ++ frames from sentRest,
      show connected.inner = salt ++ frame from sent, List.append_assoc]
  obtain ⟨next, filled, aligned, input, unread, still⟩ := decoded
    (AeadStreamReader.new (frame ++ frames) cipher (zeroOctets 12)) frames ⟨rfl, rfl⟩ rfl rfl
  have connects := connect_exact crypto random incoming out method target connected outMethod short
    (by rw [saltBytes, ciphered]; exact address)
  have accepts : acceptTcp writer.inner inbound =
      .ok (AeadStreamReader.new (frame ++ frames) cipher (zeroOctets 12),
        AeadStreamWriter.new [] cipher (zeroOctets 12)) := by
    simp only [acceptTcp, parsedMethod, inMethod, stream, split_exact_append _ salt _ saltWidth,
      samePassword, ciphered]
  have targeted := read_target_exact crypto _ next target named (by simp [AeadStreamReader.new]) rfl
    filled unread
  refine ⟨_, connected, writer, connects, written, _, _, _, accepts, targeted, ?_⟩
  have feeds : Feeds (streamSource crypto) Dry
      { next with rpos := next.rpos + (addressOf target).length } slices.flatten := by
    refine expects _ aligned input ?_ still
    show next.rbuf.drop (next.rpos + (addressOf target).length) = []
    rw [← List.drop_drop, show next.rbuf.drop next.rpos = addressOf target from unread,
      List.drop_length]
  obtain ⟨first, later, outs, last, read, delivered⟩ := read_many_until_dry feeds sizes room
  exact ⟨first, later, outs, last, read, delivered, until_dry_complete delivered⟩

/-- The agreement of a client and a server that spell one method differently. -/
theorem client_server_agreement_chacha :
    ∃ clientReader connected writer,
      connectTcp standard (fun count => zeroOctets count) []
        ⟨"127.0.0.1", 8388, "chacha20-ietf-poly1305", "secret"⟩ (.domain "example.org" 443) =
          .ok (clientReader, connected) ∧
      emitAll (AeadStreamWriter.writeChunk standard) [[1, 2, 3], [], [4]] connected =
        .ok () writer ∧
      ∃ accepted serverWriter reader,
        acceptTcp writer.inner ⟨"ChaCha20-Poly1305", "secret"⟩ = .ok (accepted, serverWriter) ∧
        accepted.readTarget standard = .ok (.domain "example.org" 443) reader ∧
        ∃ first later outs last,
          readMany (streamSource standard) first reader = (outs, none, last) ∧
          DeliversUntilDry [1, 2, 3, 4] [2, 2, 2, 2] first later outs ∧
          ([1, 2, 3, 4].length ≤ [2, 2, 2, 2].length → outs.flatten = [1, 2, 3, 4]) :=
  client_server_agreement standard _ [] ⟨"127.0.0.1", 8388, "chacha20-ietf-poly1305", "secret"⟩
    ⟨"ChaCha20-Poly1305", "secret"⟩ .chaCha20IetfPoly1305 (.domain "example.org" 443)
    [[1, 2, 3], [], [4]] [2, 2, 2, 2] (by decide) (by decide) rfl (by decide) (by decide)

end RoundTrip

section Nonces

/-- A writer's history is numbered when its seals used its subkey with the first
nonces in order, and its nonce is the next one. -/
structure Numbered (writer : AeadStreamWriter) : Prop where
  history : writer.seals = (List.range writer.seals.length).map fun i =>
    (writer.cipher.subkey, incrementOctets^[i] (zeroOctets 12))
  next : writer.nonce = incrementOctets^[writer.seals.length] (zeroOctets 12)

/-- A fresh writer has an empty, numbered history. -/
theorem new_numbered (inner : Bytes) (cipher : SsAead) :
    Numbered (AeadStreamWriter.new inner cipher (zeroOctets 12)) := ⟨rfl, rfl⟩

/-- One more seal with the next nonce keeps a history numbered. -/
theorem numbered_step (writer : AeadStreamWriter) (inner : Bytes) (numbered : Numbered writer) :
    Numbered { writer with
      inner := inner
      nonce := incrementOctets writer.nonce
      seals := writer.seals ++ [(writer.cipher.subkey, writer.nonce)] } := by
  constructor
  · simp only [List.length_append, List.length_singleton, List.range_succ, List.map_append,
      List.map_singleton, ← numbered.history, ← numbered.next]
  · simp only [List.length_append, List.length_singleton, numbered.next,
      Function.iterate_succ_apply']

/-- A writer after some seals: the same cipher, that many more seals, and a
numbered history if it was numbered before. -/
structure SealedMore (before after : AeadStreamWriter) (count : Nat) : Prop where
  cipher : after.cipher = before.cipher
  length : after.seals.length = before.seals.length + count
  numbered : Numbered before → Numbered after

/-- Seals add up. -/
theorem SealedMore.trans {first second third : AeadStreamWriter} {early late : Nat}
    (before : SealedMore first second early) (after : SealedMore second third late) :
    SealedMore first third (early + late) where
  cipher := after.cipher.trans before.cipher
  length := by rw [after.length, before.length, Nat.add_assoc]
  numbered := after.numbered ∘ before.numbered

/-- A piece of bounded size is written with two seals. -/
theorem write_piece_seals (piece : Bytes) (writer : AeadStreamWriter)
    (fits : piece.length ≤ maxPayload) :
    ∃ after, writer.writePiece crypto piece = .ok () after ∧ SealedMore writer after 2 := by
  obtain ⟨hdr, payload, written, -⟩ := write_piece_exact crypto writer piece fits
  refine ⟨_, written, rfl, by simp, fun numbered => ?_⟩
  have twice := numbered_step _ (writer.inner ++ (hdr ++ payload))
    (numbered_step writer writer.inner numbered)
  simpa using twice

/-- Writing pieces of bounded size succeeds with two seals for each of them. -/
theorem write_pieces_seals (parts : List Bytes) (writer : AeadStreamWriter)
    (each : ∀ piece ∈ parts, piece.length ≤ maxPayload) :
    ∃ after, emitAll (AeadStreamWriter.writePiece crypto) parts writer = .ok () after ∧
      SealedMore writer after (2 * parts.length) := by
  induction parts generalizing writer with
  | nil => exact ⟨writer, rfl, rfl, rfl, id⟩
  | cons piece parts inductionHypothesis =>
    obtain ⟨middle, written, two⟩ := write_piece_seals crypto piece writer
      (each piece List.mem_cons_self)
    obtain ⟨after, writtenRest, more⟩ := inductionHypothesis middle
      fun other member => each other (List.mem_cons_of_mem _ member)
    refine ⟨after, by simp only [emitAll, written, writtenRest], ?_⟩
    have counted : 2 * (piece :: parts).length = 2 + 2 * parts.length := by
      simp only [List.length_cons]
      omega
    rw [counted]
    exact two.trans more

/-- Writing a slice succeeds with two seals for each of its pieces. -/
theorem write_chunk_seals (data : Bytes) (writer : AeadStreamWriter) :
    ∃ after, writer.writeChunk crypto data = .ok () after ∧
      SealedMore writer after (2 * (pieces maxPayload data).length) :=
  write_pieces_seals crypto _ writer fun piece member =>
    (pieces_bounded maxPayload data (by decide) piece member).2

/-- Only an empty slice has no pieces. -/
theorem pieces_length_zero_iff (data : Bytes) :
    (pieces maxPayload data).length = 0 ↔ data = [] := by
  constructor
  · intro nothing
    rw [← pieces_flatten maxPayload data (by decide), List.length_eq_zero_iff.mp nothing,
      List.flatten_nil]
  · rintro rfl
    simp

/-- The two sides of a connection. -/
inductive Side where
  | client
  | server
deriving DecidableEq, Repr

/-- The writers of the two sides. -/
structure Endpoints where
  client : AeadStreamWriter
  server : AeadStreamWriter

/-- One write call on one side. -/
def Endpoints.write (ends : Endpoints) (call : Side × Bytes) : Result IoError Endpoints Unit :=
  match call.1 with
  | .client =>
      match ends.client.writeChunk crypto call.2 with
      | .ok _ after => .ok () { ends with client := after }
      | .error error after => .error error { ends with client := after }
  | .server =>
      match ends.server.writeChunk crypto call.2 with
      | .ok _ after => .ok () { ends with server := after }
      | .error error after => .error error { ends with server := after }

/-- Every seal of the connection, in both directions. -/
def Endpoints.seals (ends : Endpoints) : List (Bytes × Octets 12) :=
  ends.client.seals ++ ends.server.seals

/-- Any interleaving of write calls succeeds and adds to both histories, nothing
to the server's exactly when all of the server's slices are empty. -/
theorem writes_seals (calls : List (Side × Bytes)) (start : Endpoints) :
    ∃ ends, emitAll (Endpoints.write crypto) calls start = .ok () ends ∧
      (∃ count, SealedMore start.client ends.client count) ∧
      (∃ count, SealedMore start.server ends.server count ∧
        (count = 0 ↔ ∀ call ∈ calls, call.1 = .server → call.2 = [])) := by
  induction calls generalizing start with
  | nil => exact ⟨start, rfl, ⟨0, rfl, rfl, id⟩, 0, ⟨rfl, rfl, id⟩, by simp⟩
  | cons call calls inductionHypothesis =>
    obtain ⟨side, data⟩ := call
    cases side with
    | client =>
      obtain ⟨after, written, more⟩ := write_chunk_seals crypto data start.client
      obtain ⟨ends, ran, ⟨clientCount, client⟩, serverCount, server, silent⟩ :=
        inductionHypothesis { start with client := after }
      exact ⟨ends, by simp only [emitAll, Endpoints.write, written, ran], ⟨_, more.trans client⟩,
        serverCount, server, by simpa using silent⟩
    | server =>
      obtain ⟨after, written, more⟩ := write_chunk_seals crypto data start.server
      obtain ⟨ends, ran, client, serverCount, server, silent⟩ :=
        inductionHypothesis { start with server := after }
      refine ⟨ends, by simp only [emitAll, Endpoints.write, written, ran], client, _,
        more.trans server, ?_⟩
      have empty := pieces_length_zero_iff data
      simp only [List.mem_cons, forall_eq_or_imp, true_implies, ← silent, ← empty]
      omega

/-- A numbered history of fewer than 2^96 seals has no repeated nonce. -/
theorem numbered_nodup (writer : AeadStreamWriter) (numbered : Numbered writer)
    (bounded : writer.seals.length < 2 ^ 96) : writer.seals.Nodup := by
  rw [numbered.history]
  refine List.Nodup.map_on ?_ List.nodup_range
  intro first firstMember second secondMember same
  rw [List.mem_range] at firstMember secondMember
  have width : (2 : Nat) ^ 96 = 256 ^ 12 := by decide
  exact increment_octets_distinct first second (zeroOctets 12) (by omega) (by omega)
    (Prod.mk.inj same).2

/-- A numbered history that is not empty starts with nonce zero. -/
theorem numbered_first (writer : AeadStreamWriter) (numbered : Numbered writer)
    (started : writer.seals ≠ []) :
    (writer.cipher.subkey, zeroOctets 12) ∈ writer.seals := by
  have positive : 0 < writer.seals.length := List.length_pos_iff.mpr started
  rw [numbered.history]
  exact List.mem_map.mpr ⟨0, List.mem_range.mpr positive, rfl⟩

/-- Seals of a numbered history are under the writer's subkey. -/
theorem numbered_subkey (writer : AeadStreamWriter) (numbered : Numbered writer)
    (pair : Bytes × Octets 12) (member : pair ∈ writer.seals) : pair.1 = writer.cipher.subkey := by
  rw [numbered.history] at member
  obtain ⟨index, -, rfl⟩ := List.mem_map.mp member
  rfl

/-- Two numbered histories share no pair exactly when one of them is empty or
their subkeys differ; the client's is not empty. -/
theorem endpoints_nodup_iff (ends : Endpoints) (client : Numbered ends.client)
    (server : Numbered ends.server) (started : ends.client.seals ≠ [])
    (bounded : ends.seals.length < 2 ^ 96) :
    ends.seals.Nodup ↔
      ends.server.seals = [] ∨ ends.client.cipher.subkey ≠ ends.server.cipher.subkey := by
  rw [Endpoints.seals, List.length_append] at bounded
  rw [Endpoints.seals, List.nodup_append]
  constructor
  · rintro ⟨-, -, disjoint⟩
    by_contra both
    push Not at both
    have shared := numbered_first ends.server server both.1
    rw [← both.2] at shared
    exact disjoint _ (numbered_first ends.client client started) _ shared rfl
  · intro apart
    refine ⟨numbered_nodup ends.client client (by omega),
      numbered_nodup ends.server server (by omega), ?_⟩
    rintro pair clientMember other serverMember rfl
    rcases apart with nothing | differ
    · simp [nothing] at serverMember
    · exact differ ((numbered_subkey ends.client client _ clientMember).symm.trans
        (numbered_subkey ends.server server _ serverMember))

/-- The writer of a connected client has a numbered history that is not empty:
the address was sealed. -/
theorem connect_numbered (random : (count : Nat) → Octets count) (incoming : Bytes)
    (cfg : SsOutboundConfig) (target : ProxyTarget) (reader : AeadStreamReader)
    (writer : AeadStreamWriter)
    (connects : connectTcp crypto random incoming cfg target = .ok (reader, writer)) :
    Numbered writer ∧ writer.seals ≠ [] := by
  unfold connectTcp at connects
  split at connects
  · simp at connects
  · rename_i method known
    dsimp only at connects
    obtain ⟨after, written, more⟩ := write_chunk_seals crypto
      ((Socks5Addr.fromProxyTarget target).encodeInto [])
      (AeadStreamWriter.new (random method.saltLen).toList (connectionCipher method cfg.password
        (random method.saltLen).toList) (zeroOctets 12))
    rw [written] at connects
    obtain ⟨-, rfl⟩ := Prod.mk.inj (Except.ok.inj connects)
    refine ⟨more.numbered (new_numbered _ _), ?_⟩
    have something := mt (pieces_length_zero_iff _).mp
      (encode_into_nonempty (Socks5Addr.fromProxyTarget target))
    have length := more.length
    intro nothing
    rw [nothing] at length
    simp only [List.length_nil] at length
    omega

/-- The writer of an accepted connection has sealed nothing. -/
theorem accept_numbered (incoming : Bytes) (cfg : SsInboundConfig) (reader : AeadStreamReader)
    (writer : AeadStreamWriter) (accepts : acceptTcp incoming cfg = .ok (reader, writer)) :
    Numbered writer ∧ writer.seals = [] := by
  unfold acceptTcp at accepts
  split at accepts
  · simp at accepts
  · split at accepts
    · simp at accepts
    · obtain ⟨-, rfl⟩ := Prod.mk.inj (Except.ok.inj accepts)
      exact ⟨new_numbered _ _, rfl⟩

/-- Exactly when no pair of subkey and nonce is sealed twice in a connection: the
server writes no nonempty slice, or the two sides hold different subkeys. The
client has always sealed its target, and both directions start at nonce zero. -/
theorem seals_distinct_iff (random : (count : Nat) → Octets count) (incoming : Bytes)
    (out : SsOutboundConfig) (inbound : SsInboundConfig) (target : ProxyTarget)
    (clientReader serverReader : AeadStreamReader) (client server : AeadStreamWriter)
    (calls : List (Side × Bytes)) (ends : Endpoints)
    (connects : connectTcp crypto random incoming out target = .ok (clientReader, client))
    (accepts : acceptTcp client.inner inbound = .ok (serverReader, server))
    (ran : emitAll (Endpoints.write crypto) calls ⟨client, server⟩ = .ok () ends)
    (bounded : ends.seals.length < 2 ^ 96) :
    ends.seals.Nodup ↔ (∀ call ∈ calls, call.1 = .server → call.2 = []) ∨
      client.cipher.subkey ≠ server.cipher.subkey := by
  obtain ⟨clientNumbered, started⟩ := connect_numbered crypto random incoming out target
    clientReader client connects
  obtain ⟨serverNumbered, fresh⟩ := accept_numbered client.inner inbound serverReader server accepts
  obtain ⟨last, again, ⟨clientCount, clientMore⟩, serverCount, serverMore, silent⟩ :=
    writes_seals crypto calls ⟨client, server⟩
  obtain ⟨-, rfl⟩ := Result.ok.inj (ran.symm.trans again)
  have clientLength : ends.client.seals.length = client.seals.length + clientCount :=
    clientMore.length
  have serverLength : ends.server.seals.length = server.seals.length + serverCount :=
    serverMore.length
  have positive : 0 < client.seals.length := List.length_pos_iff.mpr started
  have stillStarted : ends.client.seals ≠ [] := by
    intro nothing
    rw [nothing, List.length_nil] at clientLength
    omega
  have serverSilent : ends.server.seals = [] ↔ serverCount = 0 := by
    rw [← List.length_eq_zero_iff, serverLength, fresh, List.length_nil, Nat.zero_add]
  rw [endpoints_nodup_iff ends (clientMore.numbered clientNumbered)
    (serverMore.numbered serverNumbered) stillStarted bounded, serverSilent, silent,
    clientMore.cipher, serverMore.cipher]

/-- A client and a server with the same method and password, connected for a
target with a usable name: the connection is set up, the client has sealed
twice, and both sides hold the same subkey. -/
theorem matched_connection (random : (count : Nat) → Octets count) (incoming : Bytes)
    (cfg : SsOutboundConfig) (method : Method) (target : ProxyTarget)
    (known : Method.parse cfg.method = some method) (named : target.named) :
    ∃ clientReader client serverReader server,
      connectTcp crypto random incoming cfg target = .ok (clientReader, client) ∧
      acceptTcp client.inner ⟨cfg.method, cfg.password⟩ = .ok (serverReader, server) ∧
      client.seals.length = 2 ∧ client.cipher.subkey = server.cipher.subkey := by
  have short : (addressOf target).length ≤ maxPayload :=
    Nat.le_trans (encode_into_length target named) (by decide)
  generalize saltBytes : (random method.saltLen).toList = salt
  have saltWidth : salt.length = method.saltLen := by rw [← saltBytes, List.Vector.toList_length]
  let cipher := connectionCipher method cfg.password salt
  obtain ⟨hdr, payload, written, -⟩ := write_piece_exact crypto
    (AeadStreamWriter.new salt cipher (zeroOctets 12)) (addressOf target) short
  have connects := connect_exact crypto random incoming cfg method target _ known short
    (by rw [saltBytes]; exact written)
  refine ⟨_, _, AeadStreamReader.new (hdr ++ payload) cipher (zeroOctets 12),
    AeadStreamWriter.new [] cipher (zeroOctets 12), connects, ?_, rfl, rfl⟩
  simp only [acceptTcp, parsedMethod, known, AeadStreamWriter.new,
    split_exact_append method.saltLen salt (hdr ++ payload) saltWidth]
  rfl

/-- The exact condition on a connection where the client writes and the server stays silent. -/
theorem seals_distinct_silent_server :
    ∃ clientReader client serverReader server ends,
      connectTcp standard (fun count => zeroOctets count) []
        ⟨"127.0.0.1", 8388, "aes-128-gcm", "secret"⟩ (.domain "example.org" 443) =
          .ok (clientReader, client) ∧
      acceptTcp client.inner ⟨"aes-128-gcm", "secret"⟩ = .ok (serverReader, server) ∧
      emitAll (Endpoints.write standard) [(.client, [0x68, 0x69]), (.server, [])]
        ⟨client, server⟩ = .ok () ends ∧
      ends.seals.length < 2 ^ 96 ∧
      (ends.seals.Nodup ↔
        (∀ call ∈ [(Side.client, [0x68, 0x69]), (Side.server, ([] : Bytes))],
          call.1 = .server → call.2 = []) ∨ client.cipher.subkey ≠ server.cipher.subkey) := by
  obtain ⟨clientReader, client, serverReader, server, connects, accepts, two, -⟩ :=
    matched_connection standard (fun count => zeroOctets count) []
      ⟨"127.0.0.1", 8388, "aes-128-gcm", "secret"⟩ .aes128Gcm (.domain "example.org" 443)
      (by decide) (by decide)
  have fresh := (accept_numbered _ _ _ _ accepts).2
  obtain ⟨sender, sent, more⟩ := write_chunk_seals standard [0x68, 0x69] client
  obtain ⟨silent, unsent, nothing⟩ := write_chunk_seals standard [] server
  have four : sender.seals.length = 4 := by
    rw [more.length, two, pieces_single maxPayload [0x68, 0x69] (by decide) (by decide)]
    rfl
  have zero : silent.seals.length = 0 := by
    rw [nothing.length, fresh]
    simp
  have bounded : (Endpoints.mk sender silent).seals.length < 2 ^ 96 := by
    simp [Endpoints.seals, four, zero]
  have ran : emitAll (Endpoints.write standard) [(.client, [0x68, 0x69]), (.server, [])]
      ⟨client, server⟩ = .ok () ⟨sender, silent⟩ := by
    simp only [emitAll, Endpoints.write, sent, unsent]
  exact ⟨clientReader, client, serverReader, server, ⟨sender, silent⟩, connects, accepts, ran,
    bounded, seals_distinct_iff standard _ [] _ _ _ clientReader serverReader client server _ _
      connects accepts ran bounded⟩

/-- One octet from the server repeats the pair the client sealed its target with. -/
theorem server_reply_reuses_pair :
    ∃ clientReader client serverReader server ends,
      connectTcp standard (fun count => zeroOctets count) []
        ⟨"127.0.0.1", 8388, "aes-128-gcm", "secret"⟩ (.domain "example.org" 443) =
          .ok (clientReader, client) ∧
      acceptTcp client.inner ⟨"aes-128-gcm", "secret"⟩ = .ok (serverReader, server) ∧
      emitAll (Endpoints.write standard) [(.server, [0x2a])] ⟨client, server⟩ = .ok () ends ∧
      ends.seals.length < 2 ^ 96 ∧ ¬ends.seals.Nodup := by
  obtain ⟨clientReader, client, serverReader, server, connects, accepts, two, sameSubkey⟩ :=
    matched_connection standard (fun count => zeroOctets count) []
      ⟨"127.0.0.1", 8388, "aes-128-gcm", "secret"⟩ .aes128Gcm (.domain "example.org" 443)
      (by decide) (by decide)
  obtain ⟨clientNumbered, started⟩ := connect_numbered standard _ _ _ _ _ _ connects
  obtain ⟨serverNumbered, fresh⟩ := accept_numbered _ _ _ _ accepts
  obtain ⟨after, written, more⟩ := write_chunk_seals standard [0x2a] server
  have twoSeals : after.seals.length = 2 := by
    rw [more.length, fresh, pieces_single maxPayload [0x2a] (by decide) (by decide)]
    rfl
  have bounded : (Endpoints.mk client after).seals.length < 2 ^ 96 := by
    simp [Endpoints.seals, two, twoSeals]
  refine ⟨clientReader, client, serverReader, server, ⟨client, after⟩, connects, accepts,
    by simp only [emitAll, Endpoints.write, written], bounded, ?_⟩
  rw [endpoints_nodup_iff ⟨client, after⟩ clientNumbered (more.numbered serverNumbered) started
    bounded]
  rintro (nothing | differ)
  · rw [show after.seals = [] from nothing] at twoSeals
    simp at twoSeals
  · exact differ (by rw [show (Endpoints.mk client after).server.cipher = server.cipher from
      more.cipher, ← sameSubkey])

end Nonces

end OmniProxy.ShadowsocksStream
