import OmniProxy.CarryCounters
import OmniProxy.Connections
import OmniProxy.CryptoPrimitives
import OmniProxy.ProxyTargets

/-!
# Mieru segments and the opening of a session

A segment is a length, in the first segment the nonce of the sender, the sealed
metadata and the sealed payload. The writer puts its length into eight octets, the
size of the machine's natural numbers, and counts more than it writes. The server
reads the length of the first segment from four octets, which are zero, and so
refuses every session. The response it would write has no visible nonce, and the
client refuses it as too short.

The extended ChaCha20-Poly1305 cipher is a parameter, and so are the digests. The
clock enters as the minute, and random nonces are arguments.
-/

namespace OmniProxy.MieruSegments

open ByteStrings CarryCounters Connections CryptoPrimitives ProxyTargets SealedBoxes

def metadataSize : Nat := 32
def tagSize : Nat := 16
def nonceSize : Nat := 24

/-- The octets of sealed metadata. -/
def sealedMetadataSize : Nat := metadataSize + tagSize

def protoDataC2s : UInt8 := 0
def protoDataS2c : UInt8 := 1
def protoOpenSessionReq : UInt8 := 2
def protoOpenSessionResp : UInt8 := 3

/-- The fields of a metadata block. -/
structure ParsedMetadata where
  protoType : UInt8
  epochMinute : UInt32
  sessionId : UInt32
  seq : UInt32
  status : UInt8
  payloadLen : UInt16
  suffixLen : UInt8
deriving DecidableEq

/-- The octets of a metadata block, fourteen unused ones at the end. -/
def metadataOctets (md : ParsedMetadata) : Bytes :=
  [md.protoType, 0] ++ bigEndian 4 md.epochMinute.toNat ++ bigEndian 4 md.sessionId.toNat ++
    bigEndian 4 md.seq.toNat ++ [md.status] ++ bigEndian16 md.payloadLen ++ [md.suffixLen] ++
    List.replicate 14 0

/-- The metadata of a segment takes its fixed width. -/
theorem metadata_octets_length (md : ParsedMetadata) :
    (metadataOctets md).length = metadataSize := by
  simp only [metadataOctets, List.length_append, big_endian_length, big_endian16_length,
    List.length_cons, List.length_nil, List.length_replicate]
  rfl

/-- A metadata block. -/
def buildMetadata (md : ParsedMetadata) : Octets metadataSize :=
  ⟨metadataOctets md, metadata_octets_length md⟩

/-- A 32-bit integer at an offset. -/
def word32At (bytes : Bytes) (offset : Nat) : UInt32 :=
  UInt32.ofNat (bigEndianValue ((bytes.drop offset).take 4))

/-- Read a metadata block. -/
def parseMetadata (m : Octets metadataSize) : ParsedMetadata where
  protoType := m.toList.getD 0 0
  epochMinute := word32At m.toList 2
  sessionId := word32At m.toList 6
  seq := word32At m.toList 10
  status := m.toList.getD 14 0
  payloadLen := portAt m.toList 15
  suffixLen := m.toList.getD 17 0

/-- A 32-bit integer behind a front of known length is read back. -/
theorem word32_at_append (front rest : Bytes) (word : UInt32) (offset : Nat)
    (width : front.length = offset) :
    word32At (front ++ (bigEndian 4 word.toNat ++ rest)) offset = word := by
  have octets : (bigEndian 4 word.toNat ++ rest).take 4 = bigEndian 4 word.toNat :=
    List.take_left' (big_endian_length 4 word.toNat)
  rw [word32At, List.drop_left' width, octets,
    big_endian_value_fits 4 word.toNat word.toNat_lt, UInt32.ofNat_toNat]

/-- A metadata block is read back. -/
theorem parse_build_metadata (md : ParsedMetadata) : parseMetadata (buildMetadata md) = md := by
  obtain ⟨protoType, epochMinute, sessionId, seq, status, payloadLen, suffixLen⟩ := md
  have minute := word32_at_append [protoType, 0] (bigEndian 4 sessionId.toNat ++
    (bigEndian 4 seq.toNat ++ (status :: (bigEndian16 payloadLen ++
      (suffixLen :: List.replicate 14 0))))) epochMinute 2 rfl
  have session := word32_at_append ([protoType, 0] ++ bigEndian 4 epochMinute.toNat)
    (bigEndian 4 seq.toNat ++ (status :: (bigEndian16 payloadLen ++
      (suffixLen :: List.replicate 14 0)))) sessionId 6 (by simp)
  have counted := word32_at_append ([protoType, 0] ++ bigEndian 4 epochMinute.toNat ++
    bigEndian 4 sessionId.toNat) (status :: (bigEndian16 payloadLen ++
      (suffixLen :: List.replicate 14 0))) seq 10 (by simp)
  have announced := port_at_append ([protoType, 0] ++ bigEndian 4 epochMinute.toNat ++
    bigEndian 4 sessionId.toNat ++ bigEndian 4 seq.toNat ++ [status])
      (suffixLen :: List.replicate 14 0) payloadLen 15 (by simp)
  simp only [parseMetadata, buildMetadata, metadataOctets, List.Vector.toList,
    ParsedMetadata.mk.injEq]
  simp only [List.append_assoc, List.cons_append, List.nil_append]
    at minute session counted announced ⊢
  refine ⟨rfl, minute, session, counted, ?_, announced, ?_⟩
  · simp [bigEndian]
  · simp [bigEndian, bigEndian16]
/-- A plaintext as a metadata block, if it has the size of one. -/
def asMetadata (plain : Bytes) : Option (Octets metadataSize) :=
  if size : plain.length = metadataSize then some ⟨plain, size⟩ else none

section Keys

variable (crypto : Primitives)

/-- One block of a stretched password: the digests of all rounds added up. -/
def stretchBlock (password input : Bytes) (rounds : Nat) : Octets 32 :=
  let first := crypto.hmacSha256 password input
  ((List.range (rounds - 1)).foldl (fun (u, acc) _ =>
    let u := crypto.hmacSha256 password u.toList
    (u, List.Vector.map₂ (· ^^^ ·) acc u)) (first, first)).2

/-- Blocks until there are enough octets; `fuel` bounds their number. -/
def stretchLoop (password salt : Bytes) (rounds dkLen : Nat) : Nat → Bytes → UInt32 → Bytes
  | 0, out, _ => out
  | fuel + 1, out, blockIndex =>
      if out.length < dkLen then
        let acc := stretchBlock crypto password (salt ++ bigEndian 4 blockIndex.toNat) rounds
        stretchLoop password salt rounds dkLen fuel (out ++ acc.toList) (blockIndex + 1)
      else out

/-- A password stretched to a number of octets. -/
def pbkdf2Sha256 (password salt : Bytes) (rounds dkLen : Nat) : Bytes :=
  (stretchLoop crypto password salt rounds dkLen dkLen [] 1).take dkLen

/-- The loop stops with enough octets: every block adds 32. -/
theorem stretch_loop_length (password salt : Bytes) (rounds dkLen fuel : Nat) (out : Bytes)
    (blockIndex : UInt32) (enough : dkLen ≤ out.length + fuel) :
    dkLen ≤ (stretchLoop crypto password salt rounds dkLen fuel out blockIndex).length := by
  induction fuel generalizing out blockIndex with
  | zero => exact enough
  | succ fuel inductionHypothesis =>
    unfold stretchLoop
    split
    · apply inductionHypothesis
      rw [List.length_append, List.Vector.toList_length]
      omega
    · omega

/-- The derived key has the length that was asked for. -/
theorem pbkdf2_length (password salt : Bytes) (rounds dkLen : Nat) :
    (pbkdf2Sha256 crypto password salt rounds dkLen).length = dkLen := by
  have enough := stretch_loop_length crypto password salt rounds dkLen dkLen [] 1 (by simp)
  rw [pbkdf2Sha256, List.length_take, Nat.min_eq_left enough]

/-- The key of a user in a minute. -/
def deriveKey (username password : Bytes) (epochMinute : UInt64) : Octets 32 :=
  let passwordHash := crypto.sha256 (password ++ [0x00] ++ username)
  ⟨pbkdf2Sha256 crypto passwordHash.toList (bigEndian 8 epochMinute.toNat) 64 32,
    pbkdf2_length crypto _ _ 64 32⟩

end Keys

section Segments

variable (aead : Aead 32 24)

/-- Seal without associated data. A plaintext beyond the limit of the cipher is a
panic. -/
def cryptoSeal (key : Octets 32) (nonce : Octets 24) (plaintext : Bytes) : Option Bytes :=
  aead.combine key nonce [] plaintext

/-- Open without associated data. -/
def cryptoOpen (key : Octets 32) (nonce : Octets 24) (ciphertextWithTag : Bytes) : Option Bytes :=
  aead.split key nonce [] ciphertextWithTag

/-- One direction of a session. -/
structure SegmentState where
  key : Octets 32
  nonce : Octets 24
  seq : UInt32
deriving DecidableEq

/-- The octets of a natural number of the machine. -/
def usizeToBeBytes (value : Nat) : Bytes := bigEndian 8 value

/-- The length that the writer announces: that of its buffer's capacity. -/
def announcedLength (payload : Bytes) (first : Bool) : Nat :=
  4 + (if first then nonceSize else 0) + metadataSize + tagSize + payload.length + tagSize

/-- Write a segment. The payload is sealed under the nonce after that of the
metadata, and the state moves on by as many nonces as were used. -/
def SegmentState.encryptSegment (state : SegmentState) (epochMinute : UInt64) (protoType : UInt8)
    (payload : Bytes) (first : Bool) : Option (Bytes × SegmentState) := do
  let em := epochMinute.toUInt32
  let metadata := buildMetadata
    ⟨protoType, em, 0, state.seq, 0, UInt16.ofNat payload.length, 0⟩
  let encMeta ← cryptoSeal aead state.key state.nonce metadata.toList
  let out := usizeToBeBytes (announcedLength payload first)
  let out := if first then out ++ state.nonce.toList else out
  let out := out ++ encMeta
  if payload.isEmpty then
    some (out, { state with nonce := incrementOctets state.nonce, seq := state.seq + 1 })
  else do
    let n := incrementOctets state.nonce
    let encPayload ← cryptoSeal aead state.key n payload
    some (out ++ encPayload, { state with nonce := incrementOctets n, seq := state.seq + 1 })

/-- The nonce at the front of a first segment. -/
def visibleNonce (data : Bytes) : Octets 24 :=
  ⟨List.ofFn fun index : Fin 24 => data.getD index 0, List.length_ofFn⟩

/-- The metadata at the front of some octets. What opens there has the size of a
metadata block. -/
def metadataAt (key : Octets 32) (nonce : Octets 24) (data : Bytes) : Option ParsedMetadata :=
  ((cryptoOpen aead key nonce (data.take sealedMetadataSize)).bind asMetadata).map parseMetadata

/-- A sealed metadata block is read, whatever follows it. -/
theorem sealed_block_opens (key : Octets 32) (nonce : Octets 24) (block : Octets metadataSize) :
    ∃ encMeta, cryptoSeal aead key nonce block.toList = some encMeta ∧
      encMeta.length = sealedMetadataSize ∧
      ∀ more, metadataAt aead key nonce (encMeta ++ more) = some (parseMetadata block) := by
  have size : block.toList.length = metadataSize := List.Vector.toList_length block
  obtain ⟨encMeta, sealedMeta, width, opened⟩ := aead.combine_exact key nonce [] block.toList
    (by simp) (by rw [size]; decide)
  have metaWidth : encMeta.length = sealedMetadataSize := by
    rw [width, size]
    rfl
  refine ⟨encMeta, sealedMeta, metaWidth, fun more => ?_⟩
  have again : asMetadata block.toList = some block := by
    rw [asMetadata, dif_pos size]
    rfl
  rw [metadataAt, List.take_left' metaWidth, cryptoOpen, opened, Option.bind_some, again,
    Option.map_some]

/-- Sealed metadata are read back, whatever follows them. -/
theorem sealed_metadata_opens (key : Octets 32) (nonce : Octets 24) (md : ParsedMetadata) :
    ∃ encMeta, cryptoSeal aead key nonce (buildMetadata md).toList = some encMeta ∧
      encMeta.length = sealedMetadataSize ∧
      ∀ more, metadataAt aead key nonce (encMeta ++ more) = some md := by
  simpa only [parse_build_metadata] using sealed_block_opens aead key nonce (buildMetadata md)

/-- Read a segment of the client's side. The state is left alone when there is
none. -/
def SegmentState.decryptSegment (state : SegmentState) (data : Bytes) (hasNonce : Bool) :
    Option (ParsedMetadata × Bytes) × SegmentState :=
  if hasNonce && data.length < nonceSize then (none, state)
  else
    let nonce := if hasNonce then visibleNonce data else state.nonce
    let body := if hasNonce then data.drop nonceSize else data
    if body.length < sealedMetadataSize then (none, state)
    else
      match metadataAt aead state.key nonce body with
      | none => (none, state)
      | some md =>
          let payloadEnd := sealedMetadataSize + md.payloadLen.toNat + tagSize
          let n2 := incrementOctets nonce
          let payload :=
            if 0 < md.payloadLen.toNat ∧ payloadEnd ≤ body.length then
              cryptoOpen aead state.key n2
                ((body.drop sealedMetadataSize).take (md.payloadLen.toNat + tagSize))
            else some []
          match payload with
          | none => (none, state)
          | some payload =>
              let next := incrementOctets state.nonce
              (some (md, payload),
                { state with
                  nonce := if 0 < md.payloadLen.toNat then incrementOctets next else next })

end Segments

section Opening

variable (crypto : Primitives) (aead : Aead 32 24)

/-- The error texts carry the name of the protocol. -/
def ioErr (msg : String) : IoError := .ofText ("mieru: " ++ msg)

/-- The credentials of both sides. -/
structure MieruConfig where
  username : String
  password : String

/-- The payload of the first segment. -/
def encodeSocksAddr (target : ProxyTarget) : Bytes :=
  match Socks5Addr.fromProxyTarget target with
  | .v4 ip port => [1] ++ ip.toList ++ bigEndian16 port
  | .domain h port => [3, UInt8.ofNat (asBytes h).length] ++ asBytes h ++ bigEndian16 port
  | .v6 ip port => [4] ++ ip.toList ++ bigEndian16 port

/-- One read of at most `limit` octets, of which `available` have arrived. -/
def readSome (limit available : Nat) : Io Bytes := fun conn =>
  let count := min limit available
  .ok (conn.incoming.take count) { conn with incoming := conn.incoming.drop count }

/-- What the client has when its session is open. -/
structure Opened where
  clientState : SegmentState
  serverState : SegmentState

/-- Open a session for a target. -/
def connectTcp (epochMinute : UInt64) (nonce : Octets 24) (available : Nat) (cfg : MieruConfig)
    (target : ProxyTarget) : Io Opened := do
  let key := deriveKey crypto (asBytes cfg.username) (asBytes cfg.password) epochMinute
  let st : SegmentState := ⟨key, nonce, 0⟩
  let addrPayload := encodeSocksAddr target
  let (openSeg, st) ← orThrow (.ofText "seal")
    (st.encryptSegment aead epochMinute protoOpenSessionReq addrPayload true)
  writeAll openSeg
  let hdr ← readSome 512 available
  rejectIf (hdr.length = 0) (ioErr "connection closed during open")
  rejectIf (hdr.length < nonceSize + metadataSize + tagSize) (ioErr "short openSessionResponse")
  let serverNonce := visibleNonce hdr
  let md ← orThrow (ioErr "open response decrypt failed")
    (metadataAt aead key serverNonce (hdr.drop nonceSize))
  rejectIf (md.status ≠ 0) (ioErr "mieru: open rejected")
  return ⟨st, ⟨key, serverNonce, 0⟩⟩

/-- What the server has when it has accepted a session. -/
structure Accepted where
  target : ProxyTarget
  key : Octets 32
  clientNonce : Octets 24
  writeState : SegmentState

/-- Accept a session. -/
def acceptSession (epochMinute : UInt64) (respNonce : Octets 24) (cfg : MieruConfig) :
    Io Accepted := do
  let lenBuf ← readExact 4
  let segLen := bigEndianValue lenBuf
  let segBuf ← readExact segLen
  let key := deriveKey crypto (asBytes cfg.username) (asBytes cfg.password) epochMinute
  rejectIf (segBuf.length < nonceSize + metadataSize + tagSize)
    (ioErr "mieru: short open session segment")
  let clientNonce := visibleNonce segBuf
  let md ← orThrow (ioErr "mieru: authentication failed")
    (metadataAt aead key clientNonce (segBuf.drop nonceSize))
  let payloadStart := nonceSize + metadataSize + tagSize
  let payloadEnd := min (payloadStart + md.payloadLen.toNat) segBuf.length
  let addrBytes := (segBuf.take payloadEnd).drop payloadStart
  let (addr, _) ← fromExcept ((Socks5Addr.decode addrBytes).mapError fun e =>
    ⟨.invalidData, "mieru: socks addr: " ++ e⟩)
  let stResp : SegmentState := ⟨key, respNonce, 0⟩
  let (respSeg, stResp) ← orThrow (.ofText "seal")
    (stResp.encryptSegment aead epochMinute protoOpenSessionResp [] false)
  writeAll respSeg
  return ⟨addr.toProxyTarget, key, clientNonce, stResp⟩

end Opening

section Disagreement

variable (crypto : Primitives) (aead : Aead 32 24)

/-- A payload within the limit is written: the length in eight octets, the nonce if it
is the first segment, the sealed metadata and the sealed payload. -/
theorem encrypt_segment_exact (state : SegmentState) (epochMinute : UInt64) (protoType : UInt8)
    (payload : Bytes) (first : Bool) (fits : payload.length ≤ sealLimit) :
    ∃ encMeta encPayload after, encMeta.length = sealedMetadataSize ∧
      (payload = [] → encPayload = []) ∧
      state.encryptSegment aead epochMinute protoType payload first =
        some (usizeToBeBytes (announcedLength payload first) ++
          ((if first then state.nonce.toList else []) ++ (encMeta ++ encPayload)), after) := by
  obtain ⟨encMeta, sealedMeta, metaWidth, -⟩ := sealed_metadata_opens aead state.key state.nonce
    ⟨protoType, epochMinute.toUInt32, 0, state.seq, 0, UInt16.ofNat payload.length, 0⟩
  obtain ⟨encPayload, sealedPayload, -, -⟩ := aead.combine_exact state.key
    (incrementOctets state.nonce) [] payload (by simp) fits
  rw [cryptoSeal] at sealedMeta
  simp only [SegmentState.encryptSegment, cryptoSeal, sealedMeta, sealedPayload,
    Option.bind_eq_bind, Option.bind_some]
  cases payload with
  | nil =>
    refine ⟨encMeta, [], ⟨state.key, incrementOctets state.nonce, state.seq + 1⟩, metaWidth,
      fun _ => rfl, ?_⟩
    cases first <;> simp
  | cons octet payload =>
    refine ⟨encMeta, encPayload,
      ⟨state.key, incrementOctets (incrementOctets state.nonce), state.seq + 1⟩, metaWidth,
      by simp, ?_⟩
    cases first <;> simp

/-- A length below 2^32 starts with four zeros. -/
theorem usize_leading_zeros (value : Nat) (small : value < 2 ^ 32) :
    usizeToBeBytes value = [0, 0, 0, 0] ++ bigEndian 4 value := by
  have high (place : Nat) (above : 4 ≤ place) : UInt8.ofNat (value / 256 ^ place) = 0 := by
    have power : 256 ^ 4 ≤ 256 ^ place := Nat.pow_le_pow_right (by decide) above
    rw [Nat.div_eq_of_lt (by omega)]
    rfl
  rw [usizeToBeBytes, bigEndian, bigEndian, bigEndian, bigEndian, high 7 (by decide),
    high 6 (by decide), high 5 (by decide), high 4 (by decide)]
  rfl

/-- An encoded address with a usable name fits a few hundred octets. -/
theorem encode_socks_addr_length (target : ProxyTarget) (named : target.named) :
    (encodeSocksAddr target).length ≤ 259 := by
  have same : encodeSocksAddr target = (Socks5Addr.fromProxyTarget target).encodeInto [] := by
    rcases target with ⟨ip | ip, port⟩ | ⟨host, port⟩ <;>
      simp [encodeSocksAddr, Socks5Addr.fromProxyTarget, Socks5Addr.encodeInto]
  rw [same]
  exact encode_into_length target named

/-- The refusal of a first segment whose length reads as zero. -/
def shortOpenSession : IoError := ioErr "mieru: short open session segment"

/-- The server refuses whatever starts with four zeros. -/
theorem accept_refuses_zeros (epochMinute : UInt64) (respNonce : Octets 24) (cfg : MieruConfig)
    (rest written : Bytes) :
    (acceptSession crypto aead epochMinute respNonce cfg).run ⟨[0, 0, 0, 0] ++ rest, written⟩ =
      .error shortOpenSession ⟨rest, written⟩ := by
  have nothing : (readExact 0).run ⟨rest, written⟩ = .ok [] ⟨rest, written⟩ :=
    read_exact_append 0 [] rest written rfl
  have none_announced : bigEndianValue [0, 0, 0, 0] = 0 := by decide
  rw [acceptSession, EStateM.run_bind, read_exact_append 4 _ rest written rfl]
  simp only [none_announced]
  rw [EStateM.run_bind, nothing]
  simp only [List.length_nil]
  rw [EStateM.run_bind, rejectIf, if_pos (by decide)]
  rfl

/-- What the client has written when it waits for the response. -/
def openSegment (epochMinute : UInt64) (nonce : Octets 24) (cfg : MieruConfig)
    (target : ProxyTarget) : Bytes :=
  (finalConn ((connectTcp crypto aead epochMinute nonce 0 cfg target).run ⟨[], []⟩)).written

/-- The client writes its segment and goes on with the first octets it receives. Too
few of them are refused. -/
theorem connect_refuses_short (epochMinute : UInt64) (nonce : Octets 24) (available : Nat)
    (cfg : MieruConfig) (target : ProxyTarget) (named : target.named) (incoming : Bytes)
    (short : incoming.length < nonceSize + metadataSize + tagSize) :
    ∃ error rest segment, (connectTcp crypto aead epochMinute nonce available cfg target).run
        ⟨incoming, []⟩ = .error error ⟨rest, [0, 0, 0, 0] ++ segment⟩ := by
  have payloadLength := encode_socks_addr_length target named
  obtain ⟨encMeta, encPayload, after, -, -, written⟩ := encrypt_segment_exact aead
    ⟨deriveKey crypto (asBytes cfg.username) (asBytes cfg.password) epochMinute, nonce, 0⟩
    epochMinute protoOpenSessionReq (encodeSocksAddr target) true
    (Nat.le_trans payloadLength (by decide))
  rw [usize_leading_zeros _ (by
    simp only [announcedLength, nonceSize, metadataSize, tagSize, if_true]
    omega), List.append_assoc] at written
  have received : (readSome 512 available).run
      ⟨incoming, [0, 0, 0, 0] ++ (bigEndian 4 (announcedLength (encodeSocksAddr target) true) ++
        (nonce.toList ++ (encMeta ++ encPayload)))⟩ =
      .ok (incoming.take (min 512 available)) ⟨incoming.drop (min 512 available), _⟩ := rfl
  have few : (incoming.take (min 512 available)).length < nonceSize + metadataSize + tagSize := by
    rw [List.length_take]
    omega
  simp only [connectTcp, written, or_throw_some, pure_bind, EStateM.run_bind, write_all_run,
    List.nil_append, if_true, received]
  by_cases closed : (incoming.take (min 512 available)).length = 0
  · rw [rejectIf, if_pos closed]
    exact ⟨_, _, _, rfl⟩
  · rw [rejectIf, if_neg closed, rejectIf, if_pos few]
    exact ⟨_, _, _, rfl⟩

/-- The two sides agree: the server accepts the client's first segment with its
target, and the client accepts the response when all of it has arrived. -/
def SessionOpens (epochMinute : UInt64) (nonce respNonce : Octets 24) (cfg : MieruConfig)
    (target : ProxyTarget) : Prop :=
  ∃ accepted conn, (acceptSession crypto aead epochMinute respNonce cfg).run
      ⟨openSegment crypto aead epochMinute nonce cfg target, []⟩ = .ok accepted conn ∧
    accepted.target = target ∧
    ∃ opened final, (connectTcp crypto aead epochMinute nonce conn.written.length cfg target).run
      ⟨conn.written, []⟩ = .ok opened final

/-- No session opens. The server refuses the client's first segment, whose length it
reads as zero; and the client refuses the response that the server has for accepted
sessions, in which it looks for a nonce that is not there. -/
theorem session_never_opens (epochMinute : UInt64) (nonce respNonce : Octets 24)
    (cfg : MieruConfig) (target : ProxyTarget) (named : target.named) :
    ¬SessionOpens crypto aead epochMinute nonce respNonce cfg target ∧
      (∃ rest, (acceptSession crypto aead epochMinute respNonce cfg).run
        ⟨openSegment crypto aead epochMinute nonce cfg target, []⟩ =
          .error shortOpenSession ⟨rest, []⟩) ∧
      ∀ (serverKey : Octets 32) (available : Nat), ∃ response state error conn,
        SegmentState.encryptSegment aead ⟨serverKey, respNonce, 0⟩ epochMinute
          protoOpenSessionResp [] false = some (response, state) ∧
        (connectTcp crypto aead epochMinute nonce available cfg target).run ⟨response, []⟩ =
          .error error conn := by
  have refused : ∃ rest, (acceptSession crypto aead epochMinute respNonce cfg).run
      ⟨openSegment crypto aead epochMinute nonce cfg target, []⟩ =
        .error shortOpenSession ⟨rest, []⟩ := by
    obtain ⟨error, rest, segment, ran⟩ :=
      connect_refuses_short crypto aead epochMinute nonce 0 cfg target named [] (by decide)
    have sent : openSegment crypto aead epochMinute nonce cfg target =
        [0, 0, 0, 0] ++ segment := by
      rw [openSegment, ran]
      rfl
    rw [sent]
    exact ⟨segment, accept_refuses_zeros crypto aead epochMinute respNonce cfg segment []⟩
  refine ⟨?_, refused, ?_⟩
  · rintro ⟨accepted, conn, ran, -⟩
    obtain ⟨rest, failed⟩ := refused
    rw [failed] at ran
    simp at ran
  · intro serverKey available
    obtain ⟨encMeta, encPayload, after, width, empty, written⟩ := encrypt_segment_exact aead
      ⟨serverKey, respNonce, 0⟩ epochMinute protoOpenSessionResp [] false (by simp)
    rw [empty rfl, if_neg (by decide), List.nil_append, List.append_nil] at written
    have short : (usizeToBeBytes (announcedLength [] false) ++ encMeta).length <
        nonceSize + metadataSize + tagSize := by
      rw [List.length_append, usizeToBeBytes, big_endian_length, width]
      decide
    obtain ⟨error, rest, segment, ran⟩ :=
      connect_refuses_short crypto aead epochMinute nonce available cfg target named _ short
    exact ⟨_, _, error, _, written, ran⟩

/-- A session to the domain "a" with the published primitives. -/
theorem session_to_domain_never_opens :
    (ProxyTarget.domain "a" 443).named ∧
      ¬SessionOpens standard AuthenticatedCiphers.xchacha20Poly1305 1000 (zeroOctets 24)
        (zeroOctets 24) ⟨"user", "pass"⟩ (.domain "a" 443) :=
  ⟨by decide, (session_never_opens standard AuthenticatedCiphers.xchacha20Poly1305 1000
    (zeroOctets 24) (zeroOctets 24) ⟨"user", "pass"⟩ (.domain "a" 443) (by decide)).1⟩

/-- The server refuses the first segment of that session, so it does not open. -/
theorem open_segment_refused :
    (∃ rest, (acceptSession standard AuthenticatedCiphers.xchacha20Poly1305 1000 (zeroOctets 24)
      ⟨"user", "pass"⟩).run ⟨openSegment standard AuthenticatedCiphers.xchacha20Poly1305 1000
        (zeroOctets 24) ⟨"user", "pass"⟩ (.domain "a" 443), []⟩ =
      .error ⟨.other, "mieru: mieru: short open session segment"⟩ ⟨rest, []⟩) ∧
      ¬SessionOpens standard AuthenticatedCiphers.xchacha20Poly1305 1000 (zeroOctets 24)
        (zeroOctets 24) ⟨"user", "pass"⟩ (.domain "a" 443) := by
  obtain ⟨error, rest, segment, ran⟩ := connect_refuses_short standard
    AuthenticatedCiphers.xchacha20Poly1305 1000 (zeroOctets 24) 0 ⟨"user", "pass"⟩
    (.domain "a" 443) (by decide) [] (by decide)
  have refused := accept_refuses_zeros standard AuthenticatedCiphers.xchacha20Poly1305 1000
    (zeroOctets 24) ⟨"user", "pass"⟩ segment []
  constructor
  · rw [openSegment, ran]
    exact ⟨segment, refused⟩
  · rintro ⟨accepted, conn, accepts, -⟩
    rw [openSegment, ran] at accepts
    have both := refused.symm.trans accepts
    simp at both

end Disagreement

end OmniProxy.MieruSegments
