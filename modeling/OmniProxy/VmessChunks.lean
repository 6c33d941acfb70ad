import OmniProxy.CryptoPrimitives
import OmniProxy.FramedStreams
import OmniProxy.Shake

/-!
# The VMess chunk stream

A chunk is a two-octet size, a protected payload and some padding. The size
counts all of it and may be masked; the padding length is drawn before the mask,
from one SHAKE stream seeded by the IV. Payloads are sealed under a nonce whose
first two octets count the chunks modulo 2^16. A chunk whose size leaves no room
for a payload ends the stream.

Writer and reader hold the same parameters and draw in the same order, so each
chunk moves both to the same next state. Slices of any length are cut into
pieces of at most 0x3FFF octets. The random padding is an arbitrary sequence of
blocks of sixty-four octets.
-/

namespace OmniProxy.VmessChunks

open ByteStrings BufferedReads Connections CryptoPrimitives EStateM FramedStreams Shake

/-- The longest piece of one chunk. -/
def maxChunk : Nat := 0x3FFF

/-- Key and IV of one direction. -/
structure ChunkKeys where
  key : Octets 16
  iv : Octets 16
deriving DecidableEq

/-- How payloads are protected. -/
inductive ChunkSecurity where
  | none
  | gcm
  | chaCha
deriving DecidableEq, Repr

/-- The nonce of a chunk: the counter, then ten octets of the IV. -/
def ChunkKeys.nonceFor (keys : ChunkKeys) (counter : UInt16) : Octets 12 :=
  ⟨bigEndian16 counter ++ (keys.iv.toList.drop 2).take 10, by simp⟩

/-- Octets a payload grows by when it is protected. -/
def ChunkSecurity.overhead : ChunkSecurity → Nat
  | none => 0
  | gcm => 16
  | chaCha => 16

/-- The counter after a chunk; unprotected chunks are not counted. -/
def ChunkSecurity.nextCounter (security : ChunkSecurity) (counter : UInt16) : UInt16 :=
  match security with
  | none => counter
  | gcm => counter + 1
  | chaCha => counter + 1

section Frames

variable (crypto : Primitives)

/-- The 32-octet key of the ChaCha cipher. -/
def chachaKey (key : Octets 16) : Octets 32 := crypto.sha256 key.toList

/-- Protect a payload under the nonce of a counter. -/
def protect (security : ChunkSecurity) (keys : ChunkKeys) (counter : UInt16) (plain : Bytes) :
    Option Bytes :=
  match security with
  | .none => some plain
  | .gcm => crypto.aes128Gcm.combine keys.key (keys.nonceFor counter) [] plain
  | .chaCha =>
      crypto.chacha20Poly1305.combine (chachaKey crypto keys.key) (keys.nonceFor counter) [] plain

/-- Recover a protected payload. -/
def unprotect (security : ChunkSecurity) (keys : ChunkKeys) (counter : UInt16) (box : Bytes) :
    Option Bytes :=
  match security with
  | .none => some box
  | .gcm => crypto.aes128Gcm.split keys.key (keys.nonceFor counter) [] box
  | .chaCha =>
      crypto.chacha20Poly1305.split (chachaKey crypto keys.key) (keys.nonceFor counter) [] box

/-- A payload within the cipher's limit is protected into a known length and
recovered under the same parameters. -/
theorem protect_exact (security : ChunkSecurity) (keys : ChunkKeys) (counter : UInt16)
    (plain : Bytes) (fits : plain.length ≤ SealedBoxes.sealLimit) :
    ∃ box, protect crypto security keys counter plain = some box ∧
      box.length = plain.length + security.overhead ∧
      unprotect crypto security keys counter box = some plain := by
  have nothing : ([] : Bytes).length ≤ SealedBoxes.sealLimit := Nat.zero_le _
  cases security with
  | none => exact ⟨plain, rfl, rfl, rfl⟩
  | gcm => exact crypto.aes128Gcm.combine_exact _ _ [] plain nothing fits
  | chaCha => exact crypto.chacha20Poly1305.combine_exact _ _ [] plain nothing fits

/-- The padding length of the next chunk. -/
def drawPadding (padding : Bool) (parser : ShakeSizeParser) : Nat × ShakeSizeParser :=
  if padding then (parser.nextPaddingLen.1.toNat, parser.nextPaddingLen.2) else (0, parser)

/-- The octets of a size field. -/
def maskSize (masking : Bool) (parser : ShakeSizeParser) (size : UInt16) :
    Bytes × ShakeSizeParser :=
  if masking then parser.encode size else (bigEndian16 size, parser)

/-- The size a field stands for. -/
def unmaskSize (masking : Bool) (parser : ShakeSizeParser) (high low : UInt8) :
    UInt16 × ShakeSizeParser :=
  if masking then parser.decode high low else (ofBigEndian16 high low, parser)

/-- A padding length is below sixty-four. -/
theorem draw_padding_bound (padding : Bool) (parser : ShakeSizeParser) :
    (drawPadding padding parser).1 < 64 := by
  unfold drawPadding
  split
  · exact next_padding_len_bound parser
  · simp

/-- A size field is two octets from which the same parser recovers the size. -/
theorem unmask_mask (masking : Bool) (parser : ShakeSizeParser) (size : UInt16) :
    ∃ high low, (maskSize masking parser size).1 = [high, low] ∧
      unmaskSize masking parser high low = (size, (maskSize masking parser size).2) := by
  cases masking with
  | true => exact decode_encode parser size
  | false =>
    obtain ⟨high, low, octets, value⟩ := of_big_endian16_exact size
    exact ⟨high, low, octets, by simp [unmaskSize, maskSize, value]⟩

end Frames

section Writer

/-- A writer: its parameters, its SHAKE stream and chunk counter, the octets
written and the number of random blocks used. -/
structure ChunkWriter where
  inner : Bytes
  keys : ChunkKeys
  security : ChunkSecurity
  masking : Bool
  padding : Bool
  sizeParser : ShakeSizeParser
  counter : UInt16
  draws : Nat

/-- A writer that has written nothing. -/
def ChunkWriter.new (keys : ChunkKeys) (security : ChunkSecurity) (masking globalPadding : Bool) :
    ChunkWriter :=
  ⟨[], keys, security, masking, globalPadding, ShakeSizeParser.new keys.iv.toList, 0, 0⟩

variable (crypto : Primitives) (random : Nat → Octets 64)

/-- Write a size field, a protected payload and random padding, after the
padding length has been drawn. -/
def ChunkWriter.emit (writer : ChunkWriter) (size : UInt16) (plain : Bytes) (paddingLen : Nat) :
    Result IoError ChunkWriter Unit :=
  let (sizeBytes, parser) := maskSize writer.masking writer.sizeParser size
  let sized := { writer with
    inner := writer.inner ++ sizeBytes
    sizeParser := parser
    counter := writer.security.nextCounter writer.counter }
  match protect crypto writer.security writer.keys writer.counter plain with
  | none => .error (.ofText "vmess: encrypt failed") sized
  | some payload =>
      if 0 < paddingLen then
        .ok () { sized with
          inner := sized.inner ++ payload ++ (random sized.draws).toList.take paddingLen
          draws := sized.draws + 1 }
      else .ok () { sized with inner := sized.inner ++ payload }

/-- Write one piece of a slice. -/
def ChunkWriter.writePiece (writer : ChunkWriter) (piece : Bytes) :
    Result IoError ChunkWriter Unit :=
  let (paddingLen, parser) := drawPadding (writer.padding && !piece.isEmpty) writer.sizeParser
  let total := piece.length + writer.security.overhead + paddingLen
  let drawn := { writer with sizeParser := parser }
  if 65535 < total then .error ⟨.invalidData, "vmess: chunk too large"⟩ drawn
  else drawn.emit crypto random (UInt16.ofNat total) piece paddingLen

/-- Write the chunk that ends the stream. -/
def ChunkWriter.writeEnd (writer : ChunkWriter) : Result IoError ChunkWriter Unit :=
  let (paddingLen, parser) := drawPadding writer.padding writer.sizeParser
  let total := writer.security.overhead + paddingLen
  let drawn := { writer with sizeParser := parser }
  drawn.emit crypto random (UInt16.ofNat total) [] paddingLen

/-- Write a slice: its pieces, or the end of the stream when it is empty. -/
def ChunkWriter.writeChunk (writer : ChunkWriter) (data : Bytes) :
    Result IoError ChunkWriter Unit :=
  match emitAll (ChunkWriter.writePiece crypto random) (pieces maxChunk data) writer with
  | .error error after => .error error after
  | .ok _ after => if data.isEmpty then after.writeEnd crypto random else .ok () after

end Writer

section Reader

/-- A reader: its parameters, its SHAKE stream and chunk counter, the octets not
yet decoded, the decoded piece with the number of its octets handed out, and
whether the end was seen. -/
structure ChunkReader where
  inner : Bytes
  keys : ChunkKeys
  security : ChunkSecurity
  masking : Bool
  padding : Bool
  sizeParser : ShakeSizeParser
  counter : UInt16
  pending : Bytes
  ppos : Nat
  eof : Bool

/-- A reader that has read nothing. -/
def ChunkReader.new (inner : Bytes) (keys : ChunkKeys) (security : ChunkSecurity)
    (masking globalPadding : Bool) : ChunkReader :=
  ⟨inner, keys, security, masking, globalPadding, ShakeSizeParser.new keys.iv.toList, 0, [], 0,
    false⟩

variable (crypto : Primitives)

/-- Decode the payload and skip the padding of a chunk of known size. -/
def ChunkReader.fillBody (reader : ChunkReader) (payloadCt paddingLen : Nat) :
    Result IoError ChunkReader Unit :=
  match splitExact payloadCt reader.inner with
  | none => .error earlyEof { reader with inner := [] }
  | some (buf, rest) =>
      match splitExact paddingLen rest with
      | none => .error earlyEof { reader with inner := [] }
      | some (_, rest) =>
          let counted := { reader with
            inner := rest
            counter := reader.security.nextCounter reader.counter }
          match unprotect crypto reader.security reader.keys reader.counter buf with
          | none => .error ⟨.invalidData, "vmess: chunk decrypt failed"⟩ counted
          | some plain => .ok () { counted with pending := plain, ppos := 0 }

/-- Read and decode the next chunk. -/
def ChunkReader.fillChunk (reader : ChunkReader) : Result IoError ChunkReader Unit :=
  let (paddingLen, parser) := drawPadding reader.padding reader.sizeParser
  let drawn := { reader with sizeParser := parser }
  match splitExact 2 drawn.inner with
  | none => .error earlyEof { drawn with inner := [] }
  | some (maskedSize, rest) =>
      let (decodedSize, parser) :=
        unmaskSize reader.masking parser (maskedSize.getD 0 0) (maskedSize.getD 1 0)
      let sized := { drawn with inner := rest, sizeParser := parser }
      let overhead := reader.security.overhead
      if decodedSize.toNat = overhead + paddingLen then .ok () { sized with eof := true }
      else if decodedSize.toNat < overhead + paddingLen then
        .error ⟨.invalidData, "vmess: invalid chunk size"⟩ sized
      else sized.fillBody crypto (decodedSize.toNat - paddingLen) paddingLen

/-- A size field at the front of the input decides what a reader does next. -/
theorem fill_chunk_sized (reader : ChunkReader) (high low : UInt8) (rest : Bytes)
    (paddingLen : Nat) (parser after : ShakeSizeParser) (size : UInt16)
    (front : reader.inner = high :: low :: rest)
    (draw : drawPadding reader.padding reader.sizeParser = (paddingLen, parser))
    (unmasked : unmaskSize reader.masking parser high low = (size, after)) :
    reader.fillChunk crypto =
      if size.toNat = reader.security.overhead + paddingLen then
        .ok () { reader with inner := rest, sizeParser := after, eof := true }
      else if size.toNat < reader.security.overhead + paddingLen then
        .error ⟨.invalidData, "vmess: invalid chunk size"⟩
          { reader with inner := rest, sizeParser := after }
      else ChunkReader.fillBody crypto { reader with inner := rest, sizeParser := after }
        (size.toNat - paddingLen) paddingLen := by
  have sizeSplit : splitExact 2 reader.inner = some ([high, low], rest) := by
    rw [front]
    exact split_exact_append 2 [high, low] rest rfl
  simp only [ChunkReader.fillChunk, draw, sizeSplit, List.getD_cons_zero, List.getD_cons_succ,
    unmasked]

/-- A protected payload and its padding at the front of the input are taken, and
the payload is what the reader hands out next. -/
theorem fill_body_exact (reader : ChunkReader) (payload filler rest plain : Bytes)
    (front : reader.inner = payload ++ (filler ++ rest))
    (opened : unprotect crypto reader.security reader.keys reader.counter payload = some plain) :
    reader.fillBody crypto payload.length filler.length = .ok () { reader with
      inner := rest
      counter := reader.security.nextCounter reader.counter
      pending := plain
      ppos := 0 } := by
  have payloadSplit : splitExact payload.length reader.inner = some (payload, filler ++ rest) := by
    rw [front]
    exact split_exact_append _ payload _ rfl
  have paddingSplit : splitExact filler.length (filler ++ rest) = some (filler, rest) :=
    split_exact_append _ filler _ rfl
  simp only [ChunkReader.fillBody, payloadSplit, paddingSplit, opened]

/-- A decoded body consumed its payload, padding included. -/
theorem fill_body_inner (reader after : ChunkReader) (payloadCt paddingLen : Nat)
    (filled : reader.fillBody crypto payloadCt paddingLen = .ok () after) :
    after.inner.length ≤ reader.inner.length := by
  unfold ChunkReader.fillBody at filled
  split at filled
  · simp at filled
  · rename_i buf rest payload
    obtain ⟨-, joined⟩ := split_exact_some _ _ _ _ payload
    split at filled
    · simp at filled
    · rename_i skipped remainder padded
      obtain ⟨-, rejoined⟩ := split_exact_some _ _ _ _ padded
      dsimp only at filled
      split at filled
      · simp at filled
      · obtain ⟨-, rfl⟩ := Result.ok.inj filled
        simp only [← joined, ← rejoined, List.length_append]
        omega

/-- Every decoded chunk consumed at least its size field. -/
theorem fill_chunk_consumes (reader after : ChunkReader)
    (filled : reader.fillChunk crypto = .ok () after) :
    after.inner.length < reader.inner.length := by
  unfold ChunkReader.fillChunk at filled
  dsimp only at filled
  split at filled
  · simp at filled
  · rename_i maskedSize rest size
    obtain ⟨width, joined⟩ := split_exact_some _ _ _ _ size
    have shorter : rest.length + 2 = reader.inner.length := by
      rw [← joined, List.length_append, width]
      omega
    split at filled
    · obtain ⟨-, rfl⟩ := Result.ok.inj filled
      simp only
      omega
    · split at filled
      · simp at filled
      · have body := fill_body_inner crypto _ after _ _ filled
        simp only at body
        omega

/-- The reader as a buffered source of octets: `readData` at this source is the
reader's own `read_data`. -/
def chunkSource : Source ChunkReader IoError where
  unread reader := reader.pending.drop reader.ppos
  advance reader count := { reader with ppos := reader.ppos + count }
  ended reader := reader.eof
  fill reader := reader.fillChunk crypto
  inputLeft reader := reader.inner.length
  unread_advance reader count := by simp
  advance_zero reader := rfl
  advance_add reader first second := by simp [Nat.add_assoc]
  fill_consumes := fill_chunk_consumes crypto

end Reader

section RoundTrip

/-- Reader and writer have the same parameters, SHAKE stream and counter. -/
structure Aligned (reader : ChunkReader) (writer : ChunkWriter) : Prop where
  keys : reader.keys = writer.keys
  security : reader.security = writer.security
  masking : reader.masking = writer.masking
  padding : reader.padding = writer.padding
  sizeParser : reader.sizeParser = writer.sizeParser
  counter : reader.counter = writer.counter

variable (crypto : Primitives) (random : Nat → Octets 64)

/-- Emitting a frame appends a size field, the protected payload and as many
padding octets as announced, and advances the SHAKE stream and the counter. -/
theorem emit_exact (writer : ChunkWriter) (size : UInt16) (plain : Bytes) (paddingLen : Nat)
    (fits : plain.length ≤ maxChunk) (drawn : paddingLen < 64) :
    ∃ high low payload filler after,
      writer.emit crypto random size plain paddingLen = .ok () after ∧
      after.inner = writer.inner ++ (high :: low :: (payload ++ filler)) ∧
      payload.length = plain.length + writer.security.overhead ∧ filler.length = paddingLen ∧
      unprotect crypto writer.security writer.keys writer.counter payload = some plain ∧
      unmaskSize writer.masking writer.sizeParser high low = (size, after.sizeParser) ∧
      after.keys = writer.keys ∧ after.security = writer.security ∧
      after.masking = writer.masking ∧ after.padding = writer.padding ∧
      after.counter = writer.security.nextCounter writer.counter := by
  have short : plain.length ≤ SealedBoxes.sealLimit :=
    Nat.le_trans fits (by decide)
  obtain ⟨payload, sealed, length, opened⟩ :=
    protect_exact crypto writer.security writer.keys writer.counter plain short
  obtain ⟨high, low, octets, value⟩ := unmask_mask writer.masking writer.sizeParser size
  unfold ChunkWriter.emit
  simp only [sealed, octets]
  split
  · refine ⟨high, low, payload, (random writer.draws).toList.take paddingLen, _, rfl, ?_, length,
      ?_, opened, value, rfl, rfl, rfl, rfl, rfl⟩
    · simp
    · simp only [List.length_take, List.Vector.toList_length]
      omega
  · rename_i unpadded
    refine ⟨high, low, payload, [], _, rfl, ?_, length, ?_, opened, value, rfl, rfl, rfl, rfl,
      rfl⟩
    · simp
    · simp only [List.length_nil]
      omega

/-- Reader and writer as two sides of a framed stream. -/
def chunkFraming : Framing ChunkReader ChunkWriter IoError where
  source := chunkSource crypto
  input reader := reader.inner
  sent writer := writer.inner
  aligned := Aligned
  input_advance _ _ := rfl
  ended_advance _ _ := rfl
  aligned_advance _ _ _ aligned :=
    ⟨aligned.keys, aligned.security, aligned.masking, aligned.padding, aligned.sizeParser,
      aligned.counter⟩

/-- A written piece is decoded by every aligned reader that has it at the front
of its input, and reader and writer are aligned again afterwards. -/
theorem write_piece_decoded (writer : ChunkWriter) (piece : Bytes) (nonempty : piece ≠ [])
    (fits : piece.length ≤ maxChunk) :
    DecodedAs (chunkFraming crypto) (fun writer => writer.writePiece crypto random piece) piece
      writer := by
  have positive : 0 < piece.length := List.length_pos_iff.mpr nonempty
  have padded : (writer.padding && !piece.isEmpty) = writer.padding := by simp [nonempty]
  have short := draw_padding_bound writer.padding writer.sizeParser
  have overhead : writer.security.overhead ≤ 16 := by cases writer.security <;> decide
  generalize draw : drawPadding writer.padding writer.sizeParser = drawn at short
  obtain ⟨paddingLen, parser⟩ := drawn
  have total : ¬65535 < piece.length + writer.security.overhead + paddingLen := by
    simp only [maxChunk] at fits
    omega
  have sizeValue : (UInt16.ofNat (piece.length + writer.security.overhead + paddingLen)).toNat =
      piece.length + writer.security.overhead + paddingLen := by
    simp
    omega
  obtain ⟨high, low, payload, filler, after, emitted, inner, payloadLength, fillerLength, opened,
      unmasked, keys, security, masking, padding, counter⟩ :=
    emit_exact crypto random { writer with sizeParser := parser }
      (UInt16.ofNat (piece.length + writer.security.overhead + paddingLen)) piece paddingLen fits
      short
  refine ⟨high :: low :: (payload ++ filler), after, ?_, inner, ?_⟩
  · simp only [ChunkWriter.writePiece, padded, draw, total, ↓reduceIte, emitted]
  · intro reader rest aligned front running
    have sizes : reader.inner = high :: low :: (payload ++ (filler ++ rest)) := by
      rw [show reader.inner = _ from front, List.cons_append, List.cons_append,
        List.append_assoc]
    have full : ¬piece.length + writer.security.overhead + paddingLen =
        writer.security.overhead + paddingLen := by omega
    have enough : ¬piece.length + writer.security.overhead + paddingLen <
        writer.security.overhead + paddingLen := by omega
    have payloadCt : piece.length + writer.security.overhead + paddingLen - paddingLen =
        payload.length := by
      rw [Nat.add_sub_cancel]
      exact payloadLength.symm
    refine ⟨{ reader with
      inner := rest
      sizeParser := after.sizeParser
      counter := writer.security.nextCounter writer.counter
      pending := piece
      ppos := 0 }, ?_, ?_, rfl, rfl, running⟩
    · show reader.fillChunk crypto = _
      rw [fill_chunk_sized crypto reader high low _ paddingLen parser after.sizeParser _ sizes
          (by rw [aligned.padding, aligned.sizeParser, draw])
          (by rw [aligned.masking]; exact unmasked),
        sizeValue, aligned.security, if_neg full, if_neg enough, payloadCt, ← fillerLength,
        fill_body_exact crypto _ payload filler rest piece rfl
          (by simp only [aligned.keys, aligned.counter, opened])]
      simp only [aligned.counter]
    · exact ⟨aligned.keys.trans keys.symm, aligned.security.trans security.symm,
        aligned.masking.trans masking.symm, aligned.padding.trans padding.symm, rfl, counter.symm⟩

/-- The end of the stream is recognised by every aligned reader that has it at
the front of its input. -/
theorem write_end_decoded (writer : ChunkWriter) :
    ∃ frame after, writer.writeEnd crypto random = .ok () after ∧
      after.inner = writer.inner ++ frame ∧
      ∀ reader rest, Aligned reader writer → reader.inner = frame ++ rest →
        ∃ next, reader.fillChunk crypto = .ok () next ∧ next.pending = reader.pending ∧
          next.ppos = reader.ppos ∧ next.eof = true := by
  have short := draw_padding_bound writer.padding writer.sizeParser
  have overhead : writer.security.overhead ≤ 16 := by cases writer.security <;> decide
  generalize draw : drawPadding writer.padding writer.sizeParser = drawn at short
  obtain ⟨paddingLen, parser⟩ := drawn
  have sizeValue : (UInt16.ofNat (writer.security.overhead + paddingLen)).toNat =
      writer.security.overhead + paddingLen := by
    simp
    omega
  obtain ⟨high, low, payload, filler, after, emitted, inner, -, -, -, unmasked, -⟩ :=
    emit_exact crypto random { writer with sizeParser := parser }
      (UInt16.ofNat (writer.security.overhead + paddingLen)) [] paddingLen (Nat.zero_le _) short
  refine ⟨high :: low :: (payload ++ filler), after, ?_, inner, ?_⟩
  · simp only [ChunkWriter.writeEnd, draw, emitted]
  · intro reader rest aligned front
    have sizes : reader.inner = high :: low :: (payload ++ (filler ++ rest)) := by
      rw [front, List.cons_append, List.cons_append, List.append_assoc]
    refine ⟨{ reader with
      inner := payload ++ (filler ++ rest)
      sizeParser := after.sizeParser
      eof := true }, ?_, rfl, rfl, rfl⟩
    rw [fill_chunk_sized crypto reader high low _ paddingLen parser after.sizeParser _ sizes
        (by rw [aligned.padding, aligned.sizeParser, draw])
        (by rw [aligned.masking]; exact unmasked),
      sizeValue, aligned.security, if_pos rfl]

/-- The reader has seen the end of the stream. -/
def SeenEnd (reader : ChunkReader) : Prop := (chunkSource crypto).ended reader = true

/-- The end marker makes a reader expect nothing, whatever follows it. -/
theorem write_end_expects (writer : ChunkWriter) :
    ∃ frame after, writer.writeEnd crypto random = .ok () after ∧
      after.inner = writer.inner ++ frame ∧
      ∀ rest, Expects (chunkFraming crypto) (SeenEnd crypto) (frame ++ rest) [] writer := by
  obtain ⟨frame, after, written, inner, decoded⟩ := write_end_decoded crypto random writer
  refine ⟨frame, after, written, inner, fun rest reader aligned front empty running => ?_⟩
  obtain ⟨next, filled, pending, ppos, ended⟩ := decoded reader rest aligned front
  refine Feeds.filled empty running filled (Feeds.done ?_ ended)
  show next.pending.drop next.ppos = []
  rw [pending, ppos]
  exact empty

/-- A nonempty slice of any length is carried by its chunks, however the stream ends. -/
theorem write_chunk_carries (final : ChunkReader → Prop) (slice : Bytes) (writer : ChunkWriter)
    (nonempty : slice ≠ []) :
    Carries (chunkFraming crypto) final (fun writer => writer.writeChunk crypto random slice)
      slice writer := by
  obtain ⟨frames, after, written, inner, onward⟩ :=
    carries_pieces (chunkFraming crypto) final (ChunkWriter.writePiece crypto random)
      maxChunk slice writer (by decide) fun piece writer nonempty fits =>
        carries_of_decoded _ _ nonempty
          (write_piece_decoded crypto random writer piece nonempty fits)
  exact ⟨frames, after, by simp [ChunkWriter.writeChunk, written, nonempty], inner, onward⟩

/-- Slices followed by the end of the stream are written without an error, and
an aligned reader expects exactly their concatenation. -/
theorem write_chunks_expects (slices : List Bytes) (writer : ChunkWriter)
    (each : ∀ slice ∈ slices, slice ≠ []) :
    ∃ frames after, emitAll (ChunkWriter.writeChunk crypto random) (slices ++ [[]]) writer =
        .ok () after ∧
      after.inner = writer.inner ++ frames ∧
      Expects (chunkFraming crypto) (SeenEnd crypto) frames slices.flatten writer := by
  obtain ⟨frames, middle, written, sent, onward⟩ :=
    carries_items (chunkFraming crypto) (SeenEnd crypto) (ChunkWriter.writeChunk crypto random)
      slices writer fun slice member writer =>
        write_chunk_carries crypto random _ slice writer (each slice member)
  obtain ⟨last, after, ended, inner, expects⟩ := write_end_expects crypto random middle
  refine ⟨frames ++ last, after, ?_, ?_, ?_⟩
  · rw [emit_all_append _ slices [[]] writer middle written]
    simp [emitAll, ChunkWriter.writeChunk, ended]
  · rw [inner, show middle.inner = _ from sent, List.append_assoc]
    rfl
  · have carried := onward last [] (by simpa using expects [])
    rwa [List.append_nil] at carried

/-- A fresh reader is aligned with a fresh writer of the same parameters. -/
theorem new_aligned (inner : Bytes) (keys : ChunkKeys) (security : ChunkSecurity)
    (masking globalPadding : Bool) :
    Aligned (ChunkReader.new inner keys security masking globalPadding)
      (ChunkWriter.new keys security masking globalPadding) :=
  ⟨rfl, rfl, rfl, rfl, rfl, rfl⟩

/-- The chunk stream round trip. Nonempty slices and one final empty slice are
always written, and a reader with the same parameters over the written octets
returns, for any sequence of nonempty buffers, the slices in order and then the
end, never an error. As many reads as there are octets receive all of them. -/
theorem chunk_stream_round_trip (keys : ChunkKeys) (security : ChunkSecurity)
    (masking globalPadding : Bool) (slices : List Bytes) (each : ∀ slice ∈ slices, slice ≠ [])
    (sizes : List Nat) (room : ∀ size ∈ sizes, 0 < size) :
    ∃ writer, emitAll (ChunkWriter.writeChunk crypto random) (slices ++ [[]])
        (ChunkWriter.new keys security masking globalPadding) = .ok () writer ∧
      ∃ outs last, readMany (chunkSource crypto) sizes
          (ChunkReader.new writer.inner keys security masking globalPadding) = (outs, none, last) ∧
        DeliversThenEnds slices.flatten sizes outs ∧
        (slices.flatten.length ≤ sizes.length → outs.flatten = slices.flatten) := by
  obtain ⟨frames, writer, written, inner, expects⟩ := write_chunks_expects crypto random slices
    (ChunkWriter.new keys security masking globalPadding) each
  refine ⟨writer, written, ?_⟩
  have feeds := expects (ChunkReader.new writer.inner keys security masking globalPadding)
    (new_aligned _ keys security masking globalPadding) inner rfl rfl
  obtain ⟨outs, last, read, delivered⟩ := read_many_delivers feeds sizes room
  exact ⟨outs, last, read, delivered, delivers_complete delivered⟩

/-- The round trip of two slices, read two octets at a time. -/
theorem chunk_stream_round_trip_example :
    ∃ writer, emitAll (ChunkWriter.writeChunk standard fun _ => zeroOctets 64)
        ([[1, 2, 3], [4]] ++ [[]])
        (ChunkWriter.new ⟨zeroOctets 16, zeroOctets 16⟩ .chaCha true true) = .ok () writer ∧
      ∃ outs last, readMany (chunkSource standard) [2, 2, 2, 2, 2]
          (ChunkReader.new writer.inner ⟨zeroOctets 16, zeroOctets 16⟩ .chaCha true true) =
            (outs, none, last) ∧
        DeliversThenEnds [1, 2, 3, 4] [2, 2, 2, 2, 2] outs ∧
        ([1, 2, 3, 4].length ≤ [2, 2, 2, 2, 2].length → outs.flatten = [1, 2, 3, 4]) :=
  chunk_stream_round_trip standard (fun _ => zeroOctets 64) ⟨zeroOctets 16, zeroOctets 16⟩ .chaCha
    true true [[1, 2, 3], [4]] (by decide) [2, 2, 2, 2, 2] (by decide)

end RoundTrip

end OmniProxy.VmessChunks
