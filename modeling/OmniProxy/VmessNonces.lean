import OmniProxy.VmessChunks
import Mathlib.Algebra.GroupWithZero.Nat
import Mathlib.Data.List.Nodup
import Mathlib.Data.List.Range

/-!
# The nonces of the VMess chunk stream

Every chunk that is protected is sealed once, the one that ends the stream included, under
a nonce of two octets of a counter and ten octets that never change. A writer is given a
note of the nonces it seals under; without the note it is the writer itself. Its nonces
are those of consecutive counters modulo 2 ^ 16, so they are distinct exactly as long as
there are at most 65536 of them. The counter wraps around as the reader's does, and no
error ends the stream.
-/

namespace OmniProxy.VmessNonces

open ByteStrings Connections CryptoPrimitives EStateM FramedStreams VmessChunks

/-- A writer with the nonces it has sealed under. -/
structure NotingWriter where
  writer : ChunkWriter
  nonces : List (Octets 12)

/-- The nonce of the next seal; without protection there is none. -/
def nextNonce (writer : ChunkWriter) : Option (Octets 12) :=
  match writer.security with
  | .none => none
  | .gcm => some (writer.keys.nonceFor writer.counter)
  | .chaCha => some (writer.keys.nonceFor writer.counter)

variable (crypto : Primitives) (random : Nat → Octets 64)

/-- Write a chunk and note the nonce of its seal. -/
def NotingWriter.emit (noting : NotingWriter) (size : UInt16) (plain : Bytes)
    (paddingLen : Nat) : Result IoError NotingWriter Unit :=
  let nonces := noting.nonces ++ (nextNonce noting.writer).toList
  match noting.writer.emit crypto random size plain paddingLen with
  | .ok _ writer => .ok () ⟨writer, nonces⟩
  | .error error writer => .error error ⟨writer, nonces⟩

/-- Write one piece of a slice. -/
def NotingWriter.writePiece (noting : NotingWriter) (piece : Bytes) :
    Result IoError NotingWriter Unit :=
  let writer := noting.writer
  let (paddingLen, parser) := drawPadding (writer.padding && !piece.isEmpty) writer.sizeParser
  let total := piece.length + writer.security.overhead + paddingLen
  let drawn : NotingWriter := ⟨{ writer with sizeParser := parser }, noting.nonces⟩
  if 65535 < total then .error ⟨.invalidData, "vmess: chunk too large"⟩ drawn
  else drawn.emit crypto random (UInt16.ofNat total) piece paddingLen

/-- Write the chunk that ends the stream. -/
def NotingWriter.writeEnd (noting : NotingWriter) : Result IoError NotingWriter Unit :=
  let writer := noting.writer
  let (paddingLen, parser) := drawPadding writer.padding writer.sizeParser
  let total := writer.security.overhead + paddingLen
  let drawn : NotingWriter := ⟨{ writer with sizeParser := parser }, noting.nonces⟩
  drawn.emit crypto random (UInt16.ofNat total) [] paddingLen

/-- Write a slice. -/
def NotingWriter.writeChunk (noting : NotingWriter) (data : Bytes) :
    Result IoError NotingWriter Unit :=
  match emitAll (NotingWriter.writePiece crypto random) (pieces maxChunk data) noting with
  | .error error after => .error error after
  | .ok _ after => if data.isEmpty then after.writeEnd crypto random else .ok () after

section Forgetting

/-- A result without the note. -/
def forget : Result IoError NotingWriter Unit → Result IoError ChunkWriter Unit
  | .ok _ noting => .ok () noting.writer
  | .error error noting => .error error noting.writer

/-- Without its notes the noting writer emits what the writer does. -/
theorem emit_forget (noting : NotingWriter) (size : UInt16) (plain : Bytes) (paddingLen : Nat) :
    forget (noting.emit crypto random size plain paddingLen) =
      noting.writer.emit crypto random size plain paddingLen := by
  unfold NotingWriter.emit
  cases noting.writer.emit crypto random size plain paddingLen <;> rfl

/-- Without its notes the noting writer writes a piece as the writer does. -/
theorem write_piece_forget (noting : NotingWriter) (piece : Bytes) :
    forget (noting.writePiece crypto random piece) =
      noting.writer.writePiece crypto random piece := by
  simp only [NotingWriter.writePiece, ChunkWriter.writePiece]
  split
  · rfl
  · exact emit_forget crypto random _ _ _ _

/-- Without its notes the noting writer writes the end as the writer does. -/
theorem write_end_forget (noting : NotingWriter) :
    forget (noting.writeEnd crypto random) = noting.writer.writeEnd crypto random :=
  emit_forget crypto random _ _ _ _

/-- Steps that are the writer's steps without the note are so in sequence. -/
theorem emit_all_forget {α : Type} (emit : ChunkWriter → α → Result IoError ChunkWriter Unit)
    (noted : NotingWriter → α → Result IoError NotingWriter Unit)
    (same : ∀ noting item, forget (noted noting item) = emit noting.writer item)
    (items : List α) (noting : NotingWriter) :
    forget (emitAll noted items noting) = emitAll emit items noting.writer := by
  induction items generalizing noting with
  | nil => rfl
  | cons item items inductionHypothesis =>
    simp only [emitAll, ← same noting item]
    cases noted noting item with
    | ok value after => exact inductionHypothesis after
    | error error after => rfl

/-- Without the note the writer is the writer itself. -/
theorem write_chunk_forget (noting : NotingWriter) (data : Bytes) :
    forget (noting.writeChunk crypto random data) =
      noting.writer.writeChunk crypto random data := by
  simp only [NotingWriter.writeChunk, ChunkWriter.writeChunk,
    ← emit_all_forget _ _ (write_piece_forget crypto random)]
  cases emitAll (NotingWriter.writePiece crypto random) (pieces maxChunk data) noting with
  | error error after => rfl
  | ok value after =>
    cases ended : data.isEmpty with
    | true => simpa [ended, forget] using write_end_forget crypto random after
    | false => simp [forget]

end Forgetting

section Seals

/-- A write that seals a number of times, under the nonces of consecutive counters. -/
def Seals (count : Nat) (write : NotingWriter → Result IoError NotingWriter Unit)
    (noting : NotingWriter) : Prop :=
  ∃ after, write noting = .ok () after ∧ after.writer.keys = noting.writer.keys ∧
    after.writer.security = noting.writer.security ∧
    after.writer.counter = noting.writer.counter + UInt16.ofNat count ∧
    after.nonces = noting.nonces ++ (List.range count).map fun i =>
      noting.writer.keys.nonceFor (noting.writer.counter + UInt16.ofNat i)

/-- A chunk is sealed once. -/
theorem emit_seals (noting : NotingWriter) (size : UInt16) (plain : Bytes) (paddingLen : Nat)
    (sealing : noting.writer.security ≠ .none) (fits : plain.length ≤ maxChunk)
    (drawn : paddingLen < 64) :
    Seals 1 (fun noting => noting.emit crypto random size plain paddingLen) noting := by
  obtain ⟨-, -, -, -, after, emitted, -, -, -, -, -, keys, security, -, -, counter⟩ :=
    emit_exact crypto random noting.writer size plain paddingLen fits drawn
  have nonce : nextNonce noting.writer =
      some (noting.writer.keys.nonceFor noting.writer.counter) := by
    unfold nextNonce
    split
    · next unprotected => exact absurd unprotected sealing
    · rfl
    · rfl
  have counted : noting.writer.security.nextCounter noting.writer.counter =
      noting.writer.counter + 1 := by
    cases protection : noting.writer.security with
    | none => exact absurd protection sealing
    | gcm => rfl
    | chaCha => rfl
  refine ⟨⟨after, noting.nonces ++ (nextNonce noting.writer).toList⟩, ?_, keys, security, ?_, ?_⟩
  · simp only [NotingWriter.emit, emitted]
  · exact counter.trans counted
  · simp [nonce]

/-- A write that seals and goes on with another one. -/
theorem Seals.bind {first second : Nat}
    {write next whole : NotingWriter → Result IoError NotingWriter Unit} {noting : NotingWriter}
    (sealed : Seals first write noting)
    (goesOn : ∀ after, write noting = .ok () after → whole noting = next after)
    (later : ∀ after, after.writer.security = noting.writer.security → Seals second next after) :
    Seals (first + second) whole noting := by
  obtain ⟨middle, wrote, keys, security, counter, nonces⟩ := sealed
  obtain ⟨after, nextWrote, nextKeys, nextSecurity, nextCounter, nextNonces⟩ :=
    later middle security
  refine ⟨after, (goesOn middle wrote).trans nextWrote, nextKeys.trans keys,
    nextSecurity.trans security, ?_, ?_⟩
  · rw [nextCounter, counter, UInt16.ofNat_add, UInt16.add_assoc]
  · rw [nextNonces, nonces, keys, counter, List.range_add, List.map_append, List.map_map,
      List.append_assoc]
    simp only [Function.comp_def, UInt16.ofNat_add, UInt16.add_assoc]

/-- Doing nothing seals nothing. -/
theorem seals_nothing (noting : NotingWriter) : Seals 0 (fun noting => .ok () noting) noting :=
  ⟨noting, rfl, rfl, rfl, by simp, by simp⟩

/-- Writes in sequence seal as often as all of them together. -/
theorem seals_all {α : Type} (emit : NotingWriter → α → Result IoError NotingWriter Unit)
    (count : α → Nat) (items : List α) (noting : NotingWriter)
    (each : ∀ item ∈ items, ∀ after, after.writer.security = noting.writer.security →
      Seals (count item) (fun noting => emit noting item) after) :
    Seals (items.map count).sum (emitAll emit items) noting := by
  induction items generalizing noting with
  | nil => exact seals_nothing noting
  | cons item items inductionHypothesis =>
    rw [List.map_cons, List.sum_cons]
    have goesOn : ∀ after, emit noting item = .ok () after →
        emitAll emit (item :: items) noting = emitAll emit items after := by
      intro after wrote
      simp only [emitAll, wrote]
    refine (each item List.mem_cons_self noting rfl).bind goesOn ?_
    intro after security
    refine inductionHypothesis after fun other member later same => ?_
    exact each other (List.mem_cons_of_mem _ member) later (same.trans security)

/-- A piece is sealed once. -/
theorem write_piece_seals (noting : NotingWriter) (piece : Bytes)
    (sealing : noting.writer.security ≠ .none) (fits : piece.length ≤ maxChunk) :
    Seals 1 (fun noting => noting.writePiece crypto random piece) noting := by
  have short := draw_padding_bound (noting.writer.padding && !piece.isEmpty)
    noting.writer.sizeParser
  have overhead : noting.writer.security.overhead ≤ 16 := by
    cases noting.writer.security <;> decide
  have limit : maxChunk = 16383 := rfl
  generalize drawn : drawPadding (noting.writer.padding && !piece.isEmpty)
    noting.writer.sizeParser = draw at short
  obtain ⟨paddingLen, parser⟩ := draw
  have total : ¬65535 < piece.length + noting.writer.security.overhead + paddingLen := by
    dsimp only at short
    omega
  obtain ⟨after, emitted, sealed⟩ := emit_seals crypto random
    ⟨{ noting.writer with sizeParser := parser }, noting.nonces⟩
    (UInt16.ofNat (piece.length + noting.writer.security.overhead + paddingLen)) piece paddingLen
    sealing fits short
  exact ⟨after, by simpa only [NotingWriter.writePiece, drawn, total, if_false] using emitted,
    sealed⟩

/-- The end is sealed once. -/
theorem write_end_seals (noting : NotingWriter) (sealing : noting.writer.security ≠ .none) :
    Seals 1 (fun noting => noting.writeEnd crypto random) noting := by
  have short := draw_padding_bound noting.writer.padding noting.writer.sizeParser
  exact emit_seals crypto random
    ⟨{ noting.writer with
      sizeParser := (drawPadding noting.writer.padding noting.writer.sizeParser).2 },
      noting.nonces⟩ _ [] _ sealing (Nat.zero_le _) short

/-- How often a slice is sealed: once for each piece, and once when it is empty. -/
def sealCount (slice : Bytes) : Nat :=
  if slice.isEmpty then 1 else (pieces maxChunk slice).length

/-- A write seals as many times as it has pieces. -/
theorem write_chunk_seals (noting : NotingWriter) (slice : Bytes)
    (sealing : noting.writer.security ≠ .none) :
    Seals (sealCount slice) (fun noting => noting.writeChunk crypto random slice) noting := by
  cases ended : slice.isEmpty with
  | true =>
    obtain rfl := List.isEmpty_iff.mp ended
    obtain ⟨after, wrote, sealed⟩ := write_end_seals crypto random noting sealing
    exact ⟨after, by simpa [NotingWriter.writeChunk, emitAll] using wrote, sealed⟩
  | false =>
    have every := seals_all (NotingWriter.writePiece crypto random) (fun _ => 1)
      (pieces maxChunk slice) noting fun piece member after same =>
        write_piece_seals crypto random after piece (same ▸ sealing)
          (pieces_bounded maxChunk slice (by decide) piece member).2
    rw [List.map_const', List.sum_replicate_nat, Nat.mul_one] at every
    obtain ⟨after, wrote, sealed⟩ := every
    rw [sealCount, ended]
    exact ⟨after, by simp [NotingWriter.writeChunk, wrote, ended], sealed⟩

/-- Slices are sealed under the nonces of consecutive counters. -/
theorem write_chunks_seal (slices : List Bytes) (noting : NotingWriter)
    (sealing : noting.writer.security ≠ .none) :
    Seals (slices.map sealCount).sum (emitAll (NotingWriter.writeChunk crypto random) slices)
      noting :=
  seals_all _ sealCount slices noting fun slice _ after same =>
    write_chunk_seals crypto random after slice (same ▸ sealing)

end Seals

section Distinctness

/-- Two counters with the same nonce are equal. -/
theorem nonce_for_injective (keys : ChunkKeys) (first second : UInt16)
    (same : keys.nonceFor first = keys.nonceFor second) : first = second := by
  have octets : bigEndian16 first ++ (keys.iv.toList.drop 2).take 10 =
      bigEndian16 second ++ (keys.iv.toList.drop 2).take 10 := congrArg List.Vector.toList same
  have front := (List.append_inj octets (by simp)).1
  obtain ⟨high, low, firstOctets, firstValue⟩ := of_big_endian16_exact first
  obtain ⟨high', low', secondOctets, secondValue⟩ := of_big_endian16_exact second
  rw [firstOctets, secondOctets] at front
  obtain ⟨rfl, rfl⟩ : high = high' ∧ low = low' := by simpa using front
  rw [← firstValue, ← secondValue]

/-- Consecutive counters give the same nonce exactly when they are equal modulo 2 ^ 16. -/
theorem nonce_at_eq_iff (keys : ChunkKeys) (counter : UInt16) (first second : Nat) :
    keys.nonceFor (counter + UInt16.ofNat first) = keys.nonceFor (counter + UInt16.ofNat second) ↔
      first % 65536 = second % 65536 := by
  constructor
  · intro same
    have counters := (UInt16.add_right_inj counter).mp (nonce_for_injective keys _ _ same)
    simpa using congrArg UInt16.toNat counters
  · intro same
    have counters : UInt16.ofNat first = UInt16.ofNat second := by
      apply UInt16.toNat_inj.mp
      simpa using same
    rw [counters]

/-- The nonces of consecutive counters are distinct exactly when there are at most 2 ^ 16. -/
theorem nonces_nodup_iff (keys : ChunkKeys) (counter : UInt16) (count : Nat) :
    ((List.range count).map fun i => keys.nonceFor (counter + UInt16.ofNat i)).Nodup ↔
      count ≤ 65536 := by
  constructor
  · intro distinct
    by_contra more
    have same := (nonce_at_eq_iff keys counter 0 65536).mpr (by decide)
    have places := List.inj_on_of_nodup_map distinct (List.mem_range.mpr (by omega))
      (List.mem_range.mpr (by omega)) same
    omega
  · intro few
    refine List.nodup_range.map_on fun first firstMember second secondMember same => ?_
    have places := (nonce_at_eq_iff keys counter first second).mp same
    rw [List.mem_range] at firstMember secondMember
    omega

/-- The nonces of a run, and that without the note the run is the writer's own. -/
theorem write_chunks_noted (writer : ChunkWriter) (slices : List Bytes)
    (sealing : writer.security ≠ .none) :
    ∃ after, emitAll (NotingWriter.writeChunk crypto random) slices ⟨writer, []⟩ = .ok () after ∧
      emitAll (ChunkWriter.writeChunk crypto random) slices writer = .ok () after.writer ∧
      after.nonces = (List.range (slices.map sealCount).sum).map fun i =>
        writer.keys.nonceFor (writer.counter + UInt16.ofNat i) := by
  obtain ⟨after, wrote, -, -, -, nonces⟩ :=
    write_chunks_seal crypto random slices ⟨writer, []⟩ sealing
  have forgotten := emit_all_forget _ _ (write_chunk_forget crypto random) slices ⟨writer, []⟩
  rw [wrote] at forgotten
  exact ⟨after, wrote, forgotten.symm, nonces⟩

/-- Whatever is written, and however much, the writer seals on without an error, and the
nonces of its seals are distinct exactly when there are at most 65536 seals. -/
theorem nonces_distinct_iff (writer : ChunkWriter) (slices : List Bytes)
    (sealing : writer.security ≠ .none) :
    ∃ after, emitAll (NotingWriter.writeChunk crypto random) slices ⟨writer, []⟩ = .ok () after ∧
      emitAll (ChunkWriter.writeChunk crypto random) slices writer = .ok () after.writer ∧
      after.nonces.length = (slices.map sealCount).sum ∧
      (after.nonces.Nodup ↔ (slices.map sealCount).sum ≤ 65536) := by
  obtain ⟨after, wrote, forgotten, nonces⟩ := write_chunks_noted crypto random writer slices sealing
  refine ⟨after, wrote, forgotten, ?_, ?_⟩
  · rw [nonces, List.length_map, List.length_range]
  · rw [nonces]
    exact nonces_nodup_iff writer.keys writer.counter _

/-- A slice of two octets and the end of the stream. -/
theorem nonces_distinct_example :
    ∃ after, emitAll (NotingWriter.writeChunk standard fun _ => zeroOctets 64) [[1, 2], []]
        ⟨.new ⟨zeroOctets 16, zeroOctets 16⟩ .chaCha true true, []⟩ = .ok () after ∧
      emitAll (ChunkWriter.writeChunk standard fun _ => zeroOctets 64) [[1, 2], []]
        (.new ⟨zeroOctets 16, zeroOctets 16⟩ .chaCha true true) = .ok () after.writer ∧
      after.nonces.length = ([[1, 2], []].map sealCount).sum ∧
      (after.nonces.Nodup ↔ ([[1, 2], []].map sealCount).sum ≤ 65536) :=
  nonces_distinct_iff standard (fun _ => zeroOctets 64)
    (.new ⟨zeroOctets 16, zeroOctets 16⟩ .chaCha true true) [[1, 2], []] (by decide)

/-- After 65536 slices of one octet the next one is sealed under the nonce of the first. -/
theorem counter_wraps_around :
    ∃ after, emitAll (NotingWriter.writeChunk standard fun _ => zeroOctets 64)
        (List.replicate 65537 [7])
        ⟨.new ⟨zeroOctets 16, zeroOctets 16⟩ .gcm true true, []⟩ = .ok () after ∧
      emitAll (ChunkWriter.writeChunk standard fun _ => zeroOctets 64)
        (List.replicate 65537 [7])
        (.new ⟨zeroOctets 16, zeroOctets 16⟩ .gcm true true) = .ok () after.writer ∧
      ¬after.nonces.Nodup := by
  obtain ⟨after, wrote, forgotten, nonces⟩ := write_chunks_noted standard (fun _ => zeroOctets 64)
    (.new ⟨zeroOctets 16, zeroOctets 16⟩ .gcm true true) (List.replicate 65537 [7]) (by decide)
  refine ⟨after, wrote, forgotten, ?_⟩
  have once : sealCount [7] = 1 := by
    rw [sealCount, pieces_single maxChunk [7] (by decide) (by decide)]
    rfl
  rw [nonces, nonces_nodup_iff, List.map_replicate, once, List.sum_replicate_nat]
  decide

end Distinctness

end OmniProxy.VmessNonces
