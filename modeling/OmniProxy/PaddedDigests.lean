import OmniProxy.BlockStreams
import OmniProxy.StreamingDigests

/-!
# A streaming digest is its digest over padded blocks

The one-shot definition of a block digest pads the whole message (the octet
0x80, zeros until eight octets of a block remain, the message length in bits)
and folds the compression through the blocks. The streaming digest reaches the
same value for every cut of the message into parts: its state is a gatherer of
blocks, its padding is fed to it as more octets, and the padded message has no
remainder. The length counter wraps modulo 2^64, and so do the length octets.

Nothing here refers to a particular program.
-/

namespace OmniProxy.PaddedDigests

open ByteStrings BlockStreams StreamingDigests

variable {H : Type} {outputLength : Nat} (hash : BlockHash H outputLength)

section OneShot

/-- The zeros between the octet 0x80 and the length octets. -/
def zerosFor (length : Nat) : Nat := (119 - length % 64) % 64

/-- A message with its padding. -/
def padded (message : Bytes) : Bytes :=
  message ++ 0x80 :: List.replicate (zerosFor message.length) 0 ++
    (hash.lengthOctets (UInt64.ofNat (8 * message.length))).toList

/-- The digest of a message in one piece. -/
def oneShot (message : Bytes) : Octets outputLength :=
  hash.output ((blocksOf 64 (padded hash message)).foldl hash.compress hash.initial)

/-- A padded message consists of whole blocks. -/
theorem padded_whole (message : Bytes) : (padded hash message).length % 64 = 0 := by
  simp only [padded, zerosFor, List.length_append, List.length_cons, List.length_replicate,
    List.Vector.toList_length]
  omega

end OneShot

section Streaming

/-- The part of a hasher that gathers blocks. -/
def gatherer (hasher : Hasher H) : Gatherer UInt8 H 64 :=
  ⟨hasher.chain, hasher.buf, hasher.unfilled⟩

/-- The octets one round of the copying loop takes: what fits, at most everything. -/
def copied (hasher : Hasher H) (data : Bytes) : Nat := min (64 - hasher.buf.length) data.length

/-- A round that completes the block compresses it. -/
theorem absorb_full (rounds : Nat) (data : Bytes) (hasher : Hasher H) (nonempty : data ≠ [])
    (full : (hasher.buf ++ data.take (copied hasher data)).length = 64) :
    absorb hash (rounds + 1) data hasher = absorb hash rounds (data.drop (copied hasher data))
      ⟨hash.compress hasher.chain ⟨hasher.buf ++ data.take (copied hasher data), full⟩, hasher.len,
        [], by decide⟩ := by
  conv_lhs => unfold absorb
  rw [if_neg (by simpa using nonempty)]
  exact dif_pos full

/-- A round that leaves the block unfilled holds what it took. -/
theorem absorb_short (rounds : Nat) (data : Bytes) (hasher : Hasher H) (nonempty : data ≠ [])
    (short : (hasher.buf ++ data.take (copied hasher data)).length < 64) :
    absorb hash (rounds + 1) data hasher = absorb hash rounds (data.drop (copied hasher data))
      ⟨hasher.chain, hasher.len, hasher.buf ++ data.take (copied hasher data), short⟩ := by
  conv_lhs => unfold absorb
  rw [if_neg (by simpa using nonempty)]
  exact dif_neg (Nat.ne_of_lt short)

/-- The copying loop gathers the octets one after the other: what fits into the
block is held or completes it, and the rest follows by induction. -/
theorem absorb_gathers (rounds : Nat) (data : Bytes) (hasher : Hasher H)
    (enough : data.length ≤ rounds) :
    gatherer (absorb hash rounds data hasher) =
        data.foldl (gather hash.compress) (gatherer hasher) ∧
      (absorb hash rounds data hasher).len = hasher.len := by
  induction rounds generalizing data hasher with
  | zero =>
    have empty : data = [] := List.eq_nil_of_length_eq_zero (by omega)
    subst empty
    exact ⟨rfl, rfl⟩
  | succ rounds inductionHypothesis =>
    by_cases empty : data = []
    · subst empty
      exact ⟨rfl, rfl⟩
    · have unfilled := hasher.unfilled
      have positive : 0 < data.length := List.length_pos_iff.mpr empty
      have rest : (data.drop (copied hasher data)).length ≤ rounds := by
        rw [List.length_drop, copied]
        omega
      have parts : data.foldl (gather hash.compress) (gatherer hasher) =
          (data.drop (copied hasher data)).foldl (gather hash.compress)
            ((data.take (copied hasher data)).foldl (gather hash.compress) (gatherer hasher)) := by
        rw [← List.foldl_append, List.take_append_drop]
      by_cases full : (hasher.buf ++ data.take (copied hasher data)).length = 64
      · rw [absorb_full hash rounds data hasher empty full, parts,
          gather_full hash.compress _ (gatherer hasher) full]
        exact inductionHypothesis _ _ rest
      · have short : (hasher.buf ++ data.take (copied hasher data)).length < 64 := by
          rw [List.length_append, List.length_take, copied] at full ⊢
          omega
        rw [absorb_short hash rounds data hasher empty short, parts,
          gather_short hash.compress _ (gatherer hasher) short]
        exact inductionHypothesis _ _ rest

/-- Updating gathers the octets and counts them. -/
theorem update_gathers (hasher : Hasher H) (data : Bytes) :
    gatherer (update hash hasher data) =
        data.foldl (gather hash.compress) (gatherer hasher) ∧
      (update hash hasher data).len = hasher.len + UInt64.ofNat data.length :=
  absorb_gathers hash data.length data { hasher with len := hasher.len + UInt64.ofNat data.length }
    (Nat.le_refl _)

/-- Updating with the parts of a message gathers the message and counts it. -/
theorem updates_gather (parts : List Bytes) (hasher : Hasher H) :
    gatherer (parts.foldl (update hash) hasher) =
        parts.flatten.foldl (gather hash.compress) (gatherer hasher) ∧
      (parts.foldl (update hash) hasher).len =
        hasher.len + UInt64.ofNat parts.flatten.length := by
  induction parts generalizing hasher with
  | nil => exact ⟨rfl, by simp⟩
  | cons part parts inductionHypothesis =>
    obtain ⟨gathered, counted⟩ := update_gathers hash hasher part
    obtain ⟨rest, total⟩ := inductionHypothesis (update hash hasher part)
    rw [List.foldl_cons, List.flatten_cons, List.foldl_append, rest, total, gathered, counted,
      List.length_append, UInt64.ofNat_add, UInt64.add_assoc]
    exact ⟨rfl, rfl⟩

end Streaming

section Padding

/-- The zeros that bring a fill level to fifty-six. -/
def zerosFrom (filled : Nat) : Nat := (120 - filled) % 64

/-- After some octets zero the fill level has moved by their number. -/
theorem zeros_fill (count : Nat) (hasher : Hasher H) :
    ((fun hasher => update hash hasher [0])^[count] hasher).buf.length =
      (hasher.buf.length + count) % 64 := by
  induction count generalizing hasher with
  | zero =>
    have unfilled := hasher.unfilled
    exact (Nat.mod_eq_of_lt unfilled).symm
  | succ count inductionHypothesis =>
    rw [Function.iterate_succ_apply, inductionHypothesis, update_octet_fill]
    omega

/-- The padding loop appends the zeros that are missing and stops there, however
many more it was allowed. -/
theorem pad_zeros_iterate (fuel : Nat) (hasher : Hasher H)
    (enough : zerosFrom hasher.buf.length < fuel) :
    padZeros hash fuel hasher =
      (fun hasher => update hash hasher [0])^[zerosFrom hasher.buf.length] hasher := by
  have unfilled := hasher.unfilled
  induction fuel generalizing hasher with
  | zero => omega
  | succ fuel inductionHypothesis =>
    unfold padZeros
    split
    · rename_i reached
      rw [reached]
      rfl
    · rename_i missing
      have filled := update_octet_fill hash hasher 0
      have fewer : zerosFrom hasher.buf.length =
          zerosFrom (update hash hasher [0]).buf.length + 1 := by
        rw [filled]
        simp only [zerosFrom]
        omega
      rw [inductionHypothesis _ (by omega) (update hash hasher [0]).unfilled, fewer,
        Function.iterate_succ_apply]

/-- The padding loop stops for every fill level: it passes over no level of
fifty-six, and a larger allowance changes nothing. -/
theorem pad_zeros_terminates (hasher : Hasher H) :
    ∃ zeros, zeros < 64 ∧
      ((fun hasher => update hash hasher [0])^[zeros] hasher).buf.length = 56 ∧
      (∀ earlier, earlier < zeros →
        ((fun hasher => update hash hasher [0])^[earlier] hasher).buf.length ≠ 56) ∧
      ∀ fuel, zeros < fuel →
        padZeros hash fuel hasher = (fun hasher => update hash hasher [0])^[zeros] hasher := by
  have unfilled := hasher.unfilled
  refine ⟨zerosFrom hasher.buf.length, Nat.mod_lt _ (by decide), ?_, ?_, ?_⟩
  · rw [zeros_fill]
    simp only [zerosFrom]
    omega
  · intro earlier before
    rw [zeros_fill]
    simp only [zerosFrom] at before
    omega
  · exact fun fuel enough => pad_zeros_iterate hash fuel hasher enough

/-- Octets appended one by one are octets gathered one by one. -/
theorem zeros_gather (count : Nat) (hasher : Hasher H) :
    gatherer ((fun hasher => update hash hasher [0])^[count] hasher) =
      (List.replicate count 0).foldl (gather hash.compress) (gatherer hasher) := by
  induction count generalizing hasher with
  | zero => rfl
  | succ count inductionHypothesis =>
    rw [Function.iterate_succ_apply, inductionHypothesis, List.replicate_succ, List.foldl_cons,
      (update_gathers hash hasher [0]).1]
    rfl

end Padding

/-- Finishing a hasher that gathered a message gives the message's digest: the
padding completes the padded message, whose blocks the gatherer then folded. -/
theorem finalize_one_shot (message : Bytes) (hasher : Hasher H)
    (gathered : gatherer hasher =
      message.foldl (gather hash.compress) (fresh (by decide) hash.initial))
    (counted : hasher.len = UInt64.ofNat message.length) :
    finalize hash hasher = oneShot hash message := by
  have level : hasher.buf.length = message.length % 64 := by
    have held := (gather_exact hash.compress (by decide : 0 < 64) message hash.initial).2
    rw [← gathered] at held
    rw [← remainder_length, ← held]
    rfl
  have bits : hasher.len * 8 = UInt64.ofNat (8 * message.length) := by
    rw [counted, Nat.mul_comm, UInt64.ofNat_mul]
    rfl
  have zeros : zerosFrom (update hash hasher [0x80]).buf.length = zerosFor message.length := by
    rw [update_octet_fill, level]
    simp only [zerosFrom, zerosFor]
    omega
  have stopped := pad_zeros_iterate hash 64 (update hash hasher [0x80]) (Nat.mod_lt _ (by decide))
  have whole : gatherer (update hash (padZeros hash 64 (update hash hasher [0x80]))
        (hash.lengthOctets (hasher.len * 8)).toList) =
      (padded hash message).foldl (gather hash.compress) (fresh (by decide) hash.initial) := by
    rw [(update_gathers hash _ _).1, stopped, zeros_gather, (update_gathers hash hasher [0x80]).1,
      gathered, zeros, bits, padded, List.foldl_append, List.foldl_append, List.foldl_cons]
    rfl
  have chained := (gather_exact hash.compress (by decide : 0 < 64) (padded hash message)
    hash.initial).1
  rw [← whole] at chained
  exact congrArg hash.output chained

/-- The digest of a message in parts is the digest of the message in one piece. -/
theorem digest_one_shot (parts : List Bytes) : digest hash parts = oneShot hash parts.flatten := by
  obtain ⟨gathered, counted⟩ := updates_gather hash parts (start hash)
  refine finalize_one_shot hash parts.flatten _ gathered ?_
  rw [counted]
  exact UInt64.zero_add _

end OmniProxy.PaddedDigests
