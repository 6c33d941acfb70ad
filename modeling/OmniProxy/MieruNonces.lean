import OmniProxy.AuthenticatedCiphers
import OmniProxy.MieruSegments
import Mathlib.Data.List.Nodup
import Mathlib.Data.List.Range

/-!
# The nonces of Mieru segments

A segment is sealed once for its metadata and once more for its payload, if it has
one. The payload takes the nonce after that of the metadata, and the state moves on
by one or two. Here the writer takes its sealing from outside: with the cipher it is
the writer of the program, and with a sealing that notes its nonces it shows them.
The nonces of a run are consecutive values of a counter of twenty-four octets, so
none comes twice before the counter returns to its start. A seal that the cipher
refuses ends the run and is noted all the same.
-/

namespace OmniProxy.MieruNonces

open ByteStrings CarryCounters MieruSegments SealedBoxes

section Sealing

variable {m : Type → Type} [Monad m]

/-- Write a segment with a given sealing. -/
def encryptSegmentWith (sealing : Octets 32 → Octets 24 → Bytes → m Bytes) (state : SegmentState)
    (epochMinute : UInt64) (protoType : UInt8) (payload : Bytes) (first : Bool) :
    m (Bytes × SegmentState) := do
  let em := epochMinute.toUInt32
  let metadata := buildMetadata
    ⟨protoType, em, 0, state.seq, 0, UInt16.ofNat payload.length, 0⟩
  let encMeta ← sealing state.key state.nonce metadata.toList
  let out := usizeToBeBytes (announcedLength payload first)
  let out := if first then out ++ state.nonce.toList else out
  let out := out ++ encMeta
  if payload.isEmpty then
    pure (out, { state with nonce := incrementOctets state.nonce, seq := state.seq + 1 })
  else do
    let n := incrementOctets state.nonce
    let encPayload ← sealing state.key n payload
    pure (out ++ encPayload, { state with nonce := incrementOctets n, seq := state.seq + 1 })

/-- What a call of the writer is given. -/
structure Segment where
  epochMinute : UInt64
  protoType : UInt8
  payload : Bytes
  first : Bool

/-- Write segments one after the other. -/
def encryptSegmentsWith (sealing : Octets 32 → Octets 24 → Bytes → m Bytes) :
    List Segment → SegmentState → m (List Bytes × SegmentState)
  | [], state => pure ([], state)
  | call :: calls, state => do
      let (out, state) ←
        encryptSegmentWith sealing state call.epochMinute call.protoType call.payload call.first
      let (outs, state) ← encryptSegmentsWith sealing calls state
      pure (out :: outs, state)

end Sealing

variable (aead : Aead 32 24)

/-- With the cipher the writer is that of the program. -/
theorem encrypt_segment_with_cipher (state : SegmentState) (epochMinute : UInt64)
    (protoType : UInt8) (payload : Bytes) (first : Bool) :
    encryptSegmentWith (cryptoSeal aead) state epochMinute protoType payload first =
      state.encryptSegment aead epochMinute protoType payload first := rfl

/-- Actions that note nonces; one that fails keeps its notes. -/
abbrev Noting := OptionT (StateM (List (Octets 24)))

/-- Note the nonce and seal. -/
def noteSeal (key : Octets 32) (nonce : Octets 24) (plaintext : Bytes) : Noting Bytes := do
  modify (· ++ [nonce])
  OptionT.mk (pure (cryptoSeal aead key nonce plaintext))

/-- The nonces of the seals of some segments, in order. -/
def sealNonces (calls : List Segment) (state : SegmentState) : List (Octets 24) :=
  ((encryptSegmentsWith (noteSeal aead) calls state).run.run []).2

/-- A sequence of noting actions runs them one after the other, or ends with the notes
of the first. -/
theorem noting_bind_run {α β : Type} (action : Noting α) (next : α → Noting β)
    (noted : List (Octets 24)) :
    (action >>= next).run.run noted =
      (action.run.run noted).1.elim (none, (action.run.run noted).2)
        fun value => (next value).run.run (action.run.run noted).2 := by
  rw [OptionT.run_bind, Option.elimM, StateT.run_bind]
  rcases action.run.run noted with ⟨_ | value, notes⟩ <;> rfl

section Forgetting

/-- An action without its notes. -/
def Forgets {α : Type} (action : Noting α) (plain : Option α) : Prop :=
  ∀ noted, (action.run.run noted).1 = plain

/-- Two actions in sequence are, without their notes, the plain ones in sequence. -/
theorem Forgets.bind {α β : Type} {action : Noting α} {plain : Option α} {next : α → Noting β}
    {plainNext : α → Option β} (first : Forgets action plain)
    (second : ∀ value, Forgets (next value) (plainNext value)) :
    Forgets (action >>= next) (plain >>= plainNext) := by
  intro noted
  rw [noting_bind_run, first noted]
  cases plain with
  | none => rfl
  | some value => exact second value _

/-- Noting the nonces does not change what a segment is sealed to. -/
theorem encrypt_segment_forgets (state : SegmentState) (epochMinute : UInt64) (protoType : UInt8)
    (payload : Bytes) (first : Bool) :
    Forgets (encryptSegmentWith (noteSeal aead) state epochMinute protoType payload first)
      (state.encryptSegment aead epochMinute protoType payload first) := by
  rw [← encrypt_segment_with_cipher]
  refine Forgets.bind (fun _ => rfl) fun encMeta => ?_
  cases payload.isEmpty with
  | true => exact fun _ => rfl
  | false => exact Forgets.bind (fun _ => rfl) fun encPayload => fun _ => rfl

/-- Without the notes a run is a run of the program's writer. -/
theorem encrypt_segments_forget (calls : List Segment) (state : SegmentState) :
    Forgets (encryptSegmentsWith (noteSeal aead) calls state)
      (encryptSegmentsWith (cryptoSeal aead) calls state) := by
  induction calls generalizing state with
  | nil => exact fun _ => rfl
  | cons call calls inductionHypothesis =>
    refine (encrypt_segment_forgets aead state _ _ _ _).bind fun reached => ?_
    exact (inductionHypothesis reached.2).bind fun _ => fun _ => rfl

end Forgetting

section Counting

/-- Successive values of a counter. -/
def successive (count : Nat) (nonce : Octets 24) : List (Octets 24) :=
  (List.range count).map fun i => incrementOctets^[i] nonce

/-- A run of nonces goes on where its first part stopped. -/
theorem successive_append (first second : Nat) (nonce : Octets 24) :
    successive (first + second) nonce =
      successive first nonce ++ successive second (incrementOctets^[first] nonce) := by
  unfold successive
  rw [List.range_add, List.map_append, List.map_map]
  simp only [Function.comp_def, Nat.add_comm first, Function.iterate_add_apply]

/-- An action notes at most so many successive nonces, and what it gives has moved on
past them. -/
def Notes {α : Type} (most : Nat) (nonce : Octets 24) (after : α → Octets 24)
    (action : Noting α) : Prop :=
  ∀ noted, ∃ count, count ≤ most ∧
    (action.run.run noted).2 = noted ++ successive count nonce ∧
    ∀ value, (action.run.run noted).1 = some value → after value = incrementOctets^[count] nonce

/-- Returning notes nothing. -/
theorem notes_pure {α : Type} (after : α → Octets 24) (value : α) :
    Notes 0 (after value) after (pure value) := by
  intro noted
  refine ⟨0, Nat.le_refl 0, (List.append_nil noted).symm, fun given equal => ?_⟩
  rw [← Option.some.inj equal]
  rfl

/-- A seal notes its nonce, whether the cipher refuses it or not. -/
theorem notes_seal (key : Octets 32) (nonce : Octets 24) (plaintext : Bytes) :
    Notes 1 nonce (fun _ => incrementOctets nonce) (noteSeal aead key nonce plaintext) :=
  fun _ => ⟨1, Nat.le_refl 1, rfl, fun _ _ => rfl⟩

/-- A bound on the notes may be raised. -/
theorem Notes.weaken {α : Type} {fewer most : Nat} {nonce : Octets 24} {after : α → Octets 24}
    {action : Noting α} (noting : Notes fewer nonce after action) (bounded : fewer ≤ most) :
    Notes most nonce after action := by
  intro noted
  obtain ⟨count, few, rest⟩ := noting noted
  exact ⟨count, few.trans bounded, rest⟩

/-- Actions in sequence note one run of nonces. -/
theorem Notes.bind {α β : Type} {first second : Nat} {nonce : Octets 24} {after : α → Octets 24}
    {last : β → Octets 24} {action : Noting α} {next : α → Noting β}
    (noting : Notes first nonce after action)
    (continuing : ∀ value, Notes second (after value) last (next value)) :
    Notes (first + second) nonce last (action >>= next) := by
  intro noted
  obtain ⟨count, bounded, notes, moved⟩ := noting noted
  rw [noting_bind_run, notes]
  cases given : (action.run.run noted).1 with
  | none => exact ⟨count, by omega, rfl, fun _ impossible => by cases impossible⟩
  | some value =>
    obtain ⟨more, moreBounded, moreNotes, moreMoved⟩ :=
      continuing value (noted ++ successive count nonce)
    have start := moved value given
    refine ⟨count + more, by omega, ?_, fun other result => ?_⟩
    · rw [successive_append, ← start, ← List.append_assoc]
      exact moreNotes
    · rw [Nat.add_comm, Function.iterate_add_apply, ← start]
      exact moreMoved other result

/-- The nonce of the state behind what was written. -/
def nonceAfter {α : Type} (written : α × SegmentState) : Octets 24 := written.2.nonce

/-- A segment is sealed under the nonce of the state, and its payload under the next
one; the state moves on past both. -/
theorem encrypt_segment_notes (state : SegmentState) (epochMinute : UInt64) (protoType : UInt8)
    (payload : Bytes) (first : Bool) :
    Notes 2 state.nonce nonceAfter
      (encryptSegmentWith (noteSeal aead) state epochMinute protoType payload first) := by
  have split : Notes (1 + (1 + 0)) state.nonce nonceAfter
      (encryptSegmentWith (noteSeal aead) state epochMinute protoType payload first) := by
    refine (notes_seal aead _ _ _).bind fun encMeta => ?_
    cases payload.isEmpty with
    | true =>
      simp only [if_true]
      exact (notes_pure nonceAfter _).weaken (Nat.zero_le 1)
    | false =>
      simp only [Bool.false_eq_true, if_false]
      refine (notes_seal aead _ (incrementOctets state.nonce) payload).bind fun encPayload => ?_
      exact notes_pure nonceAfter _
  exact split

/-- A run of segments seals under successive nonces, at most two for each. -/
theorem encrypt_segments_notes (calls : List Segment) (state : SegmentState) :
    Notes (2 * calls.length) state.nonce nonceAfter
      (encryptSegmentsWith (noteSeal aead) calls state) := by
  induction calls generalizing state with
  | nil => exact notes_pure nonceAfter _
  | cons call calls inductionHypothesis =>
    have run : Notes (2 + (2 * calls.length + 0)) state.nonce
        nonceAfter (encryptSegmentsWith (noteSeal aead) (call :: calls) state) := by
      refine (encrypt_segment_notes aead state _ _ _ _).bind fun reached => ?_
      exact (inductionHypothesis reached.2).bind fun written =>
        notes_pure nonceAfter _
    refine run.weaken ?_
    rw [List.length_cons]
    omega

/-- The nonces of a run are successive values of the counter. -/
theorem seal_nonces_exact (calls : List Segment) (state : SegmentState) :
    ∃ count, count ≤ 2 * calls.length ∧
      sealNonces aead calls state = successive count state.nonce := by
  obtain ⟨count, bounded, notes, -⟩ := encrypt_segments_notes aead calls state []
  exact ⟨count, bounded, notes⟩

end Counting

/-- A nonce grows by one modulo 2^192, its first octet being the least significant.
The nonces of a run of fewer than 2^192 seals are distinct, and the run without its
notes is that of the program's writer. -/
theorem seal_nonces_distinct (calls : List Segment) (state : SegmentState)
    (few : (sealNonces aead calls state).length < 2 ^ 192) :
    (sealNonces aead calls state).Nodup ∧
      littleEndianValue (incrementOctets state.nonce).toList =
        (littleEndianValue state.nonce.toList + 1) % 2 ^ 192 ∧
      ((encryptSegmentsWith (noteSeal aead) calls state).run.run []).1 =
        encryptSegmentsWith (cryptoSeal aead) calls state := by
  obtain ⟨count, -, nonces⟩ := seal_nonces_exact aead calls state
  refine ⟨?_, ?_, encrypt_segments_forget aead calls state []⟩
  · rw [nonces, successive, List.length_map, List.length_range] at few
    rw [nonces, successive]
    refine List.Nodup.map_on (fun i iInside j jInside same => ?_) List.nodup_range
    have width : 256 ^ 24 = 2 ^ 192 := by decide
    exact increment_octets_distinct i j state.nonce
      (width ▸ (List.mem_range.mp iInside).trans few)
      (width ▸ (List.mem_range.mp jInside).trans few) same
  · have value := increment_value state.nonce.toList
    rw [List.Vector.toList_length] at value
    exact value

/-- A segment with a payload between two without one. -/
theorem seal_nonces_distinct_mixed :
    (sealNonces AuthenticatedCiphers.xchacha20Poly1305
      [⟨1000, protoOpenSessionReq, [], true⟩, ⟨1000, protoDataC2s, [1, 2], false⟩,
        ⟨1001, protoDataC2s, [], false⟩] ⟨zeroOctets 32, zeroOctets 24, 0⟩).Nodup := by
  have few : (sealNonces AuthenticatedCiphers.xchacha20Poly1305
      [⟨1000, protoOpenSessionReq, [], true⟩, ⟨1000, protoDataC2s, [1, 2], false⟩,
        ⟨1001, protoDataC2s, [], false⟩] ⟨zeroOctets 32, zeroOctets 24, 0⟩).length < 2 ^ 192 := by
    obtain ⟨count, bounded, nonces⟩ := seal_nonces_exact AuthenticatedCiphers.xchacha20Poly1305
      [⟨1000, protoOpenSessionReq, [], true⟩, ⟨1000, protoDataC2s, [1, 2], false⟩,
        ⟨1001, protoDataC2s, [], false⟩] ⟨zeroOctets 32, zeroOctets 24, 0⟩
    rw [nonces, successive, List.length_map, List.length_range]
    exact Nat.lt_of_le_of_lt bounded (by decide)
  exact (seal_nonces_distinct AuthenticatedCiphers.xchacha20Poly1305 _ _ few).1

end OmniProxy.MieruNonces
