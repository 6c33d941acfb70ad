import OmniProxy.GuardedRuns
import OmniProxy.PbReaders
import Mathlib.Tactic.Common

/-!
# What the reader's operations do to its position

Each operation is given a second time with every addition, shift and slice checked. On a
buffer of less than 2^63 octets the checked reader does what the reader does. An operation
that returns moves the position forward within the buffer, and one that is refused leaves it
there. The program stops at one addition only: that of the position and a length, when a
length of nearly 2^64 is written in front of it.
-/

namespace OmniProxy.PbOperations

open ByteStrings EStateM GuardedRuns PbReaders ProtobufWire

section Operations

inductive Operation where
  | readVarint
  | readKey
  | readBytes
  | skipField (wire : Nat)

def Operation.act : Operation → Pb Unit
  | readVarint => do let _ ← PbReaders.readVarint
  | readKey => do let _ ← PbReaders.readKey
  | readBytes => do let _ ← PbReaders.readBytes
  | skipField wire => PbReaders.skipField wire

/-- The reader after an action, whatever its outcome. -/
def standing {ε α : Type} : EStateM.Result ε PbReader α → PbReader
  | .ok _ reader => reader
  | .error _ reader => reader

/-- The reader after an operation. -/
def step (reader : PbReader) (operation : Operation) : PbReader := standing (operation.act reader)

end Operations

section Positions

/-- The position is not behind the end of the buffer. -/
def Inside (reader : PbReader) : Prop := reader.pos ≤ reader.buf.length

/-- An action keeps the buffer and the position inside it, and moves the position by some
octets at least when it returns. -/
structure Moves {α : Type} (least : Nat) (action : Pb α) : Prop where
  buf : ∀ reader, (standing (action reader)).buf = reader.buf
  inside : ∀ reader, Inside reader → Inside (standing (action reader))
  back : ∀ reader, reader.pos ≤ (standing (action reader)).pos
  ahead : ∀ reader value after, action reader = .ok value after → reader.pos + least ≤ after.pos

variable {α β : Type}

/-- Returning takes no octets. -/
theorem moves_pure (value : α) : Moves 0 (pure value : Pb α) := by
  refine ⟨fun _ => rfl, fun _ inside => inside, fun _ => Nat.le_refl _, ?_⟩
  rintro reader value after ⟨⟩
  exact Nat.le_refl _

/-- A failing action never has to move. -/
theorem moves_throw (least : Nat) (fault : PbFault) : Moves least (throw fault : Pb α) := by
  refine ⟨fun _ => rfl, fun _ inside => inside, fun _ => Nat.le_refl _, ?_⟩
  rintro reader value after ⟨⟩

/-- Looking at the reader takes no octets. -/
theorem moves_get : Moves 0 (get : Pb PbReader) := by
  refine ⟨fun _ => rfl, fun _ inside => inside, fun _ => Nat.le_refl _, ?_⟩
  rintro reader value after ⟨⟩
  exact Nat.le_refl _

/-- What holds of the reader after the first action, and is kept by the next one, holds after
both. -/
theorem standing_bind {first : Pb α} {next : α → Pb β} (Holds : PbReader → Prop)
    (reader : PbReader) (one : Holds (standing (first reader)))
    (two : ∀ value after, Holds after → Holds (standing (next value after))) :
    Holds (standing ((first >>= next) reader)) := by
  cases ran : first reader with
  | ok value after =>
    rw [ran] at one
    rw [bind_returned ran]
    exact two value after one
  | error fault after =>
    rw [ran] at one
    rw [bind_failed ran]
    exact one

/-- In a sequence the movements add up. -/
theorem Moves.bind {first : Pb α} {next : α → Pb β} {least more : Nat} (one : Moves least first)
    (two : ∀ value, Moves more (next value)) : Moves (least + more) (first >>= next) := by
  refine ⟨fun reader => ?_, fun reader inside => ?_, fun reader => ?_, ?_⟩
  · exact standing_bind (fun after => after.buf = reader.buf) reader (one.buf reader)
      fun value after same => ((two value).buf after).trans same
  · exact standing_bind Inside reader (one.inside reader inside)
      fun value after stays => (two value).inside after stays
  · exact standing_bind (fun after => reader.pos ≤ after.pos) reader (one.back reader)
      fun value after order => order.trans ((two value).back after)
  · intro reader value after returned
    cases ran : first reader with
    | ok middle reached =>
      rw [bind_returned ran] at returned
      have start := one.ahead reader middle reached ran
      have rest := (two middle).ahead reached value after returned
      omega
    | error fault reached =>
      rw [bind_failed ran] at returned
      cases returned

/-- What comes after need not move. -/
theorem Moves.followed {first : Pb α} {next : α → Pb β} {least : Nat} (one : Moves least first)
    (two : ∀ value, Moves 0 (next value)) : Moves least (first >>= next) := one.bind two

/-- An action that takes octets takes at least fewer. -/
theorem Moves.weaken {action : Pb α} {least less : Nat} (moves : Moves least action)
    (order : less ≤ least) : Moves less action := by
  refine ⟨moves.buf, moves.inside, moves.back, fun reader value after returned => ?_⟩
  have ahead := moves.ahead reader value after returned
  omega

/-- What keeps the value of an action does not move back. -/
theorem Moves.returning {action : Pb α} {least : Nat} (moves : Moves least action) (keep : α → β) :
    Moves 0 (action >>= fun value => pure (keep value)) :=
  (moves.followed fun value => moves_pure (keep value)).weaken (Nat.zero_le least)

/-- A choice takes what both of its branches take at least. -/
theorem moves_if {condition : Prop} [Decidable condition] {least : Nat} {yes no : Pb α}
    (first : Moves least yes) (second : Moves least no) :
    Moves least (if condition then yes else no) := by
  split
  · exact first
  · exact second

/-- The next octet takes one. -/
theorem moves_next_octet : Moves 1 nextOctet := by
  refine ⟨fun reader => ?_, fun reader inside => ?_, fun reader => ?_, ?_⟩
  · simp only [nextOctet]
    split <;> rfl
  · simp only [nextOctet]
    split
    · exact inside
    · next octet there =>
      exact (List.getElem?_eq_some_iff.mp there).1
  · simp only [nextOctet]
    split
    · exact Nat.le_refl _
    · exact Nat.le_succ _
  · intro reader value after returned
    simp only [nextOctet] at returned
    split at returned
    · cases returned
    · cases returned
      exact Nat.le_refl _

/-- Moving on takes as many octets as asked for. -/
theorem moves_advance (count : Nat) : Moves count (advance count) := by
  refine ⟨fun reader => ?_, fun reader inside => ?_, fun reader => ?_, ?_⟩
  · simp only [advance]
    split <;> rfl
  · simp only [advance]
    split
    · exact inside
    · next fits => exact Nat.not_lt.mp fits
  · simp only [advance]
    split
    · exact Nat.le_refl _
    · exact Nat.le_add_right _ _
  · intro reader value after returned
    simp only [advance] at returned
    split at returned
    · cases returned
    · cases returned
      exact Nat.le_refl _

/-- Every group that is read is one octet at least. -/
theorem moves_groups (rounds shift result : Nat) : Moves 1 (readGroups rounds shift result) := by
  induction rounds generalizing shift result with
  | zero => exact moves_throw 1 _
  | succ rounds inductionHypothesis =>
    rw [readGroups]
    refine moves_next_octet.followed fun octet => ?_
    refine moves_if (moves_pure _) (moves_if ?_ ?_)
    · exact (moves_throw 0 _).followed fun _ => (inductionHypothesis _ _).weaken (by omega)
    · exact (inductionHypothesis _ _).weaken (by omega)

/-- A number takes at least one octet. -/
theorem moves_read_varint : Moves 1 readVarint := moves_groups 10 0 0

/-- A key takes at least one octet. -/
theorem moves_read_key : Moves 1 readKey := moves_read_varint.followed fun _ => moves_pure _

/-- A counted string takes at least the octet of its length. -/
theorem moves_read_bytes : Moves 1 readBytes := by
  refine moves_read_varint.followed fun len => ?_
  refine moves_get.followed fun reader => ?_
  refine moves_if ?_ ?_
  · exact (moves_throw 0 _).followed fun _ => (moves_advance len).weaken (Nat.zero_le len)
  · exact (moves_advance len).weaken (Nat.zero_le len)

/-- Skipping a field takes at least one octet. -/
theorem moves_skip_field (wire : Nat) : Moves 1 (skipField wire) := by
  unfold skipField
  split
  · exact moves_read_varint.followed fun _ => moves_pure _
  · exact moves_read_bytes.followed fun _ => moves_pure _
  · exact ((moves_advance 4).followed fun _ => moves_pure ()).weaken (by decide)
  · exact ((moves_advance 8).followed fun _ => moves_pure ()).weaken (by decide)
  · exact moves_throw 1 _

/-- Every operation that returns moves the position forward. -/
theorem moves_operation (operation : Operation) : Moves 1 operation.act := by
  cases operation with
  | readVarint => exact moves_read_varint.followed fun _ => moves_pure _
  | readKey => exact moves_read_key.followed fun _ => moves_pure _
  | readBytes => exact moves_read_bytes.followed fun _ => moves_pure _
  | skipField wire => exact moves_skip_field wire

end Positions

section Checked

/-- What stops the program. -/
inductive Panic where
  | addition
  | shift
  | slice
deriving DecidableEq

inductive CheckedFault where
  | refused (error : String)
  | panic (panic : Panic)
deriving DecidableEq

abbrev Checked := EStateM CheckedFault PbReader

/-- An addition of words below a bound. -/
def checkedSum (bound left right : Nat) : Checked Nat :=
  if bound ≤ left + right then throw (.panic .addition) else return left + right

/-- A shift of a word of 64 bits. -/
def checkedShift (value shift : Nat) : Checked Nat :=
  if 64 ≤ shift then throw (.panic .shift) else return (value <<< shift) % 2 ^ 64

/-- The octets between two positions of a buffer. -/
def slice (buf : Bytes) (first last : Nat) : Option Bytes :=
  if last < first ∨ buf.length < last then none else some ((buf.drop first).take (last - first))

def checkedNextOctet : Checked UInt8 := fun reader =>
  match reader.buf[reader.pos]? with
  | none => .error (.refused "pb: eof") reader
  | some octet =>
      if 2 ^ 64 ≤ reader.pos + 1 then .error (.panic .addition) reader
      else .ok octet { reader with pos := reader.pos + 1 }

def checkedGroups : Nat → Nat → Nat → Checked Nat
  | 0, _, _ => throw (.refused "pb: varint overflow")
  | rounds + 1, shift, result => do
      let octet ← checkedNextOctet
      let group ← checkedShift (octet &&& 0x7F).toNat shift
      let result := result ||| group
      if octet &&& 0x80 = 0 then return result
      let shift ← checkedSum (2 ^ 32) shift 7
      if 63 < shift then throw (.refused "pb: varint overflow")
      checkedGroups rounds shift result

def checkedVarint : Checked Nat := checkedGroups 10 0 0

def checkedAdvance (count : Nat) : Checked Bytes := fun reader =>
  if 2 ^ 64 ≤ reader.pos + count then .error (.panic .addition) reader
  else if reader.buf.length < reader.pos + count then .error (.refused "pb: truncated") reader
  else
    match slice reader.buf reader.pos (reader.pos + count) with
    | none => .error (.panic .slice) reader
    | some out => .ok out { reader with pos := reader.pos + count }

def checkedBytes : Checked Bytes := do
  let len ← checkedVarint
  checkedAdvance len

def checkedSkip (wire : Nat) : Checked Unit := do
  match wire with
  | 0 => let _ ← checkedVarint
  | 2 => let _ ← checkedBytes
  | 5 => let _ ← checkedAdvance 4
  | 1 => let _ ← checkedAdvance 8
  | _ => throw (.refused "pb: bad wire type")

def Operation.checked : Operation → Checked Unit
  | readVarint => do let _ ← checkedVarint
  | readKey => do let _ ← checkedVarint
  | readBytes => do let _ ← checkedBytes
  | skipField wire => checkedSkip wire

variable {α β : Type}

/-- The outcome of the reader as one of the checked reader. -/
def lifted : EStateM.Result PbFault PbReader α → EStateM.Result CheckedFault PbReader α
  | .ok value reader => .ok value reader
  | .error (.refused error) reader => .error (.refused error) reader
  | .error .overflow reader => .error (.panic .addition) reader

/-- A value of the checked reader is that of the plain reader. -/
theorem lifted_ok {result : EStateM.Result PbFault PbReader α} {value : α} {after : PbReader}
    (same : lifted result = .ok value after) : result = .ok value after := by
  cases result with
  | ok other reached =>
    cases same
    rfl
  | error fault reached => cases fault <;> cases same

/-- The checked reader panics where the reader is stopped. -/
theorem lifted_panic {result : EStateM.Result PbFault PbReader α} {panic : Panic}
    {after : PbReader} (same : lifted result = .error (.panic panic) after) :
    result = .error .overflow after := by
  cases result with
  | ok other reached => cases same
  | error fault reached =>
    cases fault with
    | refused error => cases same
    | overflow =>
      cases same
      rfl

/-- The checked action does what the other does on buffers that fit into memory. -/
def Agrees (checked : Checked α) (action : Pb α) : Prop :=
  ∀ reader, Inside reader → reader.buf.length < 2 ^ 63 → checked reader = lifted (action reader)

/-- Returning needs no check. -/
theorem agrees_pure (value : α) : Agrees (pure value) (pure value) := fun _ _ _ => rfl

/-- Refusing needs no check. -/
theorem agrees_refused (error : String) :
    Agrees (throw (.refused error) : Checked α) (throw (.refused error)) := fun _ _ _ => rfl

/-- Sequences agree when their parts do. -/
theorem Agrees.bind {checked : Checked α} {action : Pb α} {next : α → Checked β}
    {then_ : α → Pb β} {least : Nat} (first : Agrees checked action) (moves : Moves least action)
    (second : ∀ value, Agrees (next value) (then_ value)) :
    Agrees (checked >>= next) (action >>= then_) := by
  intro reader inside held
  have same := first reader inside held
  have stays := moves.inside reader inside
  have kept := moves.buf reader
  cases ran : action reader with
  | ok value after =>
    rw [ran] at same stays kept
    rw [bind_returned same, bind_returned ran]
    exact second value after stays (kept ▸ held)
  | error fault after =>
    rw [ran] at same
    rw [bind_failed ran]
    cases fault with
    | refused error => exact bind_failed same
    | overflow => exact bind_failed same

/-- A choice agrees when both branches do. -/
theorem agrees_if {condition : Prop} [Decidable condition] {yes no : Checked α} {yes' no' : Pb α}
    (first : Agrees yes yes') (second : Agrees no no') :
    Agrees (if condition then yes else no) (if condition then yes' else no') := by
  split
  · exact first
  · exact second

/-- The index of the next octet is inside whenever the checked reader looks at it. -/
theorem agrees_next_octet : Agrees checkedNextOctet nextOctet := by
  intro reader inside held
  have room : ¬2 ^ 64 ≤ reader.pos + 1 := by
    rw [Inside] at inside
    omega
  simp only [checkedNextOctet, nextOctet, if_neg room]
  cases reader.buf[reader.pos]? <;> rfl

/-- A slice that the buffer has is taken. -/
theorem slice_inside {buf : Bytes} {first count : Nat} (fits : ¬buf.length < first + count) :
    slice buf first (first + count) = some ((buf.drop first).take count) := by
  rw [slice, if_neg (by omega), Nat.add_sub_cancel_left]

/-- Moving over octets goes wrong at the addition alone. -/
theorem checked_advance_eq (count : Nat) (reader : PbReader) :
    checkedAdvance count reader =
      if 2 ^ 64 ≤ reader.pos + count then .error (.panic .addition) reader
      else lifted (advance count reader) := by
  rw [checkedAdvance, advance]
  split_ifs with large truncated
  · rfl
  · rfl
  · rw [slice_inside truncated]
    rfl

/-- A short distance is added to the position without harm. -/
theorem agrees_advance (count : Nat) (short : count ≤ 2 ^ 63) :
    Agrees (checkedAdvance count) (advance count) := by
  intro reader inside held
  rw [Inside] at inside
  rw [checked_advance_eq, if_neg (by omega)]

/-- The groups of a number shift by less than seventy bits, which the checks allow. -/
theorem agrees_groups (rounds shift result : Nat) (rest : shift + 7 * rounds = 70) :
    Agrees (checkedGroups rounds shift result) (readGroups rounds shift result) := by
  induction rounds generalizing shift result with
  | zero => exact agrees_refused _
  | succ rounds inductionHypothesis =>
    have narrow : ¬64 ≤ shift := by omega
    have small : ¬2 ^ 32 ≤ shift + 7 := by omega
    rw [checkedGroups, readGroups]
    refine agrees_next_octet.bind moves_next_octet fun octet => ?_
    simp only [checkedShift, checkedSum, if_neg narrow, if_neg small, pure_bind]
    refine agrees_if (agrees_pure _) (agrees_if ?_ (inductionHypothesis _ _ (by omega)))
    exact agrees_refused _

/-- The checked number is the plain one. -/
theorem agrees_varint : Agrees checkedVarint readVarint := agrees_groups 10 0 0 rfl

/-- The checked string is the plain one: the sum of position and length does not overflow.
-/
theorem agrees_bytes : Agrees checkedBytes readBytes := by
  refine agrees_varint.bind moves_read_varint fun len reader inside held => ?_
  rw [checked_advance_eq, get_then]
  split <;> rfl

/-- The checked skip is the plain one. -/
theorem agrees_skip (wire : Nat) : Agrees (checkedSkip wire) (skipField wire) := by
  have eight := (agrees_advance 8 (by decide)).bind (moves_advance 8) fun _ => agrees_pure ()
  have four := (agrees_advance 4 (by decide)).bind (moves_advance 4) fun _ => agrees_pure ()
  rcases wire with _ | _ | _ | _ | _ | _ | wire
  · exact agrees_varint.bind moves_read_varint fun _ => agrees_pure ()
  · exact eight
  · exact agrees_bytes.bind moves_read_bytes fun _ => agrees_pure ()
  · exact agrees_refused _
  · exact agrees_refused _
  · exact four
  · exact agrees_refused _

/-- The checked reader does what the reader does, operation by operation. -/
theorem agrees_operation (operation : Operation) : Agrees operation.checked operation.act := by
  cases operation with
  | readVarint => exact agrees_varint.bind moves_read_varint fun _ => agrees_pure _
  | readKey =>
    simp only [Operation.checked, Operation.act, PbReaders.readKey, bind_assoc, pure_bind]
    exact agrees_varint.bind moves_read_varint fun _ => agrees_pure _
  | readBytes => exact agrees_bytes.bind moves_read_bytes fun _ => agrees_pure _
  | skipField wire => exact agrees_skip wire

end Checked

section Runs

/-- At the position a length is written, in ten octets at most, that reaches 2^64 from behind
it. Of the length the lowest 64 bits count. -/
def LongLength (reader : PbReader) : Prop :=
  ∃ octets len, Groups octets len ∧ octets.length ≤ 10 ∧ octets <+: reader.buf.drop reader.pos ∧
    2 ^ 64 ≤ reader.pos + octets.length + len % 2 ^ 64

/-- Where a number is read, groups are written. -/
theorem groups_read (rounds shift result : Nat) (reader : PbReader) (value : Nat)
    (after : PbReader) (read : readGroups rounds shift result reader = .ok value after) :
    ∃ octets written, Groups octets written ∧ octets.length ≤ rounds ∧
      octets <+: reader.buf.drop reader.pos := by
  induction rounds generalizing shift result reader with
  | zero => cases read
  | succ rounds inductionHypothesis =>
    rw [readGroups] at read
    cases first : reader.buf[reader.pos]? with
    | none =>
      rw [bind_failed (show nextOctet reader = _ by rw [nextOctet, first])] at read
      cases read
    | some octet =>
      obtain ⟨bound, found⟩ := List.getElem?_eq_some_iff.mp first
      have front : reader.buf.drop reader.pos = octet :: reader.buf.drop (reader.pos + 1) := by
        rw [List.drop_eq_getElem_cons bound, found]
      rw [bind_returned (show nextOctet reader = _ by rw [nextOctet, first])] at read
      by_cases clear : octet &&& 0x80 = 0
      · have low := (high_bit_clear_iff octet).mp clear
        refine ⟨[octet], octet.toNat, .last octet low, by simp, ?_⟩
        rw [front]
        exact ⟨_, rfl⟩
      · have high : 128 ≤ octet.toNat := by
          rw [high_bit_clear_iff] at clear
          omega
        simp only [if_neg clear] at read
        split at read
        · cases read
        · obtain ⟨octets, written, groups, short, there⟩ := inductionHypothesis _ _ _ read
          refine ⟨octet :: octets, _, groups.more octet octets written high, ?_, ?_⟩
          · exact Nat.succ_le_succ short
          · rw [front]
            exact (List.prefix_cons_inj octet).mpr there

/-- A number is read exactly where it is written, in ten octets at most. -/
theorem read_varint_iff (reader : PbReader) (inside : Inside reader)
    (held : reader.buf.length < 2 ^ 64) (value : Nat) (after : PbReader) :
    readVarint reader = .ok value after ↔
      ∃ octets written, Groups octets written ∧ octets.length ≤ 10 ∧
        octets <+: reader.buf.drop reader.pos ∧ value = written % 2 ^ 64 ∧
        after = ⟨reader.buf, reader.pos + octets.length⟩ := by
  have reads {octets : Bytes} {written : Nat} (groups : Groups octets written)
      (short : octets.length ≤ 10) (there : octets <+: reader.buf.drop reader.pos) :
      readVarint reader = .ok (written % 2 ^ 64) ⟨reader.buf, reader.pos + octets.length⟩ := by
    obtain ⟨back, rest⟩ := there
    have whole : reader.buf.take reader.pos ++ octets ++ back = reader.buf := by
      rw [List.append_assoc, rest, List.take_append_drop]
    have front : (reader.buf.take reader.pos).length = reader.pos := by
      rw [List.length_take, Nat.min_eq_left inside]
    have read := reads_groups groups 10 0 0 rfl short (by decide) (reader.buf.take reader.pos)
      back (by rwa [whole])
    rw [whole, List.length_append, front, Nat.zero_add, Nat.pow_zero, Nat.mul_one] at read
    exact read
  constructor
  · intro read
    obtain ⟨octets, written, groups, short, there⟩ := groups_read 10 0 0 reader value after read
    rw [reads groups short there] at read
    cases read
    exact ⟨octets, written, groups, short, there, rfl, rfl⟩
  · rintro ⟨octets, written, groups, short, there, rfl, rfl⟩
    exact reads groups short there

/-- A length is long when the sum of the position behind it and the length is. -/
theorem long_length_iff (reader : PbReader) (inside : Inside reader)
    (held : reader.buf.length < 2 ^ 64) :
    LongLength reader ↔
      ∃ len after, readVarint reader = .ok len after ∧ 2 ^ 64 ≤ after.pos + len := by
  constructor
  · rintro ⟨octets, written, groups, short, there, large⟩
    refine ⟨_, _, (read_varint_iff reader inside held _ _).mpr
      ⟨octets, written, groups, short, there, rfl, rfl⟩, large⟩
  · rintro ⟨len, after, read, large⟩
    obtain ⟨octets, written, groups, short, there, rfl, rfl⟩ :=
      (read_varint_iff reader inside held len after).mp read
    exact ⟨octets, written, groups, short, there, large⟩

/-- An operation that reads a length. -/
def Operation.ReadsLength (operation : Operation) : Prop :=
  operation = .readBytes ∨ operation = .skipField 2

/-- An action does not stop the program. -/
def Returns {α : Type} (action : Pb α) : Prop :=
  ∀ reader after, action reader ≠ .error .overflow after

/-- Two actions in sequence do not stop the program when neither does. -/
theorem returns_bind {α β : Type} {first : Pb α} {next : α → Pb β} (one : Returns first)
    (two : ∀ value, Returns (next value)) : Returns (first >>= next) := by
  intro reader after stopped
  cases ran : first reader with
  | ok value reached =>
    rw [bind_returned ran] at stopped
    exact two value reached after stopped
  | error fault reached =>
    rw [bind_failed ran] at stopped
    cases stopped
    exact one reader after ran

/-- Returning does not stop the program. -/
theorem returns_pure {α : Type} (value : α) : Returns (pure value : Pb α) := by
  rintro reader after ⟨⟩

/-- A refusal is an error that the caller gets, not a stop. -/
theorem returns_refused {α : Type} (error : String) :
    Returns (throw (.refused error) : Pb α) := by
  rintro reader after ⟨⟩

/-- A choice does not stop the program when neither branch does. -/
theorem returns_if {α : Type} {condition : Prop} [Decidable condition] {yes no : Pb α}
    (first : Returns yes) (second : Returns no) : Returns (if condition then yes else no) := by
  split
  · exact first
  · exact second

/-- The next octet does not stop the program. -/
theorem returns_next_octet : Returns nextOctet := by
  intro reader after stopped
  simp only [nextOctet] at stopped
  split at stopped <;> cases stopped

/-- Moving on does not stop the program. -/
theorem returns_advance (count : Nat) : Returns (advance count) := by
  intro reader after stopped
  simp only [advance] at stopped
  split at stopped <;> cases stopped

/-- The groups of a number do not stop the program. -/
theorem returns_groups (rounds shift result : Nat) : Returns (readGroups rounds shift result) := by
  induction rounds generalizing shift result with
  | zero => exact returns_refused _
  | succ rounds inductionHypothesis =>
    rw [readGroups]
    refine returns_bind returns_next_octet fun octet => ?_
    exact returns_if (returns_pure _) (returns_if
      (returns_bind (returns_refused _) fun _ => inductionHypothesis _ _) (inductionHypothesis _ _))

/-- Reading a number does not stop the program. -/
theorem returns_varint : Returns readVarint := returns_groups 10 0 0

/-- Reading octets stops the program exactly at a long length. -/
theorem read_bytes_stops_iff (reader : PbReader) (inside : Inside reader)
    (held : reader.buf.length < 2 ^ 64) :
    (∃ after, readBytes reader = .error .overflow after) ↔ LongLength reader := by
  rw [readBytes, long_length_iff reader inside held]
  cases ran : readVarint reader with
  | error fault reached =>
    rw [bind_failed ran]
    constructor
    · rintro ⟨after, stopped⟩
      obtain rfl : fault = .overflow := by
        cases stopped
        rfl
      exact absurd ran (returns_varint reader reached)
    · rintro ⟨len, after, read, -⟩
      cases read
  | ok len reached =>
    rw [bind_returned ran, get_then]
    constructor
    · rintro ⟨after, stopped⟩
      by_cases large : 2 ^ 64 ≤ reached.pos + len
      · exact ⟨len, reached, rfl, large⟩
      · rw [if_neg large] at stopped
        exact absurd stopped (returns_advance len reached after)
    · rintro ⟨other, after, read, large⟩
      cases read
      exact ⟨reached, by rw [if_pos large]; rfl⟩

/-- An operation stops the program exactly when it reads a long length. -/
theorem act_stops_iff (reader : PbReader) (operation : Operation) (inside : Inside reader)
    (held : reader.buf.length < 2 ^ 64) :
    (∃ after, operation.act reader = .error .overflow after) ↔
      operation.ReadsLength ∧ LongLength reader := by
  have dropped {α : Type} (action : Pb α) :
      (∃ after, (action >>= fun _ => pure ()) reader = .error .overflow after) ↔
        ∃ after, action reader = .error .overflow after := by
    cases ran : action reader with
    | ok value reached =>
      rw [bind_returned ran]
      constructor <;> rintro ⟨after, stopped⟩ <;> cases stopped
    | error fault reached =>
      rw [bind_failed ran]
      constructor <;> rintro ⟨after, stopped⟩ <;> cases stopped <;> exact ⟨_, rfl⟩
  have never (other : ¬operation.ReadsLength) (returns : Returns operation.act) :
      (∃ after, operation.act reader = .error .overflow after) ↔
        operation.ReadsLength ∧ LongLength reader := by
    constructor
    · rintro ⟨after, stopped⟩
      exact absurd stopped (returns reader after)
    · rintro ⟨reads, -⟩
      exact absurd reads other
  cases operation with
  | readVarint =>
    exact never (by simp [Operation.ReadsLength])
      (returns_bind returns_varint fun _ => returns_pure _)
  | readKey =>
    exact never (by simp [Operation.ReadsLength])
      (returns_bind (returns_bind returns_varint fun _ => returns_pure _) fun _ => returns_pure _)
  | readBytes =>
    rw [and_iff_right (.inl rfl), ← read_bytes_stops_iff reader inside held]
    exact dropped readBytes
  | skipField wire =>
    by_cases two : wire = 2
    · subst two
      rw [and_iff_right (.inr rfl), ← read_bytes_stops_iff reader inside held]
      exact dropped readBytes
    · refine never (by simp [Operation.ReadsLength, two]) ?_
      simp only [Operation.act]
      unfold skipField
      split
      · exact returns_bind returns_varint fun _ => returns_pure _
      · exact absurd rfl two
      · exact returns_bind (returns_advance 4) fun _ => returns_pure _
      · exact returns_bind (returns_advance 8) fun _ => returns_pure _
      · exact returns_refused _

/-- What an operation does when all goes well: nothing stops the checked reader, the position
stays inside the buffer, and an operation that returns moves it forward. -/
structure Sound (reader : PbReader) (operation : Operation) : Prop where
  unbroken : ∀ panic after, operation.checked reader ≠ .error (.panic panic) after
  inside : Inside (step reader operation)
  progress : ∀ value after, operation.checked reader = .ok value after → reader.pos < after.pos

/-- The operation reads no long length. -/
def ShortLength (reader : PbReader) (operation : Operation) : Prop :=
  operation.ReadsLength → ¬LongLength reader

/-- On a buffer that fits into memory an operation is sound exactly when it reads no long
length. -/
theorem sound_iff (reader : PbReader) (operation : Operation) (inside : Inside reader)
    (held : reader.buf.length < 2 ^ 63) :
    Sound reader operation ↔ ShortLength reader operation := by
  have agrees := agrees_operation operation reader inside held
  have moves := moves_operation operation
  have stops := act_stops_iff reader operation inside (held.trans (by decide))
  constructor
  · rintro ⟨unbroken, -, -⟩ reads long
    obtain ⟨after, stopped⟩ := stops.mpr ⟨reads, long⟩
    rw [stopped] at agrees
    exact unbroken .addition after agrees
  · intro short
    refine ⟨fun panic after broken => ?_, moves.inside reader inside, ?_⟩
    · rw [agrees] at broken
      obtain ⟨reads, long⟩ := stops.mp ⟨after, lifted_panic broken⟩
      exact short reads long
    · intro value after returned
      rw [agrees] at returned
      exact moves.ahead reader value after (lifted_ok returned)

/-- The reader is over the buffer, with its position inside. -/
def Within (buf : Bytes) (reader : PbReader) : Prop := reader.buf = buf ∧ Inside reader

/-- A fresh reader stands at the start of its buffer. -/
theorem start_within (buf : Bytes) : Within buf (PbReader.new buf) := ⟨rfl, Nat.zero_le buf.length⟩

/-- Every operation leaves the position inside the buffer. -/
theorem step_within (buf : Bytes) (reader : PbReader) (operation : Operation)
    (within : Within buf reader) : Within buf (step reader operation) := by
  have moves := moves_operation operation
  exact ⟨(moves.buf reader).trans within.1, moves.inside reader within.2⟩

/-- Every run of operations leaves the position inside the buffer. -/
theorem run_within (buf : Bytes) (operations : List Operation) :
    Within buf (run step (PbReader.new buf) operations) :=
  run_kept (start_within buf) (step_within buf) operations

/-- In a run of operations all are sound exactly when none reads a long length. -/
theorem run_sound_iff (buf : Bytes) (held : buf.length < 2 ^ 63) (operations : List Operation) :
    EachStep step (PbReader.new buf) Sound operations ↔
      EachStep step (PbReader.new buf) ShortLength operations := by
  have same (reader : PbReader) (operation : Operation) (within : Within buf reader) :
      Sound reader operation ↔ ShortLength reader operation :=
    sound_iff reader operation within.2 (by rwa [within.1])
  exact each_step_congr (start_within buf) (step_within buf) same operations

end Runs

end OmniProxy.PbOperations
