import OmniProxy.ByteStrings
import Mathlib.Tactic.Common

/-!
# Exact reads and ordered writes on one connection

A connection has the octets still to arrive and the octets already written. An
exact read takes a known number of octets or fails with an unexpected end,
leaving nothing to read; how the transport cuts the octets into segments cannot
be observed through it. A write appends. Actions run in sequence and keep the
connection they reached when they fail, so a refusal still shows what had been
consumed and sent.

The transport itself is taken to accept every write.
-/

namespace OmniProxy.Connections

open ByteStrings

/-- Error classes an action can report. -/
inductive ErrorKind where
  | unexpectedEof
  | invalidData
  | other
  | permissionDenied
  | unsupported
  | brokenPipe
  | connectionRefused
deriving DecidableEq, Repr

/-- An error class with its text. -/
structure IoError where
  kind : ErrorKind
  message : String
deriving DecidableEq, Repr

/-- An error of the catch-all class. -/
def IoError.ofText (message : String) : IoError := ⟨.other, message⟩

/-- The error of an exact read that meets the end of its input. -/
def earlyEof : IoError := ⟨.unexpectedEof, "early eof"⟩

/-- Octets still to be read and octets written so far, both in order. -/
structure Conn where
  incoming : Bytes
  written : Bytes
deriving DecidableEq, Repr

/-- Actions on a connection; a failed action keeps the connection it reached. -/
abbrev Io := EStateM IoError Conn

/-- Split off exactly `count` octets when that many remain. -/
def splitExact (count : Nat) (incoming : Bytes) : Option (Bytes × Bytes) :=
  if count ≤ incoming.length then some (incoming.take count, incoming.drop count) else none

/-- The front of a concatenation is split off whole. -/
theorem split_exact_append (count : Nat) (front rest : Bytes) (width : front.length = count) :
    splitExact count (front ++ rest) = some (front, rest) := by
  subst width
  simp [splitExact]

/-- A successful split has the requested width and rejoins to its input. -/
theorem split_exact_some (count : Nat) (incoming front rest : Bytes)
    (split : splitExact count incoming = some (front, rest)) :
    front.length = count ∧ front ++ rest = incoming := by
  unfold splitExact at split
  split at split
  · obtain ⟨rfl, rfl⟩ := Prod.mk.inj (Option.some.inj split)
    refine ⟨by simp; omega, List.take_append_drop _ _⟩
  · simp at split

/-- Read exactly `count` octets. -/
def readExact (count : Nat) : Io Bytes := fun conn =>
  match splitExact count conn.incoming with
  | some (front, rest) => .ok front { conn with incoming := rest }
  | none => .error earlyEof { conn with incoming := [] }

/-- Read an array of a fixed number of octets. -/
def readArray (count : Nat) : Io (Octets count) := fun conn =>
  if enough : count ≤ conn.incoming.length then
    .ok (octetsOf count conn.incoming enough) { conn with incoming := conn.incoming.drop count }
  else .error earlyEof { conn with incoming := [] }

/-- Append octets to what has been written. -/
def writeAll (bytes : Bytes) : Io Unit := fun conn =>
  .ok () { conn with written := conn.written ++ bytes }

/-- Lift a refusable computation into an action. -/
def orThrow {α : Type} (error : IoError) : Option α → Io α
  | some value => pure value
  | none => throw error

/-- Refuse when a condition holds. -/
def rejectIf (condition : Prop) [Decidable condition] (error : IoError) : Io Unit :=
  if condition then throw error else pure ()

/-- Lift a computation that carries its own error. -/
def fromExcept {α : Type} : Except IoError α → Io α
  | .ok value => pure value
  | .error error => throw error

/-- Octets of the width that stand in front are read and leave the rest. -/
@[simp] theorem read_exact_append (count : Nat) (front rest written : Bytes)
    (width : front.length = count) :
    (readExact count).run ⟨front ++ rest, written⟩ = .ok front ⟨rest, written⟩ := by
  simp only [readExact, EStateM.run, split_exact_append count front rest width]

/-- An array that stands in front is read and leaves the rest. -/
@[simp] theorem read_array_append {count : Nat} (front : Octets count) (rest written : Bytes) :
    (readArray count).run ⟨front.toList ++ rest, written⟩ = .ok front ⟨rest, written⟩ := by
  obtain ⟨bytes, width⟩ := front
  have enough : count ≤ (bytes ++ rest).length := by simp; omega
  have front : octetsOf count (bytes ++ rest) enough = ⟨bytes, width⟩ :=
    Subtype.ext (by simp [octetsOf, ← width])
  have remainder : (bytes ++ rest).drop count = rest := by simp [← width]
  simp only [readArray, EStateM.run, List.Vector.toList_mk, enough, ↓reduceDIte, front, remainder]

/-- A write adds its octets behind those written. -/
@[simp] theorem write_all_run (bytes : Bytes) (conn : Conn) :
    (writeAll bytes).run conn = .ok () { conn with written := conn.written ++ bytes } := rfl

/-- Looking at the connection leaves it as it is. -/
@[simp] theorem map_get_run {α : Type} (value : Conn → α) (conn : Conn) :
    EStateM.run (value <$> (get : Io Conn)) conn = .ok (value conn) conn := rfl

/-- An error ends the run and keeps the connection. -/
@[simp] theorem throw_run {α : Type} (error : IoError) (conn : Conn) :
    (throw error : Io α).run conn = .error error conn := rfl

/-- A value that is there is returned. -/
@[simp] theorem or_throw_some {α : Type} (error : IoError) (value : α) :
    orThrow error (some value) = pure value := rfl

/-- A value that is not there is the error. -/
@[simp] theorem or_throw_none {α : Type} (error : IoError) :
    orThrow error (none : Option α) = throw error := rfl

/-- What passes the check is not rejected. -/
@[simp] theorem reject_if_not {condition : Prop} [Decidable condition] (error : IoError)
    (passes : ¬condition) : rejectIf condition error = pure () := by
  simp [rejectIf, passes]

/-- A good result is returned. -/
@[simp] theorem from_except_ok {α : Type} (value : α) :
    fromExcept (.ok value) = pure value := rfl

/-- A sequence returns a value exactly when its first action returns one from which
the second goes on. -/
theorem bind_yields_iff {ε σ α β : Type} (first : EStateM ε σ α) (next : α → EStateM ε σ β)
    (conn after : σ) (value : β) :
    (first >>= next).run conn = .ok value after ↔
      ∃ middle reached, first.run conn = .ok middle reached ∧
        (next middle).run reached = .ok value after := by
  rw [EStateM.run_bind]
  cases first.run conn with
  | ok middle reached => simp
  | error error reached => simp

/-- Returning yields its value and keeps the connection. -/
theorem pure_yields_iff {ε σ α : Type} (returned value : α) (conn after : σ) :
    (pure returned : EStateM ε σ α).run conn = .ok value after ↔
      returned = value ∧ conn = after := by
  rw [EStateM.run_pure, EStateM.Result.ok.injEq]

/-- An exact read returns the octets in front and leaves the rest. -/
theorem read_exact_yields_iff (count : Nat) (conn after : Conn) (front : Bytes) :
    (readExact count).run conn = .ok front after ↔
      front.length = count ∧ conn.incoming = front ++ after.incoming ∧
        after.written = conn.written := by
  obtain ⟨incoming, written⟩ := conn
  constructor
  · intro read
    cases split : splitExact count incoming with
    | none => simp [readExact, EStateM.run, split] at read
    | some parts =>
      obtain ⟨width, rejoined⟩ := split_exact_some count incoming parts.1 parts.2 split
      simp only [readExact, EStateM.run, split, EStateM.Result.ok.injEq] at read
      obtain ⟨rfl, rfl⟩ := read
      exact ⟨width, rejoined.symm, rfl⟩
  · rintro ⟨width, rfl, rfl⟩
    exact read_exact_append count front after.incoming after.written width

/-- An array is read exactly when it stands in front. -/
theorem read_array_yields_iff {count : Nat} (conn after : Conn) (front : Octets count) :
    (readArray count).run conn = .ok front after ↔
      conn.incoming = front.toList ++ after.incoming ∧ after.written = conn.written := by
  obtain ⟨incoming, written⟩ := conn
  constructor
  · intro read
    by_cases enough : count ≤ incoming.length
    · simp only [readArray, EStateM.run, enough, dif_pos, EStateM.Result.ok.injEq] at read
      obtain ⟨rfl, rfl⟩ := read
      exact ⟨(List.take_append_drop count incoming).symm, rfl⟩
    · simp [readArray, EStateM.run, enough] at read
  · rintro ⟨rfl, rfl⟩
    exact read_array_append front after.incoming after.written

/-- A write yields nothing but its octets. -/
theorem write_all_yields_iff (bytes : Bytes) (conn after : Conn) (value : Unit) :
    (writeAll bytes).run conn = .ok value after ↔
      { conn with written := conn.written ++ bytes } = after := by
  simp

/-- A check yields exactly when it passes, and keeps the connection. -/
theorem reject_if_yields_iff (condition : Prop) [Decidable condition] (error : IoError)
    (conn after : Conn) (value : Unit) :
    (rejectIf condition error).run conn = .ok value after ↔ ¬condition ∧ conn = after := by
  by_cases holds : condition
  · simp [rejectIf, holds]
  · simp [rejectIf, holds]

/-- A value is yielded exactly when it is there. -/
theorem or_throw_yields_iff {α : Type} (error : IoError) (given : Option α) (conn after : Conn)
    (value : α) :
    (orThrow error given).run conn = .ok value after ↔ given = some value ∧ conn = after := by
  cases given <;> simp

/-- The action returned a value. -/
def Accepts {α : Type} : EStateM.Result IoError Conn α → Prop
  | .ok _ _ => True
  | .error _ _ => False

/-- The connection a run ended with, whether it succeeded or not. -/
def finalConn {α : Type} : EStateM.Result IoError Conn α → Conn
  | .ok _ conn => conn
  | .error _ conn => conn

/-- An action that writes nothing, whether it succeeds or not. -/
def Silent {α : Type} (action : Io α) : Prop :=
  ∀ conn, (finalConn (action.run conn)).written = conn.written

/-- Returning writes nothing. -/
theorem silent_pure {α : Type} (value : α) : Silent (pure value : Io α) := fun _ => rfl

/-- Failing writes nothing. -/
theorem silent_throw {α : Type} (error : IoError) : Silent (throw error : Io α) := fun _ => rfl

/-- Looking at the connection writes nothing. -/
theorem silent_get : Silent (get : Io Conn) := fun _ => rfl

/-- Reading writes nothing. -/
theorem silent_read_exact (count : Nat) : Silent (readExact count) := by
  intro conn
  simp only [readExact, EStateM.run]
  split <;> rfl

/-- Returning a value or failing writes nothing. -/
theorem silent_or_throw {α : Type} (error : IoError) (value : Option α) :
    Silent (orThrow error value) := by
  cases value with
  | none => exact silent_throw error
  | some value => exact silent_pure value

/-- A result that was computed writes nothing. -/
theorem silent_from_except {α : Type} (result : Except IoError α) :
    Silent (fromExcept result) := by
  cases result with
  | error error => exact silent_throw error
  | ok value => exact silent_pure value

/-- A check writes nothing. -/
theorem silent_reject_if (condition : Prop) [Decidable condition] (error : IoError) :
    Silent (rejectIf condition error) := by
  unfold rejectIf
  split
  · exact silent_throw error
  · exact silent_pure ()

/-- Two silent actions in sequence are silent. -/
theorem silent_bind {α β : Type} {first : Io α} {next : α → Io β} (quiet : Silent first)
    (then_quiet : ∀ value, Silent (next value)) : Silent (first >>= next) := by
  intro conn
  have start := quiet conn
  rw [EStateM.run_bind]
  cases ran : first.run conn with
  | ok value after =>
    rw [ran] at start
    exact (then_quiet value after).trans start
  | error error after =>
    rw [ran] at start
    exact start

end OmniProxy.Connections
