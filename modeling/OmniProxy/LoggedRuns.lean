import Mathlib.Data.List.Induction

/-!
# Machines that keep a log

A machine takes events in any order and appends at most one item to its log at
each of them. The machine carries the proof that its log grows in no other way. A
run is any list of events. All items in the log of a run have a property exactly
when each step of the run emits only an item that has it.

Nothing here refers to a particular program.
-/

namespace OmniProxy.LoggedRuns

/-- A state machine with a log of what its steps emit. -/
structure LoggedMachine (Item : Type) where
  State : Type
  Event : Type
  start : State
  step : State → Event → State
  log : State → List Item
  emits : State → Event → Option Item
  startsEmpty : log start = []
  appends : ∀ state event, log (step state event) = log state ++ (emits state event).toList

variable {Item : Type}

/-- The state after a list of events. -/
def LoggedMachine.run (machine : LoggedMachine Item) (events : List machine.Event) :
    machine.State := events.foldl machine.step machine.start

/-- Every step of a run emits only items with a property. -/
def LoggedMachine.EachStep (machine : LoggedMachine Item) (Allowed : Item → Prop)
    (events : List machine.Event) : Prop :=
  ∀ before event after, events = before ++ event :: after →
    ∀ item ∈ machine.emits (machine.run before) event, Allowed item

/-- One more event extends the condition on the steps by the last one. -/
theorem each_step_snoc (machine : LoggedMachine Item) (Allowed : Item → Prop)
    (events : List machine.Event) (event : machine.Event) :
    machine.EachStep Allowed (events ++ [event]) ↔ machine.EachStep Allowed events ∧
      ∀ item ∈ machine.emits (machine.run events) event, Allowed item := by
  constructor
  · intro allowed
    refine ⟨?_, allowed events event [] rfl⟩
    rintro before other after rfl
    exact allowed before other (after ++ [event]) (by simp)
  · rintro ⟨allowed, last⟩ before other after split
    rcases List.eq_nil_or_concat after with rfl | ⟨after, final, rfl⟩
    · obtain ⟨rfl, rfl⟩ : events = before ∧ event = other := by
        simpa using List.append_inj' split rfl
      exact last
    · have earlier : events = before ++ other :: after := by
        have shifted : events ++ [event] = (before ++ other :: after) ++ [final] := by
          simpa using split
        exact (List.append_inj' shifted rfl).1
      exact allowed before other after earlier

/-- All items in the log of a run have a property exactly when each step emits only
such items. The log after one more event is the log before it and what it emits. -/
theorem log_forall_iff (machine : LoggedMachine Item) (Allowed : Item → Prop)
    (events : List machine.Event) :
    (∀ item ∈ machine.log (machine.run events), Allowed item) ↔
      machine.EachStep Allowed events := by
  induction events using List.reverseRecOn with
  | nil => simp [LoggedMachine.run, machine.startsEmpty, LoggedMachine.EachStep]
  | append_singleton events event inductionHypothesis =>
    have stepped : machine.run (events ++ [event]) = machine.step (machine.run events) event := by
      simp [LoggedMachine.run]
    rw [each_step_snoc, ← inductionHypothesis, stepped, machine.appends]
    simp only [List.mem_append, Option.mem_toList, Option.mem_def, or_imp, forall_and]

end OmniProxy.LoggedRuns
