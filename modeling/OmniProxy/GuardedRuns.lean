import Mathlib.Data.List.Induction

/-!
# Runs and conditions on their steps

A run is any list of events taken from a start state. An invariant that each step
keeps when the step meets a condition holds in every state of a run whose steps all
meet it. When, in addition, a step that does not meet the condition leads to a state
without the wanted property, the property holds throughout a run exactly when every
step of the run meets the condition. A run comes to rest when every step that has an
effect makes a weight smaller.

Nothing here refers to a particular program.
-/

namespace OmniProxy.GuardedRuns

variable {State Event : Type} (step : State → Event → State) (start : State)

/-- The state after a list of events. -/
def run (events : List Event) : State := events.foldl step start

/-- A property holds in every state of a run. -/
def Always (Good : State → Prop) (events : List Event) : Prop :=
  ∀ before after, events = before ++ after → Good (run step start before)

/-- Every step of a run meets a condition on the state before it. -/
def EachStep (Meets : State → Event → Prop) (events : List Event) : Prop :=
  ∀ before event after, events = before ++ event :: after → Meets (run step start before) event

variable {step start}

/-- A run over two lists of events is a run over the first and then over the second. -/
theorem run_append (before after : List Event) :
    run step start (before ++ after) = run step (run step start before) after :=
  List.foldl_append

/-- A run takes its last event after all others. -/
theorem run_snoc (events : List Event) (event : Event) :
    run step start (events ++ [event]) = step (run step start events) event := by
  rw [run_append]
  rfl

/-- The steps of the beginning of a run are steps of the run. -/
theorem each_step_before {Meets : State → Event → Prop} {before after : List Event}
    (each : EachStep step start Meets (before ++ after)) : EachStep step start Meets before := by
  rintro earlier event later rfl
  exact each earlier event (later ++ after) (by simp)

/-- Without events every step meets the condition. -/
theorem each_step_nil {Meets : State → Event → Prop} : EachStep step start Meets [] :=
  fun before event after split => by simp at split

/-- Every step of a run meets a condition exactly when the first one and those after it do. -/
theorem each_step_cons {Meets : State → Event → Prop} {event : Event} {events : List Event} :
    EachStep step start Meets (event :: events) ↔
      Meets start event ∧ EachStep step (step start event) Meets events := by
  constructor
  · intro each
    refine ⟨each [] event events rfl, ?_⟩
    rintro before other after rfl
    exact each (event :: before) other after rfl
  · rintro ⟨first, each⟩ before other after split
    cases before with
    | nil =>
      obtain ⟨rfl, rfl⟩ := List.cons.inj split
      exact first
    | cons earlier before =>
      obtain ⟨rfl, rfl⟩ := List.cons.inj split
      exact each before other after rfl

/-- The steps of a run are those of its first part and then those of the second. -/
theorem each_step_append {Meets : State → Event → Prop} {before after : List Event} :
    EachStep step start Meets (before ++ after) ↔
      EachStep step start Meets before ∧ EachStep step (run step start before) Meets after := by
  induction before generalizing start with
  | nil =>
    exact ⟨fun each => ⟨each_step_nil, each⟩, And.right⟩
  | cons event before inductionHypothesis =>
    rw [List.cons_append, each_step_cons, each_step_cons, inductionHypothesis, and_assoc]
    rfl

/-- An invariant that steps under a condition keep holds at the end of a run whose
steps all meet it. The induction is on the events from the last one. -/
theorem run_invariant {Invariant : State → Prop} {Meets : State → Event → Prop}
    (initially : Invariant start)
    (kept : ∀ state event, Invariant state → Meets state event → Invariant (step state event))
    (events : List Event) (each : EachStep step start Meets events) :
    Invariant (run step start events) := by
  induction events using List.reverseRecOn with
  | nil => exact initially
  | append_singleton events event inductionHypothesis =>
    rw [run_snoc]
    apply kept
    · exact inductionHypothesis (each_step_before each)
    · exact each events event [] rfl

/-- An invariant that every step keeps holds at the end of every run. -/
theorem run_kept {Invariant : State → Prop} (initially : Invariant start)
    (kept : ∀ state event, Invariant state → Invariant (step state event))
    (events : List Event) : Invariant (run step start events) :=
  run_invariant initially (fun state event holds (_ : True) => kept state event holds) events
    (fun _ _ _ _ => trivial)

/-- Conditions that say the same of every state with an invariant are met by the same runs. -/
theorem each_step_congr {Invariant : State → Prop} {Meets Other : State → Event → Prop}
    (initially : Invariant start)
    (kept : ∀ state event, Invariant state → Invariant (step state event))
    (same : ∀ state event, Invariant state → (Meets state event ↔ Other state event))
    (events : List Event) :
    EachStep step start Meets events ↔ EachStep step start Other events := by
  have reached (before : List Event) : Invariant (run step start before) :=
    run_kept initially kept before
  constructor
  · intro each before event after split
    exact (same _ event (reached before)).mp (each before event after split)
  · intro each before event after split
    exact (same _ event (reached before)).mpr (each before event after split)

/-- When a step that has an effect makes a weight smaller, every run can be continued
until no step has an effect. -/
theorem run_settles (weight : State → Nat)
    (lighter : ∀ state event, step state event = state ∨ weight (step state event) < weight state)
    (state : State) :
    ∃ more, ∀ event, step (run step state more) event = run step state more := by
  induction amount : weight state using Nat.strongRecOn generalizing state with
  | ind amount inductionHypothesis =>
    by_cases settled : ∀ event, step state event = state
    · exact ⟨[], settled⟩
    · push Not at settled
      obtain ⟨event, effect⟩ := settled
      have less := (lighter state event).resolve_left effect
      rw [amount] at less
      obtain ⟨more, settles⟩ := inductionHypothesis _ less (step state event) rfl
      exact ⟨event :: more, settles⟩

/-- Some events of a kind lead from a state to one with a property. -/
def Leads (step : State → Event → State) (Allowed : Event → Prop) (Good : State → Prop)
    (state : State) : Prop :=
  ∃ more, (∀ event ∈ more, Allowed event) ∧ Good (run step state more)

/-- A good state leads to a good one at once. -/
theorem leads_now {Allowed : Event → Prop} {Good : State → Prop} {state : State}
    (good : Good state) : Leads step Allowed Good state :=
  ⟨[], fun _ member => absurd member List.not_mem_nil, good⟩

/-- What leads to a state that leads further leads further. -/
theorem leads_trans {Allowed : Event → Prop} {Good Better : State → Prop} {state : State}
    (leads : Leads step Allowed Good state)
    (onward : ∀ other, Good other → Leads step Allowed Better other) :
    Leads step Allowed Better state := by
  obtain ⟨first, allowed, good⟩ := leads
  obtain ⟨second, later, better⟩ := onward _ good
  refine ⟨first ++ second, fun event member => ?_, by rw [run_append]; exact better⟩
  rcases List.mem_append.mp member with before | after
  · exact allowed event before
  · exact later event after

/-- An allowed event may be put in front. -/
theorem leads_step {Allowed : Event → Prop} {Good : State → Prop} {state : State} {event : Event}
    (allowed : Allowed event) (leads : Leads step Allowed Good (step state event)) :
    Leads step Allowed Good state := by
  obtain ⟨more, later, good⟩ := leads
  refine ⟨event :: more, fun other member => ?_, good⟩
  rcases List.mem_cons.mp member with rfl | after
  · exact allowed
  · exact later other after

/-- When each state with an invariant is good, or some event keeps the invariant and makes a
weight smaller, events lead to a good state with the invariant. -/
theorem leads_by_weight {Allowed : Event → Prop} {Invariant Good : State → Prop}
    (weight : State → Nat)
    (progress : ∀ state, Invariant state → Good state ∨ ∃ event, Allowed event ∧
      Invariant (step state event) ∧ weight (step state event) < weight state)
    {state : State} (holds : Invariant state) :
    Leads step Allowed (fun other => Invariant other ∧ Good other) state := by
  induction amount : weight state using Nat.strongRecOn generalizing state with
  | ind amount inductionHypothesis =>
    rcases progress state holds with good | ⟨event, allowed, kept, less⟩
    · exact leads_now ⟨holds, good⟩
    · exact leads_step allowed (inductionHypothesis _ (amount ▸ less) kept rfl)

/-- What leads somewhere for one machine does so for another whose steps follow its steps. -/
theorem leads_lift {Detailed Action : Type} {move : Detailed → Action → Detailed}
    (shown : Detailed → State) {Sound : Detailed → Prop} {Allowed : Event → Prop}
    {Permitted : Action → Prop}
    (follows : ∀ detailed event, Sound detailed → Allowed event →
      step (shown detailed) event = shown detailed ∨ ∃ action, Permitted action ∧
        Sound (move detailed action) ∧ shown (move detailed action) = step (shown detailed) event)
    {Good : State → Prop} {detailed : Detailed} (sound : Sound detailed)
    (leads : Leads step Allowed Good (shown detailed)) :
    Leads move Permitted (fun other => Good (shown other)) detailed := by
  obtain ⟨more, allowed, good⟩ := leads
  induction more generalizing detailed with
  | nil => exact leads_now good
  | cons event more inductionHypothesis =>
    have later := fun other member => allowed other (List.mem_cons_of_mem event member)
    change Good (run step (step (shown detailed) event) more) at good
    rcases follows detailed event sound (allowed event List.mem_cons_self) with
      same | ⟨action, permitted, kept, moved⟩
    · rw [same] at good
      exact inductionHypothesis sound later good
    · rw [← moved] at good
      exact leads_step permitted (inductionHypothesis kept later good)

/-- When steps keep an invariant, and lead to a property exactly from states that have it when
they meet a condition, a run ends with the property exactly when all its steps meet it. -/
theorem final_iff_each_step {Invariant Good : State → Prop} {Meets : State → Event → Prop}
    (initially : Invariant start) (good : Good start)
    (kept : ∀ state event, Invariant state → Invariant (step state event))
    (exact : ∀ state event, Invariant state →
      (Good (step state event) ↔ Good state ∧ Meets state event))
    (events : List Event) :
    Good (run step start events) ↔ EachStep step start Meets events := by
  induction events using List.reverseRecOn with
  | nil => exact iff_of_true good each_step_nil
  | append_singleton events event inductionHypothesis =>
    rw [run_snoc, exact _ event (run_kept initially kept events), inductionHypothesis,
      each_step_append, each_step_cons, and_iff_left each_step_nil]

/-- A property holds throughout a run exactly when every step meets the condition. -/
theorem always_iff_each_step {Invariant Good : State → Prop} {Meets : State → Event → Prop}
    (initially : Invariant start)
    (kept : ∀ state event, Invariant state → Meets state event → Invariant (step state event))
    (good : ∀ state, Invariant state → Good state)
    (broken : ∀ state event, Invariant state → ¬Meets state event → ¬Good (step state event))
    (events : List Event) :
    Always step start Good events ↔ EachStep step start Meets events := by
  constructor
  · intro always
    induction events using List.reverseRecOn with
    | nil =>
      intro before event after split
      simp at split
    | append_singleton events event inductionHypothesis =>
      have earlier : EachStep step start Meets events := by
        apply inductionHypothesis
        rintro before after rfl
        exact always before (after ++ [event]) (by simp)
      have last : Meets (run step start events) event := by
        by_contra unmet
        have reached := always (events ++ [event]) [] (by simp)
        rw [run_snoc] at reached
        exact broken _ event (run_invariant initially kept events earlier) unmet reached
      intro before other after split
      rcases List.eq_nil_or_concat after with rfl | ⟨after, final, rfl⟩
      · obtain ⟨rfl, rfl⟩ : events = before ∧ event = other := by
          simpa using List.append_inj' split rfl
        exact last
      · have shifted : events ++ [event] = (before ++ other :: after) ++ [final] := by
          simpa using split
        exact earlier before other after (List.append_inj' shifted rfl).1
  · rintro each before after rfl
    exact good _ (run_invariant initially kept before (each_step_before each))

end OmniProxy.GuardedRuns
