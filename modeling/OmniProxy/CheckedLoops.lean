import Mathlib.Data.List.Forall2

/-!
# Loops that may stop with an error

A loop over a list carries a state and may fail at any item. When it succeeds,
every step succeeded, so a relation between the items done and the state that
each successful step maintains holds of the whole list and the final state.

Nothing here refers to a particular program.
-/

namespace OmniProxy.CheckedLoops

universe u
variable {ε σ α β : Type u}

/-- A sequence succeeds exactly when both of its parts do. -/
theorem bind_ok_iff (first : Except ε α) (next : α → Except ε β) (value : β) :
    (first >>= next) = .ok value ↔
      ∃ middle, first = .ok middle ∧ next middle = .ok value := by
  cases first with
  | error error => simp [bind, Except.bind]
  | ok middle => simp [bind, Except.bind]

/-- Rewording an error does not change success. -/
theorem map_error_ok_iff {ε' : Type u} (reword : ε → ε') (result : Except ε α) (value : α) :
    result.mapError reword = .ok value ↔ result = .ok value := by
  cases result <;> simp [Except.mapError]

/-- A check that stops with an error lets exactly the other case pass. -/
theorem check_ok_iff (failed : Prop) [Decidable failed] (error : ε) (next : Except ε β)
    (value : β) :
    (if failed then .error error else next) = .ok value ↔ ¬failed ∧ next = .ok value := by
  by_cases reached : failed <;> simp [reached]

/-- A check of every item of a list passes exactly when each of them does. -/
theorem all_checked_iff (check : α → Except ε PUnit.{u + 1}) (items : List α) :
    items.forM check = .ok ⟨⟩ ↔ ∀ item ∈ items, check item = .ok ⟨⟩ := by
  induction items with
  | nil => simp [pure, Except.pure]
  | cons item items inductionHypothesis =>
    rw [List.forM_eq_forM, List.forM_cons, bind_ok_iff, List.forall_mem_cons]
    constructor
    · rintro ⟨⟨⟩, passed, rest⟩
      exact ⟨passed, inductionHypothesis.mp rest⟩
    · rintro ⟨passed, rest⟩
      exact ⟨⟨⟩, passed, inductionHypothesis.mpr rest⟩

/-- A loop over a list with a first item takes that step and goes on. -/
theorem fold_cons_iff (step : σ → α → Except ε σ) (start final : σ) (item : α)
    (items : List α) :
    (item :: items).foldlM step start = .ok final ↔
      ∃ middle, step start item = .ok middle ∧ items.foldlM step middle = .ok final := by
  rw [List.foldlM_cons, bind_ok_iff]

/-- A relation between the items done and the state that every successful step
maintains holds at the end of a successful loop. The items done so far are kept
as a list to which the next one is appended. -/
theorem fold_traced (step : σ → α → Except ε σ) (Related : List α → σ → Prop)
    (maintained : ∀ done item before after, Related done before →
      step before item = .ok after → Related (done ++ [item]) after)
    (items done : List α) (start final : σ) (related : Related done start)
    (finished : items.foldlM step start = .ok final) : Related (done ++ items) final := by
  induction items generalizing done start with
  | nil =>
    simp only [List.foldlM_nil, pure, Except.pure, Except.ok.injEq] at finished
    simpa [← finished] using related
  | cons item items inductionHypothesis =>
    obtain ⟨middle, stepped, finished⟩ := (fold_cons_iff step start final item items).mp finished
    have next : Related (done ++ [item]) middle :=
      maintained done item start middle related stepped
    simpa using inductionHypothesis (done ++ [item]) middle next finished

/-- Mapping a list with a function that may fail gives the results item by item. -/
theorem map_ok_iff (function : α → Except ε β) (items : List α) (results : List β) :
    items.mapM function = .ok results ↔
      List.Forall₂ (fun item result => function item = .ok result) items results := by
  induction items generalizing results with
  | nil => simp [pure, Except.pure, eq_comm]
  | cons item items inductionHypothesis =>
    rw [List.mapM_cons, bind_ok_iff, List.forall₂_cons_left_iff]
    constructor
    · rintro ⟨first, computed, finished⟩
      obtain ⟨rest, others, built⟩ := (bind_ok_iff _ _ _).mp finished
      simp only [pure, Except.pure, Except.ok.injEq] at built
      exact ⟨first, rest, computed, (inductionHypothesis rest).mp others, built.symm⟩
    · rintro ⟨first, rest, computed, others, rfl⟩
      refine ⟨first, computed, (bind_ok_iff _ _ _).mpr ⟨rest, ?_, rfl⟩⟩
      exact (inductionHypothesis rest).mpr others

/-- Each of the results is that of an item. -/
theorem mapped_from {function : α → Except ε β} {items : List α} {results : List β}
    (mapped : items.mapM function = .ok results) {result : β} (member : result ∈ results) :
    ∃ item ∈ items, function item = .ok result := by
  have related := (map_ok_iff function items results).mp mapped
  clear mapped
  induction related with
  | nil => cases member
  | cons made others inductionHypothesis =>
    rcases List.mem_cons.mp member with rfl | later
    · exact ⟨_, .head _, made⟩
    · obtain ⟨item, there, made⟩ := inductionHypothesis later
      exact ⟨item, .tail _ there, made⟩

end OmniProxy.CheckedLoops
