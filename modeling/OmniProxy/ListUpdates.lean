import Mathlib.Algebra.BigOperators.Group.List.Basic

/-!
# Lists that change at one place

The parties of a run are kept in a list. A step adds a party at the end, puts another one
at some place or changes the one that is there. What the list has at a place after the
step is what the step put there, or what the list had there before. A count of the items
and a sum of their weights change by the one that was changed.

Nothing here refers to a particular program.
-/

namespace OmniProxy.ListUpdates

variable {Item : Type} {items : List Item} {place other : Nat} {item found : Item}

/-- An item that is set is found at its place, and the others are where they were. -/
theorem set_cases (there : (items.set place item)[other]? = some found) :
    (other = place ∧ found = item) ∨ (other ≠ place ∧ items[other]? = some found) := by
  by_cases same : place = other
  · subst same
    rw [List.getElem?_set_self'] at there
    cases old : items[place]? with
    | none => simp [old] at there
    | some _ =>
      rw [old] at there
      exact .inl ⟨rfl, (Option.some.inj there).symm⟩
  · rw [List.getElem?_set_ne same] at there
    exact .inr ⟨Ne.symm same, there⟩

/-- An item of a longer list was there before or is the new one. -/
theorem append_cases (there : (items ++ [item])[place]? = some found) :
    items[place]? = some found ∨ (place = items.length ∧ found = item) := by
  rw [List.getElem?_append] at there
  split at there
  · exact .inl there
  · next beyond =>
    rw [List.getElem?_singleton] at there
    split at there
    · next first =>
      have last : place = items.length := by omega
      exact .inr ⟨last, (Option.some.inj there).symm⟩
    · simp at there

/-- An item that is changed comes from the one at its place, and the others are what
they were. -/
theorem modify_cases {change : Item → Item}
    (there : (items.modify place change)[other]? = some found) :
    (other = place ∧ ∃ old, items[other]? = some old ∧ found = change old) ∨
      (other ≠ place ∧ items[other]? = some found) := by
  rw [List.getElem?_modify] at there
  obtain ⟨old, before, rfl⟩ := Option.map_eq_some_iff.mp there
  by_cases same : place = other
  · rw [if_pos same]
    exact .inl ⟨same.symm, old, before, rfl⟩
  · rw [if_neg same]
    exact .inr ⟨Ne.symm same, before⟩

/-- An item of a list with a changed place is one of the list or a changed one. -/
theorem mem_modify {change : Item → Item} (member : found ∈ items.modify place change) :
    found ∈ items ∨ ∃ old, items[place]? = some old ∧ found = change old := by
  obtain ⟨other, there⟩ := List.getElem?_of_mem member
  obtain ⟨rfl, old, before, rfl⟩ | ⟨-, before⟩ := modify_cases there
  · exact .inr ⟨old, before, rfl⟩
  · exact .inl (List.mem_of_getElem? before)

section Counting

variable (counted : Item → Bool)

/-- Counting after one item has changed. -/
theorem count_modify (items : List Item) (place : Nat) (change : Item → Item) (item : Item)
    (there : items[place]? = some item) :
    (items.modify place change).countP counted + (if counted item then 1 else 0) =
      items.countP counted + if counted (change item) then 1 else 0 := by
  induction items generalizing place with
  | nil => simp at there
  | cons first items inductionHypothesis =>
    cases place with
    | zero =>
      obtain rfl : first = item := by simpa using there
      rw [List.modify_zero_cons, List.countP_cons, List.countP_cons]
      omega
    | succ place =>
      have rest := inductionHypothesis place (by simpa using there)
      rw [List.modify_succ_cons, List.countP_cons, List.countP_cons]
      omega

/-- A change that the count does not see. -/
theorem count_modify_same (items : List Item) (place : Nat) (change : Item → Item)
    (unseen : ∀ item, counted (change item) = counted item) :
    (items.modify place change).countP counted = items.countP counted := by
  cases there : items[place]? with
  | none =>
    rw [List.modify_eq_self (List.getElem?_eq_none_iff.mp there)]
  | some item =>
    have changed := count_modify counted items place change item there
    rw [unseen] at changed
    omega

end Counting

section Weighing

variable {Weight : Type} [AddCommGroup Weight] (weight : Item → Weight)

/-- The weights after one item has been set. -/
theorem sum_set (there : items[place]? = some found) :
    ((items.set place item).map weight).sum =
      (items.map weight).sum - weight found + weight item := by
  obtain ⟨below, rfl⟩ := List.getElem?_eq_some_iff.mp there
  have inside : place < (items.map weight).length := by simpa using below
  rw [List.map_set, List.sum_set', dif_pos inside, List.getElem_map, sub_eq_add_neg, add_assoc]

/-- The weight of a further item is added to the sum. -/
theorem sum_snoc : ((items ++ [item]).map weight).sum = (items.map weight).sum + weight item := by
  simp

end Weighing

end OmniProxy.ListUpdates
