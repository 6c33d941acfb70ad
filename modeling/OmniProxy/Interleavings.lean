import OmniProxy.ListUpdates
import Mathlib.Data.List.Basic

/-!
# Interleavings

An interleaving of some lists takes the next item of any of them until all are empty.
Where the items of a list can be told from those of the others, the list is what an
interleaving has of it. Items with different keys can be told apart by them.

Nothing here refers to a particular program.
-/

namespace OmniProxy.Interleavings

variable {Item : Type}

/-- A list is merged from the items of several lists, each in its order. -/
inductive Interleaving : List (List Item) → List Item → Prop where
  | done {lists : List (List Item)} (empty : ∀ list ∈ lists, list = []) : Interleaving lists []
  | take {lists : List (List Item)} {item : Item} {rest merged : List Item} (index : Nat)
      (next : lists[index]? = some (item :: rest))
      (later : Interleaving (lists.set index rest) merged) : Interleaving lists (item :: merged)

/-- The items of an interleaving are items of the lists. -/
theorem Interleaving.mem {lists : List (List Item)} {merged : List Item}
    (interleaved : Interleaving lists merged) {item : Item} (member : item ∈ merged) :
    ∃ list ∈ lists, item ∈ list := by
  induction interleaved with
  | done => simp at member
  | take index next later inductionHypothesis =>
    have source := List.mem_of_getElem? next
    rcases List.mem_cons.mp member with rfl | member
    · exact ⟨_, source, List.mem_cons_self⟩
    · obtain ⟨list, among, inside⟩ := inductionHypothesis member
      rcases List.mem_or_eq_of_mem_set among with among | rfl
      · exact ⟨list, among, inside⟩
      · exact ⟨_, source, List.mem_cons_of_mem _ inside⟩

/-- An interleaving has of each list exactly the list, when a test tells its items from
those of the others. The induction is on the items taken. -/
theorem Interleaving.filter {lists : List (List Item)} {merged : List Item}
    (interleaved : Interleaving lists merged) (test : Item → Bool) (place : Nat)
    (list : List Item) (there : lists[place]? = some list) (own : ∀ item ∈ list, test item)
    (others : ∀ index other, index ≠ place → lists[index]? = some other →
      ∀ item ∈ other, ¬test item) :
    merged.filter test = list := by
  induction interleaved generalizing list with
  | done empty =>
    rw [empty list (List.mem_of_getElem? there), List.filter_nil]
  | @take lists item rest merged index next later inductionHypothesis =>
    have inside : index < lists.length := (List.getElem?_eq_some_iff.mp next).1
    by_cases same : index = place
    · subst same
      obtain rfl : list = item :: rest := Option.some.inj (there.symm.trans next)
      have remaining : merged.filter test = rest := by
        apply inductionHypothesis rest
        · rw [List.getElem?_set_self inside]
        · exact fun other member => own other (List.mem_cons_of_mem item member)
        · intro other foreign apart found
          rw [List.getElem?_set_ne (Ne.symm apart)] at found
          exact others other foreign apart found
      rw [List.filter_cons_of_pos (own item List.mem_cons_self), remaining]
    · have foreign := others index (item :: rest) same next
      have remaining : merged.filter test = list := by
        apply inductionHypothesis list
        · rw [List.getElem?_set_ne same, there]
        · exact own
        · intro other further apart found
          obtain ⟨-, rfl⟩ | ⟨-, old⟩ := ListUpdates.set_cases found
          · exact fun last member => foreign last (List.mem_cons_of_mem item member)
          · exact others other further apart old
      rw [List.filter_cons_of_neg (foreign item List.mem_cons_self), remaining]

section Keys

variable {Key : Type} (key : Item → Key) {items : List Item}

/-- Items with one key are at one place when the keys differ. -/
theorem place_of_key (distinct : (items.map key).Nodup) {place other : Nat} {item found : Item}
    (there : items[place]? = some item) (elsewhere : items[other]? = some found)
    (same : key found = key item) : other = place := by
  have keyed : (items.map key)[place]? = some (key item) := by
    rw [List.getElem?_map, there]
    rfl
  have foundKeyed : (items.map key)[other]? = some (key item) := by
    rw [List.getElem?_map, elsewhere, ← same]
    rfl
  obtain ⟨bound, -⟩ := List.getElem?_eq_some_iff.mp foundKeyed
  exact (List.getElem?_inj bound distinct).mp (foundKeyed.trans keyed.symm)

/-- An item is the only one with its key when the keys differ. -/
theorem filter_of_key [DecidableEq Key] (distinct : (items.map key).Nodup) {item : Item}
    (member : item ∈ items) : items.filter (fun other => key other = key item) = [item] := by
  induction items with
  | nil => simp at member
  | cons first items inductionHypothesis =>
    obtain ⟨fresh, distinct⟩ := List.nodup_cons.mp distinct
    rcases List.mem_cons.mp member with rfl | member
    · have others : items.filter (fun other => key other = key item) = [] := by
        rw [List.filter_eq_nil_iff]
        intro other among same
        exact fresh (List.mem_map.mpr ⟨other, among, of_decide_eq_true same⟩)
      rw [List.filter_cons_of_pos (by simp), others]
    · have different : key first ≠ key item := by
        intro same
        exact fresh (same ▸ List.mem_map.mpr ⟨item, member, rfl⟩)
      rw [List.filter_cons_of_neg (by simpa using different),
        inductionHypothesis distinct member]

end Keys

end OmniProxy.Interleavings
