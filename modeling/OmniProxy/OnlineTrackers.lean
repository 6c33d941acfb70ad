import OmniProxy.GuardedRuns
import OmniProxy.ListUpdates
import Mathlib.Algebra.Ring.Int.Defs
import Mathlib.Data.List.AList
import Mathlib.Data.List.Infix
import Mathlib.Data.List.Perm.Subperm

/-!
# The tracker of the users who are online

A map holds for each user how often it is online, and a total counts the users in it.
A call that marks a user takes up to three atomic steps: it updates the map, it updates
the total, and when it takes a user offline it removes the entry unless the user has come
back. Any other call may take its steps in between.

As long as no more calls have begun to take a user offline than have brought it online,
the total stays at or above zero, and when no call is on its way the map holds exactly
the users who are online and the total is their number.

The counts and the total have 64 bits in the source. They are integers here, and none of
them exceeds the number of calls: with fewer than 2 ^ 63 calls they stay in the range of
both types, where the operations of the source are those of the integers.
-/

namespace OmniProxy.OnlineTrackers

open GuardedRuns ListUpdates

structure OnlineTracker where
  byUser : AList fun _ : String => Int
  total : Int

def OnlineTracker.new : OnlineTracker := ⟨∅, 0⟩

def OnlineTracker.snapshot (tracker : OnlineTracker) : AList fun _ : String => Int :=
  tracker.byUser

def OnlineTracker.onlineTotal (tracker : OnlineTracker) : Int := tracker.total

/-- What is left of `mark_online` after the atomic steps it has taken. -/
inductive MarkOnline where
  | updating
  | adding
  | returned
deriving DecidableEq, Repr

/-- What is left of `mark_offline` after the atomic steps it has taken. -/
inductive MarkOffline where
  | updating
  | subtracting
  | removing
  | returned
deriving DecidableEq, Repr

inductive Call where
  | markOnline (user : String) (left : MarkOnline)
  | markOffline (user : String) (left : MarkOffline)
deriving DecidableEq, Repr

/-- The next atomic step of a call, with what is left of the call after it. -/
def Call.proceed (tracker : OnlineTracker) : Call → OnlineTracker × Call
  | .markOnline user .updating =>
      -- `entry(user).and_modify(|c| *c += 1).or_insert(1)`
      let prev : Int := match (tracker.byUser.lookup user : Option Int) with
        | some c => c + 1
        | none => 1
      ({ tracker with byUser := tracker.byUser.insert user prev },
        .markOnline user (if prev = 1 then .adding else .returned))
  | .markOnline user .adding =>
      ({ tracker with total := tracker.total + 1 }, .markOnline user .returned)
  | .markOnline user .returned => (tracker, .markOnline user .returned)
  | .markOffline user .updating =>
      match (tracker.byUser.lookup user : Option Int) with
      | some c =>
          ({ tracker with byUser := tracker.byUser.insert user (c - 1) },
            .markOffline user (if c - 1 ≤ 0 then .subtracting else .returned))
      | none => (tracker, .markOffline user .returned)
  | .markOffline user .subtracting =>
      ({ tracker with total := tracker.total - 1 }, .markOffline user .removing)
  | .markOffline user .removing =>
      -- `remove_if(user, |_, v| v <= &mut 0)`
      (match (tracker.byUser.lookup user : Option Int) with
        | some v => if v ≤ 0 then { tracker with byUser := tracker.byUser.erase user } else tracker
        | none => tracker,
        .markOffline user .returned)
  | .markOffline user .returned => (tracker, .markOffline user .returned)

/-- A tracker and the calls that were made. -/
structure Tracked where
  tracker : OnlineTracker
  calls : List Call

def Tracked.start : Tracked := ⟨.new, []⟩

inductive Event where
  | markOnline (user : String)
  | markOffline (user : String)
  | proceed (index : Nat)
deriving DecidableEq, Repr

def Tracked.step (tracked : Tracked) : Event → Tracked
  | .markOnline user => { tracked with calls := tracked.calls ++ [.markOnline user .updating] }
  | .markOffline user => { tracked with calls := tracked.calls ++ [.markOffline user .updating] }
  | .proceed index =>
      match tracked.calls[index]? with
      | none => tracked
      | some call =>
          let (tracker, call) := call.proceed tracked.tracker
          ⟨tracker, tracked.calls.set index call⟩

def Call.takesOffline (user : String) : Call → Bool
  | .markOnline _ _ => false
  | .markOffline other _ => decide (other = user)

def Call.inProgress : Call → Bool
  | .markOnline _ left => decide (left ≠ .returned)
  | .markOffline _ left => decide (left ≠ .returned)

/-- The calls that have brought a user online. -/
def Tracked.onlines (tracked : Tracked) (user : String) : Nat :=
  tracked.calls.count (.markOnline user .returned)

/-- The calls that have begun to take a user offline. -/
def Tracked.offlines (tracked : Tracked) (user : String) : Nat :=
  tracked.calls.countP (·.takesOffline user)

/-- No user is taken offline more often than it was brought online. -/
def Balanced (tracked : Tracked) : Prop :=
  ∀ user, tracked.offlines user ≤ tracked.onlines user

/-- No call is in progress. -/
def Tracked.AtRest (tracked : Tracked) : Prop :=
  ∀ call ∈ tracked.calls, call.inProgress = false

/-- What a tracker shows of the calls that were made. -/
structure Consistent (tracked : Tracked) : Prop where
  total_nonneg : 0 ≤ tracked.tracker.total
  count_nonneg : ∀ user count, tracked.tracker.byUser.lookup user = some count → 0 ≤ count
  total_fits : tracked.tracker.total ≤ tracked.calls.length
  count_fits : ∀ user count, tracked.tracker.byUser.lookup user = some count →
    count ≤ tracked.calls.length
  shown : tracked.AtRest → ∀ user count,
    tracked.tracker.snapshot.lookup user = some count ↔
      0 < count ∧ count = (tracked.onlines user : Int) - tracked.offlines user
  counted : tracked.AtRest →
    tracked.tracker.onlineTotal = tracked.tracker.snapshot.entries.length

section Entries

/-- How often a user is online according to the map. -/
def OnlineTracker.count (tracker : OnlineTracker) (user : String) : Int :=
  (tracker.byUser.lookup user).getD 0

/-- The users who are online according to the map. -/
def present (byUser : AList fun _ : String => Int) : Nat :=
  byUser.entries.countP fun entry => decide (0 < entry.2)

/-- Without the entry of a user the others are counted as before. -/
theorem count_kerase (user : String) (entries : List (Sigma fun _ : String => Int)) :
    (entries.kerase user).countP (fun entry => decide (0 < entry.2)) +
        (if 0 < (entries.dlookup user).getD 0 then 1 else 0) =
      entries.countP fun entry => decide (0 < entry.2) := by
  induction entries with
  | nil => rfl
  | cons entry entries inductionHypothesis =>
    obtain ⟨other, count⟩ := entry
    by_cases same : user = other
    · subst same
      have erased : List.kerase user (⟨user, count⟩ :: entries) = entries := List.kerase_cons_eq rfl
      rw [erased, List.dlookup_cons_eq, List.countP_cons]
      simp
    · rw [List.kerase_cons_ne same, List.dlookup_cons_ne _ _ same, List.countP_cons,
        List.countP_cons]
      omega

/-- Without the entry of a user one fewer is present, if that user was online. -/
theorem present_erase (tracker : OnlineTracker) (user : String) :
    present (tracker.byUser.erase user) + (if 0 < tracker.count user then 1 else 0) =
      present tracker.byUser :=
  count_kerase user tracker.byUser.entries

/-- A new count makes the user present exactly when it is positive. -/
theorem present_insert (tracker : OnlineTracker) (user : String) (count : Int) :
    present (tracker.byUser.insert user count) + (if 0 < tracker.count user then 1 else 0) =
      present tracker.byUser + if 0 < count then 1 else 0 := by
  rw [← present_erase tracker user, present, AList.entries_insert, List.countP_cons]
  simp only [decide_eq_true_eq]
  exact Nat.add_right_comm _ _ _

end Entries

section Lookups

variable (tracker : OnlineTracker) (user other : String) (count total : Int)

/-- A new count for a user leaves the counts of the others. -/
theorem count_insert :
    (⟨tracker.byUser.insert user count, total⟩ : OnlineTracker).count other =
      if other = user then count else tracker.count other := by
  unfold OnlineTracker.count
  split
  · next same => rw [same, AList.lookup_insert, Option.getD_some]
  · next different => rw [AList.lookup_insert_ne different]

/-- An entry that stands for no connection can go without a count changing. -/
theorem count_erase (empty : tracker.count user = 0) :
    (⟨tracker.byUser.erase user, total⟩ : OnlineTracker).count other = tracker.count other := by
  by_cases same : other = user
  · subst same
    rw [empty, OnlineTracker.count, AList.lookup_erase, Option.getD_none]
  · rw [OnlineTracker.count, AList.lookup_erase_ne same, OnlineTracker.count]

end Lookups

section Calls

/-- What a call has added to the count of a user. -/
def Call.marks (user : String) : Call → Int
  | .markOnline other left => if other = user ∧ left ≠ .updating then 1 else 0
  | .markOffline other left => if other = user ∧ left ≠ .updating then -1 else 0

/-- By how much the total exceeds the users in the map because of a call. -/
def Call.excess : Call → Int
  | .markOnline _ .adding => -1
  | .markOffline _ .subtracting => 1
  | _ => 0

/-- A call that has still to remove the entry of a user whose count it has taken to zero. -/
def Call.removes (user : String) : Call → Bool
  | .markOnline _ _ => false
  | .markOffline other left => decide (other = user ∧ (left = .subtracting ∨ left = .removing))

/-- The user whom a call has still to add to the total. -/
def Call.adds : Call → Option String
  | .markOnline user .adding => some user
  | _ => none

/-- The user whom a call is about to bring or has brought online. -/
def Call.brings : Call → Option String
  | .markOnline user _ => some user
  | .markOffline _ _ => none

/-- The one call that has a user to add to the total is the one bringing that user online.
-/
theorem adds_iff (call : Call) (user : String) :
    call.adds = some user ↔ call = .markOnline user .adding := by
  unfold Call.adds
  split
  · simp
  · next other =>
    refine iff_of_false (by simp) ?_
    rintro rfl
    exact other user rfl

/-- What a call has added to the count of a user follows from how far it has come. -/
theorem marks_call (call : Call) (user : String) :
    call.marks user + (if call.takesOffline user then 1 else 0 : Nat) =
      (if call == .markOnline user .returned then 1 else 0 : Nat) +
          (if call == .markOnline user .adding then 1 else 0 : Nat) +
        (if call == .markOffline user .updating then 1 else 0 : Nat) := by
  cases call with
  | markOnline other left =>
    by_cases same : other = user <;> cases left <;> simp [Call.marks, Call.takesOffline, same]
  | markOffline other left =>
    by_cases same : other = user <;> cases left <;> simp [Call.marks, Call.takesOffline, same]

/-- What the calls have added to the count of a user, by how far they have come. -/
theorem marks_sum (calls : List Call) (user : String) :
    (calls.map (·.marks user)).sum + calls.countP (·.takesOffline user) =
      calls.count (.markOnline user .returned) + calls.count (.markOnline user .adding) +
        calls.count (.markOffline user .updating) := by
  induction calls with
  | nil => rfl
  | cons call calls inductionHypothesis =>
    have first := marks_call call user
    simp only [List.map_cons, List.sum_cons, List.countP_cons, List.count_cons]
    omega

/-- The total falls behind the map only by the users who are still to be added. -/
theorem excess_sum (calls : List Call) :
    0 ≤ (calls.map Call.excess).sum + (calls.filterMap Call.adds).length := by
  induction calls with
  | nil => simp
  | cons call calls inductionHypothesis =>
    rw [List.map_cons, List.sum_cons, List.filterMap_cons]
    cases call with
    | markOnline user left =>
      cases left <;> simp only [Call.excess, Call.adds, List.length_cons] <;> omega
    | markOffline user left =>
      cases left <;> simp only [Call.excess, Call.adds] <;> omega

/-- A call marks a user once at most, and only one that brings the user online. -/
theorem marks_bound (call : Call) (user : String) :
    call.marks user ≤ 1 ∧ (0 < call.marks user → call.brings = some user) := by
  cases call with
  | markOnline other left =>
    simp only [Call.marks, Call.brings]
    split
    · next both => exact ⟨Int.le_refl 1, fun _ => congrArg some both.1⟩
    · exact ⟨Int.zero_le_ofNat 1, fun positive => absurd positive (Int.lt_irrefl 0)⟩
  | markOffline other left =>
    simp only [Call.marks]
    split <;> simp

/-- The count of a user does not exceed the number of calls. -/
theorem marks_fit (calls : List Call) (user : String) :
    (calls.map (·.marks user)).sum ≤ calls.length := by
  induction calls with
  | nil => exact Int.le_refl 0
  | cons call calls inductionHypothesis =>
    have first := (marks_bound call user).1
    simp only [List.map_cons, List.sum_cons, List.length_cons]
    omega

/-- A user with a count has a call that brought it online. -/
theorem marks_positive {calls : List Call} {user : String}
    (positive : 0 < (calls.map (·.marks user)).sum) :
    ∃ call ∈ calls, call.brings = some user := by
  induction calls with
  | nil => exact absurd positive (Int.lt_irrefl 0)
  | cons call calls inductionHypothesis =>
    rw [List.map_cons, List.sum_cons] at positive
    by_cases first : 0 < call.marks user
    · exact ⟨call, .head _, (marks_bound call user).2 first⟩
    · obtain ⟨later, member, brings⟩ := inductionHypothesis (by omega)
      exact ⟨later, .tail _ member, brings⟩

/-- The calls that bring a user online and those that have still to lower the total are others. -/
theorem excess_fits (calls : List Call) :
    (calls.map Call.excess).sum + (calls.filterMap Call.brings).length ≤ calls.length := by
  induction calls with
  | nil => exact Int.le_refl 0
  | cons call calls inductionHypothesis =>
    rw [List.map_cons, List.sum_cons, List.filterMap_cons]
    cases call with
    | markOnline user left =>
      cases left <;> simp only [Call.excess, Call.brings, List.length_cons] <;> omega
    | markOffline user left =>
      cases left <;> simp only [Call.excess, Call.brings, List.length_cons] <;> omega

end Calls

section Invariant

/-- What holds in every state of a run whose states are balanced. -/
structure Sound (tracked : Tracked) : Prop where
  counted : ∀ user, tracked.tracker.count user = (tracked.calls.map (·.marks user)).sum
  emptied : ∀ user, tracked.tracker.byUser.lookup user = some 0 →
    ∃ call ∈ tracked.calls, call.removes user = true
  totalled : tracked.tracker.total =
    present tracked.tracker.byUser + (tracked.calls.map Call.excess).sum
  once : ∀ user, tracked.calls.count (.markOnline user .adding) ≤ 1

variable {tracked : Tracked}

/-- Before any call nothing is counted. -/
theorem start_sound : Sound .start where
  counted := fun _ => rfl
  emptied := by simp [Tracked.start, OnlineTracker.new]
  totalled := rfl
  once := by simp [Tracked.start]

/-- A call that begins has not done anything. -/
theorem Sound.begin (sound : Sound tracked) (call : Call) (unmarked : ∀ user, call.marks user = 0)
    (even : call.excess = 0) (unadded : ∀ user, call ≠ .markOnline user .adding) :
    Sound { tracked with calls := tracked.calls ++ [call] } where
  counted user := by
    rw [sum_snoc, unmarked, Int.add_zero]
    exact sound.counted user
  emptied user empty := by
    obtain ⟨other, member, removes⟩ := sound.emptied user empty
    exact ⟨other, List.mem_append_left _ member, removes⟩
  totalled := by
    rw [sum_snoc, even, Int.add_zero]
    exact sound.totalled
  once user := by
    rw [List.count_append, List.count_singleton]
    simpa [unadded user] using sound.once user

/-- The count of a user covers the calls that have still to add it to the total and those
that are about to take it offline. -/
theorem Sound.room (sound : Sound tracked) (balanced : Balanced tracked) (user : String) :
    (tracked.calls.count (.markOnline user .adding) : Int) +
        tracked.calls.count (.markOffline user .updating) ≤ tracked.tracker.count user := by
  have marked := marks_sum tracked.calls user
  have bounded := balanced user
  rw [Tracked.offlines, Tracked.onlines] at bounded
  rw [sound.counted]
  omega

/-- One call takes a step. The count of a user changes as the call marks it, the total
changes by what the call no longer owes, and an entry that is left empty has a call that
removes it. -/
theorem Sound.move (sound : Sound tracked) {index : Nat} {old new : Call}
    {tracker : OnlineTracker} (there : tracked.calls[index]? = some old)
    (counted : ∀ user,
      tracker.count user = tracked.tracker.count user - old.marks user + new.marks user)
    (totalled : tracker.total - present tracker.byUser =
      tracked.tracker.total - present tracked.tracker.byUser - old.excess + new.excess)
    (emptied : ∀ user, tracker.byUser.lookup user = some 0 → new.removes user = true ∨
      (tracked.tracker.byUser.lookup user = some 0 ∧ old.removes user = false))
    (once : ∀ user, new = .markOnline user .adding →
      tracked.calls.count (.markOnline user .adding) = 0) :
    Sound ⟨tracker, tracked.calls.set index new⟩ where
  counted user := by
    rw [sum_set (·.marks user) there, counted, sound.counted]
  emptied user empty := by
    obtain ⟨below, rfl⟩ := List.getElem?_eq_some_iff.mp there
    obtain removes | ⟨before, keeps⟩ := emptied user empty
    · exact ⟨new, List.mem_set below new, removes⟩
    · obtain ⟨call, member, removes⟩ := sound.emptied user before
      obtain ⟨other, found⟩ := List.getElem?_of_mem member
      -- the call that removes the entry is not the one that moves
      have apart : index ≠ other := by
        rintro rfl
        rw [List.getElem?_eq_getElem below] at found
        obtain rfl := Option.some.inj found
        simp [keeps] at removes
      refine ⟨call, List.mem_of_getElem? (i := other) ?_, removes⟩
      rw [List.getElem?_set_ne apart, found]
  totalled := by
    have before := sound.totalled
    rw [sum_set Call.excess there]
    dsimp only
    omega
  once user := by
    obtain ⟨below, rfl⟩ := List.getElem?_eq_some_iff.mp there
    have before := sound.once user
    rw [List.count_set below]
    by_cases adds : new = .markOnline user .adding
    · have nothing := once user adds
      rw [nothing, Nat.zero_sub, Nat.zero_add]
      split <;> omega
    · simp only [beq_iff_eq, adds, if_false]
      omega

/-- One call takes a step that leaves the tracker as it is. -/
theorem Sound.stay (sound : Sound tracked) {index : Nat} {old new : Call}
    (there : tracked.calls[index]? = some old)
    (marks : ∀ user, new.marks user = old.marks user) (excess : new.excess = old.excess)
    (keeps : ∀ user, tracked.tracker.byUser.lookup user = some 0 → old.removes user = false)
    (unadded : ∀ user, new ≠ .markOnline user .adding) :
    Sound { tracked with calls := tracked.calls.set index new } := by
  refine sound.move there (fun user => ?_) ?_ (fun user empty => .inr ⟨empty, keeps user empty⟩)
    (fun user adds => absurd adds (unadded user))
  · rw [marks, Int.sub_add_cancel]
  · rw [excess, Int.sub_add_cancel]

/-- The count that `mark_online` stores. -/
theorem marked_online (tracker : OnlineTracker) (user : String) :
    (match (tracker.byUser.lookup user : Option Int) with
      | some c => c + 1
      | none => 1) = tracker.count user + 1 := by
  unfold OnlineTracker.count
  cases tracker.byUser.lookup user with
  | none => rfl
  | some c => rfl

/-- Bringing a user online adds one to the count and leaves the total for later. -/
theorem Sound.mark_online (sound : Sound tracked) (balanced : Balanced tracked) {index : Nat}
    {user : String} (there : tracked.calls[index]? = some (.markOnline user .updating)) :
    Sound (tracked.step (.proceed index)) := by
  have room := sound.room balanced user
  simp only [Tracked.step, there, Call.proceed, marked_online]
  refine sound.move there ?_ ?_ ?_ ?_
  · intro other
    rw [count_insert]
    split
    · next same => subst same; split <;> simp [Call.marks]
    · next different => simp [Call.marks, Ne.symm different]
  · have more := present_insert tracked.tracker user (tracked.tracker.count user + 1)
    dsimp only
    rw [if_pos (show 0 < tracked.tracker.count user + 1 by omega)] at more
    split
    · next first =>
      rw [if_neg (show ¬0 < tracked.tracker.count user by omega)] at more
      simp only [Call.excess]
      omega
    · next later =>
      rw [if_pos (show 0 < tracked.tracker.count user by omega)] at more
      simp only [Call.excess]
      omega
  · intro other empty
    by_cases same : other = user
    · subst same
      have zero : tracked.tracker.count other + 1 = 0 :=
        Option.some.inj ((AList.lookup_insert _).symm.trans empty)
      omega
    · simp only [AList.lookup_insert_ne same] at empty
      exact .inr ⟨empty, rfl⟩
  · intro other adds
    obtain ⟨rfl, first⟩ := Call.markOnline.inj adds
    by_cases absent : tracked.tracker.count user + 1 = 1
    · omega
    · simp [absent] at first

/-- Taking a user offline takes one from the count and leaves the total for later. -/
theorem Sound.mark_offline (sound : Sound tracked) (balanced : Balanced tracked) {index : Nat}
    {user : String} (there : tracked.calls[index]? = some (.markOffline user .updating)) :
    Sound (tracked.step (.proceed index)) := by
  have room := sound.room balanced user
  -- the call itself has not taken the user offline, so the user has an entry
  have itself : 0 < tracked.calls.count (.markOffline user .updating) :=
    List.count_pos_iff.mpr (List.mem_of_getElem? there)
  have online : tracked.tracker.byUser.lookup user = some (tracked.tracker.count user) := by
    unfold OnlineTracker.count at room ⊢
    cases found : tracked.tracker.byUser.lookup user with
    | none =>
      rw [found, Option.getD_none] at room
      omega
    | some c => rfl
  simp only [Tracked.step, there, Call.proceed, online]
  refine sound.move there ?_ ?_ ?_ ?_
  · intro other
    rw [count_insert]
    split
    · next same => subst same; split <;> simp [Call.marks] <;> omega
    · next different => simp [Call.marks, Ne.symm different]
  · have fewer := present_insert tracked.tracker user (tracked.tracker.count user - 1)
    rw [if_pos (show 0 < tracked.tracker.count user by omega)] at fewer
    dsimp only
    split
    · next last =>
      rw [if_neg (show ¬0 < tracked.tracker.count user - 1 by omega)] at fewer
      simp only [Call.excess]
      omega
    · next more =>
      rw [if_pos (show 0 < tracked.tracker.count user - 1 by omega)] at fewer
      simp only [Call.excess]
      omega
  · intro other empty
    by_cases same : other = user
    · subst same
      have zero : tracked.tracker.count other - 1 = 0 :=
        Option.some.inj ((AList.lookup_insert _).symm.trans empty)
      left
      simp [zero, Call.removes]
    · simp only [AList.lookup_insert_ne same] at empty
      exact .inr ⟨empty, by simp [Call.removes]⟩
  · intro other adds
    simp at adds

/-- Removing keeps the counts right: only an entry of zero is removed. -/
theorem Sound.remove (sound : Sound tracked) (balanced : Balanced tracked) {index : Nat}
    {user : String} (there : tracked.calls[index]? = some (.markOffline user .removing)) :
    Sound (tracked.step (.proceed index)) := by
  have room := sound.room balanced user
  have marks (other : String) : (Call.markOffline user .returned).marks other =
      (Call.markOffline user .removing).marks other := by
    simp [Call.marks]
  -- an entry of another user that is empty has another call that removes it
  have others {other : String} (different : other ≠ user) :
      (Call.markOffline user .removing).removes other = false := by
    simp [Call.removes, Ne.symm different]
  simp only [Tracked.step, there, Call.proceed]
  cases found : tracked.tracker.byUser.lookup user with
  | none =>
    refine sound.stay there marks rfl (fun other empty => others ?_) (by simp)
    rintro rfl
    simp [found] at empty
  | some v =>
    dsimp only
    have stored : tracked.tracker.count user = v := by
      rw [OnlineTracker.count, found, Option.getD_some]
    split
    · next gone =>
      have empty : tracked.tracker.count user = 0 := by omega
      refine sound.move there (fun other => ?_) ?_ (fun other zero => ?_) (by simp)
      · rw [count_erase _ _ _ _ empty, marks, Int.sub_add_cancel]
      · have same := present_erase tracked.tracker user
        rw [if_neg (show ¬0 < tracked.tracker.count user by omega)] at same
        simp only [Call.excess]
        omega
      · by_cases same : other = user
        · subst same
          simp at zero
        · simp only [AList.lookup_erase_ne same] at zero
          exact .inr ⟨zero, others same⟩
    · next stays =>
      refine sound.stay there marks rfl (fun other empty => others ?_) (by simp)
      rintro rfl
      obtain rfl := Option.some.inj (found.symm.trans empty)
      exact stays (Int.le_refl 0)

/-- Each atomic step in a balanced state keeps the invariant. -/
theorem step_sound (tracked : Tracked) (event : Event) (sound : Sound tracked)
    (balanced : Balanced tracked) : Sound (tracked.step event) := by
  cases event with
  | markOnline user =>
    exact sound.begin _ (by simp [Call.marks]) rfl (by simp)
  | markOffline user =>
    exact sound.begin _ (by simp [Call.marks]) rfl (by simp)
  | proceed index =>
    cases there : tracked.calls[index]? with
    | none => simpa [Tracked.step, there] using sound
    | some call =>
      cases call with
      | markOnline user left =>
        cases left with
        | updating => exact sound.mark_online balanced there
        | adding =>
          simp only [Tracked.step, there, Call.proceed]
          refine sound.move there (fun other => ?_) ?_ (fun other empty => .inr ⟨empty, rfl⟩)
            (by simp)
          · simp [Call.marks, OnlineTracker.count]
          · simp only [Call.excess]
            omega
        | returned =>
          simp only [Tracked.step, there, Call.proceed]
          exact sound.stay there (fun _ => rfl) rfl (fun _ _ => rfl) (by simp)
      | markOffline user left =>
        cases left with
        | updating => exact sound.mark_offline balanced there
        | subtracting =>
          simp only [Tracked.step, there, Call.proceed]
          refine sound.move there (fun other => ?_) ?_ (fun other empty => ?_) (by simp)
          · simp [Call.marks, OnlineTracker.count]
          · simp only [Call.excess]
            omega
          · by_cases same : user = other
            · exact .inl (by simp [Call.removes, same])
            · exact .inr ⟨empty, by simp [Call.removes, same]⟩
        | removing => exact sound.remove balanced there
        | returned =>
          simp only [Tracked.step, there, Call.proceed]
          exact sound.stay there (fun _ => rfl) rfl (by simp [Call.removes]) (by simp)

end Invariant

section Runs

variable {tracked : Tracked}

/-- A user with a count has an entry. -/
theorem Sound.online_of_pos (user : String) (online : 0 < tracked.tracker.count user) :
    tracked.tracker.byUser.lookup user = some (tracked.tracker.count user) := by
  unfold OnlineTracker.count at online ⊢
  cases found : tracked.tracker.byUser.lookup user with
  | none => simp [found] at online
  | some c => rfl

/-- While the calls are balanced no count is below zero. -/
theorem Sound.count_nonneg (sound : Sound tracked) (balanced : Balanced tracked) (user : String) :
    0 ≤ tracked.tracker.count user := by
  have room := sound.room balanced user
  omega

/-- The users who are still to be added to the total are different ones, and all of them
are in the map. -/
theorem Sound.added (sound : Sound tracked) (balanced : Balanced tracked) :
    (tracked.calls.filterMap Call.adds).length ≤ present tracked.tracker.byUser := by
  have once : (tracked.calls.filterMap Call.adds).Nodup := by
    rw [List.nodup_iff_count_le_one]
    intro user
    refine le_trans (le_of_eq ?_) (sound.once user)
    rw [List.count_filterMap, List.count]
    congr 1
    funext call
    rw [Bool.eq_iff_iff, beq_iff_eq, beq_iff_eq]
    exact adds_iff call user
  let online := tracked.tracker.byUser.entries.filter fun entry => decide (0 < entry.2)
  have among : tracked.calls.filterMap Call.adds ⊆ online.map Sigma.fst := by
    intro user member
    obtain ⟨call, called, adds⟩ := List.mem_filterMap.mp member
    rw [(adds_iff call user).mp adds] at called
    have room := sound.room balanced user
    have itself := List.count_pos_iff.mpr called
    have positive : 0 < tracked.tracker.count user := by omega
    have stored := AList.mem_lookup_iff.mp
      (Option.mem_def.mpr (Sound.online_of_pos user positive))
    exact List.mem_map.mpr ⟨_, List.mem_filter.mpr ⟨stored, decide_eq_true positive⟩, rfl⟩
  calc (tracked.calls.filterMap Call.adds).length
      ≤ (online.map Sigma.fst).length := (once.subperm among).length_le
    _ = present tracked.tracker.byUser := by
      rw [List.length_map, present, List.countP_eq_length_filter]

/-- A user in the map has been brought online by a call. -/
theorem Sound.brought (sound : Sound tracked) (user : String)
    (online : 0 < tracked.tracker.count user) :
    user ∈ tracked.calls.filterMap Call.brings := by
  rw [sound.counted] at online
  obtain ⟨call, called, marks⟩ := marks_positive online
  exact List.mem_filterMap.mpr ⟨call, called, marks⟩

/-- There are no more users in the map than calls that brought one online. -/
theorem Sound.present_fits (sound : Sound tracked) :
    present tracked.tracker.byUser ≤ (tracked.calls.filterMap Call.brings).length := by
  let online := tracked.tracker.byUser.entries.filter fun entry => decide (0 < entry.2)
  have once : (online.map Sigma.fst).Nodup :=
    (List.filter_sublist.map Sigma.fst).nodup tracked.tracker.byUser.nodupKeys
  have among : online.map Sigma.fst ⊆ tracked.calls.filterMap Call.brings := by
    intro user member
    obtain ⟨entry, kept, rfl⟩ := List.mem_map.mp member
    obtain ⟨stored, positive⟩ := List.mem_filter.mp kept
    apply sound.brought
    rw [OnlineTracker.count, Option.mem_def.mp (AList.mem_lookup_iff.mpr stored)]
    exact of_decide_eq_true positive
  calc present tracked.tracker.byUser
      = (online.map Sigma.fst).length := by
        rw [List.length_map, present, List.countP_eq_length_filter]
    _ ≤ (tracked.calls.filterMap Call.brings).length := (once.subperm among).length_le

/-- When no call is in progress, every entry stands for a user who is online. -/
theorem Sound.rest (sound : Sound tracked) (rest : tracked.AtRest) (user : String) :
    tracked.tracker.count user = (tracked.onlines user : Int) - tracked.offlines user := by
  have adding : tracked.calls.count (.markOnline user .adding) = 0 := by
    refine List.count_eq_zero.mpr fun member => ?_
    simpa [Call.inProgress] using rest _ member
  have updating : tracked.calls.count (.markOffline user .updating) = 0 := by
    refine List.count_eq_zero.mpr fun member => ?_
    simpa [Call.inProgress] using rest _ member
  have marked := marks_sum tracked.calls user
  rw [sound.counted, Tracked.onlines, Tracked.offlines]
  omega

/-- At rest no entry is zero. -/
theorem Sound.none_empty (sound : Sound tracked) (rest : tracked.AtRest) (user : String) :
    tracked.tracker.byUser.lookup user ≠ some 0 := by
  intro empty
  obtain ⟨call, member, removes⟩ := sound.emptied user empty
  have finished := rest call member
  cases call with
  | markOnline other left => simp [Call.removes] at removes
  | markOffline other left =>
    cases left <;> simp [Call.removes, Call.inProgress] at removes finished

/-- At rest no call has changed a count without the total. -/
theorem rest_excess (rest : tracked.AtRest) : (tracked.calls.map Call.excess).sum = 0 := by
  refine List.sum_eq_zero fun excess member => ?_
  obtain ⟨call, called, rfl⟩ := List.mem_map.mp member
  have finished := rest call called
  cases call with
  | markOnline user left => cases left <;> simp_all [Call.inProgress, Call.excess]
  | markOffline user left => cases left <;> simp_all [Call.inProgress, Call.excess]

/-- Under the invariant the tracker is consistent. -/
theorem Sound.consistent (sound : Sound tracked) (balanced : Balanced tracked) :
    Consistent tracked where
  total_nonneg := by
    have owed := excess_sum tracked.calls
    have added := sound.added balanced
    rw [sound.totalled]
    omega
  count_nonneg user count stored := by
    have count_nonneg := sound.count_nonneg balanced user
    rwa [OnlineTracker.count, stored] at count_nonneg
  total_fits := by
    have held := excess_fits tracked.calls
    have users := sound.present_fits
    rw [sound.totalled]
    omega
  count_fits user count stored := by
    have fits := marks_fit tracked.calls user
    rwa [← sound.counted, OnlineTracker.count, stored] at fits
  shown rest user count := by
    rw [← sound.rest rest user]
    constructor
    · intro stored
      have same : tracked.tracker.count user = count := by
        rw [OnlineTracker.count]
        exact congrArg (Option.getD · 0) stored
      have nonneg := sound.count_nonneg balanced user
      have nonzero : count ≠ 0 := by
        rintro rfl
        exact sound.none_empty rest user stored
      exact ⟨by omega, same.symm⟩
    · rintro ⟨positive, rfl⟩
      exact Sound.online_of_pos user positive
  counted rest := by
    have all : present tracked.tracker.byUser = tracked.tracker.byUser.entries.length := by
      refine List.countP_eq_length.mpr fun entry member => ?_
      have stored := Option.mem_def.mp (AList.mem_lookup_iff.mpr member)
      have nonneg := sound.count_nonneg balanced entry.1
      have nonzero : entry.2 ≠ 0 := by
        intro zero
        exact sound.none_empty rest entry.1 (zero ▸ stored)
      rw [OnlineTracker.count, stored, Option.getD_some] at nonneg
      rw [decide_eq_true_eq]
      omega
    have total := sound.totalled
    rw [rest_excess rest, all, Int.add_zero] at total
    exact total

/-- In every run in which users are not taken offline more often than they were brought
online, the total and the counts stay between zero and the number of calls, and whenever no
call is in progress the tracker shows the users who are online, how often each is, and their
number. -/
theorem tracker_consistent (events : List Event)
    (balanced : Always Tracked.step .start Balanced events) :
    Consistent (run Tracked.step .start events) := by
  have last : Balanced (run Tracked.step .start events) :=
    balanced events [] (List.append_nil events).symm
  refine Sound.consistent ?_ last
  refine run_invariant start_sound step_sound events ?_
  rintro before event after rfl
  exact balanced before (event :: after) rfl

end Runs

section Examples

def Call.user : Call → String
  | .markOnline user _ => user
  | .markOffline user _ => user

/-- Only the users of calls matter for the balance. -/
theorem balanced_of_calls (tracked : Tracked)
    (each : ∀ call ∈ tracked.calls, tracked.offlines call.user ≤ tracked.onlines call.user) :
    Balanced tracked := by
  intro user
  by_cases marked : ∃ call ∈ tracked.calls, call.user = user
  · obtain ⟨call, member, rfl⟩ := marked
    exact each call member
  · have zero : tracked.offlines user = 0 := by
      refine List.countP_eq_zero.mpr fun call member takes => marked ⟨call, member, ?_⟩
      cases call with
      | markOnline other left => simp [Call.takesOffline] at takes
      | markOffline other left => exact of_decide_eq_true takes
    rw [zero]
    exact Nat.zero_le _

/-- A user comes back after the last of its connections was counted off and before the
total was. -/
def comingBack : List Event :=
  [.markOnline "a", .proceed 0, .proceed 0, .markOffline "a", .proceed 1, .markOnline "a",
    .proceed 2, .proceed 1, .proceed 2, .proceed 1]

/-- The sample run takes nobody offline more often than online. -/
theorem coming_back_balanced : Always Tracked.step .start Balanced comingBack := by
  rintro before after split
  have among : before ∈ comingBack.inits := (List.mem_inits _ _).mpr ⟨after, split.symm⟩
  have each : ∀ before ∈ comingBack.inits, ∀ call ∈ (run Tracked.step .start before).calls,
      (run Tracked.step .start before).offlines call.user ≤
        (run Tracked.step .start before).onlines call.user := by
    decide +kernel
  exact balanced_of_calls _ (each before among)

/-- The sample run is balanced, so its tracker is consistent. -/
theorem tracker_consistent_example :
    Always Tracked.step .start Balanced comingBack ∧
      Consistent (run Tracked.step .start comingBack) :=
  ⟨coming_back_balanced, tracker_consistent comingBack coming_back_balanced⟩

/-- The user who came back is shown. -/
example : (run Tracked.step .start comingBack).tracker.total = 1 ∧
    (run Tracked.step .start comingBack).tracker.byUser.lookup "a" = some 1 := by
  decide +kernel

end Examples

end OmniProxy.OnlineTrackers
