import OmniProxy.Connections
import OmniProxy.GuardedRuns
import OmniProxy.ListUpdates

/-!
# One pooled session and a second attempt

A connector for AnyTLS keeps one session in a slot behind a mutex, and one for Hysteria2
keeps one connection in the same way. A call looks the session up, dials one and stores it
if the slot is empty, and opens a stream on it. When that fails it evicts the session and
makes a second attempt. Evicting only tries the mutex: if another call has it, the slot
stays as it is.

A run is any order of steps of the calls. A call may have the mutex for some time, since a
waiting call is handed it before it runs. What dialling and opening answer is part of a
run, and so is when the session in the slot dies. Calls are not given up.
-/

namespace OmniProxy.PooledSessions

open Connections GuardedRuns ListUpdates

section Connector

/-- How far a call is. It carries the session on which its first attempt has failed. -/
inductive Call where
  | looking (failed : Option Nat)
  | reading (failed : Option Nat)
  | dialing (failed : Option Nat) (reached : Bool)
  | storing (failed : Option Nat) (session : Nat)
  | writing (failed : Option Nat) (session : Nat)
  | opening (failed : Option Nat) (session : Nat)
  | evicting (session : Nat)
  | clearing (session : Nat)
  | returned (result : Except IoError Nat)

/-- The call has the mutex. -/
def Call.holds : Call → Bool
  | .reading _ | .writing _ _ | .clearing _ => true
  | _ => false

/-- The call has the mutex and is about to change the slot. -/
def Call.changes : Call → Bool
  | .writing _ _ | .clearing _ => true
  | _ => false

/-- The session that a call has dialled and not yet stored. -/
def Call.stores : Call → Option Nat
  | .storing _ session | .writing _ session => some session
  | _ => none

/-- The session on which the first attempt of a call has failed. -/
def Call.failed : Call → Option Nat
  | .looking failed | .reading failed | .dialing failed _ | .storing failed _
  | .writing failed _ | .opening failed _ => failed
  | .evicting session | .clearing session => some session
  | .returned _ => none

/-- A connector with its calls. Sessions have the numbers in which they were dialled; one
of them may be dead. -/
structure Connector where
  lock : Option Nat
  slot : Option Nat
  sessions : Nat
  dead : Option Nat
  calls : List Call

def Connector.start : Connector := ⟨none, none, 0, none, []⟩

def Connector.setCall (connector : Connector) (index : Nat) (call : Call) : Connector :=
  { connector with calls := connector.calls.set index call }

/-- A call that waits for the mutex is handed it. -/
def Connector.acquire (connector : Connector) (index : Nat) : Connector :=
  if connector.lock.isSome then connector
  else
    match connector.calls[index]? with
    | some (.looking failed) =>
        { connector.setCall index (.reading failed) with lock := some index }
    | some (.storing failed session) =>
        { connector.setCall index (.writing failed session) with lock := some index }
    | _ => connector

/-- A call that has the mutex uses the slot and releases the mutex. -/
def Connector.proceed (connector : Connector) (index : Nat) : Connector :=
  match connector.calls[index]? with
  | some (.reading failed) =>
      match connector.slot with
      | some session => { connector.setCall index (.opening failed session) with lock := none }
      | none => { connector.setCall index (.dialing failed false) with lock := none }
  | some (.writing failed session) =>
      { connector.setCall index (.opening failed session) with
        slot := some session
        lock := none }
  | some (.clearing session) =>
      { connector.setCall index (.looking (some session)) with slot := none, lock := none }
  | _ => connector

/-- Dialling has two awaits: a way to the server, and the session on it. -/
def Connector.dialed (connector : Connector) (index : Nat) (result : Except IoError Unit) :
    Connector :=
  match connector.calls[index]?, result with
  | some (.dialing failed false), .ok _ => connector.setCall index (.dialing failed true)
  | some (.dialing failed true), .ok _ =>
      { connector.setCall index (.storing failed connector.sessions) with
        sessions := connector.sessions + 1 }
  | some (.dialing _ _), .error error => connector.setCall index (.returned (.error error))
  | _, _ => connector

/-- Opening a stream fails the first time only to be tried again. -/
def Connector.opened (connector : Connector) (index : Nat) (result : Except IoError Unit) :
    Connector :=
  match connector.calls[index]?, result with
  | some (.opening _ session), .ok _ => connector.setCall index (.returned (.ok session))
  | some (.opening none session), .error _ => connector.setCall index (.evicting session)
  | some (.opening (some _) _), .error error =>
      connector.setCall index (.returned (.error error))
  | _, _ => connector

/-- The mutex is tried. If another call has it, nothing is evicted. -/
def Connector.evict (connector : Connector) (index : Nat) : Connector :=
  match connector.calls[index]? with
  | some (.evicting session) =>
      if connector.lock.isSome then connector.setCall index (.looking (some session))
      else { connector.setCall index (.clearing session) with lock := some index }
  | _ => connector

/-- The session in the slot dies, if none has died before. -/
def Connector.die (connector : Connector) : Connector :=
  if connector.dead.isSome then connector else { connector with dead := connector.slot }

inductive Event where
  | connectTcp
  | acquire (index : Nat)
  | proceed (index : Nat)
  | dialed (index : Nat) (result : Except IoError Unit)
  | opened (index : Nat) (result : Except IoError Unit)
  | evict (index : Nat)
  | die

/-- One step of a run. -/
def step (connector : Connector) : Event → Connector
  | .connectTcp => { connector with calls := connector.calls ++ [.looking none] }
  | .acquire index => connector.acquire index
  | .proceed index => connector.proceed index
  | .dialed index result => connector.dialed index result
  | .opened index result => connector.opened index result
  | .evict index => connector.evict index
  | .die => connector.die

/-- Dialling succeeds, and opening a stream fails exactly on the dead session. -/
def Promised (connector : Connector) : Event → Prop
  | .dialed _ result => result = .ok ()
  | .opened index result => ∀ failed session,
      connector.calls[index]? = some (.opening failed session) →
      ((∃ error, result = .error error) ↔ connector.dead = some session)
  | _ => True

/-- The call has not returned an error, and does not make its second attempt on the session
of the first one. -/
def Call.Retries (call : Call) : Prop :=
  (∀ error, call ≠ .returned (.error error)) ∧ ∀ session, call ≠ .opening (some session) session

/-- The second attempt of every call is one on another session, and no call returns an
error. -/
def Retries (connector : Connector) : Prop :=
  ∀ (index : Nat) (call : Call), connector.calls[index]? = some call → call.Retries

/-- A call has the mutex and is about to change the slot. -/
def Connector.Changing (connector : Connector) : Prop :=
  ∃ holder call, connector.lock = some holder ∧ connector.calls[holder]? = some call ∧
    call.changes = true

/-- A call that evicts its session finds the mutex free, or the session gone from the slot,
or a call that has the mutex and is about to change the slot. -/
def Evictable (connector : Connector) : Event → Prop
  | .evict index => ∀ session, connector.calls[index]? = some (.evicting session) →
      connector.slot = some session → connector.lock = none ∨ connector.Changing
  | _ => True

end Connector

section Invariant

/-- What holds in every run in which dialling and opening answer as promised. A call that has
not stored its session is the only one to know it, and only the dead session has failed. -/
structure Sound (connector : Connector) : Prop where
  holder : ∀ (index : Nat) (call : Call), connector.calls[index]? = some call →
    call.holds = true → connector.lock = some index
  held : ∀ index, connector.lock = some index →
    ∃ call, connector.calls[index]? = some call ∧ call.holds = true
  fresh : ∀ (index : Nat) (call : Call) (session : Nat), connector.calls[index]? = some call →
    call.stores = some session →
    session < connector.sessions ∧ connector.slot ≠ some session ∧ connector.dead ≠ some session
  apart : ∀ (index other : Nat) (call call' : Call) (session : Nat),
    connector.calls[index]? = some call → connector.calls[other]? = some call' →
    call.stores = some session → call'.stores = some session → index = other
  slotted : ∀ session, connector.slot = some session → session < connector.sessions
  gone : ∀ session, connector.dead = some session → session < connector.sessions
  failed : ∀ (index : Nat) (call : Call) (session : Nat), connector.calls[index]? = some call →
    call.failed = some session → connector.dead = some session

variable {connector : Connector}

/-- Without calls and sessions the invariant has nothing to say. -/
theorem start_sound : Sound .start where
  holder := by simp [Connector.start]
  held := by simp [Connector.start]
  fresh := by simp [Connector.start]
  apart := by simp [Connector.start]
  slotted := by simp [Connector.start]
  gone := by simp [Connector.start]
  failed := by simp [Connector.start]

/-- A call that moves on keeps, takes or releases the mutex. -/
def Turns (connector : Connector) (index : Nat) (before after : Call) (lock : Option Nat) : Prop :=
  (lock = connector.lock ∧ after.holds = before.holds) ∨
    (connector.lock = none ∧ lock = some index ∧ after.holds = true) ∨
    (before.holds = true ∧ lock = none ∧ after.holds = false)

/-- Then a call that holds the mutex is still the one that the mutex names. -/
theorem Sound.turn_holder (sound : Sound connector) {index other : Nat} {before after call : Call}
    {lock : Option Nat} (there : connector.calls[index]? = some before)
    (turn : Turns connector index before after lock)
    (found : (connector.calls.set index after)[other]? = some call) (holds : call.holds = true) :
    lock = some other := by
  obtain ⟨rfl, rfl⟩ | ⟨apart, old⟩ := set_cases found
  · obtain ⟨kept, same⟩ | ⟨-, taken, -⟩ | ⟨-, -, released⟩ := turn
    · exact kept.trans (sound.holder other before there (same ▸ holds))
    · exact taken
    · rw [released] at holds
      simp at holds
  · have holder := sound.holder other call old holds
    obtain ⟨kept, -⟩ | ⟨free, -, -⟩ | ⟨had, -, -⟩ := turn
    · exact kept.trans holder
    · rw [free] at holder
      simp at holder
    · rw [sound.holder index before there had] at holder
      exact absurd (Option.some.inj holder).symm apart

/-- And the call that the mutex names holds it. -/
theorem Sound.turn_held (sound : Sound connector) {index other : Nat} {before after : Call}
    {lock : Option Nat} (there : connector.calls[index]? = some before)
    (turn : Turns connector index before after lock) (locked : lock = some other) :
    ∃ call, (connector.calls.set index after)[other]? = some call ∧ call.holds = true := by
  have inside : index < connector.calls.length := (List.getElem?_eq_some_iff.mp there).1
  have placed : (connector.calls.set index after)[index]? = some after :=
    List.getElem?_set_self inside
  obtain ⟨kept, same⟩ | ⟨-, taken, holds⟩ | ⟨-, released, -⟩ := turn
  · obtain ⟨call, found, holds⟩ := sound.held other (kept ▸ locked)
    by_cases mine : other = index
    · subst mine
      obtain rfl : before = call := Option.some.inj (there.symm.trans found)
      exact ⟨after, placed, same.trans holds⟩
    · refine ⟨call, ?_, holds⟩
      simp only [List.getElem?_set_ne (Ne.symm mine)]
      exact found
  · obtain rfl : index = other := Option.some.inj (taken.symm.trans locked)
    exact ⟨after, placed, holds⟩
  · rw [released] at locked
    simp at locked

/-- One call moves on. It keeps, takes or releases the mutex, and may store its session or
clear the slot. -/
theorem Sound.move (sound : Sound connector) (index : Nat) (before after : Call)
    (lock slot : Option Nat) (there : connector.calls[index]? = some before)
    (turn : Turns connector index before after lock)
    (stores : after.stores = none ∨ after.stores = before.stores)
    (failed : after.failed = none ∨ after.failed = before.failed ∨ after.failed = connector.dead)
    (content : slot = connector.slot ∨ slot = none ∨
      (after.stores = none ∧ slot = before.stores)) :
    Sound { connector with calls := connector.calls.set index after, lock, slot } := by
  have storing {other : Nat} {call : Call} {session : Nat}
      (found : (connector.calls.set index after)[other]? = some call)
      (unstored : call.stores = some session) :
      ∃ old, connector.calls[other]? = some old ∧ old.stores = some session ∧
        (other = index → after.stores ≠ none) := by
    obtain ⟨rfl, rfl⟩ | ⟨apart, old⟩ := set_cases found
    · rcases stores with nothing | same
      · rw [nothing] at unstored
        simp at unstored
      · exact ⟨before, there, same ▸ unstored, fun _ => by simp [unstored]⟩
    · exact ⟨call, old, unstored, fun same => absurd same apart⟩
  refine ⟨?_, ?_, ?_, ?_, ?_, sound.gone, ?_⟩
  · exact fun other call found holds => sound.turn_holder there turn found holds
  · exact fun other locked => sound.turn_held there turn locked
  · intro other call session found unstored
    obtain ⟨old, known, same, mine⟩ := storing found unstored
    obtain ⟨early, absent, alive⟩ := sound.fresh other old session known same
    refine ⟨early, ?_, alive⟩
    rcases content with kept | rfl | ⟨cleared, stored⟩
    · rwa [kept]
    · simp
    · intro written
      obtain rfl := sound.apart other index old before session known there same
        (stored.symm.trans written)
      exact mine rfl cleared
  · intro first second call call' session atFirst atSecond unstored unstored'
    obtain ⟨old, known, same, -⟩ := storing atFirst unstored
    obtain ⟨old', known', same', -⟩ := storing atSecond unstored'
    exact sound.apart first second old old' session known known' same same'
  · intro session content'
    rcases content with kept | cleared | ⟨-, stored⟩
    · exact sound.slotted session (kept ▸ content')
    · rw [show slot = some session from content'] at cleared
      simp at cleared
    · exact (sound.fresh index before session there (stored.symm.trans content')).1
  · intro other call session found failing
    obtain ⟨-, rfl⟩ | ⟨-, old⟩ := set_cases found
    · rcases failed with empty | same | dead
      · rw [empty] at failing
        simp at failing
      · exact sound.failed index before session there (same.symm.trans failing)
      · exact dead.symm.trans failing
    · exact sound.failed other call session old failing

/-- A call that begins has neither the mutex nor a session. -/
theorem Sound.connect_tcp (sound : Sound connector) : Sound (step connector .connectTcp) := by
  refine ⟨?_, ?_, ?_, ?_, sound.slotted, sound.gone, ?_⟩
  · intro index call found holds
    rcases append_cases found with old | ⟨-, rfl⟩
    · exact sound.holder index call old holds
    · simp [Call.holds] at holds
  · intro index locked
    obtain ⟨call, found, holds⟩ := sound.held index locked
    have inside := (List.getElem?_eq_some_iff.mp found).1
    exact ⟨call, (List.getElem?_append_left inside).trans found, holds⟩
  · intro index call session found stores
    rcases append_cases found with old | ⟨-, rfl⟩
    · exact sound.fresh index call session old stores
    · simp [Call.stores] at stores
  · intro index other call call' session found found' stores stores'
    rcases append_cases found with old | ⟨-, rfl⟩
    · rcases append_cases found' with old' | ⟨-, rfl⟩
      · exact sound.apart index other call call' session old old' stores stores'
      · simp [Call.stores] at stores'
    · simp [Call.stores] at stores
  · intro index call session found failing
    rcases append_cases found with old | ⟨-, rfl⟩
    · exact sound.failed index call session old failing
    · simp [Call.failed] at failing

/-- The session that a call has dialled is a new one. -/
theorem Sound.new_session (sound : Sound connector) (index : Nat) (failed : Option Nat)
    (there : connector.calls[index]? = some (.dialing failed true)) :
    Sound { connector.setCall index (.storing failed connector.sessions) with
      sessions := connector.sessions + 1 } := by
  have new {session : Nat} (early : session < connector.sessions) :
      session ≠ connector.sessions := Nat.ne_of_lt early
  refine ⟨?_, ?_, ?_, ?_, ?_, ?_, ?_⟩
  · intro other call found holds
    obtain ⟨-, rfl⟩ | ⟨-, old⟩ := set_cases found
    · simp [Call.holds] at holds
    · exact sound.holder other call old holds
  · intro other locked
    obtain ⟨call, found, holds⟩ := sound.held other locked
    have different : index ≠ other := by
      rintro rfl
      obtain rfl := Option.some.inj (there.symm.trans found)
      simp [Call.holds] at holds
    refine ⟨call, ?_, holds⟩
    simpa [Connector.setCall, List.getElem?_set_ne different] using found
  · intro other call session found stores
    obtain ⟨-, rfl⟩ | ⟨-, old⟩ := set_cases found
    · obtain rfl : connector.sessions = session := by simpa [Call.stores] using stores
      refine ⟨Nat.lt_succ_self _, ?_, ?_⟩
      · exact fun slotted => new (sound.slotted _ slotted) rfl
      · exact fun gone => new (sound.gone _ gone) rfl
    · obtain ⟨early, apart⟩ := sound.fresh other call session old stores
      exact ⟨Nat.lt_succ_of_lt early, apart⟩
  · intro first second call call' session found found' stores stores'
    obtain ⟨rfl, rfl⟩ | ⟨-, old⟩ := set_cases found
    · obtain rfl : connector.sessions = session := by simpa [Call.stores] using stores
      obtain ⟨rfl, -⟩ | ⟨-, old'⟩ := set_cases found'
      · rfl
      · exact absurd rfl (new (sound.fresh second call' _ old' stores').1)
    · obtain ⟨rfl, rfl⟩ | ⟨-, old'⟩ := set_cases found'
      · obtain rfl : connector.sessions = session := by simpa [Call.stores] using stores'
        exact absurd rfl (new (sound.fresh first call _ old stores).1)
      · exact sound.apart first second call call' session old old' stores stores'
  · exact fun session slotted => Nat.lt_succ_of_lt (sound.slotted session slotted)
  · exact fun session gone => Nat.lt_succ_of_lt (sound.gone session gone)
  · intro other call session found failing
    obtain ⟨-, rfl⟩ | ⟨-, old⟩ := set_cases found
    · exact sound.failed index _ session there failing
    · exact sound.failed other call session old failing

/-- The death of a session keeps the invariant. -/
theorem Sound.die (sound : Sound connector) : Sound connector.die := by
  unfold Connector.die
  split
  · exact sound
  · rename_i alive
    refine ⟨sound.holder, sound.held, ?_, sound.apart, sound.slotted, sound.slotted, ?_⟩
    · intro index call session found stores
      obtain ⟨early, absent, -⟩ := sound.fresh index call session found stores
      exact ⟨early, absent, absent⟩
    · intro index call session found failing
      rw [sound.failed index call session found failing] at alive
      exact absurd rfl alive

/-- Taking the mutex keeps the invariant: it was free. -/
theorem Sound.acquire (sound : Sound connector) (index : Nat) :
    Sound (connector.acquire index) := by
  unfold Connector.acquire
  split
  · exact sound
  · rename_i locked
    have free : connector.lock = none := by simpa using locked
    split
    · next failed there =>
      exact sound.move index _ (.reading failed) (some index) connector.slot there
        (.inr (.inl ⟨free, rfl, rfl⟩)) (.inl rfl)
        (.inr (.inl rfl)) (.inl rfl)
    · next failed session there =>
      exact sound.move index _ (.writing failed session) (some index) connector.slot there
        (.inr (.inl ⟨free, rfl, rfl⟩)) (.inr rfl)
        (.inr (.inl rfl)) (.inl rfl)
    · exact sound

/-- A call that proceeds keeps the invariant: it has the mutex to itself. -/
theorem Sound.proceed (sound : Sound connector) (index : Nat) :
    Sound (connector.proceed index) := by
  unfold Connector.proceed
  split
  · next failed there =>
    split
    · next session _ =>
      exact sound.move index _ (.opening failed session) none connector.slot there
        (.inr (.inr ⟨rfl, rfl, rfl⟩)) (.inl rfl)
        (.inr (.inl rfl)) (.inl rfl)
    · exact sound.move index _ (.dialing failed false) none connector.slot there
        (.inr (.inr ⟨rfl, rfl, rfl⟩)) (.inl rfl)
        (.inr (.inl rfl)) (.inl rfl)
  · next failed session there =>
    exact sound.move index _ (.opening failed session) none (some session) there
      (.inr (.inr ⟨rfl, rfl, rfl⟩)) (.inl rfl)
      (.inr (.inl rfl)) (.inr (.inr ⟨rfl, rfl⟩))
  · next session there =>
    exact sound.move index _ (.looking (some session)) none none there
      (.inr (.inr ⟨rfl, rfl, rfl⟩)) (.inl rfl)
      (.inr (.inl rfl)) (.inr (.inl rfl))
  · exact sound

/-- A session that was dialled is known to its call alone. -/
theorem Sound.dialed (sound : Sound connector) (index : Nat) (result : Except IoError Unit)
    (promised : Promised connector (.dialed index result)) :
    Sound (connector.dialed index result) := by
  obtain rfl : result = .ok () := promised
  unfold Connector.dialed
  split
  · next failed _ there _ =>
    exact sound.move index _ (.dialing failed true) connector.lock connector.slot there
      (.inl ⟨rfl, rfl⟩) (.inl rfl) (.inr (.inl rfl)) (.inl rfl)
  · next failed _ there _ => exact sound.new_session index failed there
  · next error _ wrong => cases wrong
  · exact sound

/-- An answer to an opening keeps the invariant: only the dead session fails. -/
theorem Sound.opened (sound : Sound connector) (index : Nat) (result : Except IoError Unit)
    (promised : Promised connector (.opened index result)) :
    Sound (connector.opened index result) := by
  unfold Connector.opened
  split
  · next failed session _ there =>
    exact sound.move index _ (.returned (.ok session)) connector.lock connector.slot there
      (.inl ⟨rfl, rfl⟩) (.inl rfl) (.inl rfl) (.inl rfl)
  · next session error there =>
    have dead := (promised none session there).mp ⟨error, rfl⟩
    exact sound.move index _ (.evicting session) connector.lock connector.slot there
      (.inl ⟨rfl, rfl⟩) (.inl rfl) (.inr (.inr dead.symm)) (.inl rfl)
  · next failed session error there =>
    exact sound.move index _ (.returned (.error error)) connector.lock connector.slot there
      (.inl ⟨rfl, rfl⟩) (.inl rfl) (.inl rfl) (.inl rfl)
  · exact sound

/-- Evicting a session keeps the invariant. -/
theorem Sound.evict (sound : Sound connector) (index : Nat) : Sound (connector.evict index) := by
  unfold Connector.evict
  split
  · next session there =>
    split
    · exact sound.move index _ (.looking (some session)) connector.lock connector.slot there
        (.inl ⟨rfl, rfl⟩) (.inl rfl) (.inr (.inl rfl)) (.inl rfl)
    · rename_i locked
      have free : connector.lock = none := by simpa using locked
      exact sound.move index _ (.clearing session) (some index) connector.slot there
        (.inr (.inl ⟨free, rfl, rfl⟩)) (.inl rfl)
        (.inr (.inl rfl)) (.inl rfl)
  · exact sound

/-- Every step in which dialling and opening answer as promised keeps the invariant. -/
theorem Sound.step (event : Event) (sound : Sound connector)
    (promised : Promised connector event) : Sound (step connector event) := by
  cases event with
  | connectTcp => exact sound.connect_tcp
  | die => exact sound.die
  | acquire index => exact sound.acquire index
  | proceed index => exact sound.proceed index
  | dialed index result => exact sound.dialed index result promised
  | opened index result => exact sound.opened index result promised
  | evict index => exact sound.evict index

end Invariant

section SecondAttempts

/-- The session that the call must not find in the slot. -/
def Call.seeks : Call → Option Nat
  | .looking failed | .reading failed => failed
  | _ => none

/-- No second attempt finds the session of the first one. While a call waits to look again,
its session is in the slot only if another call is about to change that. -/
structure Safe (connector : Connector) : Prop where
  retries : Retries connector
  looking : ∀ (index session : Nat),
    connector.calls[index]? = some (Call.looking (some session)) →
    connector.slot = some session → connector.Changing
  reading : ∀ (index session : Nat),
    connector.calls[index]? = some (Call.reading (some session)) → connector.slot ≠ some session

variable {connector : Connector}

/-- Without calls no attempt finds anything. -/
theorem start_safe : Safe .start where
  retries := by simp [Retries, Connector.start]
  looking := by simp [Connector.start]
  reading := by simp [Connector.start]

/-- Unless the slot is about to change, no call seeks in vain. -/
theorem Safe.vacant (safe : Safe connector) (unchanging : ¬connector.Changing) (index : Nat)
    (call : Call) (session : Nat) (there : connector.calls[index]? = some call)
    (seeks : call.seeks = some session) : connector.slot ≠ some session := by
  intro slotted
  cases call with
  | looking failed =>
    obtain rfl : failed = some session := seeks
    exact unchanging (safe.looking index session there slotted)
  | reading failed =>
    obtain rfl : failed = some session := seeks
    exact safe.reading index session there slotted
  | _ => simp [Call.seeks] at seeks

/-- A call that has not the mutex moves on and leaves it to the others. -/
theorem Safe.aside (safe : Safe connector) (index : Nat) (before after : Call)
    (there : connector.calls[index]? = some before) (outside : before.changes = false)
    (retries : after.Retries)
    (reads : ∀ failed, after ≠ .reading failed)
    (looks : ∀ session, after = .looking (some session) → connector.slot = some session →
      connector.Changing) :
    Safe (connector.setCall index after) := by
  have still (changing : connector.Changing) : (connector.setCall index after).Changing := by
    obtain ⟨holder, call, locked, found, changes⟩ := changing
    have different : index ≠ holder := by
      rintro rfl
      obtain rfl := Option.some.inj (there.symm.trans found)
      rw [outside] at changes
      simp at changes
    exact ⟨holder, call, locked, (List.getElem?_set_ne different).trans found, changes⟩
  refine ⟨?_, ?_, ?_⟩
  · intro other call found
    obtain ⟨-, rfl⟩ | ⟨-, old⟩ := set_cases found
    · exact retries
    · exact safe.retries other call old
  · intro other session found slotted
    obtain ⟨-, same⟩ | ⟨-, old⟩ := set_cases found
    · exact still (looks session same.symm slotted)
    · exact still (safe.looking other session old slotted)
  · intro other session found
    obtain ⟨-, same⟩ | ⟨-, old⟩ := set_cases found
    · exact absurd same.symm (reads _)
    · exact safe.reading other session old

/-- A call takes or releases the mutex, and no call seeks a session that is then in the
slot. -/
theorem Safe.turn (safe : Safe connector) (index : Nat) (after : Call) (lock slot : Option Nat)
    (retries : after.Retries)
    (mine : ∀ session, after.seeks = some session → slot ≠ some session)
    (others : ∀ (other : Nat) (call : Call) session, connector.calls[other]? = some call →
      call.seeks = some session → slot ≠ some session) :
    Safe { connector with calls := connector.calls.set index after, lock, slot } := by
  have vacant {other : Nat} {call : Call} {session : Nat}
      (found : (connector.calls.set index after)[other]? = some call)
      (seeks : call.seeks = some session) : slot ≠ some session := by
    obtain ⟨-, rfl⟩ | ⟨-, old⟩ := set_cases found
    · exact mine session seeks
    · exact others other call session old seeks
  refine ⟨?_, ?_, ?_⟩
  · intro other call found
    obtain ⟨-, rfl⟩ | ⟨-, old⟩ := set_cases found
    · exact retries
    · exact safe.retries other call old
  · exact fun other session found slotted => absurd slotted (vacant found rfl)
  · exact fun other session found => vacant found rfl

/-- A new call makes its first attempt. -/
theorem Safe.connect_tcp (safe : Safe connector) : Safe (step connector .connectTcp) := by
  refine ⟨?_, ?_, ?_⟩
  · intro index call found
    rcases append_cases found with old | ⟨-, rfl⟩
    · exact safe.retries index call old
    · simp [Call.Retries]
  · intro index session found slotted
    rcases append_cases found with old | ⟨-, wrong⟩
    · obtain ⟨holder, call, locked, held, changes⟩ := safe.looking index session old slotted
      have inside := (List.getElem?_eq_some_iff.mp held).1
      exact ⟨holder, call, locked, (List.getElem?_append_left inside).trans held, changes⟩
    · simp at wrong
  · intro index session found
    rcases append_cases found with old | ⟨-, wrong⟩
    · exact safe.reading index session old
    · simp at wrong

/-- While the mutex is free no call is about to change the slot. -/
theorem not_changing (free : connector.lock = none) : ¬connector.Changing := by
  rintro ⟨holder, -, locked, -⟩
  rw [free] at locked
  simp at locked

/-- The death of a session changes no attempt. -/
theorem Safe.die (safe : Safe connector) : Safe connector.die := by
  unfold Connector.die
  split
  · exact safe
  · exact ⟨safe.retries, safe.looking, safe.reading⟩

/-- A call that takes the mutex finds a session that it may use. -/
theorem Safe.acquire (safe : Safe connector) (index : Nat) : Safe (connector.acquire index) := by
  unfold Connector.acquire
  split
  · exact safe
  · rename_i locked
    have vacant := safe.vacant (not_changing (by simpa using locked))
    split
    · next failed there =>
      apply safe.turn index (.reading failed) (some index) connector.slot
        (by simp [Call.Retries]) _ vacant
      exact fun session seeks => vacant index _ session there seeks
    · exact safe.turn index _ (some index) connector.slot
        (by simp [Call.Retries]) (by simp [Call.seeks]) vacant
    · exact safe

/-- A call that has the mutex opens a stream on the session in the slot, which is not the one
that failed, or stores its new session or clears the slot. -/
theorem Safe.proceed (safe : Safe connector) (sound : Sound connector) (index : Nat) :
    Safe (connector.proceed index) := by
  unfold Connector.proceed
  split
  · next failed there =>
    have locked := sound.holder index _ there rfl
    have unchanging : ¬connector.Changing := by
      rintro ⟨holder, call, locked', found, changes⟩
      obtain rfl := Option.some.inj (locked.symm.trans locked')
      obtain rfl := Option.some.inj (there.symm.trans found)
      simp [Call.changes] at changes
    have vacant := safe.vacant unchanging
    split
    · next session slotted =>
      have renewed : ∀ other, failed = some other → ¬session = other := by
        rintro other rfl rfl
        exact safe.reading index session there slotted
      exact safe.turn index (.opening failed session) none connector.slot
        (by simpa [Call.Retries] using renewed) (by simp [Call.seeks]) vacant
    · exact safe.turn index _ none connector.slot
        (by simp [Call.Retries]) (by simp [Call.seeks]) vacant
  · next failed session there =>
    have alive := (sound.fresh index _ session there rfl).2.2
    have renewed : ∀ other, failed = some other → ¬session = other := by
      rintro other rfl rfl
      exact alive (sound.failed index _ session there rfl)
    apply safe.turn index (.opening failed session) none (some session)
      (by simpa [Call.Retries] using renewed) (by simp [Call.seeks])
    rintro other call _ found seeks ⟨⟩
    apply alive
    apply sound.failed other call session found
    cases call with
    | looking => exact seeks
    | reading => exact seeks
    | _ => simp [Call.seeks] at seeks
  · exact safe.turn index _ none none (by simp [Call.Retries])
      (by simp) (by simp)
  · exact safe

/-- A session that was dialled is not the one that failed. -/
theorem Safe.dialed (safe : Safe connector) (index : Nat) (result : Except IoError Unit)
    (promised : Promised connector (.dialed index result)) :
    Safe (connector.dialed index result) := by
  obtain rfl : result = .ok () := promised
  unfold Connector.dialed
  split
  · next there _ =>
    exact safe.aside index _ _ there rfl (by simp [Call.Retries])
      (fun _ => Call.noConfusion) (by simp)
  · next failed _ there _ =>
    have moved := safe.aside index _ (.storing failed connector.sessions) there rfl
      (by simp [Call.Retries]) (fun _ => Call.noConfusion) (by simp)
    exact ⟨moved.retries, moved.looking, moved.reading⟩
  · next wrong => cases wrong
  · exact safe

/-- An opening that fails sends its call to evict the session before it looks again. -/
theorem Safe.opened (safe : Safe connector) (sound : Sound connector) (index : Nat)
    (result : Except IoError Unit) (promised : Promised connector (.opened index result)) :
    Safe (connector.opened index result) := by
  unfold Connector.opened
  split
  · next there =>
    exact safe.aside index _ _ there rfl (by simp [Call.Retries])
      (fun _ => Call.noConfusion) (by simp)
  · next there =>
    exact safe.aside index _ _ there rfl (by simp [Call.Retries])
      (fun _ => Call.noConfusion) (by simp)
  · next failed session error there =>
    -- the session has failed twice, so it is the dead one, and the first one was too
    have dead := (promised (some failed) session there).mp ⟨error, rfl⟩
    have first := sound.failed index _ failed there rfl
    obtain rfl : failed = session := Option.some.inj (first.symm.trans dead)
    exact absurd rfl ((safe.retries index _ there).2 failed)
  · exact safe

/-- Where the eviction goes through or is not needed, no retry finds the old session. -/
theorem Safe.evict (safe : Safe connector) (index : Nat)
    (evictable : Evictable connector (.evict index)) : Safe (connector.evict index) := by
  unfold Connector.evict
  split
  · next session there =>
    split
    · next locked =>
      apply safe.aside index _ _ there rfl (by simp [Call.Retries])
        (fun _ => Call.noConfusion)
      rintro other ⟨⟩ slotted
      rcases evictable session there slotted with free | changing
      · simp [free] at locked
      · exact changing
    · next locked =>
      have vacant := safe.vacant (not_changing (by simpa using locked))
      exact safe.turn index _ (some index) connector.slot
        (by simp [Call.Retries]) (by simp [Call.seeks]) vacant
  · exact safe

/-- A step that meets the condition keeps second attempts safe. -/
theorem Safe.step (safe : Safe connector) (sound : Sound connector) (event : Event)
    (promised : Promised connector event) (evictable : Evictable connector event) :
    Safe (step connector event) := by
  cases event with
  | connectTcp => exact safe.connect_tcp
  | die => exact safe.die
  | acquire index => exact safe.acquire index
  | proceed index => exact safe.proceed sound index
  | dialed index result => exact safe.dialed index result promised
  | opened index result => exact safe.opened sound index result promised
  | evict index => exact safe.evict index evictable

/-- The two invariants hold at the end of a run whose steps meet the conditions. -/
theorem run_safe (events : List Event) (promised : EachStep step .start Promised events)
    (evictable : EachStep step .start Evictable events) :
    Sound (run step .start events) ∧ Safe (run step .start events) := by
  apply @run_invariant _ _ step .start (fun connector => Sound connector ∧ Safe connector)
    (fun connector event => Promised connector event ∧ Evictable connector event)
  · exact ⟨start_sound, start_safe⟩
  · rintro connector event ⟨sound, safe⟩ ⟨promised, evictable⟩
    exact ⟨sound.step event promised, safe.step sound event promised evictable⟩
  · intro before event after split
    exact ⟨promised before event after split, evictable before event after split⟩

/-- A call finds the session of its first attempt in the slot, and opens a stream on it. -/
theorem found_again (connector : Connector) (index session : Nat)
    (there : connector.calls[index]? = some (.looking (some session)))
    (free : connector.lock = none) (slotted : connector.slot = some session) :
    ((connector.acquire index).proceed index).calls[index]? =
      some (.opening (some session) session) := by
  have inside : index < connector.calls.length := (List.getElem?_eq_some_iff.mp there).1
  have taken : connector.acquire index =
      { connector.setCall index (.reading (some session)) with lock := some index } := by
    simp [Connector.acquire, free, there]
  rw [taken]
  simp [Connector.proceed, Connector.setCall, List.getElem?_set_self inside, slotted]

/-- After an eviction that met another lookup, that lookup can release the mutex, and the
call finds its dead session again. -/
theorem lookup_blocks_eviction (sound : Sound connector) (event : Event)
    (skipped : ¬Evictable connector event) :
    ∃ more, EachStep step connector Promised (event :: more) ∧
      ¬Retries (run step connector (event :: more)) := by
  cases event with
  | evict index =>
    simp only [Evictable, Classical.not_forall, not_or] at skipped
    obtain ⟨session, there, slotted, unfree, unchanging⟩ := skipped
    obtain ⟨holder, locked⟩ := Option.ne_none_iff_exists'.mp unfree
    obtain ⟨call, found, holds⟩ := sound.held holder locked
    obtain ⟨failed, rfl⟩ : ∃ failed, call = .reading failed := by
      cases call with
      | reading failed => exact ⟨failed, rfl⟩
      | writing failed session => exact absurd ⟨holder, _, locked, found, rfl⟩ unchanging
      | clearing session => exact absurd ⟨holder, _, locked, found, rfl⟩ unchanging
      | _ => simp [Call.holds] at holds
    have different : holder ≠ index := by
      rintro rfl
      simp [there] at found
    have inside : index < connector.calls.length := (List.getElem?_eq_some_iff.mp there).1
    have skips : connector.evict index = connector.setCall index (.looking (some session)) := by
      simp [Connector.evict, there, locked]
    have released : (connector.evict index).proceed holder =
        { (connector.setCall index (.looking (some session))).setCall holder
            (.opening failed session) with lock := none } := by
      rw [skips]
      simp [Connector.proceed, Connector.setCall, List.getElem?_set_ne different.symm, found,
        slotted]
    refine ⟨[.proceed holder, .acquire index, .proceed index], ?_, ?_⟩
    · intro before event after split
      have member : event ∈ [Event.evict index, .proceed holder, .acquire index, .proceed index] :=
        split ▸ List.mem_append_right before List.mem_cons_self
      simp only [List.mem_cons, List.not_mem_nil, or_false] at member
      rcases member with rfl | rfl | rfl | rfl <;> trivial
    · intro retries
      have again := found_again ((connector.evict index).proceed holder) index session (by
          rw [released]
          simp [Connector.setCall, inside, different]) (by rw [released])
        (by rw [released]; exact slotted)
      exact (retries index _ again).2 session rfl
  | connectTcp => exact absurd trivial skipped
  | acquire index => exact absurd trivial skipped
  | proceed index => exact absurd trivial skipped
  | dialed index result => exact absurd trivial skipped
  | opened index result => exact absurd trivial skipped
  | die => exact absurd trivial skipped

/-- Every second attempt works in a run whose evictions take effect. After one that does
not, the run can go on to a second attempt on the dead session. -/
theorem second_attempts_work (events : List Event)
    (promised : EachStep step .start Promised events) :
    (EachStep step .start Evictable events → Always step .start Retries events) ∧
      ∀ event, ¬Evictable (run step .start events) event →
        ∃ more, EachStep step .start Promised (events ++ event :: more) ∧
          ¬Retries (run step .start (events ++ event :: more)) := by
  constructor
  · rintro evictable before after rfl
    exact (run_safe before (each_step_before promised) (each_step_before evictable)).2.retries
  · intro event skipped
    have sound := run_invariant start_sound (fun _ => Sound.step) events
      promised
    obtain ⟨more, kept, fails⟩ := lookup_blocks_eviction sound event skipped
    refine ⟨more, each_step_append.mpr ⟨promised, kept⟩, ?_⟩
    rwa [run_append]

/-- A session is dialled, a stream opened on it, and the session dies. Another call has tried
it. -/
def afterDeath : List Event :=
  [.connectTcp, .acquire 0, .proceed 0, .dialed 0 (.ok ()), .dialed 0 (.ok ()), .acquire 0,
    .proceed 0, .opened 0 (.ok ()), .die, .connectTcp, .acquire 1, .proceed 1,
    .opened 1 (.error (.ofText "anytls: session closed"))]

/-- Opening a stream on a live session succeeds as promised. -/
theorem promised_ok (index session : Nat) (failed : Option Nat)
    (there : connector.calls[index]? = some (.opening failed session))
    (alive : connector.dead ≠ some session) : Promised connector (.opened index (.ok ())) := by
  intro failed' session' there'
  obtain ⟨rfl, rfl⟩ := Call.opening.inj (Option.some.inj (there.symm.trans there'))
  simp [alive]

/-- Opening a stream on the dead session fails as promised. -/
theorem promised_error (index session : Nat) (failed : Option Nat) (error : IoError)
    (there : connector.calls[index]? = some (.opening failed session))
    (dead : connector.dead = some session) :
    Promised connector (.opened index (.error error)) := by
  intro failed' session' there'
  obtain ⟨rfl, rfl⟩ := Call.opening.inj (Option.some.inj (there.symm.trans there'))
  simp [dead]

/-- The sample run answers as promised at every step. -/
theorem after_death_promised : EachStep step .start Promised afterDeath := by
  simp only [afterDeath, each_step_cons]
  refine ⟨trivial, trivial, trivial, rfl, rfl, trivial, trivial, ?_, trivial, trivial, trivial,
    trivial, ?_, each_step_nil⟩
  · exact promised_ok 0 0 none rfl (by decide)
  · exact promised_error 1 0 none _ rfl rfl

/-- The second call evicts the session while no other call has the mutex. -/
theorem second_attempts_work_after_death :
    Always step .start Retries (afterDeath ++ [.evict 1]) := by
  apply (second_attempts_work _ (each_step_append.mpr ⟨after_death_promised, ?_⟩)).1
  · refine each_step_append.mpr ⟨?_, each_step_cons.mpr ⟨fun _ _ _ => .inl rfl, each_step_nil⟩⟩
    simp only [afterDeath, each_step_cons]
    exact ⟨trivial, trivial, trivial, trivial, trivial, trivial, trivial, trivial, trivial,
      trivial, trivial, trivial, trivial, each_step_nil⟩
  · exact each_step_cons.mpr ⟨trivial, each_step_nil⟩

/-- A third call looks the session up while the second one tries to evict it. -/
theorem dead_session_tried_again :
    EachStep step .start Promised (afterDeath ++ [.connectTcp, .acquire 2, .evict 1, .proceed 2,
      .acquire 1, .proceed 1, .opened 1 (.error (.ofText "anytls: session closed"))]) ∧
    ¬Always step .start Retries (afterDeath ++ [.connectTcp, .acquire 2, .evict 1, .proceed 2,
      .acquire 1, .proceed 1, .opened 1 (.error (.ofText "anytls: session closed"))]) := by
  constructor
  · refine each_step_append.mpr ⟨after_death_promised, ?_⟩
    simp only [each_step_cons]
    refine ⟨trivial, trivial, trivial, trivial, trivial, trivial, ?_, each_step_nil⟩
    exact promised_error 1 0 (some 0) _ rfl rfl
  · intro always
    have last := always _ [] (List.append_nil _).symm 1
      (.returned (.error (.ofText "anytls: session closed"))) rfl
    exact last.1 _ rfl

end SecondAttempts

end OmniProxy.PooledSessions
