import OmniProxy.Connections
import OmniProxy.GuardedRuns
import OmniProxy.ListUpdates

/-!
# The pool of multiplexed sessions

The pool has an entry for each session and a counter of the streams in use on it. A dial
takes the lock of the entries and asks their sessions for a stream, one after the other,
skipping those whose counter has reached the limit. If none gives a stream it releases
the lock, sets up a session of its own and takes the lock again to add it. Every await of
a dial is a place where other tasks run, and where the dial may be given up.

A dial returns a stream and a lease. Releasing the lease lowers the counter, without the
lock; dropping it does nothing. A session and its counter have the same number. What
sessions and connections answer is part of a run. Entries are only ever added, so an entry
whose session has failed stays.
-/

namespace OmniProxy.MuxPools

open Connections GuardedRuns ListUpdates

section Pool

/-- How far a dial is. -/
inductive Dial where
  | locking
  | scanning (index : Nat)
  | opening (index : Nat)
  | connecting
  | handshaking
  | openingFirst
  | pushing (session : Nat)
  | returned (result : Except IoError Nat)
  | cancelled

/-- The dial has the lock of the entries. -/
def Dial.scans : Dial → Bool
  | .scanning _ | .opening _ => true
  | _ => false

/-- The dial has not ended. -/
def Dial.inFlight : Dial → Bool
  | .returned _ | .cancelled => false
  | _ => true

/-- A stream that a dial returned, with its lease. -/
structure PooledDial where
  session : Nat
  live : Bool
  leased : Bool
  released : Bool

/-- The pool with its dials and the streams they returned. -/
structure MuxPool where
  maxStreams : UInt64
  lock : Option Nat
  entries : List Nat
  counters : List UInt64
  dials : List Dial
  streams : List PooledDial

def defaultMaxStreamsPerSession : UInt64 := 64

def MuxPool.withMaxStreams (maxStreams : UInt64) : MuxPool := ⟨maxStreams, none, [], [], [], []⟩

def MuxPool.new : MuxPool := .withMaxStreams defaultMaxStreamsPerSession

/-- The counter of a session. -/
def MuxPool.active (pool : MuxPool) (session : Nat) : UInt64 := pool.counters.getD session 0

def MuxPool.setDial (pool : MuxPool) (index : Nat) (dial : Dial) : MuxPool :=
  { pool with dials := pool.dials.set index dial }

/-- A dial returns a stream of a session with its lease. -/
def MuxPool.handOut (pool : MuxPool) (index session : Nat) : MuxPool :=
  { pool with
    dials := pool.dials.set index (.returned (.ok pool.streams.length))
    streams := pool.streams ++ [⟨session, true, true, false⟩] }

/-- A dial goes on, up to its next await. -/
def MuxPool.proceed (pool : MuxPool) (index : Nat) : MuxPool :=
  match pool.dials[index]? with
  | some .locking =>
      if pool.lock.isSome then pool
      else { pool.setDial index (.scanning 0) with lock := some index }
  | some (.scanning place) =>
      match pool.entries[place]? with
      | none => { pool.setDial index .connecting with lock := none }
      | some session =>
          if pool.maxStreams ≤ pool.active session then
            pool.setDial index (.scanning (place + 1))
          else pool.setDial index (.opening place)
  | some (.pushing session) =>
      if pool.lock.isSome then pool
      else { pool.handOut index session with entries := pool.entries ++ [session] }
  | _ => pool

/-- What a dial waits for is there. -/
def MuxPool.answer (pool : MuxPool) (index : Nat) (result : Except IoError Unit) : MuxPool :=
  match pool.dials[index]?, result with
  | some (.opening place), .ok _ =>
      match pool.entries[place]? with
      | some session =>
          { pool.handOut index session with
            counters := pool.counters.modify session (· + 1)
            lock := none }
      | none => pool
  | some (.opening place), .error _ => pool.setDial index (.scanning (place + 1))
  | some .connecting, .ok _ => pool.setDial index .handshaking
  | some .handshaking, .ok _ => pool.setDial index .openingFirst
  | some .openingFirst, .ok _ =>
      { pool.setDial index (.pushing pool.counters.length) with counters := pool.counters ++ [1] }
  | some .connecting, .error error => pool.setDial index (.returned (.error error))
  | some .handshaking, .error error => pool.setDial index (.returned (.error error))
  | some .openingFirst, .error error => pool.setDial index (.returned (.error error))
  | _, _ => pool

/-- A dial is given up at an await. What it holds is dropped. -/
def MuxPool.cancel (pool : MuxPool) (index : Nat) : MuxPool :=
  match pool.dials[index]? with
  | none => pool
  | some dial =>
      if dial.inFlight then
        { pool.setDial index .cancelled with
          lock := if pool.lock = some index then none else pool.lock }
      else pool

/-- A lease that is still there is released. -/
def MuxPool.release (pool : MuxPool) (stream : Nat) : MuxPool :=
  match pool.streams[stream]? with
  | none => pool
  | some pooled =>
      if pooled.leased then
        { pool with
          counters := pool.counters.modify pooled.session (· - 1)
          streams := pool.streams.modify stream ({ · with released := true }) }
      else pool

/-- The entries with a dead session are to be removed; no entry is. -/
def MuxPool.pruneDead (pool : MuxPool) : Nat × MuxPool :=
  if pool.lock.isSome then (0, pool)
  else
    let entries := pool.entries.filter fun _ => true
    (pool.entries.length - entries.length, { pool with entries })

inductive Event where
  | dial
  | proceed (index : Nat)
  | answer (index : Nat) (result : Except IoError Unit)
  | cancel (index : Nat)
  | release (stream : Nat)
  | dropLease (stream : Nat)
  | dropStream (stream : Nat)
  | pruneDead
  | sessionFails (session : Nat)

/-- One step of a run. That a session fails is not noticed by the pool. -/
def step (pool : MuxPool) : Event → MuxPool
  | .dial => { pool with dials := pool.dials ++ [.locking] }
  | .proceed index => pool.proceed index
  | .answer index result => pool.answer index result
  | .cancel index => pool.cancel index
  | .release stream => pool.release stream
  | .dropLease stream =>
      { pool with streams := pool.streams.modify stream ({ · with leased := false }) }
  | .dropStream stream =>
      { pool with streams := pool.streams.modify stream ({ · with live := false }) }
  | .pruneDead => pool.pruneDead.2
  | .sessionFails _ => pool

/-- The streams returned from a session that have a property. -/
def MuxPool.streamsOf (pool : MuxPool) (session : Nat) (select : PooledDial → Bool) : Nat :=
  pool.streams.countP fun pooled => decide (pooled.session = session) && select pooled

end Pool

section Entries

/-- What holds of the entries in every run. They are different sessions with counters, and
the sessions that dials wait to add are different ones and not yet there. -/
structure Listed (pool : MuxPool) : Prop where
  entered : ∀ session ∈ pool.entries, session < pool.counters.length
  distinct : pool.entries.Nodup
  pushing : ∀ (index session : Nat), pool.dials[index]? = some (.pushing session) →
    session ∉ pool.entries ∧ session < pool.counters.length
  apart : ∀ (index other session : Nat), pool.dials[index]? = some (.pushing session) →
    pool.dials[other]? = some (.pushing session) → index = other

variable {pool after : MuxPool}

/-- A fresh pool has no entries. -/
theorem start_listed (maxStreams : UInt64) : Listed (.withMaxStreams maxStreams) where
  entered := by simp [MuxPool.withMaxStreams]
  distinct := List.nodup_nil
  pushing := by simp [MuxPool.withMaxStreams]
  apart := by simp [MuxPool.withMaxStreams]

/-- No dial gets a new session. -/
theorem Listed.quiet (listed : Listed pool) (entries : after.entries = pool.entries)
    (counters : after.counters.length = pool.counters.length)
    (pushed : ∀ (index session : Nat), after.dials[index]? = some (.pushing session) →
      pool.dials[index]? = some (.pushing session)) : Listed after where
  entered := by
    rw [entries, counters]
    exact listed.entered
  distinct := entries ▸ listed.distinct
  pushing := by
    intro index session there
    rw [entries, counters]
    exact listed.pushing index session (pushed index session there)
  apart := by
    intro index other session first second
    exact listed.apart index other session (pushed index session first)
      (pushed other session second)

/-- One dial moves on without a new session. -/
theorem Listed.move (listed : Listed pool) (index : Nat) (dial : Dial)
    (unpushed : ∀ session, dial ≠ .pushing session) (entries : after.entries = pool.entries)
    (counters : after.counters.length = pool.counters.length)
    (dials : after.dials = pool.dials.set index dial) : Listed after := by
  apply listed.quiet entries counters
  intro other session there
  rw [dials] at there
  obtain ⟨-, same⟩ | ⟨-, old⟩ := set_cases there
  · exact absurd same.symm (unpushed session)
  · exact old

/-- A dial gets a new session. -/
theorem Listed.create (listed : Listed pool) (index : Nat)
    (entries : after.entries = pool.entries)
    (counters : after.counters.length = pool.counters.length + 1)
    (dials : after.dials = pool.dials.set index (.pushing pool.counters.length)) :
    Listed after where
  entered := by
    intro session member
    have there := listed.entered session (entries ▸ member)
    omega
  distinct := entries ▸ listed.distinct
  pushing := by
    intro other session there
    rw [dials] at there
    rw [entries]
    obtain ⟨-, same⟩ | ⟨-, old⟩ := set_cases there
    · obtain rfl := Dial.pushing.inj same
      refine ⟨?_, by omega⟩
      intro member
      have there := listed.entered _ member
      omega
    · obtain ⟨fresh, there⟩ := listed.pushing other session old
      exact ⟨fresh, by omega⟩
  apart := by
    intro first second session atFirst atSecond
    rw [dials] at atFirst atSecond
    have older {place : Nat} (there : pool.dials[place]? = some (.pushing session)) :
        session < pool.counters.length := (listed.pushing place session there).2
    obtain ⟨rfl, same⟩ | ⟨-, old⟩ := set_cases atFirst
    · obtain ⟨rfl, -⟩ | ⟨-, old⟩ := set_cases atSecond
      · rfl
      · have less := older old
        obtain rfl := Dial.pushing.inj same
        omega
    · obtain ⟨rfl, same⟩ | ⟨-, old'⟩ := set_cases atSecond
      · have less := older old
        obtain rfl := Dial.pushing.inj same
        omega
      · exact listed.apart first second session old old'

/-- A dial adds its session and returns. -/
theorem Listed.enter (listed : Listed pool) (index session : Nat) (dial : Dial)
    (there : pool.dials[index]? = some (.pushing session))
    (unpushed : ∀ session, dial ≠ .pushing session)
    (entries : after.entries = pool.entries ++ [session])
    (counters : after.counters.length = pool.counters.length)
    (dials : after.dials = pool.dials.set index dial) : Listed after := by
  obtain ⟨fresh, counter⟩ := listed.pushing index session there
  have pushed {other found : Nat} (pushing : after.dials[other]? = some (.pushing found)) :
      other ≠ index ∧ pool.dials[other]? = some (.pushing found) := by
    rw [dials] at pushing
    obtain ⟨-, same⟩ | older := set_cases pushing
    · exact absurd same.symm (unpushed found)
    · exact older
  constructor
  · intro other member
    rw [counters]
    rw [entries] at member
    rcases List.mem_append.mp member with old | new
    · exact listed.entered other old
    · rw [List.mem_singleton.mp new]
      exact counter
  · rw [entries, List.nodup_append]
    refine ⟨listed.distinct, List.nodup_singleton session, ?_⟩
    intro other member same new equal
    rw [List.mem_singleton.mp new] at equal
    exact fresh (equal ▸ member)
  · intro other found pushing
    obtain ⟨apart, old⟩ := pushed pushing
    obtain ⟨absent, counted⟩ := listed.pushing other found old
    rw [entries, counters]
    refine ⟨?_, counted⟩
    intro member
    rcases List.mem_append.mp member with older | new
    · exact absent older
    · obtain rfl := List.mem_singleton.mp new
      exact apart (listed.apart other index found old there)
  · intro first second found atFirst atSecond
    exact listed.apart first second found (pushed atFirst).2 (pushed atSecond).2

/-- Every step keeps the entries different sessions with counters. -/
theorem step_listed (pool : MuxPool) (event : Event) (listed : Listed pool) :
    Listed (step pool event) := by
  cases event with
  | dial =>
    refine listed.quiet rfl rfl ?_
    intro index session there
    rcases append_cases there with old | ⟨-, new⟩
    · exact old
    · simp at new
  | proceed index =>
    simp only [step, MuxPool.proceed]
    split
    · split
      · exact listed
      · exact listed.move index _ (by simp) rfl rfl rfl
    · split
      · exact listed.move index _ (by simp) rfl rfl rfl
      · split <;> exact listed.move index _ (by simp) rfl rfl rfl
    · rename_i session there
      split
      · exact listed
      · exact listed.enter index session _ there (by simp) rfl rfl rfl
    · exact listed
  | answer index result =>
    simp only [step, MuxPool.answer]
    split
    · split
      · exact listed.move index _ (by simp) rfl (List.length_modify ..) rfl
      · exact listed
    · exact listed.move index _ (by simp) rfl rfl rfl
    · exact listed.move index _ (by simp) rfl rfl rfl
    · exact listed.move index _ (by simp) rfl rfl rfl
    · exact listed.create index rfl (List.length_append ..) rfl
    · exact listed.move index _ (by simp) rfl rfl rfl
    · exact listed.move index _ (by simp) rfl rfl rfl
    · exact listed.move index _ (by simp) rfl rfl rfl
    · exact listed
  | cancel index =>
    simp only [step, MuxPool.cancel]
    split
    · exact listed
    · split
      · exact listed.move index _ (by simp) rfl rfl rfl
      · exact listed
  | release stream =>
    simp only [step, MuxPool.release]
    split
    · exact listed
    · split
      · exact listed.quiet rfl (List.length_modify ..) fun _ _ => id
      · exact listed
  | dropLease stream => exact listed.quiet rfl rfl fun _ _ => id
  | dropStream stream => exact listed.quiet rfl rfl fun _ _ => id
  | pruneDead =>
    simp only [step, MuxPool.pruneDead]
    split
    · exact listed
    · exact listed.quiet (by simp) rfl fun _ _ => id
  | sessionFails session => exact listed

/-- What a step does to the limit, the entries and the streams. Entries are only added; a
dial may return one more stream, or one of the streams changes. -/
theorem step_effect (pool : MuxPool) (event : Event) :
    (step pool event).maxStreams = pool.maxStreams ∧
    (∃ more, (step pool event).entries = pool.entries ++ more) ∧
    ((step pool event).streams = pool.streams ∨
      (∃ session, (step pool event).streams = pool.streams ++ [⟨session, true, true, false⟩]) ∨
      (∃ stream pooled, event = .release stream ∧ pool.streams[stream]? = some pooled ∧
        pooled.leased = true ∧
        (step pool event).streams = pool.streams.modify stream ({ · with released := true })) ∨
      (∃ stream, event = .dropLease stream ∧
        (step pool event).streams = pool.streams.modify stream ({ · with leased := false })) ∨
      ∃ stream, event = .dropStream stream ∧
        (step pool event).streams = pool.streams.modify stream ({ · with live := false })) := by
  have same : ∃ more, pool.entries = pool.entries ++ more := ⟨[], (List.append_nil _).symm⟩
  cases event with
  | dial => exact ⟨rfl, same, .inl rfl⟩
  | proceed index =>
    simp only [step, MuxPool.proceed]
    split
    · split <;> exact ⟨rfl, same, .inl rfl⟩
    · split
      · exact ⟨rfl, same, .inl rfl⟩
      · split <;> exact ⟨rfl, same, .inl rfl⟩
    · split
      · exact ⟨rfl, same, .inl rfl⟩
      · exact ⟨rfl, ⟨_, rfl⟩, .inr (.inl ⟨_, rfl⟩)⟩
    · exact ⟨rfl, same, .inl rfl⟩
  | answer index result =>
    simp only [step, MuxPool.answer]
    split
    · split
      · exact ⟨rfl, same, .inr (.inl ⟨_, rfl⟩)⟩
      · exact ⟨rfl, same, .inl rfl⟩
    all_goals exact ⟨rfl, same, .inl rfl⟩
  | cancel index =>
    simp only [step, MuxPool.cancel]
    split
    · exact ⟨rfl, same, .inl rfl⟩
    · split <;> exact ⟨rfl, same, .inl rfl⟩
  | release stream =>
    simp only [step, MuxPool.release]
    split
    · exact ⟨rfl, same, .inl rfl⟩
    · rename_i pooled there
      split
      · rename_i leased
        exact ⟨rfl, same, .inr (.inr (.inl ⟨stream, pooled, rfl, there, leased, rfl⟩))⟩
      · exact ⟨rfl, same, .inl rfl⟩
  | dropLease stream => exact ⟨rfl, same, .inr (.inr (.inr (.inl ⟨stream, rfl, rfl⟩)))⟩
  | dropStream stream => exact ⟨rfl, same, .inr (.inr (.inr (.inr ⟨stream, rfl, rfl⟩)))⟩
  | pruneDead =>
    simp only [step, MuxPool.pruneDead]
    split
    · exact ⟨rfl, same, .inl rfl⟩
    · exact ⟨rfl, ⟨[], by simp⟩, .inl rfl⟩
  | sessionFails session => exact ⟨rfl, same, .inl rfl⟩

end Entries

section Returns

/-- The dial has ended with a stream or an error. -/
def Dial.hasReturned : Dial → Bool
  | .returned _ => true
  | _ => false

/-- The dial that returns at a step: with a stream of an entry, with the error of its
connection, or once its session is added. -/
def returning (pool : MuxPool) : Event → Option Nat
  | .proceed index =>
      match pool.dials[index]? with
      | some (.pushing _) => if pool.lock.isSome then none else some index
      | _ => none
  | .answer index (.ok _) =>
      match pool.dials[index]? with
      | some (.opening place) => pool.entries[place]?.map fun _ => index
      | _ => none
  | .answer index (.error _) =>
      match pool.dials[index]? with
      | some .connecting | some .handshaking | some .openingFirst => some index
      | _ => none
  | _ => none

/-- A dial of a list was in flight, and has returned in the list after. -/
def Finished (before after : List Dial) (index : Nat) : Prop :=
  before[index]?.any Dial.inFlight = true ∧ after[index]?.any Dial.hasReturned = true

variable {dials : List Dial}

/-- A dial that does not change has not just returned. -/
theorem not_finished_same (index : Nat) : ¬Finished dials dials index := by
  rintro ⟨flies, ended⟩
  obtain ⟨dial, there, flies⟩ := (Option.any_eq_true ..).mp flies
  rw [there] at ended
  cases dial <;> simp [Dial.inFlight, Dial.hasReturned] at flies ended

/-- Only a dial that is set to an end finishes. -/
theorem finished_set {place : Nat} {dial : Dial} {index : Nat}
    (finished : Finished dials (dials.set place dial) index) :
    index = place ∧ dial.hasReturned = true := by
  obtain ⟨flies, ended⟩ := finished
  obtain ⟨found, there, returned⟩ := (Option.any_eq_true ..).mp ended
  obtain ⟨rfl, rfl⟩ | ⟨-, old⟩ := set_cases there
  · exact ⟨rfl, returned⟩
  · rw [there, ← old] at ended
    exact absurd ⟨flies, ended⟩ (not_finished_same index)

/-- The one dial that a step puts back as returned is the one that finished. -/
theorem finished_returned {place : Nat} {before dial : Dial} (there : dials[place]? = some before)
    (flies : before.inFlight = true) (returned : dial.hasReturned = true) (index : Nat) :
    some place = some index ↔ Finished dials (dials.set place dial) index := by
  constructor
  · rintro ⟨⟩
    have inside : place < dials.length := (List.getElem?_eq_some_iff.mp there).1
    refine ⟨?_, ?_⟩
    · rw [there]
      exact flies
    · rw [List.getElem?_set_self inside]
      exact returned
  · intro finished
    rw [(finished_set finished).1]

/-- A step that finishes no dial returns none. -/
theorem unfinished {index : Nat} {after : List Dial} (stays : ¬Finished dials after index) :
    none = some index ↔ Finished dials after index :=
  iff_of_false (by simp) stays

/-- A dial that goes on has not finished. -/
theorem unfinished_set {place : Nat} {dial : Dial} (goesOn : dial.hasReturned = false)
    (index : Nat) : none = some index ↔ Finished dials (dials.set place dial) index := by
  apply unfinished
  intro finished
  have returned := (finished_set finished).2
  rw [goesOn] at returned
  cases returned

/-- A dial returns at a step exactly if it was in flight before and has returned after it. -/
theorem returning_iff (pool : MuxPool) (event : Event) (index : Nat) :
    returning pool event = some index ↔ Finished pool.dials (step pool event).dials index := by
  have same : none = some index ↔ Finished pool.dials pool.dials index :=
    unfinished (not_finished_same index)
  cases event with
  | dial =>
    apply unfinished
    rintro ⟨flies, ended⟩
    obtain ⟨dial, there, returned⟩ := (Option.any_eq_true ..).mp ended
    rcases append_cases there with old | ⟨-, rfl⟩
    · rw [there, ← old] at ended
      exact not_finished_same index ⟨flies, ended⟩
    · cases returned
  | proceed place =>
    simp only [returning, step, MuxPool.proceed]
    rcases there : pool.dials[place]? with _ | dial
    · exact same
    · cases dial with
      | locking =>
        dsimp only
        split
        · exact same
        · exact unfinished_set rfl index
      | scanning next =>
        dsimp only
        split
        · exact unfinished_set rfl index
        · split
          · exact unfinished_set rfl index
          · exact unfinished_set rfl index
      | pushing session =>
        dsimp only
        split
        · exact same
        · exact finished_returned there rfl rfl index
      | _ => exact same
  | answer place result =>
    cases result with
    | ok value =>
      simp only [returning, step, MuxPool.answer]
      rcases there : pool.dials[place]? with _ | dial
      · exact same
      · cases dial with
        | opening next =>
          dsimp only
          cases pool.entries[next]? with
          | none => exact same
          | some session => exact finished_returned there rfl rfl index
        | connecting => exact unfinished_set rfl index
        | handshaking => exact unfinished_set rfl index
        | openingFirst => exact unfinished_set rfl index
        | _ => exact same
    | error error =>
      simp only [returning, step, MuxPool.answer]
      rcases there : pool.dials[place]? with _ | dial
      · exact same
      · cases dial with
        | opening next => exact unfinished_set rfl index
        | connecting => exact finished_returned there rfl rfl index
        | handshaking => exact finished_returned there rfl rfl index
        | openingFirst => exact finished_returned there rfl rfl index
        | _ => exact same
  | cancel place =>
    simp only [returning, step, MuxPool.cancel]
    split
    · exact same
    · split
      · exact unfinished_set rfl index
      · exact same
  | release stream =>
    simp only [returning, step, MuxPool.release]
    split
    · exact same
    · split <;> exact same
  | pruneDead =>
    simp only [returning, step, MuxPool.pruneDead]
    split <;> exact same
  | dropLease => exact same
  | dropStream => exact same
  | sessionFails => exact same

end Returns

section Eviction

/-- A pool with the errors that sessions of entries gave to dials, the sessions that have
failed, and the sessions whose entries are to be gone: those whose error was given to a
dial that has returned, and those that had failed when the pool was pruned. -/
structure Ledger where
  pool : MuxPool
  seen : List (Nat × Nat)
  failed : List Nat
  due : List Nat

def Ledger.start (maxStreams : UInt64) : Ledger := ⟨.withMaxStreams maxStreams, [], [], []⟩

/-- The error of a session in the pool that a step gives to a dial. -/
def noticed (pool : MuxPool) : Event → Option (Nat × Nat)
  | .answer index (.error _) =>
      match pool.dials[index]? with
      | some (.opening place) => pool.entries[place]?.map (index, ·)
      | _ => none
  | _ => none

/-- The session that fails at a step. -/
def failing (pool : MuxPool) : Event → List Nat
  | .sessionFails session => [session]
  | event => (noticed pool event).toList.map Prod.snd

/-- The sessions whose entries are to be gone after a step. -/
def Ledger.evictions (ledger : Ledger) : Event → List Nat
  | .pruneDead =>
      if ledger.pool.lock.isSome then []
      else ledger.pool.entries.filter fun session => ledger.failed.contains session
  | event =>
      (ledger.seen.filter fun entry => returning ledger.pool event = some entry.1).map Prod.snd

def Ledger.step (ledger : Ledger) (event : Event) : Ledger where
  pool := MuxPools.step ledger.pool event
  seen := ledger.seen ++ (noticed ledger.pool event).toList
  failed := ledger.failed ++ failing ledger.pool event
  due := ledger.due ++ ledger.evictions event

/-- The entries that are to be gone are gone, so that there are no more entries than
sessions not known to be dead and dials in flight. -/
def Evicts (ledger : Ledger) : Prop :=
  (∀ session ∈ ledger.due, session ∉ ledger.pool.entries) ∧
    ledger.pool.entries.length ≤
      ((List.range ledger.pool.counters.length).filter fun session =>
        !ledger.due.contains session).length +
        ledger.pool.dials.countP Dial.inFlight

/-- No dial that was given the error of an entry returns, and the pool is not pruned while
the session of an entry has failed. -/
def NothingDue (ledger : Ledger) (event : Event) : Prop := ledger.evictions event = []

/-- The errors came from entries, and nothing is due. -/
structure Patient (ledger : Ledger) : Prop where
  listed : Listed ledger.pool
  seen : ∀ entry ∈ ledger.seen, entry.2 ∈ ledger.pool.entries
  idle : ledger.due = []

variable {ledger : Ledger}

/-- No step takes an entry away. -/
theorem entries_stay {pool : MuxPool} {session : Nat} (event : Event)
    (member : session ∈ pool.entries) : session ∈ (step pool event).entries := by
  obtain ⟨-, ⟨more, grown⟩, -⟩ := step_effect pool event
  rw [grown]
  exact List.mem_append_left more member

/-- The error that a dial is given comes from a session in the pool. -/
theorem noticed_entry {pool : MuxPool} {event : Event} {entry : Nat × Nat}
    (given : noticed pool event = some entry) : entry.2 ∈ pool.entries := by
  unfold noticed at given
  split at given
  · split at given
    · obtain ⟨session, there, rfl⟩ := Option.map_eq_some_iff.mp given
      exact List.mem_of_getElem? there
    · simp at given
  · simp at given

/-- What is to be gone is an entry. -/
theorem evictions_entries (seen : ∀ entry ∈ ledger.seen, entry.2 ∈ ledger.pool.entries)
    (event : Event) : ∀ session ∈ ledger.evictions event, session ∈ ledger.pool.entries := by
  intro session member
  unfold Ledger.evictions at member
  split at member
  · split at member
    · simp at member
    · exact List.mem_of_mem_filter member
  · obtain ⟨entry, there, rfl⟩ := List.mem_map.mp member
    exact seen entry (List.mem_of_mem_filter there)

/-- While nothing is due a step keeps what was seen among the entries. -/
theorem patient_step (event : Event) (patient : Patient ledger)
    (nothing : NothingDue ledger event) : Patient (ledger.step event) where
  listed := step_listed _ _ patient.listed
  seen := by
    intro entry member
    rcases List.mem_append.mp member with old | new
    · exact entries_stay event (patient.seen entry old)
    · exact entries_stay event (noticed_entry (Option.mem_toList.mp new))
  idle := by
    change ledger.due ++ ledger.evictions event = []
    rw [patient.idle, nothing]
    rfl

/-- When nothing was ever due, nothing is missing from what had to be evicted. -/
theorem Patient.evicts (patient : Patient ledger) : Evicts ledger := by
  constructor
  · rw [patient.idle]
    simp
  · have within : ledger.pool.entries ⊆ List.range ledger.pool.counters.length :=
      fun session member => List.mem_range.mpr (patient.listed.entered session member)
    have bound := (List.subperm_of_subset patient.listed.distinct within).length_le
    rw [patient.idle]
    simp only [List.contains_nil, Bool.not_false, List.filter_true]
    omega

/-- An entry that is to be gone is still there. -/
theorem due_not_evicted (event : Event) (patient : Patient ledger)
    (due : ¬NothingDue ledger event) : ¬Evicts (ledger.step event) := by
  rintro ⟨gone, -⟩
  obtain ⟨session, member⟩ := List.exists_mem_of_ne_nil _ due
  have entry := evictions_entries patient.seen event session member
  exact gone session (List.mem_append_right _ member) (entries_stay event entry)

/-- Dead sessions are evicted throughout a run exactly when there is never one to evict. -/
theorem evicts_iff_nothing_due (maxStreams : UInt64) (events : List Event) :
    Always Ledger.step (.start maxStreams) Evicts events ↔
      EachStep Ledger.step (.start maxStreams) NothingDue events := by
  apply @always_iff_each_step _ _ Ledger.step (.start maxStreams) Patient
  · exact ⟨start_listed maxStreams, by simp [Ledger.start], rfl⟩
  · exact fun ledger event => patient_step event
  · exact fun ledger => Patient.evicts
  · exact fun ledger event => due_not_evicted event

/-- The only session fails; a dial that was given its error returns a stream of another
one, and the entry is still there. -/
theorem dead_session_stays :
    ¬Always Ledger.step (.start 64) Evicts
      [.dial, .proceed 0, .proceed 0, .answer 0 (.ok ()), .answer 0 (.ok ()), .answer 0 (.ok ()),
        .proceed 0, .dial, .proceed 1, .proceed 1, .answer 1 (.error (.ofText "mux: closed")),
        .proceed 1, .answer 1 (.ok ()), .answer 1 (.ok ()), .answer 1 (.ok ()), .proceed 1] := by
  intro always
  have gone := (always _ [] (List.append_nil _).symm).1 0
  revert gone
  decide

end Eviction

end OmniProxy.MuxPools
