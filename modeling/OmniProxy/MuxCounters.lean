import OmniProxy.MuxPools
import Mathlib.Data.List.GetD

/-!
# The counters of the multiplexed sessions

The counter of an entry is the number of the streams returned from its session whose lease
was not released, as long as no lease is released twice. So it is never larger than the
limit. Where the leases are dropped when the streams are returned, the counter is the
number of the open streams exactly as long as no stream is dropped.
-/

namespace OmniProxy.MuxPools

open Connections GuardedRuns ListUpdates

section Invariant

/-- What holds of the counters in every run in which no lease is released twice. The counter
of a pooled session is the number of its streams whose lease has not been released. -/
structure Sound (pool : MuxPool) : Prop extends Listed pool where
  first : ∀ (index session : Nat), pool.dials[index]? = some (.pushing session) →
    pool.active session = 1
  locked : ∀ (index : Nat) (dial : Dial), pool.dials[index]? = some dial → dial.scans = true →
    pool.lock = some index
  below : ∀ (index place session : Nat), pool.dials[index]? = some (.opening place) →
    pool.entries[place]? = some session → pool.active session < pool.maxStreams
  known : ∀ pooled ∈ pool.streams, pooled.session ∈ pool.entries
  counted : ∀ session ∈ pool.entries,
    (pool.active session).toNat = pool.streamsOf session (!·.released)
  capped : 1 ≤ pool.maxStreams → ∀ session ∈ pool.entries, pool.active session ≤ pool.maxStreams

variable {pool : MuxPool}

/-- Without dials and streams all counters are right. -/
theorem start_sound (maxStreams : UInt64) : Sound (.withMaxStreams maxStreams) where
  toListed := start_listed maxStreams
  first := by simp [MuxPool.withMaxStreams]
  locked := by simp [MuxPool.withMaxStreams]
  below := by simp [MuxPool.withMaxStreams]
  known := by simp [MuxPool.withMaxStreams]
  counted := by simp [MuxPool.withMaxStreams]
  capped := by simp [MuxPool.withMaxStreams]

/-- Dials change and the lock may change hands; the entries, the counters and the streams
stay. -/
theorem Sound.redial (sound : Sound pool) (dials : List Dial) (lock : Option Nat)
    (listed : Listed { pool with dials, lock })
    (each : ∀ (index : Nat) (dial : Dial), dials[index]? = some dial →
      (pool.dials[index]? = some dial ∧ (dial.scans = true → lock = pool.lock)) ∨
      ((∀ session, dial ≠ .pushing session) ∧ (dial.scans = true → lock = some index) ∧
        ∀ place session, dial = .opening place → pool.entries[place]? = some session →
          pool.active session < pool.maxStreams)) :
    Sound { pool with dials, lock } := by
  refine { sound with toListed := listed, first := ?_, locked := ?_, below := ?_ }
  · intro index session there
    obtain ⟨old, -⟩ | ⟨unpushed, -, -⟩ := each index _ there
    · exact sound.first index session old
    · exact absurd rfl (unpushed session)
  · intro index dial there scans
    obtain ⟨old, kept⟩ | ⟨-, own, -⟩ := each index dial there
    · exact (kept scans).trans (sound.locked index dial old scans)
    · exact own scans
  · intro index place session there entry
    obtain ⟨old, -⟩ | ⟨-, -, below⟩ := each index _ there
    · exact sound.below index place session old entry
    · exact below place session rfl entry

/-- One dial moves on. The lock stays, or it was free, or this dial had it. -/
theorem Sound.move (sound : Sound pool) (index : Nat) (dial : Dial) (lock : Option Nat)
    (unpushed : ∀ session, dial ≠ .pushing session) (own : dial.scans = true → lock = some index)
    (others : lock = pool.lock ∨ pool.lock = none ∨ pool.lock = some index)
    (below : ∀ place session, dial = .opening place → pool.entries[place]? = some session →
      pool.active session < pool.maxStreams) :
    Sound { pool with dials := pool.dials.set index dial, lock := lock } := by
  refine sound.redial (pool.dials.set index dial) lock
    (sound.toListed.move index dial unpushed rfl rfl rfl) ?_
  intro other found there
  obtain ⟨rfl, rfl⟩ | ⟨apart, old⟩ := set_cases there
  · exact .inr ⟨unpushed, own, below⟩
  · refine .inl ⟨old, ?_⟩
    intro scans
    have holder := sound.locked other found old scans
    rcases others with kept | free | mine
    · exact kept
    · rw [free] at holder
      simp at holder
    · rw [mine] at holder
      exact absurd (Option.some.inj holder).symm apart

/-- While the lock is free no dial has it. -/
theorem Sound.unlocked (sound : Sound pool) (free : pool.lock = none) (index place : Nat) :
    pool.dials[index]? ≠ some (.opening place) := by
  intro there
  have holder := sound.locked index _ there rfl
  rw [free] at holder
  simp at holder

/-- A change of one counter leaves the counters of the other sessions. -/
theorem active_modify (pool : MuxPool) (session other : Nat) (change : UInt64 → UInt64)
    (there : session < pool.counters.length) :
    (pool.counters.modify session change).getD other 0 =
      if other = session then change (pool.active session) else pool.active other := by
  unfold MuxPool.active
  rw [List.getD_eq_getElem?_getD, List.getD_eq_getElem?_getD, List.getD_eq_getElem?_getD,
    List.getElem?_modify]
  by_cases same : other = session
  · subst same
    simp [there]
  · simp [same, Ne.symm same]

/-- A new counter behind the others does not change them. -/
theorem active_created (pool : MuxPool) (session : Nat) (there : session < pool.counters.length)
    (counter : UInt64) : (pool.counters ++ [counter]).getD session 0 = pool.active session :=
  List.getD_append _ _ _ _ there

/-- A new session has a counter, and its dial waits to add it. -/
theorem Sound.create (sound : Sound pool) (index : Nat) :
    Sound { pool.setDial index (.pushing pool.counters.length) with
      counters := pool.counters ++ [1] } := by
  have kept {session : Nat} (member : session ∈ pool.entries) :=
    active_created pool session (sound.entered session member) 1
  refine
    { toListed := sound.toListed.create index rfl (List.length_append ..) rfl, first := ?_,
      locked := ?_, below := ?_, known := sound.known, counted := ?_, capped := ?_ }
  · intro other session there
    rw [MuxPool.active]
    obtain ⟨-, same⟩ | ⟨-, old⟩ := set_cases there
    · obtain rfl := Dial.pushing.inj same
      simp
    · rw [active_created pool session (sound.pushing other session old).2]
      exact sound.first other session old
  · intro other dial there scans
    obtain ⟨-, rfl⟩ | ⟨-, old⟩ := set_cases there
    · simp [Dial.scans] at scans
    · exact sound.locked other dial old scans
  · intro other place session there entry
    obtain ⟨-, same⟩ | ⟨-, old⟩ := set_cases there
    · simp at same
    · rw [MuxPool.active, kept (List.mem_of_getElem? entry)]
      exact sound.below other place session old entry
  · intro session member
    rw [MuxPool.active, kept member]
    exact sound.counted session member
  · intro positive session member
    rw [MuxPool.active, kept member]
    exact sound.capped positive session member

/-- The streams of a session after one more. -/
theorem streams_of_more (pool : MuxPool) (session other : Nat) (select : PooledDial → Bool) :
    (pool.streams ++ [PooledDial.mk session true true false]).countP
        (fun pooled => decide (pooled.session = other) && select pooled) =
      pool.streamsOf other select +
        if session = other ∧ select ⟨session, true, true, false⟩ = true then 1 else 0 := by
  rw [List.countP_append, List.countP_singleton]
  simp [MuxPool.streamsOf]

/-- A stream of a pooled session is handed out and counted. -/
theorem Sound.more (sound : Sound pool) (free : pool.lock = none) (session : Nat)
    (member : session ∈ pool.entries) (room : pool.active session < pool.maxStreams) :
    Sound { pool with
      counters := pool.counters.modify session (· + 1)
      streams := pool.streams ++ [⟨session, true, true, false⟩] } := by
  have changed (other : Nat) := active_modify pool session other (· + 1)
    (sound.entered session member)
  have raised : (pool.active session + 1).toNat = (pool.active session).toNat + 1 := by
    have bound := pool.maxStreams.toNat_lt
    rw [UInt64.lt_iff_toNat_lt] at room
    rw [UInt64.toNat_add]
    simp only [UInt64.toNat_one]
    omega
  refine
    { toListed := sound.toListed.quiet rfl (List.length_modify ..) fun _ _ => id, first := ?_,
      locked := sound.locked, below := ?_, known := ?_, counted := ?_, capped := ?_ }
  · intro index other there
    have apart : other ≠ session := by
      rintro rfl
      exact (sound.pushing index other there).1 member
    rw [MuxPool.active, changed, if_neg apart]
    exact sound.first index other there
  · intro index place other there
    exact absurd there (sound.unlocked free index place)
  · intro pooled there
    rcases List.mem_append.mp there with old | new
    · exact sound.known pooled old
    · rw [List.mem_singleton.mp new]
      exact member
  · intro other there
    rw [MuxPool.active, changed, MuxPool.streamsOf, streams_of_more]
    by_cases same : other = session
    · subst same
      rw [if_pos rfl, raised, sound.counted other member]
      simp
    · rw [if_neg same, sound.counted other there]
      simp [Ne.symm same]
  · intro positive other there
    rw [MuxPool.active, changed]
    by_cases same : other = session
    · subst same
      rw [if_pos rfl, UInt64.le_iff_toNat_le, raised]
      exact UInt64.lt_iff_toNat_lt.mp room
    · rw [if_neg same]
      exact sound.capped positive other there

/-- A dial adds its session to the pool and returns its first stream. -/
theorem Sound.enter (sound : Sound pool) (index session : Nat)
    (there : pool.dials[index]? = some (.pushing session)) (free : pool.lock = none) :
    Sound { pool.handOut index session with entries := pool.entries ++ [session] } := by
  have fresh := (sound.pushing index session there).1
  have one := sound.first index session there
  have unused : pool.streamsOf session (!·.released) = 0 := by
    rw [MuxPool.streamsOf, List.countP_eq_zero]
    intro pooled member
    have foreign : pooled.session ≠ session := by
      intro same
      exact fresh (same ▸ sound.known pooled member)
    simp [foreign]
  have members {other : Nat} (member : other ∈ pool.entries ++ [session]) :
      other ∈ pool.entries ∨ other = session := by
    simpa using member
  have moved := sound.move index (.returned (.ok pool.streams.length)) pool.lock (by simp)
    (by simp [Dial.scans]) (.inl rfl) (by simp)
  refine
    { toListed := sound.toListed.enter index session _ there (by simp) rfl rfl rfl,
      first := moved.first, locked := moved.locked, below := ?_, known := ?_, counted := ?_,
      capped := ?_ }
  · intro other place found opening
    exact absurd opening (moved.unlocked free other place)
  · intro pooled member
    rcases List.mem_append.mp member with old | new
    · exact List.mem_append_left _ (sound.known pooled old)
    · rw [List.mem_singleton.mp new]
      exact List.mem_append_right _ (List.mem_singleton_self _)
  · intro other member
    change (pool.active other).toNat = (pool.streams ++ _).countP _
    rw [streams_of_more]
    obtain old | rfl := members member
    · have apart : session ≠ other := by
        rintro rfl
        exact fresh old
      rw [if_neg fun both => apart both.1]
      exact sound.counted other old
    · rw [unused, one]
      simp
  · intro positive other member
    obtain old | rfl := members member
    · exact sound.capped positive other old
    · change pool.active other ≤ pool.maxStreams
      rw [one]
      exact positive

/-- A stream changes in a way that the counters do not see. -/
theorem Sound.mark (sound : Sound pool) (stream : Nat) (change : PooledDial → PooledDial)
    (session : ∀ pooled, (change pooled).session = pooled.session)
    (released : ∀ pooled, (change pooled).released = pooled.released) :
    Sound { pool with streams := pool.streams.modify stream change } := by
  refine
    { sound with
      toListed := sound.toListed.quiet rfl rfl fun _ _ => id, known := ?_, counted := ?_ }
  · intro pooled member
    rcases mem_modify member with old | ⟨old, there, rfl⟩
    · exact sound.known pooled old
    · rw [session]
      exact sound.known old (List.mem_of_getElem? there)
  · intro other member
    rw [MuxPool.streamsOf, count_modify_same]
    · exact sound.counted other member
    · intro pooled
      rw [session, released]

/-- The streams of a session without one whose lease is released for the first time. -/
theorem streams_of_released (pool : MuxPool) (stream other : Nat) (pooled : PooledDial)
    (there : pool.streams[stream]? = some pooled) (first : pooled.released = false) :
    (pool.streams.modify stream ({ · with released := true })).countP
        (fun pooled => decide (pooled.session = other) && !pooled.released) +
      (if pooled.session = other then 1 else 0) = pool.streamsOf other (!·.released) := by
  have changed := count_modify (fun pooled => decide (pooled.session = other) && !pooled.released)
    pool.streams stream ({ · with released := true }) pooled there
  simpa [first, MuxPool.streamsOf] using changed

/-- A lease is released for the first time. -/
theorem Sound.unlease (sound : Sound pool) (stream : Nat) (pooled : PooledDial)
    (there : pool.streams[stream]? = some pooled) (first : pooled.released = false) :
    Sound { pool with
      counters := pool.counters.modify pooled.session (· - 1)
      streams := pool.streams.modify stream ({ · with released := true }) } := by
  have member := sound.known pooled (List.mem_of_getElem? there)
  have changed (other : Nat) := active_modify pool pooled.session other (· - 1)
    (sound.entered _ member)
  have fewer (other : Nat) := streams_of_released pool stream other pooled there first
  have counted := sound.counted _ member
  have positive : 1 ≤ (pool.active pooled.session).toNat := by
    have one := fewer pooled.session
    rw [if_pos rfl] at one
    omega
  have lowered : (pool.active pooled.session - 1).toNat =
      (pool.active pooled.session).toNat - 1 := by
    rw [UInt64.toNat_sub_of_le]
    · rfl
    · rw [UInt64.le_iff_toNat_le]
      exact positive
  have bounded (other : Nat) :
      (if other = pooled.session then pool.active pooled.session - 1 else pool.active other) ≤
        pool.active other := by
    by_cases same : other = pooled.session
    · rw [if_pos same, same, UInt64.le_iff_toNat_le, lowered]
      omega
    · rw [if_neg same]
      exact UInt64.le_refl _
  refine
    { toListed := sound.toListed.quiet rfl (List.length_modify ..) fun _ _ => id, first := ?_,
      locked := sound.locked, below := ?_, known := ?_, counted := ?_, capped := ?_ }
  · intro index other found
    have apart : other ≠ pooled.session := by
      rintro rfl
      exact (sound.pushing index _ found).1 member
    rw [MuxPool.active, changed, if_neg apart]
    exact sound.first index other found
  · intro index place other found entry
    rw [MuxPool.active, changed]
    exact UInt64.lt_of_le_of_lt (bounded other) (sound.below index place other found entry)
  · intro other found
    rcases mem_modify found with old | ⟨old, known, rfl⟩
    · exact sound.known other old
    · exact sound.known old (List.mem_of_getElem? known)
  · intro other found
    have fewer := fewer other
    have before := sound.counted other found
    rw [MuxPool.active, changed]
    change _ = (pool.streams.modify stream ({ · with released := true })).countP
      (fun pooled => decide (pooled.session = other) && !pooled.released)
    by_cases same : other = pooled.session
    · subst same
      rw [if_pos rfl] at fewer ⊢
      rw [lowered]
      omega
    · rw [if_neg (Ne.symm same)] at fewer
      rw [if_neg same]
      omega
  · intro positive other found
    rw [MuxPool.active, changed]
    exact UInt64.le_trans (bounded other) (sound.capped positive other found)

end Invariant

section Steps

variable {pool : MuxPool}

/-- No lease that was released is released again. -/
def ReleasesOnce (pool : MuxPool) : Event → Prop
  | .release stream => ∀ pooled, pool.streams[stream]? = some pooled → pooled.leased = true →
      pooled.released = false
  | _ => True

/-- A dial that proceeds keeps the counters right. -/
theorem proceed_sound (sound : Sound pool) (index : Nat) : Sound (pool.proceed index) := by
  unfold MuxPool.proceed
  split
  · split
    · exact sound
    · rename_i free
      exact sound.move index _ _ (by simp) (fun _ => rfl) (.inr (.inl (by simpa using free)))
        (by simp)
  · rename_i place there
    have mine := sound.locked index _ there rfl
    split
    · exact sound.move index _ _ (by simp) (by simp [Dial.scans]) (.inr (.inr mine)) (by simp)
    · rename_i session entry
      split
      · exact sound.move index _ _ (by simp) (fun _ => mine) (.inl rfl) (by simp)
      · rename_i room
        refine sound.move index _ _ (by simp) (fun _ => mine) (.inl rfl) ?_
        intro other found same at_other
        obtain rfl := Dial.opening.inj same
        obtain rfl : session = found := Option.some.inj (entry.symm.trans at_other)
        exact UInt64.not_le.mp room
  · rename_i session there
    split
    · exact sound
    · rename_i taken
      exact sound.enter index session there (by simpa using taken)
  · exact sound

/-- An answer to a dial keeps the counters right: a stream is counted when it is made. -/
theorem answer_sound (sound : Sound pool) (index : Nat) (result : Except IoError Unit) :
    Sound (pool.answer index result) := by
  have free (dial : Dial) (unpushed : ∀ session, dial ≠ .pushing session)
      (released : dial.scans = false) : Sound (pool.setDial index dial) :=
    sound.move index dial pool.lock unpushed (by simp [released]) (.inl rfl)
      (by rintro place session rfl; simp [Dial.scans] at released)
  unfold MuxPool.answer
  split
  · rename_i place _ there
    split
    · rename_i session entry
      have moved := sound.move index (.returned (.ok pool.streams.length)) none (by simp)
        (by simp [Dial.scans]) (.inr (.inr (sound.locked index _ there rfl))) (by simp)
      exact moved.more rfl session (List.mem_of_getElem? entry)
        (sound.below index place session there entry)
    · exact sound
  · rename_i there
    exact sound.move index _ _ (by simp) (fun _ => sound.locked index _ there rfl) (.inl rfl)
      (by simp)
  · exact free _ (by simp) rfl
  · exact free _ (by simp) rfl
  · exact sound.create index
  · exact free _ (by simp) rfl
  · exact free _ (by simp) rfl
  · exact free _ (by simp) rfl
  · exact sound

/-- A dial that is cancelled keeps the counters right. -/
theorem cancel_sound (sound : Sound pool) (index : Nat) : Sound (pool.cancel index) := by
  unfold MuxPool.cancel
  split
  · exact sound
  · split
    · refine sound.move index _ _ (by simp) (by simp [Dial.scans]) ?_ (by simp)
      split
      · rename_i mine
        exact .inr (.inr mine)
      · exact .inl rfl
    · exact sound

/-- Every step that releases no lease twice keeps the counters right. -/
theorem step_sound (pool : MuxPool) (event : Event) (sound : Sound pool)
    (once : ReleasesOnce pool event) : Sound (step pool event) := by
  cases event with
  | dial =>
    refine sound.redial _ pool.lock (step_listed pool .dial sound.toListed) ?_
    intro index dial there
    rcases append_cases there with old | ⟨-, rfl⟩
    · exact .inl ⟨old, fun _ => rfl⟩
    · right
      simp [Dial.scans]
  | proceed index => exact proceed_sound sound index
  | answer index result => exact answer_sound sound index result
  | cancel index => exact cancel_sound sound index
  | release stream =>
    simp only [step, MuxPool.release]
    split
    · exact sound
    · rename_i pooled there
      split
      · rename_i leased
        exact sound.unlease stream pooled there (once pooled there leased)
      · exact sound
  | dropLease stream => exact sound.mark stream _ (fun _ => rfl) (fun _ => rfl)
  | dropStream stream => exact sound.mark stream _ (fun _ => rfl) (fun _ => rfl)
  | pruneDead =>
    simp only [step, MuxPool.pruneDead]
    split
    · exact sound
    · simpa using sound
  | sessionFails session => exact sound

end Steps

section Cap

/-- The event releases the lease of a stream. -/
def Event.releases (stream : Nat) : Event → Bool
  | .release other => other = stream
  | _ => false

/-- Every stream was returned from an entry, and the counter of every entry is within the
limit and has counted each stream returned from it once. -/
def WithinCap (maxStreams : UInt64) (pool : MuxPool) : Prop :=
  (∀ pooled ∈ pool.streams, pooled.session ∈ pool.entries) ∧
    ∀ session ∈ pool.entries, ∃ active, pool.counters[session]? = some active ∧
      active ≤ maxStreams ∧
      active.toNat + pool.streamsOf session (·.released) = pool.streamsOf session fun _ => true

/-- Streams whose lease was released and the others are all streams of a session. -/
theorem streams_of_split (pool : MuxPool) (session : Nat) :
    pool.streamsOf session (!·.released) + pool.streamsOf session (·.released) =
      pool.streamsOf session fun _ => true := by
  simp only [MuxPool.streamsOf, Bool.and_true]
  induction pool.streams with
  | nil => rfl
  | cons pooled streams inductionHypothesis =>
    simp only [List.countP_cons]
    cases pooled.released
    · simp only [Bool.not_false, Bool.and_true, Bool.and_false, Bool.false_eq_true, if_false]
      omega
    · simp only [Bool.not_true, Bool.and_true, Bool.and_false, Bool.false_eq_true, if_false]
      omega

/-- Right counters stay within the cap of the pool. -/
theorem Sound.within_cap {pool : MuxPool} (sound : Sound pool) (positive : 1 ≤ pool.maxStreams) :
    WithinCap pool.maxStreams pool := by
  refine ⟨sound.known, ?_⟩
  intro session member
  have there := sound.entered session member
  have counter : pool.counters[session] = pool.active session :=
    (List.getD_eq_getElem pool.counters 0 there).symm
  refine ⟨pool.counters[session], List.getElem?_eq_getElem there, ?_, ?_⟩
  · rw [counter]
    exact sound.capped positive session member
  · rw [counter, sound.counted session member, streams_of_split]

/-- A lease counts as released only after an event that released it. -/
theorem released_by (maxStreams : UInt64) (events : List Event) (stream : Nat)
    (pooled : PooledDial)
    (there : (run step (.withMaxStreams maxStreams) events).streams[stream]? = some pooled)
    (released : pooled.released = true) : 1 ≤ events.countP (Event.releases stream) := by
  induction events using List.reverseRecOn generalizing pooled with
  | nil => simp [run, MuxPool.withMaxStreams] at there
  | append_singleton events event inductionHypothesis =>
    rw [run_snoc] at there
    rw [List.countP_append, List.countP_singleton]
    generalize run step (.withMaxStreams maxStreams) events = pool at there inductionHypothesis
    have earlier (old : PooledDial) (found : pool.streams[stream]? = some old)
        (before : old.released = true) :
        1 ≤ events.countP (Event.releases stream) +
          if Event.releases stream event = true then 1 else 0 :=
      Nat.le_add_right_of_le (inductionHypothesis old found before)
    obtain ⟨-, -, same | ⟨session, more⟩ | ⟨other, -, rfl, -, -, changed⟩ | ⟨other, -, changed⟩ |
      ⟨other, -, changed⟩⟩ := step_effect pool event
    · rw [same] at there
      exact earlier pooled there released
    · rw [more] at there
      rcases append_cases there with old | ⟨-, rfl⟩
      · exact earlier pooled old released
      · simp at released
    · rw [changed] at there
      obtain ⟨rfl, -⟩ | ⟨-, old⟩ := modify_cases there
      · simp [Event.releases]
      · exact earlier pooled old released
    · rw [changed] at there
      obtain ⟨-, old, found, rfl⟩ | ⟨-, old⟩ := modify_cases there
      · exact earlier old found released
      · exact earlier pooled old released
    · rw [changed] at there
      obtain ⟨-, old, found, rfl⟩ | ⟨-, old⟩ := modify_cases there
      · exact earlier old found released
      · exact earlier pooled old released

/-- A run whose events release no lease twice does so in no step. -/
theorem releases_once (maxStreams : UInt64) (events : List Event)
    (once : ∀ stream, events.countP (Event.releases stream) ≤ 1) :
    EachStep step (.withMaxStreams maxStreams) ReleasesOnce events := by
  rintro before event after rfl
  cases event with
  | release stream =>
    intro pooled there leased
    by_contra released
    have earlier := released_by maxStreams before stream pooled there (by simpa using released)
    have twice := once stream
    rw [List.countP_append, List.countP_cons] at twice
    simp only [Event.releases, decide_true, if_true] at twice
    omega
  | dial => trivial
  | proceed index => trivial
  | answer index result => trivial
  | cancel index => trivial
  | dropLease stream => trivial
  | dropStream stream => trivial
  | pruneDead => trivial
  | sessionFails session => trivial

/-- With each lease released at most once, the counter of every entry stays within the
limit, whatever the order of the steps. -/
theorem cap_kept (maxStreams : UInt64) (positive : 1 ≤ maxStreams) (events : List Event)
    (once : ∀ stream, events.countP (Event.releases stream) ≤ 1) :
    Always step (.withMaxStreams maxStreams) (WithinCap maxStreams) events := by
  rintro before after rfl
  have each := each_step_before (releases_once maxStreams _ once)
  have limit : (run step (.withMaxStreams maxStreams) before).maxStreams = maxStreams :=
    @run_kept _ _ step _ (fun pool => pool.maxStreams = maxStreams) rfl
      (fun pool event same => (step_effect pool event).1.trans same) before
  have sound := run_invariant (start_sound maxStreams) step_sound before each
  have within := sound.within_cap (limit.symm ▸ positive)
  rwa [limit] at within

/-- A limit of one. The first stream is released, and its session gives another one. -/
theorem cap_kept_example :
    Always step (.withMaxStreams 1) (WithinCap 1)
      [.dial, .proceed 0, .proceed 0, .answer 0 (.ok ()), .answer 0 (.ok ()), .answer 0 (.ok ()),
        .proceed 0, .dial, .release 0, .proceed 1, .proceed 1, .answer 1 (.ok ())] := by
  apply cap_kept 1 (by decide)
  intro stream
  by_cases released : 0 = stream
  · simp [Event.releases, released]
  · simp [Event.releases, released]

end Cap

section Transport

/-- A step of a pool that is dialled for a transport: the lease of a returned stream is
dropped at once. -/
def transportStep (pool : MuxPool) (event : Event) : MuxPool :=
  { step pool event with
    streams := (step pool event).streams.map ({ · with leased := false }) }

/-- A dial that comes to the entry of a session asks it for a stream. -/
def MuxPool.reuses (pool : MuxPool) (session : Nat) : Prop :=
  ∀ index place : Nat, pool.dials[index]? = some (.scanning place) →
    pool.entries[place]? = some session →
    (pool.proceed index).dials[index]? = some (.opening place)

/-- The counter of every entry is the number of its streams that have not been dropped, so
that a session without such streams is used again. -/
def Accounted (pool : MuxPool) : Prop :=
  ∀ session ∈ pool.entries, (pool.active session).toNat = pool.streamsOf session (·.live) ∧
    (1 ≤ pool.maxStreams → pool.streamsOf session (·.live) = 0 → pool.reuses session)

/-- No stream that was returned is dropped. -/
def KeepsStreams (pool : MuxPool) : Event → Prop
  | .dropStream stream => ∀ pooled, pool.streams[stream]? = some pooled → pooled.live = false
  | _ => True

/-- A stream that is there, with a lease that was dropped and not released. -/
def PooledDial.kept (pooled : PooledDial) : Prop :=
  pooled.live = true ∧ pooled.leased = false ∧ pooled.released = false

variable {pool : MuxPool}

/-- A session below the limit is asked. -/
theorem reuses_below (session : Nat) (room : pool.active session < pool.maxStreams) :
    pool.reuses session := by
  intro index place there entry
  have inside : index < pool.dials.length := (List.getElem?_eq_some_iff.mp there).1
  simp only [MuxPool.proceed, there, entry, if_neg (UInt64.not_le.mpr room), MuxPool.setDial,
    List.getElem?_set_self inside]

/-- The counters do not see that leases are dropped. -/
theorem Sound.unleases (sound : Sound pool) :
    Sound { pool with streams := pool.streams.map ({ · with leased := false }) } := by
  refine
    { sound with
      toListed := sound.toListed.quiet rfl rfl fun _ _ => id, known := ?_, counted := ?_ }
  · intro pooled member
    obtain ⟨old, there, rfl⟩ := List.mem_map.mp member
    exact sound.known old there
  · intro session member
    rw [MuxPool.streamsOf, List.countP_map]
    exact sound.counted session member

/-- A step of the transport, which releases nothing, keeps the counters right. -/
theorem transport_sound (sound : Sound pool) (kept : ∀ pooled ∈ pool.streams, pooled.kept)
    (event : Event) : Sound (transportStep pool event) := by
  apply Sound.unleases
  apply step_sound pool event sound
  cases event with
  | release stream =>
    intro pooled there leased
    rw [(kept pooled (List.mem_of_getElem? there)).2.1] at leased
    simp at leased
  | dial => trivial
  | proceed index => trivial
  | answer index result => trivial
  | cancel index => trivial
  | dropLease stream => trivial
  | dropStream stream => trivial
  | pruneDead => trivial
  | sessionFails session => trivial

/-- Without leases nothing is released, and all streams are still there. -/
theorem transport_kept (kept : ∀ pooled ∈ pool.streams, pooled.kept) (event : Event)
    (keeps : KeepsStreams pool event) :
    ∀ pooled ∈ (transportStep pool event).streams, pooled.kept := by
  intro pooled member
  obtain ⟨old, there, rfl⟩ := List.mem_map.mp member
  suffices old.live = true ∧ old.released = false from ⟨this.1, rfl, this.2⟩
  have fine {pooled : PooledDial} (there : pooled ∈ pool.streams) :
      pooled.live = true ∧ pooled.released = false :=
    ⟨(kept pooled there).1, (kept pooled there).2.2⟩
  obtain ⟨-, -, same | ⟨session, more⟩ | ⟨stream, leased, -, found, held, -⟩ |
    ⟨stream, -, changed⟩ | ⟨stream, rfl, changed⟩⟩ := step_effect pool event
  · exact fine (same ▸ there)
  · rw [more] at there
    rcases List.mem_append.mp there with before | new
    · exact fine before
    · rw [List.mem_singleton.mp new]
      exact ⟨rfl, rfl⟩
  · rw [(kept leased (List.mem_of_getElem? found)).2.1] at held
    simp at held
  · rw [changed] at there
    rcases mem_modify there with before | ⟨before, found, rfl⟩
    · exact fine before
    · have same := fine (List.mem_of_getElem? found)
      exact same
  · rw [changed] at there
    rcases mem_modify there with before | ⟨before, found, rfl⟩
    · exact fine before
    · have gone := keeps before found
      rw [(fine (List.mem_of_getElem? found)).1] at gone
      simp at gone

/-- While all streams are there, the counters are exact. -/
theorem accounted_while_kept (sound : Sound pool) (kept : ∀ pooled ∈ pool.streams, pooled.kept) :
    Accounted pool := by
  intro session member
  have count : (pool.active session).toNat = pool.streamsOf session (·.live) := by
    rw [sound.counted session member]
    apply List.countP_congr
    intro pooled there
    obtain ⟨live, -, released⟩ := kept pooled there
    simp [live, released]
  refine ⟨count, ?_⟩
  intro positive idle
  apply reuses_below
  rw [UInt64.lt_iff_toNat_lt, count, idle]
  exact UInt64.le_iff_toNat_le.mp positive

/-- The counter of a session whose stream is dropped stays, and is too large. -/
theorem dropped_unaccounted (sound : Sound pool) (kept : ∀ pooled ∈ pool.streams, pooled.kept)
    (event : Event) (drops : ¬KeepsStreams pool event) : ¬Accounted (transportStep pool event) := by
  cases event with
  | dropStream stream =>
    simp only [KeepsStreams, not_forall] at drops
    obtain ⟨pooled, there, live⟩ := drops
    have present : pooled.live = true := by simpa using live
    intro accounted
    have member := sound.known pooled (List.mem_of_getElem? there)
    have before := (accounted_while_kept sound kept pooled.session member).1
    have after := (accounted pooled.session member).1
    have changed := count_modify
      (fun other => decide (other.session = pooled.session) && other.live) pool.streams stream
      ({ · with live := false }) pooled there
    change (pool.active pooled.session).toNat = _ at after
    rw [MuxPool.streamsOf, transportStep, List.countP_map] at after
    simp only [step, Function.comp_def] at after
    rw [MuxPool.streamsOf] at before
    simp only [decide_true, present, Bool.and_self, if_true, Bool.and_false, Bool.false_eq_true,
      if_false] at changed
    omega
  | dial => exact absurd trivial drops
  | proceed index => exact absurd trivial drops
  | answer index result => exact absurd trivial drops
  | cancel index => exact absurd trivial drops
  | release stream => exact absurd trivial drops
  | dropLease stream => exact absurd trivial drops
  | pruneDead => exact absurd trivial drops
  | sessionFails session => exact absurd trivial drops

/-- The counters are exact throughout a run exactly when no stream is dropped in it. -/
theorem accounted_iff_kept (maxStreams : UInt64) (events : List Event) :
    Always transportStep (.withMaxStreams maxStreams) Accounted events ↔
      EachStep transportStep (.withMaxStreams maxStreams) KeepsStreams events := by
  apply @always_iff_each_step _ _ transportStep (.withMaxStreams maxStreams)
    (fun pool => Sound pool ∧ ∀ pooled ∈ pool.streams, pooled.kept)
  · exact ⟨start_sound maxStreams, by simp [MuxPool.withMaxStreams]⟩
  · rintro pool event ⟨sound, kept⟩ keeps
    exact ⟨transport_sound sound kept event, transport_kept kept event keeps⟩
  · rintro pool ⟨sound, kept⟩
    exact accounted_while_kept sound kept
  · rintro pool event ⟨sound, kept⟩ drops
    exact dropped_unaccounted sound kept event drops

/-- The only stream of a session is dropped; its counter stays at one. -/
theorem closed_session_still_counted :
    ¬Always transportStep .new Accounted
      [.dial, .proceed 0, .proceed 0, .answer 0 (.ok ()), .answer 0 (.ok ()), .answer 0 (.ok ()),
        .proceed 0, .dropStream 0] := by
  intro always
  have count := (always _ [] (List.append_nil _).symm 0 (by decide)).1
  revert count
  decide

end Transport

end OmniProxy.MuxPools
