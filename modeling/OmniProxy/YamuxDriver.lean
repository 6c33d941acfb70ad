import OmniProxy.Connections
import OmniProxy.GuardedRuns

/-!
# The driver of a yamux session

One task drives the connection of a session. In a loop it asks the connection for a stream
if a request is pending, takes the next request from a channel, and puts a stream that the
peer has opened into another channel. It sleeps when all three have nothing for it. Both
channels have 64 places. Opening a stream sends a request and waits for its answer; a
request that is dropped without an answer fails.

A run is any order of polls of the driver, with what the connection answers to them, and of
requests, accepted streams and the end of the handle. Between two polls of one round other
tasks may run. The connection is the yamux library's.
-/

namespace OmniProxy.YamuxDriver

open Connections GuardedRuns

section Driver

inductive Poll (α : Type) where
  | ready (value : α)
  | pending

/-- What the driver does next. -/
inductive Stage where
  | outbound
  | requests
  | inbound
  | parked
  | ended
deriving DecidableEq

def channelCapacity : Nat := 64

/-- The error of a session. -/
def ioerr (text : String) : IoError := .ofText ("mux: " ++ text)

/-- A session with its driver. Requests and streams have numbers. -/
structure Driver where
  stage : Stage
  openRx : List Nat
  pendingOpen : Option Nat
  acceptQueue : Nat
  received : Nat
  opened : Nat
  answers : List (Nat × Except IoError Nat)
  discarded : List Nat
  healthy : Bool
  handle : Bool

def Driver.start : Driver := ⟨.outbound, [], none, 0, 0, 0, [], [], true, true⟩

/-- The driver returns, and the requests it has are dropped. -/
def Driver.finish (driver : Driver) : Driver :=
  { driver with
    stage := .ended
    openRx := []
    pendingOpen := none
    discarded := driver.discarded ++ driver.pendingOpen.toList ++ driver.openRx }

/-- A stream for the pending request. Without one the connection is not asked. -/
def Driver.pollNewOutbound (driver : Driver) (poll : Poll (Except String Unit)) : Driver :=
  match driver.pendingOpen, poll with
  | none, _ => { driver with stage := .requests }
  | some request, .ready (.ok _) =>
      { driver with
        pendingOpen := none
        opened := driver.opened + 1
        answers := driver.answers ++ [(request, .ok driver.opened)] }
  | some request, .ready (.error text) =>
      Driver.finish { driver with
        pendingOpen := none
        answers := driver.answers ++ [(request, .error (ioerr text))]
        healthy := false }
  | some _, .pending => { driver with stage := .requests }

/-- The next request. A channel may have nothing to give although it is not empty. -/
def Driver.pollRecv (driver : Driver) (spurious : Bool) : Driver :=
  if spurious then { driver with stage := .inbound }
  else
    match driver.openRx with
    | request :: openRx =>
        { driver with
          stage := .outbound
          openRx
          pendingOpen := some request
          discarded := driver.discarded ++ driver.pendingOpen.toList }
    | [] => if driver.handle then { driver with stage := .inbound } else driver.finish

/-- A stream that the peer has opened. -/
def Driver.pollNextInbound (driver : Driver) (poll : Poll (Option (Except String Unit))) :
    Driver :=
  match poll with
  | .ready (some (.ok _)) =>
      if driver.handle && driver.acceptQueue < channelCapacity then
        { driver with stage := .outbound, acceptQueue := driver.acceptQueue + 1 }
      else driver.finish
  | .ready (some (.error _)) => Driver.finish { driver with healthy := false }
  | .ready none => Driver.finish { driver with healthy := false }
  | .pending => { driver with stage := .parked }

/-- A call that opens a stream sends its request. It waits while the channel is full and
fails when the driver has ended. -/
def Driver.openStream (driver : Driver) : Driver :=
  if driver.handle && driver.stage ≠ .ended && driver.openRx.length < channelCapacity then
    { driver with
      openRx := driver.openRx ++ [driver.received]
      received := driver.received + 1 }
  else driver

inductive Event where
  | wake
  | pollNewOutbound (poll : Poll (Except String Unit))
  | pollRecv (spurious : Bool)
  | pollNextInbound (poll : Poll (Option (Except String Unit)))
  | openStream
  | acceptStream
  | dropHandle

/-- One step of a run. -/
def step (driver : Driver) : Event → Driver
  | .wake => if driver.stage = .parked then { driver with stage := .outbound } else driver
  | .pollNewOutbound poll =>
      if driver.stage = .outbound then driver.pollNewOutbound poll else driver
  | .pollRecv spurious => if driver.stage = .requests then driver.pollRecv spurious else driver
  | .pollNextInbound poll =>
      if driver.stage = .inbound then driver.pollNextInbound poll else driver
  | .openStream => driver.openStream
  | .acceptStream => { driver with acceptQueue := driver.acceptQueue - 1 }
  | .dropHandle => { driver with handle := false }

/-- The connection has neither failed nor closed, and the handle is there. -/
def Driver.live (driver : Driver) : Prop := driver.healthy = true ∧ driver.handle = true

instance (driver : Driver) : Decidable driver.live := inferInstanceAs (Decidable (_ ∧ _))

end Driver

section Requests

/-- Every request is still there or was answered with a stream, every stream has answered
one request, and no request was dropped. -/
structure Complete (driver : Driver) : Prop where
  held : ∀ request < driver.received, request ∈ driver.openRx ∨
    driver.pendingOpen = some request ∨ ∃ stream, (request, .ok stream) ∈ driver.answers
  once : driver.answers.filterMap (·.2.toOption) = List.range driver.opened
  apart : (driver.answers.map Prod.fst).Nodup
  undropped : driver.discarded = []

def NothingDropped (driver : Driver) : Prop := driver.live → Complete driver

/-- No request is taken while another one is pending, and no stream of the peer meets a full
channel while there are requests. -/
def OneAtATime (driver : Driver) : Event → Prop
  | .pollRecv false => driver.live → driver.stage = .requests → driver.pendingOpen.isSome →
      driver.openRx = []
  | .pollNextInbound (.ready (some (.ok _))) => driver.live → driver.stage = .inbound →
      channelCapacity ≤ driver.acceptQueue → driver.pendingOpen = none ∧ driver.openRx = []
  | _ => True

/-- Requests are answered in their order, each with the stream of its own number; those not
answered are there. -/
structure Ordered (driver : Driver) : Prop where
  answered : driver.answers = (List.range driver.opened).map fun number => (number, .ok number)
  waiting : driver.pendingOpen.toList ++ driver.openRx =
    List.range' driver.opened (driver.received - driver.opened)
  enough : driver.opened ≤ driver.received
  undropped : driver.discarded = []

variable {driver : Driver}

/-- Requests answered in order are all answered or still there. -/
theorem Ordered.complete (ordered : Ordered driver) : Complete driver where
  held := by
    intro request early
    by_cases answered : request < driver.opened
    · refine .inr (.inr ⟨request, ?_⟩)
      rw [ordered.answered]
      exact List.mem_map.mpr ⟨request, List.mem_range.mpr answered, rfl⟩
    · have waits : request ∈ driver.pendingOpen.toList ++ driver.openRx := by
        rw [ordered.waiting, List.mem_range'_1]
        omega
      rcases List.mem_append.mp waits with pending | queued
      · exact .inr (.inl (Option.mem_toList.mp pending))
      · exact .inl queued
  once := by
    rw [ordered.answered, List.filterMap_map]
    simp [Function.comp_def, Except.toOption]
  apart := by
    rw [ordered.answered, List.map_map]
    simpa [Function.comp_def] using List.nodup_range
  undropped := ordered.undropped

/-- A fresh driver has no requests. -/
theorem start_ordered : Ordered .start where
  answered := rfl
  waiting := rfl
  enough := Nat.le_refl 0
  undropped := rfl

/-- The first of the waiting requests is answered. -/
theorem Ordered.answer (ordered : Ordered driver) (request : Nat)
    (pending : driver.pendingOpen = some request) :
    Ordered { driver with
      pendingOpen := none
      opened := driver.opened + 1
      answers := driver.answers ++ [(request, .ok driver.opened)] } := by
  have waiting := ordered.waiting
  rw [pending] at waiting
  cases rest : driver.received - driver.opened with
  | zero =>
    rw [rest] at waiting
    simp at waiting
  | succ more =>
    rw [rest, List.range'_succ] at waiting
    obtain ⟨rfl, queued⟩ := List.cons.inj waiting
    have fewer : driver.received - (driver.opened + 1) = more := by omega
    refine ⟨?_, ?_, ?_, ordered.undropped⟩
    · simp only
      rw [ordered.answered, List.range_succ, List.map_append]
      rfl
    · simp only [Option.toList_none, List.nil_append, fewer]
      exact queued
    · simp only
      omega

/-- The next request is taken while none is pending. -/
theorem Ordered.take (ordered : Ordered driver) (request : Nat) (openRx : List Nat)
    (queued : driver.openRx = request :: openRx) (free : driver.pendingOpen = none) :
    Ordered { driver with
      stage := .outbound
      openRx := openRx
      pendingOpen := some request
      discarded := driver.discarded ++ driver.pendingOpen.toList } := by
  refine ⟨ordered.answered, ?_, ordered.enough, ?_⟩
  · have waiting := ordered.waiting
    rw [free, queued] at waiting
    exact waiting
  · simp only
    rw [free, ordered.undropped]
    rfl

/-- The driver returns while it has no requests. -/
theorem Ordered.finish (ordered : Ordered driver) (free : driver.pendingOpen = none)
    (empty : driver.openRx = []) : Ordered driver.finish := by
  refine ⟨ordered.answered, ?_, ordered.enough, ?_⟩
  · have waiting := ordered.waiting
    rw [free, empty] at waiting
    exact waiting
  · simp only [Driver.finish]
    rw [free, empty, ordered.undropped]
    rfl

/-- A request is sent. -/
theorem Ordered.send (ordered : Ordered driver) :
    Ordered { driver with
      openRx := driver.openRx ++ [driver.received]
      received := driver.received + 1 } := by
  have enough := ordered.enough
  have more : driver.received + 1 - driver.opened = driver.received - driver.opened + 1 := by omega
  have last : driver.opened + (driver.received - driver.opened) = driver.received := by omega
  refine ⟨ordered.answered, ?_, Nat.le_succ_of_le enough, ordered.undropped⟩
  simp only
  rw [← List.append_assoc, ordered.waiting, more, List.range'_concat, Nat.one_mul, last]

end Requests

section Steps

variable {driver : Driver}

/-- What a step does that leaves the session alive: the requests stay as they are, the
pending request is answered, the next one is taken, the driver returns because of a full
channel, or a request is sent. -/
inductive LiveStep (driver : Driver) (event : Event) : Driver → Prop where
  | still (stage : Stage) (acceptQueue : Nat) (ends : stage = .ended → driver.stage = .ended) :
      LiveStep driver event { driver with stage, acceptQueue }
  | answers (request : Nat) (pending : driver.pendingOpen = some request)
      (running : driver.stage ≠ .ended) :
      LiveStep driver event
        { driver with
          pendingOpen := none
          opened := driver.opened + 1
          answers := driver.answers ++ [(request, .ok driver.opened)] }
  | takes (request : Nat) (openRx : List Nat) (polled : event = .pollRecv false)
      (here : driver.stage = .requests) (queued : driver.openRx = request :: openRx) :
      LiveStep driver event
        { driver with
          stage := .outbound
          openRx := openRx
          pendingOpen := some request
          discarded := driver.discarded ++ driver.pendingOpen.toList }
  | full (polled : event = .pollNextInbound (.ready (some (.ok ()))))
      (here : driver.stage = .inbound) (full : channelCapacity ≤ driver.acceptQueue) :
      LiveStep driver event driver.finish
  | sends (running : driver.stage ≠ .ended) :
      LiveStep driver event
        { driver with
          openRx := driver.openRx ++ [driver.received]
          received := driver.received + 1 }

variable {event : Event}

/-- A step that needs a condition does nothing without it. -/
theorem live_if {condition : Prop} [Decidable condition] {after : Driver}
    (live : (if condition then after else driver).live)
    (moves : condition → after.live → driver.live ∧ LiveStep driver event after) :
    driver.live ∧ LiveStep driver event (if condition then after else driver) := by
  by_cases holds : condition
  · rw [if_pos holds] at live ⊢
    exact moves holds live
  · rw [if_neg holds] at live ⊢
    exact ⟨live, .still driver.stage driver.acceptQueue id⟩

/-- Polling for a stream of its own leaves a live driver with the request answered or as it
was. -/
theorem new_outbound_live {poll : Poll (Except String Unit)} (here : driver.stage = .outbound)
    (live : (driver.pollNewOutbound poll).live) :
    driver.live ∧ LiveStep driver event (driver.pollNewOutbound poll) := by
  unfold Driver.pollNewOutbound at live ⊢
  split at live
  · exact ⟨live, .still .requests driver.acceptQueue Stage.noConfusion⟩
  · next request _ pending => exact ⟨live, .answers request pending (by simp [here])⟩
  · exact absurd live.1 Bool.false_ne_true
  · exact ⟨live, .still .requests driver.acceptQueue Stage.noConfusion⟩

/-- Taking a request from the channel is such a step. -/
theorem recv_live {spurious : Bool} (here : driver.stage = .requests)
    (live : (driver.pollRecv spurious).live) :
    driver.live ∧ LiveStep driver (.pollRecv spurious) (driver.pollRecv spurious) := by
  have waits (live : driver.live) : driver.live ∧
      LiveStep driver (.pollRecv spurious) { driver with stage := .inbound } :=
    ⟨live, .still .inbound driver.acceptQueue Stage.noConfusion⟩
  revert live
  unfold Driver.pollRecv
  split
  · exact waits
  · next genuine =>
    obtain rfl : spurious = false := by simpa using genuine
    split
    · next request openRx queued => exact fun live => ⟨live, .takes request openRx rfl here queued⟩
    · split
      · exact waits
      · next gone => exact fun live => absurd live.2 gone

/-- Polling for a stream of the peer is such a step. -/
theorem next_inbound_live {poll : Poll (Option (Except String Unit))}
    (here : driver.stage = .inbound) (live : (driver.pollNextInbound poll).live) :
    driver.live ∧ LiveStep driver (.pollNextInbound poll) (driver.pollNextInbound poll) := by
  revert live
  unfold Driver.pollNextInbound
  split
  · split
    · exact fun live => ⟨live, .still .outbound (driver.acceptQueue + 1) Stage.noConfusion⟩
    · next refused =>
      intro live
      have handle : driver.handle = true := live.2
      have full : channelCapacity ≤ driver.acceptQueue := by
        rw [handle, Bool.true_and, decide_eq_true_iff] at refused
        exact Nat.not_lt.mp refused
      exact ⟨live, .full rfl here full⟩
  · exact fun live => absurd live.1 Bool.false_ne_true
  · exact fun live => absurd live.1 Bool.false_ne_true
  · exact fun live => ⟨live, .still .parked driver.acceptQueue Stage.noConfusion⟩

/-- Whatever step leaves the driver alive is one of those listed. -/
theorem step_live (live : (step driver event).live) :
    driver.live ∧ LiveStep driver event (step driver event) := by
  cases event with
  | wake =>
    apply live_if live
    exact fun _ live => ⟨live, .still .outbound driver.acceptQueue Stage.noConfusion⟩
  | pollNewOutbound poll => exact live_if live new_outbound_live
  | pollRecv spurious => exact live_if live recv_live
  | pollNextInbound poll => exact live_if live next_inbound_live
  | openStream =>
    apply live_if live
    intro sends live
    simp only [Bool.and_eq_true, decide_eq_true_iff] at sends
    exact ⟨live, .sends sends.1.2⟩
  | acceptStream => exact ⟨live, .still driver.stage (driver.acceptQueue - 1) id⟩
  | dropHandle => exact absurd live.2 Bool.false_ne_true

/-- Requests keep their order in a step that meets the condition. -/
theorem ordered_step (event : Event) (ordered : driver.live → Ordered driver)
    (single : OneAtATime driver event) : (step driver event).live → Ordered (step driver event) := by
  intro after
  obtain ⟨live, effect⟩ := step_live after
  have ordered := ordered live
  generalize step driver event = later at effect ⊢
  cases effect with
  | still =>
    obtain ⟨answered, waiting, enough, undropped⟩ := ordered
    exact ⟨answered, waiting, enough, undropped⟩
  | answers request pending => exact ordered.answer request pending
  | takes request openRx polled here queued =>
    subst polled
    apply ordered.take request openRx queued
    by_contra occupied
    have empty := single live here (Option.isSome_iff_ne_none.mpr occupied)
    rw [queued] at empty
    simp at empty
  | full polled here full =>
    subst polled
    obtain ⟨free, empty⟩ := single live here full
    exact ordered.finish free empty
  | sends => exact ordered.send

/-- A request is dropped in a step that does not meet the condition. -/
theorem hurried_drops (event : Event) (ordered : driver.live → Ordered driver)
    (hurried : ¬OneAtATime driver event) : ¬NothingDropped (step driver event) := by
  intro complete
  cases event with
  | pollRecv spurious =>
    cases spurious with
    | true => exact hurried trivial
    | false =>
      simp only [OneAtATime, Classical.not_imp] at hurried
      obtain ⟨live, here, occupied, queued⟩ := hurried
      obtain ⟨request, pending⟩ := Option.isSome_iff_exists.mp occupied
      obtain ⟨next, openRx, queued⟩ := List.exists_cons_of_ne_nil queued
      simp only [step, if_pos here, Driver.pollRecv, queued, pending, Bool.false_eq_true,
        if_false] at complete
      have undropped := (complete live).undropped
      simp at undropped
  | pollNextInbound poll =>
    cases poll with
    | pending => exact hurried trivial
    | ready result =>
      rcases result with _ | error | value
      · exact hurried trivial
      · exact hurried trivial
      · simp only [OneAtATime, Classical.not_imp] at hurried
        obtain ⟨live, here, full, requests⟩ := hurried
        have refused : ¬(driver.handle && decide (driver.acceptQueue < channelCapacity)) = true := by
          simp [full]
        simp only [step, if_pos here, Driver.pollNextInbound, if_neg refused] at complete
        have undropped := (complete live).undropped
        simp only [Driver.finish, (ordered live).undropped, List.nil_append,
          List.append_eq_nil_iff, Option.toList_eq_nil_iff] at undropped
        exact requests undropped
  | wake => exact hurried trivial
  | pollNewOutbound poll => exact hurried trivial
  | openStream => exact hurried trivial
  | acceptStream => exact hurried trivial
  | dropHandle => exact hurried trivial

/-- No request is dropped in a run exactly when each meets a free driver. -/
theorem nothing_dropped_iff (events : List Event) :
    Always step .start NothingDropped events ↔ EachStep step .start OneAtATime events := by
  apply @always_iff_each_step _ _ step .start (fun driver => driver.live → Ordered driver)
  · exact fun _ => start_ordered
  · exact fun driver event => ordered_step event
  · exact fun driver ordered live => (ordered live).complete
  · exact fun driver event => hurried_drops event

/-- The second request arrives while the connection has no stream for the first. -/
theorem second_request_drops_first :
    ¬Always step .start NothingDropped
      [.openStream, .pollNewOutbound .pending, .pollRecv false, .pollNewOutbound .pending,
        .openStream, .pollRecv false] := by
  intro always
  have undropped := (always _ [] (List.append_nil _).symm ⟨rfl, rfl⟩).undropped
  revert undropped
  decide

end Steps

section Bursts

/-- The driver runs as long as the connection and the handle are there. -/
def KeepsRunning (driver : Driver) : Prop := driver.live → driver.stage ≠ .ended

/-- A stream of the peer finds a place in the channel. -/
def PlaceFree (driver : Driver) : Event → Prop
  | .pollNextInbound (.ready (some (.ok _))) => driver.live → driver.stage = .inbound →
      driver.acceptQueue < channelCapacity
  | _ => True

variable {driver : Driver}

/-- With a place free the driver goes on running. -/
theorem running_step (event : Event) (running : KeepsRunning driver)
    (free : PlaceFree driver event) : KeepsRunning (step driver event) := by
  intro after
  obtain ⟨live, effect⟩ := step_live after
  generalize step driver event = later at effect ⊢
  cases effect with
  | still _ _ ends => exact fun ended => running live (ends ended)
  | answers _ _ runs => exact runs
  | takes => exact Stage.noConfusion
  | full polled here full =>
    subst polled
    exact absurd (free live here) (Nat.not_lt.mpr full)
  | sends runs => exact runs

/-- Without a free place the driver returns, though the connection and the handle are there.
-/
theorem burst_ends (event : Event) (full : ¬PlaceFree driver event) :
    ¬KeepsRunning (step driver event) := by
  intro running
  cases event with
  | pollNextInbound poll =>
    cases poll with
    | pending => exact full trivial
    | ready result =>
      rcases result with _ | error | value
      · exact full trivial
      · exact full trivial
      · simp only [PlaceFree, Classical.not_imp] at full
        obtain ⟨live, here, full⟩ := full
        have refused : ¬(driver.handle && decide (driver.acceptQueue < channelCapacity)) = true := by
          simp [full]
        simp only [step, if_pos here, Driver.pollNextInbound, if_neg refused] at running
        exact running live rfl
  | wake => exact full trivial
  | pollNewOutbound poll => exact full trivial
  | pollRecv spurious => exact full trivial
  | openStream => exact full trivial
  | acceptStream => exact full trivial
  | dropHandle => exact full trivial

/-- The driver survives a run exactly when every stream of the peer finds a free place. -/
theorem keeps_running_iff (events : List Event) :
    Always step .start KeepsRunning events ↔ EachStep step .start PlaceFree events := by
  apply @always_iff_each_step _ _ step .start KeepsRunning
  · exact fun _ => Stage.noConfusion
  · exact fun driver event => running_step event
  · exact fun _ => id
  · exact fun driver event _ => burst_ends event

/-- A round of the driver in which the peer opens a stream. -/
def burstRound : List Event :=
  [.pollNewOutbound .pending, .pollRecv false, .pollNextInbound (.ready (some (.ok ())))]

/-- A burst of 65 streams, none of which is accepted. -/
theorem burst_ends_driver :
    ¬Always step .start KeepsRunning (List.replicate 65 burstRound).flatten := by
  intro always
  have running := always _ [] (List.append_nil _).symm
  have live : (run step .start (List.replicate 65 burstRound).flatten).live := by decide +kernel
  apply running live
  decide +kernel

end Bursts

end OmniProxy.YamuxDriver
