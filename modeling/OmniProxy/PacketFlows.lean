import OmniProxy.GuardedRuns
import OmniProxy.IncrementalDecoding

/-!
# Flows of packets

A sender writes the frames of packets to a stream of octets, and a receiver feeds what
arrives to a collector and asks it for packets until it has none. Between them the octets
arrive in any pieces, a write can fail after any octet of a frame, and the receiver can
leave at any time.

When the collector takes the frames of all packets that were accepted, what is received is
a front of them in every run, the receiver never finds anything else, and as long as no
write has failed and the receiver stays, everything accepted can still be received.

Nothing here refers to a particular program.
-/

namespace OmniProxy.PacketFlows

open GuardedRuns IncrementalDecoding

/-- A receiver waits for octets, asks its collector, or has left. -/
inductive Stage where
  | reading
  | draining
  | ended
deriving DecidableEq

/-- The packets of a sender on their way to a receiver. -/
structure Flow (Item Seen Octet State : Type) where
  accepted : List Item
  queue : List Item
  sending : Bool
  broken : Bool
  wire : List Octet
  state : State
  stage : Stage
  received : List Seen

/-- A step of the sender, of the stream or of the receiver. -/
inductive FlowEvent (Item : Type) where
  | accept (item : Item)
  | send
  | breakOff (count : Nat)
  | stop
  | arrive (count : Nat)
  | next (taken : Bool)
  | leave

variable {Item Seen Octet Answer : Type}

/-- How the packets of a flow are framed, and what an answer of the collector holds. -/
structure Framing (Item Seen Octet Answer : Type) where
  collector : Collector Octet Answer
  holding : List Octet → collector.State
  encode : Item → List Octet
  opens : Answer → Option Seen
  seen : Item → Seen

section Model

variable (framing : Framing Item Seen Octet Answer)

/-- A flow before anything was accepted; its receiver waits or asks first. -/
def Flow.start (stage : Stage) : Flow Item Seen Octet framing.collector.State where
  accepted := []
  queue := []
  sending := true
  broken := false
  wire := []
  state := framing.holding []
  stage := stage
  received := []

/-- The receiver asks its collector. A packet that is not taken further, or an answer
without one, ends it. -/
def Flow.ask (flow : Flow Item Seen Octet framing.collector.State) (taken : Bool) :
    Flow Item Seen Octet framing.collector.State :=
  match framing.collector.next flow.state with
  | (none, after) => { flow with state := after, stage := .reading }
  | (some answer, after) =>
      match framing.opens answer with
      | none => { flow with state := after, stage := .ended }
      | some item =>
          if taken then { flow with state := after, received := flow.received ++ [item] }
          else { flow with state := after, stage := .ended }

def Flow.step (flow : Flow Item Seen Octet framing.collector.State) :
    FlowEvent Item → Flow Item Seen Octet framing.collector.State
  | .accept item =>
      if flow.sending then
        { flow with accepted := flow.accepted ++ [item], queue := flow.queue ++ [item] }
      else flow
  | .send =>
      match flow.queue with
      | [] => flow
      | item :: queue => { flow with queue := queue, wire := flow.wire ++ framing.encode item }
  | .breakOff count =>
      match flow.queue with
      | [] => flow
      | item :: _ =>
          { flow with
            queue := []
            sending := false
            broken := true
            wire := flow.wire ++ (framing.encode item).take count }
  | .stop => if flow.queue.isEmpty then { flow with sending := false } else flow
  | .arrive count =>
      if flow.stage = .reading ∧ flow.wire.take count ≠ [] then
        { flow with
          wire := flow.wire.drop count
          state := framing.collector.feed flow.state (flow.wire.take count)
          stage := .draining }
      else flow
  | .next taken => if flow.stage = .draining then flow.ask framing taken else flow
  | .leave => { flow with stage := .ended }

/-- The flow after a list of events. -/
def flowRun (stage : Stage) (events : List (FlowEvent Item)) :
    Flow Item Seen Octet framing.collector.State :=
  run (Flow.step framing) (Flow.start framing stage) events

/-- The steps that the sender, the stream and the receiver take by themselves. -/
inductive FlowEvent.Internal : FlowEvent Item → Prop
  | send : Internal .send
  | arrive : Internal (.arrive 1)
  | next : Internal (.next true)

end Model

section Accounts

variable (framing : Framing Item Seen Octet Answer)

/-- The collector takes the frames of packets of a kind. -/
structure Decodes (Usable : Item → Prop) : Prop where
  held : Holding framing.collector framing.holding
  takes : ∃ answer : Item → Answer,
    (∀ item, framing.opens (answer item) = some (framing.seen item)) ∧
      ∀ items, (∀ item ∈ items, Usable item) →
        Takes framing.collector framing.holding framing.encode answer items

/-- What is on its way while the receiver is there: the octets that its collector carries and
those on the wire begin the frames of the next packets, up to where a write failed. -/
structure Account (flow : Flow Item Seen Octet framing.collector.State)
    (ahead lost : List Item) (carried missing : List Octet) : Prop where
  holds : flow.state = framing.holding carried
  stream : carried ++ (flow.wire ++ missing) = (ahead.map framing.encode).flatten
  balance : ∃ done, flow.received = done.map framing.seen ∧ flow.accepted = done ++ (ahead ++ lost)
  whole : flow.broken = false → missing = [] ∧ lost = flow.queue
  quiet : flow.stage = .reading → (framing.collector.next flow.state).1 = none

/-- A receiver that is there accounts for what it has not received. -/
structure Underway (flow : Flow Item Seen Octet framing.collector.State) : Prop where
  front : flow.received <+: flow.accepted.map framing.seen
  stopped : flow.broken = true → flow.queue = [] ∧ flow.sending = false
  account : flow.stage ≠ .ended →
    ∃ ahead lost carried missing, Account framing flow ahead lost carried missing

variable {framing}

/-- What was received is a front of what was accepted. -/
theorem Account.front {flow : Flow Item Seen Octet framing.collector.State}
    {ahead lost : List Item} {carried missing : List Octet}
    (account : Account framing flow ahead lost carried missing) :
    flow.received <+: flow.accepted.map framing.seen := by
  obtain ⟨done, received, accepted⟩ := account.balance
  rw [received, accepted, List.map_append]
  exact List.prefix_append _ _

/-- What the collector answers: nothing, and then nothing is complete, or the next packet. -/
theorem asked {Usable : Item → Prop} (decodes : Decodes framing Usable)
    {flow : Flow Item Seen Octet framing.collector.State} {ahead lost : List Item}
    {carried missing : List Octet} (account : Account framing flow ahead lost carried missing)
    (usable : ∀ item ∈ ahead, Usable item) :
    framing.collector.next flow.state = (none, flow.state) ∧
        (flow.wire = [] → missing = [] → ahead = []) ∨
      ∃ item later more reply, ahead = item :: later ∧ carried = framing.encode item ++ more ∧
        framing.collector.next flow.state = (some reply, framing.holding more) ∧
        framing.opens reply = some (framing.seen item) ∧
        more ++ (flow.wire ++ missing) = (later.map framing.encode).flatten := by
  obtain ⟨answer, opened, takes⟩ := decodes.takes
  have took := takes ahead usable
  have stream := account.stream
  cases ahead with
  | nil =>
    obtain ⟨rfl, -⟩ := List.append_eq_nil_iff.mp stream
    left
    rw [account.holds]
    exact ⟨took.idle, fun _ _ => rfl⟩
  | cons item later =>
    rw [List.map_cons, List.flatten_cons] at stream
    rcases front_arrives stream with ⟨absent, framed, lacking⟩ | ⟨more, whole, rest⟩
    · left
      rw [account.holds]
      refine ⟨took.part item List.mem_cons_self carried absent framed lacking, ?_⟩
      intro nothing complete
      rw [nothing, complete, List.append_nil, List.append_nil, ← framed] at stream
      have lengths := congrArg List.length stream
      have positive := List.length_pos_of_ne_nil lacking
      simp only [List.length_append] at lengths
      omega
    · right
      refine ⟨item, later, more, answer item, rfl, whole, ?_, opened item, rest⟩
      rw [account.holds, whole]
      exact took.whole item List.mem_cons_self more

end Accounts

section Steps

variable {framing : Framing Item Seen Octet Answer}
  {flow : Flow Item Seen Octet framing.collector.State}

/-- A flow that starts has received everything that was accepted, which is nothing. -/
theorem start_underway (stage : Stage)
    (quiet : (framing.collector.next (framing.holding [])).1 = none) :
    Underway framing (Flow.start framing stage) :=
  ⟨List.prefix_rfl, fun broke => (by cases broke), fun _ =>
    ⟨[], [], [], [], rfl, rfl, ⟨[], rfl, rfl⟩, fun _ => ⟨rfl, rfl⟩, fun _ => quiet⟩⟩

/-- Accepting an item adds it to those ahead. -/
theorem accept_underway (item : Item) (underway : Underway framing flow) :
    Underway framing (flow.step framing (.accept item)) := by
  by_cases sending : flow.sending = true
  · simp only [Flow.step, sending, if_true]
    have unbroken : flow.broken = false := by
      by_contra broke
      have stopped := (underway.stopped (by simpa using broke)).2
      rw [sending] at stopped
      cases stopped
    refine ⟨?_, fun broke => ?_, fun there => ?_⟩
    · exact underway.front.trans (by simp)
    · rw [unbroken] at broke
      cases broke
    · obtain ⟨ahead, lost, carried, missing, account⟩ := underway.account there
      obtain ⟨nothing, queued⟩ := account.whole unbroken
      obtain ⟨done, received, accepted⟩ := account.balance
      exact ⟨ahead, lost ++ [item], carried, missing, account.holds, account.stream,
        ⟨done, received, by simp [accepted]⟩, fun _ => ⟨nothing, by rw [queued]⟩, account.quiet⟩
  · simp only [Flow.step, sending, Bool.false_eq_true, if_false]
    exact underway

/-- The first packet of the queue is on its way up to where its write failed, if it did. -/
theorem sent_account {ahead lost queue : List Item} {item : Item} {carried missing : List Octet}
    (count : Nat) (sending broken : Bool)
    (account : Account framing flow ahead lost carried missing)
    (unbroken : flow.broken = false) (queued : flow.queue = item :: queue)
    (left : broken = false → (framing.encode item).drop count = []) (kept : List Item)
    (keeps : broken = false → kept = queue) :
    Account framing { flow with
      queue := kept
      sending := sending
      broken := broken
      wire := flow.wire ++ (framing.encode item).take count }
      (ahead ++ [item]) queue carried ((framing.encode item).drop count) := by
  obtain ⟨nothing, lostQueue⟩ := account.whole unbroken
  obtain ⟨done, received, accepted⟩ := account.balance
  have stream := account.stream
  rw [nothing, List.append_nil] at stream
  refine ⟨account.holds, ?_, ⟨done, received, ?_⟩, fun still => ?_, account.quiet⟩
  · dsimp only
    rw [List.append_assoc, List.take_append_drop, ← List.append_assoc, stream]
    simp
  · dsimp only
    rw [accepted, lostQueue, queued]
    simp
  · exact ⟨left still, (keeps still).symm⟩

/-- Sending puts the frame of the first queued item on the wire. -/
theorem send_underway (underway : Underway framing flow) :
    Underway framing (flow.step framing .send) := by
  cases queued : flow.queue with
  | nil =>
    simp only [Flow.step, queued]
    exact underway
  | cons item queue =>
    have unbroken : flow.broken = false := by
      by_contra broke
      have stopped := (underway.stopped (by simpa using broke)).1
      rw [queued] at stopped
      cases stopped
    simp only [Flow.step, queued]
    refine ⟨underway.front, fun broke => ?_, fun there => ?_⟩
    · rw [unbroken] at broke
      cases broke
    · obtain ⟨ahead, lost, carried, missing, account⟩ := underway.account there
      have sent := sent_account (framing.encode item).length flow.sending flow.broken account
        unbroken queued (fun _ => List.drop_length) queue fun _ => rfl
      rw [List.take_length] at sent
      exact ⟨_, _, _, _, sent⟩

/-- A write that breaks off leaves part of a frame on the wire and loses the queue. -/
theorem break_off_underway (count : Nat) (underway : Underway framing flow) :
    Underway framing (flow.step framing (.breakOff count)) := by
  cases queued : flow.queue with
  | nil =>
    simp only [Flow.step, queued]
    exact underway
  | cons item queue =>
    have unbroken : flow.broken = false := by
      by_contra broke
      have stopped := (underway.stopped (by simpa using broke)).1
      rw [queued] at stopped
      cases stopped
    simp only [Flow.step, queued]
    refine ⟨underway.front, fun _ => ⟨rfl, rfl⟩, fun there => ?_⟩
    obtain ⟨ahead, lost, carried, missing, account⟩ := underway.account there
    exact ⟨_, _, _, _, sent_account count false true account unbroken queued
      (fun still => (by cases still)) [] fun still => (by cases still)⟩

/-- Stopping accepts nothing more, and what is queued stays queued. -/
theorem stop_underway (underway : Underway framing flow) :
    Underway framing (flow.step framing .stop) := by
  simp only [Flow.step]
  split
  · refine ⟨underway.front, fun broke => ⟨(underway.stopped broke).1, rfl⟩, fun there => ?_⟩
    obtain ⟨ahead, lost, carried, missing, account⟩ := underway.account there
    exact ⟨ahead, lost, carried, missing, account.holds, account.stream, account.balance,
      account.whole, account.quiet⟩
  · exact underway

/-- An arrival moves octets from the wire to the collector. -/
theorem arrive_underway (held : Holding framing.collector framing.holding) (count : Nat)
    (underway : Underway framing flow) :
    Underway framing (flow.step framing (.arrive count)) := by
  simp only [Flow.step]
  split
  · next waiting =>
    refine ⟨underway.front, underway.stopped, fun _ => ?_⟩
    obtain ⟨ahead, lost, carried, missing, account⟩ := underway.account (by simp [waiting.1])
    refine ⟨ahead, lost, carried ++ flow.wire.take count, missing, ?_, ?_, account.balance,
      account.whole, fun reading => (by cases reading)⟩
    · dsimp only
      rw [account.holds, held.fed]
    · rw [List.append_assoc, ← List.append_assoc (flow.wire.take count), List.take_append_drop]
      exact account.stream
  · exact underway

/-- A receiver that leaves need not account for anything any more. -/
theorem leave_underway (underway : Underway framing flow) :
    Underway framing (flow.step framing .leave) :=
  ⟨underway.front, underway.stopped, fun there => absurd rfl there⟩

/-- Asking the collector receives the next packet, or finds that none is complete. -/
theorem ask_underway {Usable : Item → Prop} (decodes : Decodes framing Usable) (taken : Bool)
    (underway : Underway framing flow) (there : flow.stage = .draining)
    (usable : ∀ item ∈ flow.accepted, Usable item) : Underway framing (flow.ask framing taken) := by
  obtain ⟨ahead, lost, carried, missing, account⟩ := underway.account (by simp [there])
  obtain ⟨done, received, accepted⟩ := account.balance
  have coming : ∀ item ∈ ahead, Usable item := fun item member =>
    usable item (by rw [accepted]; simp [member])
  rcases asked decodes account coming with ⟨nothing, -⟩ |
    ⟨item, later, more, reply, rfl, -, found, opened, rest⟩
  · simp only [Flow.ask, nothing]
    refine ⟨underway.front, underway.stopped, fun _ => ⟨ahead, lost, carried, missing,
      account.holds, account.stream, account.balance, account.whole, fun _ => ?_⟩⟩
    rw [nothing]
  · simp only [Flow.ask, found, opened]
    cases taken with
    | false =>
      rw [if_neg Bool.false_ne_true]
      exact ⟨underway.front, underway.stopped, fun still => absurd rfl still⟩
    | true =>
      rw [if_pos rfl]
      have next : Account framing { flow with
          state := framing.holding more, received := flow.received ++ [framing.seen item] }
          later lost more missing :=
        ⟨rfl, rest, ⟨done ++ [item], by simp [received], by simp [accepted]⟩, account.whole,
          fun reading => absurd (there.symm.trans reading) (by decide)⟩
      exact ⟨next.front, underway.stopped, fun _ => ⟨_, _, _, _, next⟩⟩

/-- Every step keeps account of what is underway. -/
theorem step_underway {Usable : Item → Prop} (decodes : Decodes framing Usable)
    (event : FlowEvent Item) (underway : Underway framing flow)
    (usable : ∀ item ∈ flow.accepted, Usable item) :
    Underway framing (flow.step framing event) := by
  cases event with
  | accept item => exact accept_underway item underway
  | send => exact send_underway underway
  | breakOff count => exact break_off_underway count underway
  | stop => exact stop_underway underway
  | arrive count => exact arrive_underway decodes.held count underway
  | next taken =>
    simp only [Flow.step]
    split
    · next draining => exact ask_underway decodes taken underway draining usable
    · exact underway
  | leave => exact leave_underway underway

/-- What was accepted stays accepted. -/
theorem accepted_grows (event : FlowEvent Item) :
    flow.accepted <+: (flow.step framing event).accepted := by
  cases event with
  | accept item =>
    simp only [Flow.step]
    split
    · exact List.prefix_append _ _
    · exact List.prefix_rfl
  | send =>
    simp only [Flow.step]
    split <;> exact List.prefix_rfl
  | breakOff count =>
    simp only [Flow.step]
    split <;> exact List.prefix_rfl
  | stop =>
    simp only [Flow.step]
    split <;> exact List.prefix_rfl
  | arrive count =>
    simp only [Flow.step]
    split <;> exact List.prefix_rfl
  | next taken =>
    simp only [Flow.step, Flow.ask]
    repeat' split
    all_goals exact List.prefix_rfl
  | leave => exact List.prefix_rfl

/-- A run of a flow whose accepted packets the collector takes keeps account of them. The
induction is on the events from the last one. -/
theorem run_underway {Usable : Item → Prop} (decodes : Decodes framing Usable)
    (stage : Stage) (events : List (FlowEvent Item))
    (usable : ∀ item ∈ (flowRun framing stage events).accepted, Usable item) :
    Underway framing (flowRun framing stage events) := by
  induction events using List.reverseRecOn with
  | nil =>
    obtain ⟨answer, -, takes⟩ := decodes.takes
    exact start_underway stage (congrArg Prod.fst (takes [] (by simp)).idle)
  | append_singleton events event inductionHypothesis =>
    rw [flowRun, run_snoc] at usable ⊢
    have before : ∀ item ∈ (flowRun framing stage events).accepted, Usable item :=
      fun item member => usable item ((accepted_grows event).subset member)
    exact step_underway decodes event (inductionHypothesis before) before

end Steps

section Wholes

variable {framing : Framing Item Seen Octet Answer} {Usable : Item → Prop}
  {flow : Flow Item Seen Octet framing.collector.State} {accepted : List Item}

/-- A flow in which what was accepted can still be received. -/
structure Whole (framing : Framing Item Seen Octet Answer) (Usable : Item → Prop)
    (accepted : List Item) (flow : Flow Item Seen Octet framing.collector.State) : Prop where
  underway : Underway framing flow
  same : flow.accepted = accepted
  usable : ∀ item ∈ accepted, Usable item
  unbroken : flow.broken = false
  there : flow.stage ≠ .ended

/-- Every item that can still be received is usable. -/
theorem Whole.current (whole : Whole framing Usable accepted flow) :
    ∀ item ∈ flow.accepted, Usable item := by
  rw [whole.same]
  exact whole.usable

/-- Sending keeps a flow whole: no write breaks off. -/
theorem Whole.send (whole : Whole framing Usable accepted flow) :
    Whole framing Usable accepted (flow.step framing .send) := by
  refine ⟨send_underway whole.underway, ?_, whole.usable, ?_, ?_⟩
  · simp only [Flow.step]
    split <;> exact whole.same
  · simp only [Flow.step]
    split <;> exact whole.unbroken
  · simp only [Flow.step]
    split <;> exact whole.there

/-- The queue can be written. -/
theorem leads_sent (whole : Whole framing Usable accepted flow) :
    Leads (Flow.step framing) FlowEvent.Internal
      (fun other => Whole framing Usable accepted other ∧ other.queue = []) flow := by
  refine leads_by_weight (fun other => other.queue.length) (fun other kept => ?_) whole
  cases queued : other.queue with
  | nil => exact .inl rfl
  | cons item queue =>
    refine .inr ⟨.send, .send, kept.send, ?_⟩
    simp only [Flow.step, queued, List.length_cons]
    exact Nat.lt_succ_self _

end Wholes

section Results

variable {framing : Framing Item Seen Octet Answer} {Usable : Item → Prop}
  {flow : Flow Item Seen Octet framing.collector.State} {accepted : List Item}
  (decodes : Decodes framing Usable)

include decodes

/-- Whatever the collector answers holds a packet. -/
theorem answers_hold (underway : Underway framing flow) (there : flow.stage ≠ .ended)
    (usable : ∀ item ∈ flow.accepted, Usable item) (reply : Answer)
    (answered : (framing.collector.next flow.state).1 = some reply) :
    (framing.opens reply).isSome := by
  obtain ⟨ahead, lost, carried, missing, account⟩ := underway.account there
  obtain ⟨done, -, balance⟩ := account.balance
  rcases asked decodes account fun item member => usable item (by rw [balance]; simp [member])
    with ⟨none, -⟩ | ⟨item, later, more, other, -, -, found, opened, -⟩
  · rw [none] at answered
    cases answered
  · rw [found] at answered
    obtain rfl := Option.some.inj answered
    rw [opened]
    rfl

/-- With nothing queued or on the wire, a receiver that waits has received everything. -/
theorem complete_at_rest (underway : Underway framing flow)
    (usable : ∀ item ∈ flow.accepted, Usable item) (unbroken : flow.broken = false)
    (drained : flow.queue = []) (arrived : flow.wire = []) (waiting : flow.stage = .reading) :
    flow.received = flow.accepted.map framing.seen := by
  obtain ⟨ahead, lost, carried, missing, account⟩ := underway.account (by simp [waiting])
  obtain ⟨done, received, balance⟩ := account.balance
  obtain ⟨nothing, lostQueue⟩ := account.whole unbroken
  have quiet := account.quiet waiting
  rcases asked decodes account fun item member => usable item (by rw [balance]; simp [member])
    with ⟨-, rest⟩ | ⟨item, later, more, other, -, -, found, -, -⟩
  · rw [received, balance, rest arrived nothing, lostQueue, drained]
    simp
  · rw [found] at quiet
    cases quiet

/-- An arrival keeps a flow whole: no frame makes the receiver leave. -/
theorem Whole.arrive (count : Nat) (whole : Whole framing Usable accepted flow) :
    Whole framing Usable accepted (flow.step framing (.arrive count)) := by
  refine ⟨arrive_underway decodes.held count whole.underway, ?_, whole.usable, ?_, ?_⟩
  · simp only [Flow.step]
    split <;> exact whole.same
  · simp only [Flow.step]
    split <;> exact whole.unbroken
  · simp only [Flow.step]
    split
    · simp
    · exact whole.there

/-- A question that is not in vain leaves less to ask for, and one in vain ends the questions. -/
theorem Whole.ask (whole : Whole framing Usable accepted flow) (draining : flow.stage = .draining) :
    Whole framing Usable accepted (flow.step framing (.next true)) ∧
      (flow.step framing (.next true)).wire = flow.wire ∧
      (flow.step framing (.next true)).queue = flow.queue ∧
      ((flow.step framing (.next true)).stage = .reading ∧
          (flow.step framing (.next true)).state = flow.state ∨
        (flow.step framing (.next true)).stage = .draining ∧
          framing.collector.held (flow.step framing (.next true)).state <
            framing.collector.held flow.state) := by
  have stepped : flow.step framing (.next true) = flow.ask framing true := if_pos draining
  have underway := ask_underway decodes true whole.underway draining whole.current
  obtain ⟨ahead, lost, carried, missing, account⟩ := whole.underway.account whole.there
  obtain ⟨done, -, balance⟩ := account.balance
  have coming : ∀ item ∈ ahead, Usable item := fun item member =>
    whole.current item (by rw [balance]; simp [member])
  rw [stepped]
  rcases asked decodes account coming with ⟨nothing, -⟩ |
    ⟨item, later, more, reply, rfl, rfl, found, opened, -⟩
  · have asks : flow.ask framing true = { flow with stage := .reading } := by
      simp only [Flow.ask, nothing]
    rw [asks] at underway ⊢
    exact ⟨⟨underway, whole.same, whole.usable, whole.unbroken, by simp⟩, rfl, rfl,
      .inl ⟨rfl, rfl⟩⟩
  · have asks : flow.ask framing true = { flow with
        state := framing.holding more, received := flow.received ++ [framing.seen item] } := by
      simp only [Flow.ask, found, opened, if_true]
    rw [asks] at underway ⊢
    refine ⟨⟨underway, whole.same, whole.usable, whole.unbroken, whole.there⟩, rfl, rfl,
      .inr ⟨draining, ?_⟩⟩
    obtain ⟨answer, -, takes⟩ := decodes.takes
    have positive := List.length_pos_of_ne_nil
      ((takes _ coming).nonempty item List.mem_cons_self)
    dsimp only
    rw [account.holds, decodes.held.counted, decodes.held.counted, List.length_append]
    omega

/-- What is on the wire can arrive and be asked for. An octet on the wire weighs more than one
in the collector, and that more than a question in vain. -/
theorem leads_asked (whole : Whole framing Usable accepted flow) (drained : flow.queue = []) :
    Leads (Flow.step framing) FlowEvent.Internal (fun other =>
      (Whole framing Usable accepted other ∧ other.queue = []) ∧
        other.wire = [] ∧ other.stage = .reading) flow := by
  refine leads_by_weight (fun other => 4 * other.wire.length +
    2 * framing.collector.held other.state + if other.stage = .draining then 1 else 0)
    (fun other => ?_) ⟨whole, drained⟩
  rintro ⟨kept, empty⟩
  cases stage : other.stage with
  | ended => exact absurd stage kept.there
  | draining =>
    obtain ⟨after, sameWire, sameQueue, progress⟩ := kept.ask decodes stage
    refine .inr ⟨.next true, .next, ⟨after, sameQueue.trans empty⟩, ?_⟩
    rw [sameWire]
    rcases progress with ⟨reading, same⟩ | ⟨still, fewer⟩
    · rw [reading, same]
      simp
    · rw [still]
      simp only [if_true]
      omega
  | reading =>
    by_cases arrived : other.wire = []
    · exact .inl ⟨arrived, rfl⟩
    · have positive := List.length_pos_of_ne_nil arrived
      have first : other.wire.take 1 ≠ [] := fun nothing =>
        arrived ((List.take_eq_nil_iff.mp nothing).resolve_left (by decide))
      have stepped : other.step framing (.arrive 1) = { other with
          wire := other.wire.drop 1
          state := framing.collector.feed other.state (other.wire.take 1)
          stage := .draining } := if_pos ⟨stage, first⟩
      refine .inr ⟨.arrive 1, .arrive, ⟨kept.arrive decodes 1, ?_⟩, ?_⟩
      · rw [stepped]
        exact empty
      · obtain ⟨ahead, lost, carried, missing, account⟩ := kept.underway.account kept.there
        rw [stepped]
        dsimp only
        rw [account.holds, decodes.held.fed, decodes.held.counted, decodes.held.counted,
          List.length_append, List.length_take, List.length_drop, if_pos rfl,
          Nat.min_eq_left positive]
        split <;> omega

/-- From every state of a flow whose writes did not fail and whose receiver is there, the steps
that its parties take by themselves lead to a state in which everything was received. -/
theorem leads_received (whole : Whole framing Usable accepted flow) :
    Leads (Flow.step framing) FlowEvent.Internal
      (fun other => other.received = accepted.map framing.seen) flow := by
  refine leads_trans (leads_sent whole) fun first => ?_
  rintro ⟨sent, drained⟩
  refine leads_trans (leads_asked decodes sent drained) fun second => ?_
  rintro ⟨⟨kept, empty⟩, arrived, waiting⟩
  have complete := complete_at_rest decodes kept.underway kept.current kept.unbroken empty arrived
    waiting
  rw [kept.same] at complete
  exact leads_now complete

/-- What is received is a front of what was accepted; whatever the collector answers holds a
packet; and a receiver that waits with nothing queued or on the wire has received everything. -/
structure Conveyed (framing : Framing Item Seen Octet Answer)
    (flow : Flow Item Seen Octet framing.collector.State) : Prop where
  front : flow.received <+: flow.accepted.map framing.seen
  sound : flow.stage ≠ .ended → ∀ reply,
    (framing.collector.next flow.state).1 = some reply → (framing.opens reply).isSome
  complete : flow.broken = false → flow.queue = [] → flow.wire = [] → flow.stage = .reading →
    flow.received = flow.accepted.map framing.seen

/-- In every run of packets that the collector takes, they are conveyed. -/
theorem run_conveyed (stage : Stage) (events : List (FlowEvent Item))
    (usable : ∀ item ∈ (flowRun framing stage events).accepted, Usable item) :
    Conveyed framing (flowRun framing stage events) :=
  have underway := run_underway decodes stage events usable
  ⟨underway.front, fun there => answers_hold decodes underway there usable,
    complete_at_rest decodes underway usable⟩

/-- After every run of packets that the collector takes, everything that was accepted can be
received if no write failed and the receiver is there. -/
theorem run_leads (stage : Stage) (events : List (FlowEvent Item))
    (usable : ∀ item ∈ (flowRun framing stage events).accepted, Usable item)
    (unbroken : (flowRun framing stage events).broken = false)
    (there : (flowRun framing stage events).stage ≠ .ended) :
    Leads (Flow.step framing) FlowEvent.Internal (fun other =>
      other.received = (flowRun framing stage events).accepted.map framing.seen)
      (flowRun framing stage events) :=
  leads_received decodes ⟨run_underway decodes stage events usable, rfl, usable, unbroken, there⟩

end Results

end OmniProxy.PacketFlows
