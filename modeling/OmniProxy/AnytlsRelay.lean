import Mathlib.Algebra.GroupWithZero.Nat
import OmniProxy.AnytlsLink
import OmniProxy.AnytlsProgress

/-!
# What an AnyTLS link relays

Each side of a link keeps what it puts into its queue, and takes what the other side may send.
Together they keep that the frames to come are those that the other side has put into its
queue, and so everything that a reader gets was accepted for its number on the other side.
-/

namespace OmniProxy.AnytlsRelay

open AnytlsEndpoints AnytlsFrames AnytlsIntake AnytlsIsolation AnytlsLink AnytlsProgress
open AnytlsRegistry AnytlsStreams ByteStrings Connections GuardedRuns ListUpdates ProxyTargets

section Invariant

/-- What holds of a link in every run. -/
structure Joined (link : Link) : Prop where
  offers : ∀ party, Offers (link.side party)
  takes : ∀ party, Takes (link.side party)
  channel : ∀ party, Channel (link.side party) (link.side party.peer) (link.wire party)
  client : ClientSide (link.side .client)
  server : ServerSide (link.side .server)

variable {link : Link}

/-- A fresh link keeps the invariant on both of its sides. -/
theorem start_joined : Joined .start where
  offers _ := start_offers _
  takes _ := start_takes _
  channel
    | .client => ⟨[settingsFrame], settingsFrame.encode, rfl, List.append_nil _,
        fun _ => (List.append_nil _).symm⟩
    | .server => ⟨[], [], rfl, rfl, fun _ => rfl⟩
  client := by
    refine ⟨rfl, ?_, rfl, [], rfl⟩
    simp [Link.start, Side.start, Side.session, Ledger.start, Session.start]
  server := by
    refine ⟨rfl, rfl, fun something => absurd rfl something, ?_, ?_⟩
    · simp [Link.start, Side.start, Side.session, Ledger.start, Session.start]
    · simp [Link.start, Side.start]

/-- What the other side sends is expected, as long as its opening frames are. -/
theorem expected_of {sender receiver : Side} (offers : Offers sender) {frame : Frame}
    {todo : List Frame} (order : sender.session.queue.order = receiver.handled ++ frame :: todo)
    (opening : ∀ (index : Nat) (entry : LocalStream), sender.session.isServer = false →
      sender.session.streams[index]? = some entry → frame = .new cmdSyn entry.stream.sid →
      receiver.session.isServer = true ∧ receiver.session.refusesSyn = false ∧
        Fresh receiver frame.sid) : Expected receiver frame := by
  have member : frame ∈ sender.session.queue.order := by
    rw [order]
    simp
  rcases frame_cases offers member with ⟨rfl, -⟩ | ⟨index, entry, there, own, kind⟩
  · have other : settingsFrame.cmd ≠ cmdSyn ∧ settingsFrame.cmd ≠ cmdAlert ∧
        settingsFrame.cmd ≠ cmdPsh ∧ settingsFrame.cmd ≠ cmdFin := by
      simp [settingsFrame, cmdSettings, cmdSyn, cmdAlert, cmdPsh, cmdFin]
    exact ⟨fun syn => absurd syn other.1, other.2.1,
      fun message => absurd message (not_or.mpr other.2.2), fun psh => absurd psh other.2.2.1,
      fun fin => absurd fin other.2.2.2⟩
  · have last := (frame_placed offers there order own).2
    rw [← own] at last
    rcases kind with ⟨rfl, client⟩ | ⟨chunk, among, rfl⟩ | rfl
    · refine ⟨fun _ => opening index entry client there rfl, (by decide : cmdSyn ≠ cmdAlert),
        fun _ => last, fun psh => ?_, fun fin => ?_⟩
      · exact absurd psh (by decide : cmdSyn ≠ cmdPsh)
      · exact absurd fin (by decide : cmdSyn ≠ cmdFin)
    · refine ⟨fun syn => ?_, (by decide : cmdPsh ≠ cmdAlert), fun _ => last,
        fun _ => ((offers.offer index entry there).sized chunk among).1, fun fin => ?_⟩
      · exact absurd syn (by decide : cmdPsh ≠ cmdSyn)
      · exact absurd fin (by decide : cmdPsh ≠ cmdFin)
    · refine ⟨fun syn => ?_, (by decide : cmdFin ≠ cmdAlert), fun _ => last, fun psh => ?_,
        fun _ => rfl⟩
      · exact absurd syn (by decide : cmdFin ≠ cmdSyn)
      · exact absurd psh (by decide : cmdFin ≠ cmdPsh)

/-- The frames that a side has handled were put into the queue of the other. -/
theorem Joined.handled (joined : Joined link) (party : Party) :
    ∀ frame ∈ (link.side party.peer).handled, frame ∈ (link.side party).session.queue.order := by
  obtain ⟨todo, rest, order, -, -⟩ := joined.channel party
  intro frame member
  rw [order]
  exact List.mem_append_left _ member

/-- Each stream of the server has the number of one of the client. -/
theorem Joined.counterpart (joined : Joined link) {index : Nat} {entry : LocalStream}
    (there : (link.side .server).session.streams[index]? = some entry) :
    ∃ (other : Nat) (opened : LocalStream),
      (link.side .client).session.streams[other]? = some opened ∧
        opened.stream.sid = entry.stream.sid := by
  obtain ⟨frame, member, syn, number⟩ := joined.server.opened index entry there
  rcases frame_cases (joined.offers .client) (joined.handled .client frame member) with
    ⟨rfl, -⟩ | ⟨other, opened, known, own, -⟩
  · exact absurd syn (by decide : cmdSettings ≠ cmdSyn)
  · exact ⟨other, opened, known, own.symm.trans number⟩

/-- The loop of the server meets only frames that it takes. -/
theorem Joined.expects_server (joined : Joined link) {frame : Frame}
    (handled : handles (link.side .server).session .loop = some frame) :
    Expected (link.side .server) frame ∧
      ((link.side .server).handled = [] → frame = settingsFrame) := by
  obtain ⟨⟨found, consumed⟩, next, rfl⟩ := Option.map_eq_some_iff.mp handled
  obtain ⟨todo, rest, order, -, -⟩ :=
    (joined.channel .client).next (frames_fit (joined.offers .client)) next
  have first : (link.side .server).handled = [] → found = settingsFrame := by
    intro nothing
    obtain ⟨later, greeting⟩ := joined.client.greeting
    change _ = (link.side .server).handled ++ found :: todo at order
    rw [greeting, nothing] at order
    exact (List.cons.inj order).1.symm
  refine ⟨expected_of (joined.offers .client) order ?_, first⟩
  rintro index entry - there rfl
  have placed := frame_placed (joined.offers .client) there order rfl
  refine ⟨joined.server.isServer, ?_, ?_, ?_, placed.1 rfl⟩
  · have got : (link.side .server).session.gotSettings = true := by
      apply joined.server.greeted
      intro nothing
      exact absurd (congrArg Frame.cmd (first nothing)) (by decide : cmdSyn ≠ cmdSettings)
    simp [Session.refusesSyn, got]
  · exact (joined.offers .client).numbered index entry there
  · intro other opened known same
    obtain ⟨before, member, syn, number⟩ := joined.server.opened other opened known
    have among : before ∈ framesOf entry.stream.sid (link.side .server).handled :=
      List.mem_filter.mpr ⟨member, decide_eq_true (number.trans same)⟩
    have absent := placed.1 rfl
    change framesOf entry.stream.sid (link.side .server).handled = [] at absent
    rw [absent] at among
    exact absurd among List.not_mem_nil

/-- So does the loop of the client, which gets no opening frames. -/
theorem Joined.expects_client (joined : Joined link) {frame : Frame}
    (handled : handles (link.side .client).session .loop = some frame) :
    Expected (link.side .client) frame := by
  obtain ⟨⟨found, consumed⟩, next, rfl⟩ := Option.map_eq_some_iff.mp handled
  obtain ⟨todo, rest, order, -, -⟩ :=
    (joined.channel .server).next (frames_fit (joined.offers .server)) next
  apply expected_of (joined.offers .server) order
  intro index entry client
  simp [joined.server.isServer] at client

/-- The next number of a client is that of no stream, as long as there are numbers. -/
theorem Joined.fresh (joined : Joined link)
    (few : (link.side .client).session.streams.length + 1 < 2 ^ 32) :
    Fresh (link.side .client) (link.side .client).session.nextSid := by
  have value (number : Nat) (small : number < 2 ^ 32) :
      (UInt32.ofNat number).toNat = number := UInt32.toNat_ofNat_of_lt' small
  have unused : ∀ (index : Nat) (entry : LocalStream),
      (link.side .client).session.streams[index]? = some entry →
      entry.stream.sid ≠ (link.side .client).session.nextSid := by
    intro index entry there same
    have inside := (List.getElem?_eq_some_iff.mp there).1
    rw [joined.client.numbered index entry there, joined.client.next] at same
    have numbers := congrArg UInt32.toNat same
    rw [value _ (by omega), value _ few] at numbers
    omega
  refine ⟨?_, unused, ?_⟩
  · rw [joined.client.next]
    intro zero
    have number := congrArg UInt32.toNat zero
    rw [value _ few] at number
    simp at number
  · rw [framesOf, List.filter_eq_nil_iff]
    intro frame member own
    have own : frame.sid = (link.side .client).session.nextSid := of_decide_eq_true own
    rcases frame_cases (joined.offers .server) (joined.handled .server frame member) with
      ⟨-, client⟩ | ⟨index, entry, there, number, -⟩
    · simp [joined.server.isServer] at client
    · obtain ⟨other, opened, known, same⟩ := joined.counterpart there
      exact unused other opened known (same.trans (number.symm.trans own))

end Invariant

section Steps

variable {link : Link}

/-- Holders write chunks that fit a frame and are not empty, and open streams for targets that
can be written. -/
def LinkEvent.Proper : LinkEvent → Prop
  | .acts _ event => Event.Proper event
  | _ => True

/-- The party that acts makes the step on its own side. -/
@[simp] theorem act_side (link : Link) (party : Party) (event : Event) :
    (link.act party event).side party = (link.side party).step event :=
  Function.update_self ..

/-- A party that does not act keeps its side. -/
@[simp] theorem act_other (link : Link) {party other : Party} (event : Event)
    (apart : other ≠ party) : (link.act party event).side other = link.side other :=
  Function.update_of_ne apart ..

/-- No party is its own peer. -/
theorem peer_apart (party : Party) : party.peer ≠ party := by
  cases party <;> decide

/-- The peer of the peer is the party itself. -/
theorem peer_peer (party : Party) : party.peer.peer = party := by
  cases party <;> rfl

/-- A step of one side keeps what holds of a link, when it keeps what is to come. -/
theorem Joined.act (joined : Joined link) (party : Party) (event : Event) {after : Link}
    (sides : after.side = (link.act party event).side)
    (expects : Expects (link.side party) event)
    (greets : party = .server → ∀ frame, handles (link.side party).session event = some frame →
      (link.side party).handled = [] → frame = settingsFrame)
    (out : Channel ((link.side party).step event) (link.side party.peer) (after.wire party))
    (into : Channel (link.side party.peer) ((link.side party).step event)
      (after.wire party.peer)) : Joined after := by
  have own : after.side party = (link.side party).step event := by rw [sides, act_side]
  have others (other : Party) (apart : other ≠ party) : after.side other = link.side other := by
    rw [sides, act_other link event apart]
  refine ⟨?_, ?_, ?_, ?_, ?_⟩
  · intro other
    by_cases same : other = party
    · subst same
      rw [own]
      exact step_offers (joined.offers other) event expects
    · rw [others other same]
      exact joined.offers other
  · intro other
    by_cases same : other = party
    · subst same
      rw [own]
      exact step_takes (joined.takes other) event expects
    · rw [others other same]
      exact joined.takes other
  · intro other
    by_cases same : other = party
    · subst same
      rw [own, others _ (peer_apart other)]
      exact out
    · obtain rfl : other = party.peer := by
        cases party <;> cases other <;> simp_all [Party.peer]
      rw [peer_peer, own, others _ (peer_apart party)]
      exact into
  · cases party with
    | client =>
      rw [own]
      exact joined.client.step event expects
    | server =>
      rw [others .client (by decide)]
      exact joined.client
  · cases party with
    | client =>
      rw [others .server (by decide)]
      exact joined.server
    | server =>
      rw [own]
      exact joined.server.step event expects (greets rfl)

/-- A step that puts nothing into the queue leaves what is to come. -/
theorem channel_sender {sender receiver : Side} {wire : Bytes}
    (channel : Channel sender receiver wire) {after : Side}
    (queue : after.session.queue = sender.session.queue)
    (writing : after.session.writing = sender.session.writing) : Channel after receiver wire := by
  rw [Channel, queue, writing]
  exact channel

/-- Reading the connection leaves the queue and what was handled. -/
theorem received_queue (session : Session) (octets : Except IoError Bytes) :
    (session.received octets).queue = session.queue ∧
      (session.received octets).writing = session.writing := by
  obtain ⟨buf, same⟩ | ⟨-, -, result, same⟩ := received_cases session octets <;> rw [same] <;>
    exact ⟨rfl, rfl⟩

/-- A side expects its own steps and the frames of the other. -/
theorem Joined.expects (joined : Joined link) (party : Party) (event : Event)
    (proper : Event.Proper event)
    (few : ∀ target, party = .client → event = .beginOpen target →
      opens (link.side party).session event ≠ none →
      (link.side .client).session.streams.length + 1 < 2 ^ 32) :
    Expects (link.side party) event := by
  cases event with
  | loop =>
    intro frame handled
    cases party with
    | client => exact joined.expects_client handled
    | server => exact (joined.expects_server handled).1
  | beginOpen target =>
    intro opened
    cases party with
    | client =>
      exact ⟨proper, joined.client.isServer, joined.fresh (few target rfl rfl opened)⟩
    | server => simp [opens, joined.server.handle] at opened
  | write index chunk => exact proper
  | _ => trivial

/-- Every step of a link keeps what holds of it. -/
theorem step_joined (joined : Joined link) (event : LinkEvent) (proper : LinkEvent.Proper event)
    (few : ∀ target, event = .acts .client (.beginOpen target) →
      opens (link.side .client).session (.beginOpen target) ≠ none →
      (link.side .client).session.streams.length + 1 < 2 ^ 32) : Joined (link.step event) := by
  have channels (party : Party) :
      Channel (link.side party.peer) (link.side party) (link.wire party.peer) := by
    have channel := joined.channel party.peer
    rwa [peer_peer] at channel
  cases event with
  | acts party event =>
    simp only [Link.step]
    split
    · next isOffline =>
      have expects : Expects (link.side party) event := by
        apply joined.expects party event proper
        rintro target rfl rfl opened
        exact few target rfl opened
      refine joined.act party event rfl expects ?_ ?_ ?_
      · rintro rfl frame handled nothing
        cases event with
        | loop => exact (joined.expects_server handled).2 nothing
        | _ => simp [handles] at handled
      · exact (joined.channel party).offer event isOffline
      · cases event with
        | loop => exact (channels party).loop (frames_fit (joined.offers party.peer))
        | received octets => cases isOffline
        | writer => cases isOffline
        | writerFails => cases isOffline
        | beginOpen target =>
          apply (channels party).aside (List.append_nil _)
          rw [step_session]
          simp only [AnytlsRegistry.step, Session.beginOpen]
          split <;> rfl
        | _ =>
          apply (channels party).aside (List.append_nil _)
          rw [step_session]
          exact (step_aside (link.side party).session _ rfl).buf
    · exact joined
  | sends party =>
    simp only [Link.step]
    split
    · exact joined
    · next frame frames queued =>
      split
      · next writing =>
        refine joined.act party .writer rfl trivial (by simp [handles]) ?_ ?_
        · simp only [Function.update_self]
          exact (joined.channel party).send writing queued
        · simp only [Function.update_of_ne (peer_apart party)]
          exact (channels party).aside (List.append_nil _) (step_aside _ .writer rfl).buf
      · exact joined
  | breaks party count =>
    simp only [Link.step]
    split
    · exact joined
    · next frame frames queued =>
      split
      · next writing =>
        refine joined.act party .writerFails rfl trivial (by simp [handles]) ?_ ?_
        · simp only [Function.update_self]
          exact (joined.channel party).break writing count queued
        · simp only [Function.update_of_ne (peer_apart party)]
          exact (channels party).aside (List.append_nil _) rfl
      · exact joined
  | arrives party count =>
    simp only [Link.step]
    split
    · next reads =>
      obtain ⟨wanting, something⟩ := reads
      refine joined.act party (.received _) rfl trivial (by simp [handles]) ?_ ?_
      · simp only [Function.update_of_ne (peer_apart party).symm]
        apply channel_sender (joined.channel party)
        · exact (received_queue _ _).1
        · exact (received_queue _ _).2
      · simp only [Function.update_self]
        apply (channels party).arrive _ something
        simpa [wants, and_assoc] using wanting
    · exact joined
  | ends party error =>
    simp only [Link.step]
    split
    · refine joined.act party (.received _) rfl trivial (by simp [handles]) ?_ ?_
      · apply channel_sender (joined.channel party)
        · exact (received_queue _ _).1
        · exact (received_queue _ _).2
      · apply (channels party).aside (List.append_nil _)
        rw [step_session]
        cases error with
        | none =>
          simp only [AnytlsRegistry.step, Session.received, Option.elim_none]
          repeat' split
          all_goals rfl
        | some error =>
          simp only [AnytlsRegistry.step, Session.received, Option.elim_some]
          split <;> rfl
    · exact joined

end Steps

section Safety

variable {link : Link}

/-- The first chunk is sent as the first message. -/
theorem sent_messages_cons (chunk : Bytes) (chunks : List Bytes) (closed : Bool) :
    sentMessages (chunk :: chunks) closed = .data chunk :: sentMessages chunks closed := rfl

/-- Data in front of what was sent is the front of its chunks. -/
theorem data_front {closed : Bool} {front chunks : List Bytes}
    (arrived : front.map .data <+: sentMessages chunks closed) : front <+: chunks := by
  induction front generalizing chunks with
  | nil => exact List.nil_prefix
  | cons first front inductionHypothesis =>
    cases chunks with
    | nil =>
      obtain ⟨more, sent⟩ := arrived
      cases closed <;> simp [sentMessages] at sent
    | cons chunk chunks =>
      rw [sent_messages_cons, List.map_cons, List.cons_prefix_cons] at arrived
      obtain ⟨same, rest⟩ := arrived
      obtain rfl := StreamMsg.data.inj same
      exact List.cons_prefix_cons.mpr ⟨rfl, inductionHypothesis rest⟩

/-- An end in front of what was sent is behind all of its chunks, and nothing follows. -/
theorem end_front {closed : Bool} {front chunks : List Bytes} {more : List StreamMsg}
    (arrived : front.map .data ++ .eof :: more <+: sentMessages chunks closed) :
    front = chunks ∧ closed = true ∧ more = [] := by
  induction front generalizing chunks with
  | nil =>
    obtain ⟨behind, sent⟩ := arrived
    cases chunks with
    | nil =>
      cases closed with
      | false => simp [sentMessages] at sent
      | true =>
        simp only [sentMessages, List.map_nil, List.nil_append, List.cons_append, if_true,
          List.cons.injEq, true_and] at sent
        exact ⟨rfl, rfl, (List.append_eq_nil_iff.mp sent).1⟩
    | cons chunk chunks => simp [sentMessages] at sent
  | cons first front inductionHypothesis =>
    cases chunks with
    | nil =>
      obtain ⟨behind, sent⟩ := arrived
      cases closed <;> simp [sentMessages] at sent
    | cons chunk chunks =>
      rw [sent_messages_cons, List.map_cons, List.cons_append, List.cons_prefix_cons] at arrived
      obtain ⟨same, rest⟩ := arrived
      obtain rfl := StreamMsg.data.inj same
      obtain ⟨rfl, last, nothing⟩ := inductionHypothesis rest
      exact ⟨rfl, last, nothing⟩

/-- What a side has accepted for a number, and whether a closing frame is behind it. -/
def SentFor (side : Side) (sid : UInt32) (chunks : List Bytes) (closed : Bool) : Prop :=
  (∃ (index : Nat) (entry : LocalStream), side.session.streams[index]? = some entry ∧
      entry.stream.sid = sid ∧ chunks = side.accepted index ∧ closed = entry.finQueued) ∨
    (∀ (index : Nat) (entry : LocalStream), side.session.streams[index]? = some entry →
      entry.stream.sid ≠ sid) ∧ chunks = [] ∧ closed = false

/-- The messages that a stream has put into the queue. -/
theorem messages_of_stream {side : Side} (offers : Offers side) {index : Nat}
    {entry : LocalStream} (there : side.session.streams[index]? = some entry) :
    messagesFor entry.stream.sid side.session.queue.order =
      sentMessages (side.accepted index) entry.finQueued := by
  obtain ⟨⟨opening, frames, server, client⟩, -, sized, -, -⟩ := offers.offer index entry there
  have silent : opening.filterMap carried = [] := by
    cases isServer : side.session.isServer with
    | true =>
      rw [server isServer]
      rfl
    | false => rcases client isServer with rfl | ⟨rfl, -, -⟩ <;> rfl
  rw [messagesFor, frames, List.filterMap_append, silent, List.nil_append]
  exact sent_messages_carried _ _ _ fun chunk member => (sized chunk member).1

/-- The messages that a side has put into its queue for a number. -/
theorem messages_offered {side : Side} (offers : Offers side) {sid : UInt32} (nonzero : sid ≠ 0) :
    ∃ chunks closed, SentFor side sid chunks closed ∧
      messagesFor sid side.session.queue.order = sentMessages chunks closed := by
  by_cases there : ∃ (index : Nat) (entry : LocalStream),
      side.session.streams[index]? = some entry ∧ entry.stream.sid = sid
  · obtain ⟨index, entry, known, rfl⟩ := there
    exact ⟨side.accepted index, entry.finQueued, .inl ⟨index, entry, known, rfl, rfl, rfl⟩,
      messages_of_stream offers known⟩
  · have absent : ∀ (index : Nat) (entry : LocalStream),
        side.session.streams[index]? = some entry → entry.stream.sid ≠ sid :=
      fun index entry known own => there ⟨index, entry, known, own⟩
    exact ⟨[], false, .inr ⟨absent, rfl, rfl⟩,
      messages_for_nothing (offers.unknown nonzero absent)⟩

/-- A reader has got a front of what was accepted for its number on the other side. It has
seen the end only after all of it and behind a closing frame, or when the loop has returned. -/
def Conveyed (sender receiver : Side) : Prop :=
  ∀ (index : Nat) (entry : LocalStream), receiver.session.streams[index]? = some entry →
    ∃ chunks closed, SentFor sender entry.stream.sid chunks closed ∧
      receiver.returned index <+: chunks.flatten ∧
      (entry.stream.eof = true → entry.stream.leftover = none →
        receiver.session.result.isSome = true ∨
          receiver.returned index = chunks.flatten ∧ closed = true)

/-- A front of the chunks joins to a front of what they join to. -/
theorem flatten_front {front chunks : List Bytes} (before : front <+: chunks) :
    front.flatten <+: chunks.flatten := by
  obtain ⟨more, rfl⟩ := before
  rw [List.flatten_append]
  exact List.prefix_append ..

/-- What has arrived for a stream is a front of what was sent for its number. -/
theorem Joined.arrives (joined : Joined link) (party : Party) {index : Nat} {entry : LocalStream}
    (there : (link.side party.peer).session.streams[index]? = some entry)
    {chunks : List Bytes} {closed : Bool}
    (sent : messagesFor entry.stream.sid (link.side party).session.queue.order =
      sentMessages chunks closed) : entry.arrived <+: sentMessages chunks closed := by
  obtain ⟨todo, rest, order, -, -⟩ := joined.channel party
  rw [← sent, order, messages_for_append]
  exact ((joined.takes party.peer).arrived index entry there).trans (List.prefix_append ..)

/-- Under the invariant every reader has a front of what the other side accepted. -/
theorem Joined.conveyed (joined : Joined link) (party : Party) :
    Conveyed (link.side party) (link.side party.peer) := by
  intro index entry there
  obtain ⟨chunks, closed, sent, messages⟩ := messages_offered (joined.offers party)
    ((joined.offers party.peer).numbered index entry there)
  refine ⟨chunks, closed, sent, ?_⟩
  have arrived := joined.arrives party there messages
  obtain ⟨⟨front, exact, open_, ended⟩, -⟩ := (joined.takes party.peer).reading index entry there
  have returned : (link.side party.peer).returned index <+: front.flatten := by
    rw [← exact]
    exact List.prefix_append ..
  cases last : entry.stream.eof with
  | false =>
    rw [open_ last] at arrived
    have before := data_front ((List.prefix_append ..).trans arrived)
    exact ⟨returned.trans (flatten_front before), by simp⟩
  | true =>
    rcases ended last with whole | ⟨stopped, before⟩
    · rw [whole] at arrived
      obtain ⟨rfl, fin, -⟩ := end_front arrived
      refine ⟨returned, fun _ nothing => .inr ⟨?_, fin⟩⟩
      rw [nothing, Option.getD_none, List.append_nil] at exact
      exact exact
    · have before := data_front (before.trans arrived)
      exact ⟨returned.trans (flatten_front before), fun _ _ => .inl stopped⟩

end Safety

section Weights

def sendingWeight (session : Session) : Nat :=
  (session.sending.map fun sent => messageWeight sent.2 + 1).getD 0

def streamsWeight (streams : List LocalStream) : Nat :=
  (streams.map fun entry => streamWeight entry.stream).sum

/-- What a loop and the readers of its streams have before them. -/
def takerWeight (session : Session) : Nat :=
  4 * session.buf.length + sendingWeight session + streamsWeight session.streams

/-- An octet weighs most in the queue of the sender, then on the wire, and then with the other
side. -/
def linkWeight (party : Party) (link : Link) : Nat :=
  12 * (encodeAll (link.side party).session.queue.frames).length +
    8 * (link.wire party).length + takerWeight (link.side party.peer).session

/-- The weight of the streams when one of them changes. -/
theorem streams_weight_modify (streams : List LocalStream) (index : Nat)
    (f : LocalStream → LocalStream) (entry : LocalStream) (there : streams[index]? = some entry) :
    streamsWeight (streams.modify index f) + streamWeight entry.stream =
      streamsWeight streams + streamWeight (f entry).stream := by
  induction streams generalizing index with
  | nil => simp at there
  | cons first streams inductionHypothesis =>
    cases index with
    | zero =>
      obtain rfl : first = entry := Option.some.inj there
      simp only [streamsWeight, List.modify_zero_cons, List.map_cons, List.sum_cons]
      omega
    | succ index =>
      have rest := inductionHypothesis index there
      simp only [streamsWeight, List.modify_succ_cons, List.map_cons, List.sum_cons] at rest ⊢
      omega

/-- A message that a stream receives adds its own weight. -/
theorem receive_weight (entry : LocalStream) (msg : StreamMsg) :
    streamWeight (entry.receive msg).stream = streamWeight entry.stream + messageWeight msg := by
  simp only [LocalStream.receive, streamWeight, List.map_append, List.sum_append,
    List.map_singleton, List.sum_singleton]
  omega

/-- A frame brings a message whose weight its data bound. -/
theorem message_weight_of (frame : Frame) :
    messageWeight (messageOf frame) ≤ 2 + 3 * frame.data.length := by
  unfold messageOf
  split
  · simp only [messageWeight]
    omega
  · exact Nat.le_refl _

/-- A message that waits for its stream weighs one more than the message itself. -/
theorem sending_weight_of (registered : Option Nat) (msg : StreamMsg) :
    ((registered.map (·, msg)).map fun sent => messageWeight sent.2 + 1).getD 0 ≤
      messageWeight msg + 1 := by
  cases registered <;> simp

/-- A frame that is handled weighs less than its octets did. -/
theorem handle_frame_weight (session : Session) (frame : Frame)
    (quiet : session.sending = none) :
    takerWeight (session.handleFrame frame) <
      takerWeight session + 4 * (headerSize + frame.data.length) := by
  have nothing : sendingWeight session = 0 := by simp [sendingWeight, quiet]
  generalize handles : session.handleFrame frame = after
  have outcome := handles ▸ frame_handled session frame
  cases outcome with
  | quiet gotSettings syn psh fin alert =>
    simp only [takerWeight, headerSize, sendingWeight, quiet]
    omega
  | refused error cause =>
    simp only [takerWeight, headerSize, sendingWeight, quiet]
    omega
  | syn cmd accepted =>
    have fresh : streamWeight (LocalStream.new frame.sid session.isServer).stream = 1 := rfl
    simp only [takerWeight, headerSize, sendingWeight, Session.register, quiet, streamsWeight,
      List.map_append, List.sum_append, List.map_singleton, List.sum_singleton, fresh]
    omega
  | psh cmd =>
    have sent := sending_weight_of (session.registry frame.sid) (messageOf frame)
    have small := message_weight_of frame
    simp only [takerWeight, headerSize, sendingWeight, quiet] at sent ⊢
    omega
  | fin cmd =>
    have sent := sending_weight_of (session.registry frame.sid) .eof
    have same : streamsWeight (session.streams.map (·.finish frame.sid)) =
        streamsWeight session.streams := by
      simp only [streamsWeight, List.map_map]
      congr 2
      funext entry
      exact congrArg _ (finish_rest frame.sid entry).1
    have end_ : messageWeight .eof = 2 := rfl
    simp only [takerWeight, headerSize, sendingWeight, quiet, same] at sent ⊢
    omega

/-- A loop that handles a frame becomes lighter. -/
theorem next_lighter {session : Session} {frame : Frame} {consumed : Nat}
    (next : session.next = some (frame, consumed)) :
    takerWeight (AnytlsRegistry.step session .loop) < takerWeight session := by
  have quiet := (next_some next).2
  have steps : AnytlsRegistry.step session .loop = _ := read_loop_next next
  rw [steps]
  have size : consumed = headerSize + frame.data.length ∧ consumed ≤ session.buf.length := by
    unfold Session.next at next
    split at next
    · simp at next
    · split at next
      · next found length decoded =>
        obtain ⟨rfl, rfl⟩ := Prod.mk.inj (Option.some.inj next)
        exact try_decode_size decoded
      · simp at next
  have handled := handle_frame_weight { session with buf := session.buf.drop consumed } frame quiet
  simp only [takerWeight, sendingWeight, List.length_drop] at handled ⊢
  omega

/-- A loop that sends a message becomes lighter, unless the queue of the stream is full. -/
theorem deliver_lighter {session : Session} {index : Nat} {msg : StreamMsg} {entry : LocalStream}
    (sending : session.sending = some (index, msg))
    (there : session.streams[index]? = some entry)
    (room : entry.held = true → entry.stream.rx.length < streamBuf) :
    takerWeight (AnytlsRegistry.step session .loop) < takerWeight session := by
  have steps : AnytlsRegistry.step session .loop = _ := read_loop_sending sending
  have before : sendingWeight session = messageWeight msg + 1 := by
    simp [sendingWeight, sending]
  rw [steps, Session.deliver, there]
  cases held : entry.held with
  | false =>
    simp only [held, Bool.not_false, if_true, takerWeight, before]
    simp only [sendingWeight, Option.map_none, Option.getD_none]
    omega
  | true =>
    have changed := streams_weight_modify session.streams index (·.receive msg) entry there
    rw [receive_weight] at changed
    simp only [held, Bool.not_true, Bool.false_eq_true, if_false, room held, if_true, takerWeight,
      before, Session.change]
    simp only [sendingWeight, Option.map_none, Option.getD_none]
    omega

/-- A read that returns nothing and changes nothing found nothing. -/
theorem nothing_read {stream : AnytlsStream} {closed : Bool}
    (useful : stream.leftover ≠ some [])
    (same : (stream.pollRead closed 1).2 = stream)
    (nothing : (stream.pollRead closed 1).1.getD [] = []) :
    stream.leftover = none ∧ (stream.eof = true ∨ stream.rx = []) := by
  cases left : stream.leftover with
  | some data =>
    rw [poll_read_leftover left] at nothing
    cases data with
    | nil => exact absurd left useful
    | cons octet data => simp [handOut] at nothing
  | none =>
    refine ⟨rfl, ?_⟩
    cases last : stream.eof with
    | true => exact .inl rfl
    | false =>
      right
      rcases queue : stream.rx with _ | ⟨_ | _, rx⟩
      · rfl
      · next data =>
        by_cases empty : data = []
        · subst empty
          rw [poll_read_empty left last queue] at same
          simpa [queue] using congrArg (fun other => other.rx.length) same
        · rw [poll_read_data left last queue empty] at same
          simpa [queue] using congrArg (fun other => other.rx.length) same
      · rw [poll_read_eof left last queue] at same
        simpa [queue] using congrArg (fun other => other.rx.length) same

/-- A read of a stream that somebody has makes it lighter, or the stream has nothing. -/
theorem read_lighter {session : Session} {index : Nat} {entry : LocalStream}
    (owned : session.ownedStream index = some entry) (useful : entry.stream.leftover ≠ some []) :
    (entry.stream.leftover = none ∧ (entry.stream.eof = true ∨ entry.stream.rx = [])) ∨
      takerWeight (AnytlsRegistry.step session (.read index 1)) < takerWeight session := by
  have there := (owned_stream_some owned).1
  have steps : AnytlsRegistry.step session (.read index 1) =
      session.change index ({ · with stream :=
        (entry.stream.pollRead (!session.hasSender index entry.stream.sid) 1).2 }) := by
    simp only [AnytlsRegistry.step, Session.read, owned]
  rcases poll_read_lighter entry.stream (!session.hasSender index entry.stream.sid) 1 with
    ⟨same, nothing⟩ | lighter
  · exact .inl (nothing_read useful same nothing)
  · right
    have changed := streams_weight_modify session.streams index ({ · with stream :=
      (entry.stream.pollRead (!session.hasSender index entry.stream.sid) 1).2 }) entry there
    rw [steps]
    simp only [takerWeight, Session.change]
    change _ + streamsWeight _ < _
    simp only [sendingWeight] at *
    omega

end Weights

section Completion

/-- The steps that carry data from one side to the readers of the other. -/
inductive Internal (party : Party) : LinkEvent → Prop where
  | send : Internal party (.sends party)
  | arrive : Internal party (.arrives party.peer 1)
  | loop : Internal party (.acts party.peer .loop)
  | read (index : Nat) : Internal party (.acts party.peer (.read index 1))

/-- A link on which data flows from one side, with what that side had accepted before. -/
structure Flowing (party : Party) (link other : Link) : Prop where
  joined : Joined other
  writing : (other.side party).session.writing = true
  uncut : (other.side party.peer).cut = false
  unopened : (other.side party.peer).session.opener = none
  accepted : (other.side party).accepted = (link.side party).accepted
  streams : (other.side party).session.streams = (link.side party).session.streams

variable {party : Party} {link other : Link}

/-- The loop never touches the call that opens a stream. -/
theorem loop_opener (session : Session) :
    (AnytlsRegistry.step session .loop).opener = session.opener := by
  simp only [AnytlsRegistry.step, Session.readLoop]
  split
  · next index msg _ =>
    rcases deliver_cases session index msg with same | ⟨-, same⟩ | same <;> rw [same]
    rfl
  · next frame consumed _ _ =>
    generalize handles : Session.handleFrame _ frame = after
    have outcome := handles ▸
      frame_handled { session with buf := session.buf.drop consumed } frame
    cases outcome <;> rfl
  · rfl

/-- A step that does not use the connection changes its own side alone. -/
theorem acts_step (link : Link) (party : Party) {event : Event} (isOffline : offline event = true) :
    link.step (.acts party event) = link.act party event := if_pos isOffline

/-- A step of the other side that opens nothing and cuts nothing lets data flow. -/
theorem Flowing.taken (flowing : Flowing party link other) {event : Event}
    {after : Link} (joined : Joined after)
    (sides : after.side = (other.act party.peer event).side) (uncut : cuts event = false)
    (opener : (AnytlsRegistry.step (other.side party.peer).session event).opener =
      (other.side party.peer).session.opener) : Flowing party link after := by
  have own : after.side party = other.side party := by
    rw [sides, act_other other event (peer_apart party).symm]
  have peer : after.side party.peer = (other.side party.peer).step event := by
    rw [sides, act_side]
  refine ⟨joined, ?_, ?_, ?_, ?_, ?_⟩
  · rw [own]
    exact flowing.writing
  · rw [peer]
    simp only [Side.step, flowing.uncut, uncut, Bool.or_self]
  · rw [peer, step_session, opener]
    exact flowing.unopened
  · rw [own]
    exact flowing.accepted
  · rw [own]
    exact flowing.streams

/-- Data goes on flowing through every step of the taking side. -/
theorem Flowing.step (flowing : Flowing party link other) {event : LinkEvent}
    (internal : Internal party event) : Flowing party link (other.step event) := by
  have proper : LinkEvent.Proper event := by cases internal <;> trivial
  have joined : Joined (other.step event) := by
    apply step_joined flowing.joined event proper
    intro target same
    cases internal <;> simp at same
  cases internal with
  | send =>
    have own : (other.step (.sends party)).side party = other.side party ∨
        (other.step (.sends party)).side party = (other.side party).step .writer := by
      simp only [Link.step]
      split
      · exact .inl rfl
      · split
        · exact .inr (act_side ..)
        · exact .inl rfl
    have peer : (other.step (.sends party)).side party.peer = other.side party.peer := by
      simp only [Link.step]
      split
      · rfl
      · split
        · exact act_other other .writer (peer_apart party)
        · rfl
    have steps : AnytlsRegistry.step (other.side party).session .writer =
        { (other.side party).session with
          queue := (other.side party).session.queue.recv } := if_pos flowing.writing
    refine ⟨joined, ?_, peer ▸ flowing.uncut, peer ▸ flowing.unopened, ?_, ?_⟩
    · rcases own with same | same
      · exact same ▸ flowing.writing
      · rw [same, step_session, steps]
        exact flowing.writing
    · rcases own with same | same
      · exact same ▸ flowing.accepted
      · rw [same]
        exact flowing.accepted
    · rcases own with same | same
      · exact same ▸ flowing.streams
      · rw [same, step_session, steps]
        exact flowing.streams
  | arrive =>
    simp only [Link.step] at joined ⊢
    split
    · next reads =>
      rw [if_pos reads] at joined
      have uncut : cuts (.received (.ok
          ((other.wire party.peer.peer).take (min 1 maxPayload)))) = false := by
        simpa [cuts] using reads.2
      apply flowing.taken joined rfl uncut
      obtain ⟨buf, same⟩ | ⟨-, -, result, same⟩ := received_cases (other.side party.peer).session
        (.ok ((other.wire party.peer.peer).take (min 1 maxPayload))) <;>
        simp only [AnytlsRegistry.step, same]
    · exact flowing
  | loop =>
    apply flowing.taken joined (congrArg Link.side (acts_step other party.peer rfl)) rfl
    exact loop_opener _
  | read index =>
    apply flowing.taken joined (congrArg Link.side (acts_step other party.peer rfl)) rfl
    simp only [AnytlsRegistry.step, Session.read]
    split <;> rfl

/-- The reader of a number has got all data, if somebody has its stream, and sees the end when
there is one. -/
def Delivered (receiver : Side) (sid : UInt32) (data : Bytes) (closed : Bool) : Prop :=
  ∃ (place : Nat) (entry : LocalStream), receiver.session.streams[place]? = some entry ∧
    entry.stream.sid = sid ∧ (entry.held = true →
      receiver.returned place = data ∧ (closed = true → entry.stream.eof = true))

/-- The other side steps, and the sender and the wire stay. -/
theorem taken_weight (link : Link) (party : Party) (event : Event) :
    linkWeight party (link.act party.peer event) =
      12 * (encodeAll (link.side party).session.queue.frames).length +
        8 * (link.wire party).length +
        takerWeight (AnytlsRegistry.step (link.side party.peer).session event) := by
  rw [linkWeight, act_other link event (peer_apart party).symm, act_side, step_session]
  rfl

/-- A lighter receiver makes the link lighter, as nothing else changed. -/
theorem taken_lighter {event : Event} (isOffline : offline event = true)
    (lighter : takerWeight (AnytlsRegistry.step (other.side party.peer).session event) <
      takerWeight (other.side party.peer).session) :
    linkWeight party (other.step (.acts party.peer event)) < linkWeight party other := by
  rw [acts_step other party.peer isOffline, taken_weight]
  unfold linkWeight
  omega

/-- A stream that has more messages has not seen its end, as long as the loop runs. -/
theorem Joined.unended (joined : Joined other) (party : Party)
    (running : (other.side party.peer).session.result = none) {index : Nat} {entry : LocalStream}
    (there : (other.side party.peer).session.streams[index]? = some entry)
    (more : entry.stream.rx ≠ []) : entry.stream.eof = false := by
  obtain ⟨chunks, closed, -, messages⟩ := messages_offered (joined.offers party)
    ((joined.offers party.peer).numbered index entry there)
  have arrived := joined.arrives party there messages
  obtain ⟨⟨front, -, -, ended⟩, -⟩ := (joined.takes party.peer).reading index entry there
  cases last : entry.stream.eof with
  | false => rfl
  | true =>
    rcases ended last with whole | ⟨stopped, -⟩
    · rw [whole] at arrived
      exact absurd (end_front arrived).2.2 more
    · simp [running] at stopped

/-- When the loop sends a message, a round of it or a read of the stream goes on. -/
theorem Flowing.sends_on (flowing : Flowing party link other)
    (running : (other.side party.peer).session.result = none) {index : Nat} {msg : StreamMsg}
    (sending : (other.side party.peer).session.sending = some (index, msg)) :
    ∃ event, Internal party event ∧
      linkWeight party (other.step event) < linkWeight party other := by
  have inside : index < (other.side party.peer).session.streams.length :=
    (flowing.joined.takes party.peer).faithful.target index msg sending
  have there := List.getElem?_eq_getElem inside
  generalize (other.side party.peer).session.streams[index] = entry at there
  by_cases room : entry.held = true → entry.stream.rx.length < streamBuf
  · exact ⟨_, .loop, taken_lighter rfl (deliver_lighter sending there room)⟩
  · rw [Classical.not_imp] at room
    obtain ⟨held, full⟩ := room
    have nonempty : entry.stream.rx ≠ [] := by
      intro nothing
      rw [nothing] at full
      exact full (by decide)
    have owned : (other.side party.peer).session.ownedStream index = Option.some entry := by
      simp [Session.ownedStream, flowing.unopened, there, held]
    have useful := ((flowing.joined.takes party.peer).reading index entry there).useful
    refine ⟨_, .read index, taken_lighter rfl ?_⟩
    refine (read_lighter owned useful).resolve_left ?_
    rintro ⟨-, ended | absent⟩
    · have open_ := flowing.joined.unended party running there nonempty
      simp [ended] at open_
    · exact nonempty absent

/-- A stream that sent nothing but data sent all of its chunks and is open. -/
theorem sent_messages_open {front chunks : List Bytes} {closed : Bool}
    (sent : sentMessages chunks closed = front.map .data) : front = chunks ∧ closed = false := by
  cases closed with
  | true =>
    have member : StreamMsg.eof ∈ front.map StreamMsg.data := by
      rw [← sent]
      simp [sentMessages]
    simp at member
  | false =>
    have injective : Function.Injective StreamMsg.data := fun _ _ => StreamMsg.data.inj
    refine ⟨injective.list_map ?_, rfl⟩
    rw [← sent]
    exact List.append_nil _

/-- When everything was handled, a stream that has nothing to read was read to its end. -/
theorem Flowing.drained (flowing : Flowing party link other)
    (running : (other.side party.peer).session.result = none)
    (quiet : (other.side party.peer).session.sending = none)
    (all : (other.side party).session.queue.order = (other.side party.peer).handled)
    {index place : Nat} {opened entry : LocalStream}
    (known : (other.side party).session.streams[index]? = some opened)
    (there : (other.side party.peer).session.streams[place]? = some entry)
    (own : entry.stream.sid = opened.stream.sid) :
    Delivered (other.side party.peer) opened.stream.sid
        ((other.side party).accepted index).flatten opened.finQueued ∨
      ∃ event, Internal party event ∧
        linkWeight party (other.step event) < linkWeight party other := by
  have takes := flowing.joined.takes party.peer
  have reading := takes.reading place entry there
  by_cases held : entry.held = true
  · have owned : (other.side party.peer).session.ownedStream place = some entry := by
      simp [Session.ownedStream, flowing.unopened, there, held]
    rcases read_lighter owned reading.useful with ⟨nothing, finished⟩ | lighter
    · left
      refine ⟨place, entry, there, own, fun _ => ?_⟩
      have delivered : entry.arrived ++ sendingTo (other.side party.peer).session place =
          (other.side party.peer).ledger.due place :=
        takes.faithful.delivered place entry there held
      rw [sending_to_none quiet, List.append_nil, takes.due place entry there, own, ← all,
        messages_of_stream (flowing.joined.offers party) known] at delivered
      obtain ⟨⟨front, exact, open_, ended⟩, -⟩ := reading
      rw [nothing, Option.getD_none, List.append_nil] at exact
      cases last : entry.stream.eof with
      | false =>
        have arrived := open_ last
        rw [finished.resolve_left (by simp [last]), List.append_nil, delivered] at arrived
        obtain ⟨rfl, more⟩ := sent_messages_open arrived
        exact ⟨exact, by simp [more]⟩
      | true =>
        rcases ended last with whole | ⟨stopped, -⟩
        · rw [delivered] at whole
          have front_ : front.map .data ++ .eof :: entry.stream.rx <+:
              sentMessages ((other.side party).accepted index) opened.finQueued := by
            simp only [whole, List.prefix_rfl]
          obtain ⟨rfl, -, -⟩ := end_front front_
          exact ⟨exact, fun _ => rfl⟩
        · simp [running] at stopped
    · exact .inr ⟨_, .read place, taken_lighter rfl lighter⟩
  · exact .inl ⟨place, entry, there, own, fun holds => absurd holds held⟩

/-- A stream of which something was accepted has one of its number on the other side, once all
frames were handled. -/
theorem Joined.partner (joined : Joined other) (party : Party)
    (all : (other.side party).session.queue.order = (other.side party.peer).handled)
    {index : Nat} {opened : LocalStream}
    (known : (other.side party).session.streams[index]? = some opened)
    (something : (other.side party).accepted index ≠ []) :
    ∃ (place : Nat) (entry : LocalStream),
      (other.side party.peer).session.streams[place]? = some entry ∧
        entry.stream.sid = opened.stream.sid := by
  cases party with
  | server => exact joined.counterpart known
  | client =>
    obtain ⟨⟨opening, frames, -, client⟩, -, -, -, -⟩ :=
      (joined.offers .client).offer index opened known
    have opens : opening = [.new cmdSyn opened.stream.sid] :=
      (client joined.client.isServer).resolve_right fun nothing => something nothing.2.1
    have member : .new cmdSyn opened.stream.sid ∈
        framesOf opened.stream.sid (other.side .client).session.queue.order := by
      rw [frames, opens]
      simp
    have handled := (List.mem_filter.mp member).1
    rw [all] at handled
    exact joined.server.answered _ handled rfl

/-- As long as data flows, the loop of the receiving side runs. -/
theorem Flowing.running (flowing : Flowing party link other) :
    (other.side party.peer).session.result = none := by
  cases result : (other.side party.peer).session.result with
  | none => rfl
  | some value =>
    have cut := (flowing.joined.takes party.peer).uncut (by simp [result])
    simp [flowing.uncut] at cut

/-- An octet that arrives is lighter in the buffer than on the wire. -/
theorem arrival_lighter (running : (other.side party.peer).session.result = none)
    (sending : (other.side party.peer).session.sending = none)
    (waits : tryDecode (other.side party.peer).session.buf = .needMore) {octet : UInt8}
    {wire : Bytes} (onWire : other.wire party = octet :: wire) :
    linkWeight party (other.step (.arrives party.peer 1)) < linkWeight party other := by
  have wanting : wants (other.side party.peer).session = true := by
    simp [wants, running, sending, waits]
  have reads : AnytlsRegistry.step (other.side party.peer).session (.received (.ok [octet])) =
      { (other.side party.peer).session with
        buf := (other.side party.peer).session.buf ++ [octet] } := by
    simp [AnytlsRegistry.step, Session.received, running, sending, waits]
  have taken : min 1 maxPayload = 1 := by decide
  have arrives : other.step (.arrives party.peer 1) =
      { other.act party.peer (.received (.ok [octet])) with
        wire := Function.update other.wire party wire } := by
    simp [Link.step, peer_peer, onWire, wanting, taken]
  rw [arrives]
  simp only [linkWeight, Function.update_self, act_side, step_session, reads,
    act_other other _ (peer_apart party).symm, onWire, takerWeight, sendingWeight,
    List.length_append, List.length_cons, List.length_nil]
  omega

/-- A frame that is sent is lighter on the wire than in the queue. -/
theorem dispatch_lighter (writing : (other.side party).session.writing = true) {frame : Frame}
    {frames : List Frame}
    (queued : (other.side party).session.queue.frames = frame :: frames) :
    linkWeight party (other.step (.sends party)) < linkWeight party other := by
  have steps : AnytlsRegistry.step (other.side party).session .writer =
      { (other.side party).session with
        queue := (other.side party).session.queue.recv } := if_pos writing
  have left : (other.side party).session.queue.recv.frames = frames := by
    simp only [FrameQueue.recv, queued]
  have size := encode_length frame
  simp only [Link.step, queued, writing, if_true, linkWeight, act_side,
    act_other other _ (peer_apart party), step_session, steps, left,
    Function.update_self, encode_all_cons, List.length_append, size, headerSize]
  omega

/-- When nothing is queued or on its way and the buffer holds no frame, every frame was
handled. -/
theorem Flowing.all_handled (flowing : Flowing party link other)
    (waits : tryDecode (other.side party.peer).session.buf = .needMore)
    (onWire : other.wire party = [])
    (queued : (other.side party).session.queue.frames = []) :
    (other.side party).session.queue.order = (other.side party.peer).handled := by
  obtain ⟨todo, rest, order, octets, unwritten⟩ := flowing.joined.channel party
  have whole := unwritten flowing.writing
  rw [queued] at whole
  rw [onWire, whole, encode_all_nil, List.append_nil] at octets
  cases todo with
  | nil => rw [order, List.append_nil]
  | cons first todo =>
    have fits : first.fits :=
      frames_fit (flowing.joined.offers party) first (by rw [order]; simp)
    rcases try_decode_stream first fits todo _ [] octets.symm with ⟨-, more⟩ | ⟨length, taken, -⟩
    · exact absurd rfl more
    · simp [waits] at taken

/-- Some step carries data on, until the reader has got all of it. -/
theorem Flowing.progress (flowing : Flowing party link other) {index : Nat} {opened : LocalStream}
    (known : (link.side party).session.streams[index]? = some opened)
    (something : (link.side party).accepted index ≠ []) :
    Delivered (other.side party.peer) opened.stream.sid
        ((link.side party).accepted index).flatten opened.finQueued ∨
      ∃ event, Internal party event ∧
        linkWeight party (other.step event) < linkWeight party other := by
  rw [← flowing.streams] at known
  rw [← flowing.accepted] at something ⊢
  have running := flowing.running
  rcases sending : (other.side party.peer).session.sending with _ | ⟨target, msg⟩
  · rcases next : (other.side party.peer).session.next with _ | ⟨frame, consumed⟩
    · have waits : tryDecode (other.side party.peer).session.buf = .needMore := by
        cases decoded : tryDecode (other.side party.peer).session.buf with
        | needMore => rfl
        | frame frame consumed => simp [Session.next, running, sending, decoded] at next
      cases onWire : other.wire party with
      | cons octet wire => exact .inr ⟨_, .arrive, arrival_lighter running sending waits onWire⟩
      | nil =>
        rcases queued : (other.side party).session.queue.frames with _ | ⟨frame, frames⟩
        · have all := flowing.all_handled waits onWire queued
          obtain ⟨place, entry, there, own⟩ := flowing.joined.partner party all known something
          exact flowing.drained running sending all known there own
        · exact .inr ⟨_, .send, dispatch_lighter flowing.writing queued⟩
    · exact .inr ⟨_, .loop, taken_lighter rfl (next_lighter next)⟩
  · exact .inr (flowing.sends_on running sending)

/-- Everything that was accepted can still be read. -/
theorem Joined.completes (joined : Joined link)
    (writing : (link.side party).session.writing = true)
    (uncut : (link.side party.peer).cut = false)
    (unopened : (link.side party.peer).session.opener = none) {index : Nat} {opened : LocalStream}
    (known : (link.side party).session.streams[index]? = some opened)
    (something : (link.side party).accepted index ≠ []) :
    Leads Link.step (Internal party) (fun other =>
      Delivered (other.side party.peer) opened.stream.sid
        ((link.side party).accepted index).flatten opened.finQueued) link := by
  have flowing : Flowing party link link := ⟨joined, writing, uncut, unopened, rfl, rfl⟩
  obtain ⟨more, internal, -, delivered⟩ :=
    leads_by_weight (linkWeight party) (fun other (holds : Flowing party link other) => by
      rcases holds.progress known something with delivered | ⟨event, internal, lighter⟩
      · exact .inl delivered
      · exact .inr ⟨event, internal, holds.step internal, lighter⟩) flowing
  exact ⟨more, internal, delivered⟩

end Completion

section Authentication

def authToken (sha256 : Bytes → Octets 32) (password : String) : Octets 32 :=
  sha256 (asBytes password)

/-- What a client writes ahead of its frames: its token and no padding. -/
def connectHead (sha256 : Bytes → Octets 32) (password : String) : Io Unit := do
  writeAll (authToken sha256 password).toList
  writeAll (bigEndian16 0)

def authDigest (sha256 : Bytes → Octets 32) (password : String) : Octets 32 :=
  sha256 (asBytes password)

/-- Padding is read only when there is some. -/
def readPadding (padLen : Nat) : Io Unit :=
  if 0 < padLen then do
    let _ ← readExact padLen
  else pure ()

/-- What a server reads ahead of the frames. The token is compared when all was read. -/
def readAuth (sha256 : Bytes → Octets 32) (password : String) : Io Unit := do
  let token ← readArray 32
  let padLenB ← readExact 2
  readPadding (ofBigEndian16 (padLenB.getD 0 0) (padLenB.getD 1 0)).toNat
  rejectIf (token ≠ authDigest sha256 password) (.ofText "anytls: authentication failed")

/-- The padding is read exactly when that many octets stand in front. -/
theorem read_padding_yields_iff (padLen : Nat) (conn after : Conn) (value : Unit) :
    (readPadding padLen).run conn = .ok value after ↔
      ∃ pad : Bytes, pad.length = padLen ∧ conn.incoming = pad ++ after.incoming ∧
        after.written = conn.written := by
  unfold readPadding
  split
  · simp only [bind_yields_iff, read_exact_yields_iff, pure_yields_iff, true_and]
    constructor
    · rintro ⟨pad, reached, read, rfl⟩
      exact ⟨pad, read⟩
    · rintro ⟨pad, read⟩
      exact ⟨pad, after, read, rfl⟩
  · rw [pure_yields_iff]
    obtain rfl : padLen = 0 := by omega
    constructor
    · rintro ⟨-, rfl⟩
      exact ⟨[], rfl, rfl, rfl⟩
    · rintro ⟨pad, size, there, quiet⟩
      obtain rfl := List.eq_nil_of_length_eq_zero size
      obtain ⟨incoming, written⟩ := conn
      obtain ⟨left, total⟩ := after
      obtain rfl : incoming = left := there
      obtain rfl : total = written := quiet
      exact ⟨rfl, rfl⟩

/-- A server lets in exactly the token of its password with padding of the length that is
written, and leaves what follows. -/
theorem read_auth_yields_iff (sha256 : Bytes → Octets 32) (password : String)
    (conn after : Conn) (value : Unit) :
    (readAuth sha256 password).run conn = .ok value after ↔
      ∃ (high low : UInt8) (pad : Bytes), pad.length = (ofBigEndian16 high low).toNat ∧
        conn.incoming = (authDigest sha256 password).toList ++
          (high :: low :: (pad ++ after.incoming)) ∧ after.written = conn.written := by
  simp only [readAuth, bind_yields_iff, read_array_yields_iff, read_exact_yields_iff,
    read_padding_yields_iff, reject_if_yields_iff, not_not]
  constructor
  · rintro ⟨token, reached, ⟨front, same⟩, field, beyond, ⟨two, length, still⟩, -, last,
      ⟨pad, size, padding, quiet⟩, rfl, rfl⟩
    obtain ⟨high, low, rfl⟩ := List.length_eq_two.mp two
    refine ⟨high, low, pad, size, ?_, quiet.trans (still.trans same)⟩
    rw [front, length, padding]
    rfl
  · rintro ⟨high, low, pad, size, there, quiet⟩
    refine ⟨authDigest sha256 password, ⟨high :: low :: (pad ++ after.incoming), conn.written⟩,
      ⟨there, rfl⟩, [high, low], ⟨pad ++ after.incoming, conn.written⟩, ⟨rfl, rfl, rfl⟩, (),
      after, ⟨pad, size, rfl, quiet⟩, rfl, rfl⟩

/-- The head of a client with the same password is let in. -/
theorem head_accepted (sha256 : Bytes → Octets 32) (password : String) :
    ∃ head, (connectHead sha256 password).run ⟨[], []⟩ = .ok () ⟨[], head⟩ ∧
      ∀ rest written, (readAuth sha256 password).run ⟨head ++ rest, written⟩ =
        .ok () ⟨rest, written⟩ := by
  refine ⟨(authToken sha256 password).toList ++ bigEndian16 0, rfl, fun rest written => ?_⟩
  rw [read_auth_yields_iff]
  refine ⟨0, 0, [], rfl, ?_, rfl⟩
  rw [List.append_assoc]
  rfl

end Authentication

section Runs

/-- Every run of a link. -/
def linkRun (events : List LinkEvent) : Link := run Link.step .start events

/-- No step takes a stream away. -/
theorem streams_grow (session : Session) (event : Event) :
    session.streams.length ≤ (AnytlsRegistry.step session event).streams.length := by
  cases event with
  | received octets =>
    obtain ⟨buf, same⟩ | ⟨-, -, result, same⟩ := received_cases session octets <;>
      simp only [AnytlsRegistry.step, same, Nat.le_refl]
  | loop =>
    simp only [AnytlsRegistry.step, Session.readLoop]
    split
    · next index msg _ =>
      rcases deliver_cases session index msg with same | ⟨-, same⟩ | same <;> rw [same]
      simp [Session.change]
    · next frame consumed _ _ =>
      generalize handles : Session.handleFrame _ frame = after
      have outcome := handles ▸
        frame_handled { session with buf := session.buf.drop consumed } frame
      cases outcome <;> simp [Session.register]
    · exact Nat.le_refl _
  | beginOpen target =>
    simp only [AnytlsRegistry.step, Session.beginOpen]
    split <;> simp [Session.register]
  | _ => exact (step_aside session _ rfl).length.ge

/-- A step of one party leaves a side as it is or makes one step on it. -/
theorem act_steps (link : Link) (party other : Party) (event : Event) :
    (link.act other event).side party = link.side party ∨
      ∃ inner, (link.act other event).side party = (link.side party).step inner := by
  by_cases same : party = other
  · subst same
    exact .inr ⟨event, act_side ..⟩
  · exact .inl (act_other link event same)

/-- A step of a link is a step of a side or leaves it as it is. -/
theorem side_steps (link : Link) (event : LinkEvent) (party : Party) :
    (link.step event).side party = link.side party ∨
      ∃ inner, (link.step event).side party = (link.side party).step inner := by
  cases event with
  | acts other inner =>
    simp only [Link.step]
    split
    · exact act_steps link party other inner
    · exact .inl rfl
  | sends other =>
    simp only [Link.step]
    split
    · exact .inl rfl
    · split
      · exact act_steps link party other _
      · exact .inl rfl
  | breaks other count =>
    simp only [Link.step]
    split
    · exact .inl rfl
    · split
      · exact act_steps link party other _
      · exact .inl rfl
  | arrives other count =>
    simp only [Link.step]
    split
    · exact act_steps link party other _
    · exact .inl rfl
  | ends other error =>
    simp only [Link.step]
    split
    · exact act_steps link party other _
    · exact .inl rfl

/-- A link is joined after every run in which the client's numbers last. -/
theorem run_joined (events : List LinkEvent) (proper : ∀ event ∈ events, LinkEvent.Proper event)
    (few : ((linkRun events).side .client).session.streams.length < 2 ^ 32) :
    Joined (linkRun events) := by
  induction events using List.reverseRecOn with
  | nil => exact start_joined
  | append_singleton events event inductionHypothesis =>
    rw [linkRun, run_snoc] at few ⊢
    change ((Link.step (linkRun events) event).side .client).session.streams.length < 2 ^ 32
      at few
    have fewer : ((linkRun events).side .client).session.streams.length < 2 ^ 32 := by
      rcases side_steps (linkRun events) event .client with same | ⟨inner, same⟩
      · rwa [same] at few
      · rw [same] at few
        exact Nat.lt_of_le_of_lt (streams_grow _ inner) few
    have joined := inductionHypothesis
      (fun other member => proper other (List.mem_append_left _ member)) fewer
    apply step_joined joined event (proper event (by simp))
    rintro target rfl opened
    have free : ((linkRun events).side .client).session.handle ∧
        ((linkRun events).side .client).session.opener.isNone := by
      by_contra busy
      exact opened (if_neg busy)
    have steps : AnytlsRegistry.step ((linkRun events).side .client).session
        (.beginOpen target) = _ := if_pos free
    rw [acts_step _ _ rfl, act_side, step_session, steps] at few
    simpa [Session.register] using few

/-- What a link has kept of its promises. Every reader has got a front of what was accepted for
its number on the other side. A stream that a client returns has its address in front. Numbers
are not repeated, a loop goes on until its connection is cut, and what was accepted can still
be read unless a write failed, the connection was cut or a call still opens a stream. -/
structure Relays (link : Link) : Prop where
  conveyed : ∀ party : Party, Conveyed (link.side party) (link.side party.peer)
  addressed : ∀ index, (link.side .client).accepted index ≠ [] → ∃ target chunks,
    (link.side .client).target index = some target ∧
      (link.side .client).accepted index = addressOf target :: chunks
  returned : ∀ index, (link.side .client).session.ownedStream index ≠ none →
    (link.side .client).accepted index ≠ []
  distinct : ∀ (party : Party) (index other : Nat) (entry found : LocalStream),
    (link.side party).session.streams[index]? = some entry →
    (link.side party).session.streams[other]? = some found →
    entry.stream.sid = found.stream.sid → index = other
  running : ∀ party : Party, (link.side party).cut = false →
    (link.side party).session.result = none
  completes : ∀ party : Party, (link.side party).session.writing = true →
    (link.side party.peer).cut = false → (link.side party.peer).session.opener = none →
    ∀ (index : Nat) (opened : LocalStream),
      (link.side party).session.streams[index]? = some opened →
      (link.side party).accepted index ≠ [] →
      Leads Link.step (Internal party) (fun other =>
        Delivered (other.side party.peer) opened.stream.sid
          ((link.side party).accepted index).flatten opened.finQueued) link

/-- The invariant of the link gives its promises. -/
theorem Joined.relays {link : Link} (joined : Joined link) : Relays link where
  conveyed := joined.conveyed
  addressed := by
    intro index something
    have inside : index < (link.side .client).session.streams.length := by
      by_contra past
      exact something ((joined.offers .client).beyond index (Nat.not_lt.mp past))
    obtain ⟨target, known, first⟩ := (((joined.offers .client).offer index _
      (List.getElem?_eq_getElem inside)).addressed joined.client.isServer).resolve_left something
    refine ⟨target, ((link.side .client).accepted index).tail, known, ?_⟩
    cases accepted : (link.side .client).accepted index with
    | nil => exact absurd accepted something
    | cons chunk chunks =>
      rw [accepted] at first
      rw [Option.some.inj first]
      rfl
  returned := by
    intro index owned
    obtain ⟨-, entry, there, -⟩ := (owned_iff _ _).mp owned
    exact ((joined.offers .client).offer index entry there).ready joined.client.isServer owned
  distinct party := (joined.offers party).distinct
  running := by
    intro party uncut
    cases result : (link.side party).session.result with
    | none => rfl
    | some value =>
      have cut := (joined.takes party).uncut (by simp [result])
      simp [uncut] at cut
  completes := fun party writing uncut unopened index opened known something =>
    joined.completes writing uncut unopened known something

/-- A server with the password of a client lets it in, and then every run of their link relays
the streams, as long as the client has numbers for them. -/
theorem anytls_link_relays (sha256 : Bytes → Octets 32) (password : String)
    (events : List LinkEvent) (proper : ∀ event ∈ events, LinkEvent.Proper event)
    (few : ((linkRun events).side .client).session.streams.length < 2 ^ 32) :
    (∃ head, (connectHead sha256 password).run ⟨[], []⟩ = .ok () ⟨[], head⟩ ∧
      ∀ rest written, (readAuth sha256 password).run ⟨head ++ rest, written⟩ =
        .ok () ⟨rest, written⟩) ∧
      Relays (linkRun events) :=
  ⟨head_accepted sha256 password, (run_joined events proper few).relays⟩

/-- A stream is opened and written to, and the server reads and answers. -/
def conversation : List LinkEvent :=
  [.acts .client (.beginOpen (.domain "a" 80)), .acts .client .acquire, .acts .client .push,
    .acts .client .acquire, .acts .client .push, .acts .client (.write 0 [7]),
    .sends .client, .sends .client, .sends .client, .sends .client, .arrives .server 16384,
    .acts .server .loop, .acts .server .loop, .acts .server .loop, .acts .server .loop,
    .acts .server .loop, .acts .server .loop, .acts .server (.read 0 512),
    .acts .server (.read 0 512), .acts .server (.write 0 [8, 9]), .acts .server (.shutdown 0),
    .sends .server, .sends .server, .arrives .client 16384, .acts .client .loop,
    .acts .client .loop, .acts .client .loop, .acts .client .loop, .acts .client (.read 0 1)]

/-- The sample conversation opens a stream, writes, and is read on the other side. -/
theorem conversation_relays :
    (∃ head, (connectHead (fun _ => zeroOctets 32) "secret").run ⟨[], []⟩ = .ok () ⟨[], head⟩ ∧
      ∀ rest written, (readAuth (fun _ => zeroOctets 32) "secret").run ⟨head ++ rest, written⟩ =
        .ok () ⟨rest, written⟩) ∧
      Relays (linkRun conversation) :=
  anytls_link_relays (fun _ => zeroOctets 32) "secret" conversation (by
    have named : (ProxyTarget.domain "a" 80).named := ⟨by decide, by decide⟩
    simp [conversation, LinkEvent.Proper, Event.Proper, named, maxPayload]) (by decide +kernel)

example : ((linkRun conversation).side .server).returned 0 = addressOf (.domain "a" 80) ++ [7] := by
  decide +kernel

example : ((linkRun conversation).side .client).returned 0 = [8] := by
  decide +kernel

end Runs

end OmniProxy.AnytlsRelay
