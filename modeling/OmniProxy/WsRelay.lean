import OmniProxy.ChunkLinks
import OmniProxy.WsStreams

/-!
# What a WebSocket connection relays

Both ends of a connection read and write through the stream of a WebSocket, and the library
carries the frames of each to the other. What an end flushes has octets, so no read of the other
ever finds an empty message: each direction is a link that carries chunks, and everything that
is known of such links holds of it.
-/

namespace OmniProxy.WsRelay

open ByteStrings ChunkLinks Connections GuardedRuns PolledReaders WsStreams

section Links

/-- An end: its stream with what it has accepted, and what it has returned to its reader. -/
structure WsSide where
  written : Written
  returned : Bytes

/-- A connection. For each end: the frames that it has on the wire, and whether the library of
the other end has said that they end, or that the connection broke. -/
structure WsLink where
  side : Party → WsSide
  wire : Party → List Frame
  closed : Party → Bool
  broken : Party → Bool

def WsLink.start : WsLink where
  side _ := ⟨fresh [], []⟩
  wire _ := []
  closed _ := false
  broken _ := false

inductive WsEvent where
  | calls (party : Party) (call : Call)
  | reads (party : Party) (size : Nat)
  | arrives (party : Party)
  | breaks (party : Party) (error : Option String)

/-- The stream of an end is called. The library sends nothing behind a close frame. -/
def WsLink.call (link : WsLink) (party : Party) (call : Call) : WsLink :=
  let written := (link.side party).written
  let after := written.step call
  { link with
    side := Function.update link.side party { link.side party with written := after }
    wire :=
      if .close ∈ written.stream.outgoing then link.wire
      else
        Function.update link.wire party
          (link.wire party ++ after.stream.outgoing.drop written.stream.outgoing.length) }

def WsLink.read (link : WsLink) (party : Party) (size : Nat) : WsLink :=
  let written := (link.side party).written
  let (completion, stream) := written.stream.pollRead size
  { link with
    side := Function.update link.side party
      ⟨{ written with stream }, (link.side party).returned ++ given completion⟩ }

/-- The library of an end has one more answer. -/
def WsLink.deliver (link : WsLink) (party : Party) (answer : Answer String Message) : WsLink :=
  let written := (link.side party).written
  { link with
    side := Function.update link.side party
      { link.side party with
        written := { written with
          stream := { written.stream with incoming := written.stream.incoming ++ [answer] } } } }

/-- The next frame of an end arrives at the other. -/
def WsLink.arrive (link : WsLink) (party : Party) : WsLink :=
  if link.closed party then link.deliver party.peer (.ready none)
  else
    match link.wire party with
    | .binary data :: wire =>
        { link.deliver party.peer (.ready (some (.ok (.binary data)))) with
          wire := Function.update link.wire party wire }
    | .close :: wire =>
        { link.deliver party.peer (.ready (some (.ok .close))) with
          wire := Function.update link.wire party wire
          closed := Function.update link.closed party true }
    | [] => link

/-- The library of the other end finds the connection of an end broken. -/
def WsLink.breaks (link : WsLink) (party : Party) (error : Option String) : WsLink :=
  let answer : Answer String Message :=
    match error with
    | some error => .ready (some (.error error))
    | none => .ready none
  { link.deliver party.peer answer with
    closed := Function.update link.closed party true
    broken := Function.update link.broken party true }

def WsLink.step (link : WsLink) : WsEvent → WsLink
  | .calls party call => link.call party call
  | .reads party size => link.read party size
  | .arrives party => link.arrive party
  | .breaks party error => link.breaks party error

end Links

section Views

/-- The payloads of the binary frames in front of the close frame. -/
def chunksOf : List Frame → List Bytes
  | .binary data :: frames => data :: chunksOf frames
  | _ => []

/-- The chunks of frames join to the payloads in front of the close frame. -/
theorem chunks_flatten (frames : List Frame) :
    (chunksOf frames).flatten = sentBeforeClose frames := by
  induction frames with
  | nil => rfl
  | cons frame frames inductionHypothesis =>
    cases frame with
    | close => rfl
    | binary data => rw [chunksOf, List.flatten_cons, sentBeforeClose, inductionHypothesis]

/-- Without a close frame the chunks of further frames come behind. -/
theorem chunks_open {frames : List Frame} (running : .close ∉ frames) (more : List Frame) :
    chunksOf (frames ++ more) = chunksOf frames ++ chunksOf more := by
  induction frames with
  | nil => rfl
  | cons frame frames inductionHypothesis =>
    cases frame with
    | close => exact absurd (.head _) running
    | binary data =>
      rw [List.cons_append, chunksOf, chunksOf,
        inductionHypothesis fun later => running (.tail _ later), List.cons_append]

/-- Behind a close frame no chunks come. -/
theorem chunks_closed {frames : List Frame} (closed : .close ∈ frames) (more : List Frame) :
    chunksOf (frames ++ more) = chunksOf frames := by
  induction frames with
  | nil => simp at closed
  | cons frame frames inductionHypothesis =>
    cases frame with
    | close => rfl
    | binary data =>
      have later : .close ∈ frames := by simpa using closed
      rw [List.cons_append, chunksOf, chunksOf, inductionHypothesis later]

/-- The direction from an end to the other, as a link that carries chunks. -/
def WsLink.direction (link : WsLink) (party : Party) : ChunkLink IoError where
  sent := chunksOf (link.side party).written.stream.outgoing
  finished := decide (.close ∈ (link.side party).written.stream.outgoing)
  wire := chunksOf (link.wire party)
  closed := link.closed party
  broken := link.broken party
  reader := readerOf (link.side party.peer).written.stream
  returned := (link.side party.peer).returned

/-- The wire of an end ends with its close frame, which is there until it has arrived. -/
structure Tidy (wire outgoing : List Frame) (closed : Bool) : Prop where
  last : ∀ before after, wire = before ++ .close :: after → after = [] ∧ .close ∈ outgoing
  there : .close ∈ outgoing → closed = false → .close ∈ wire

def WsLink.Tidied (link : WsLink) (party : Party) : Prop :=
  Tidy (link.wire party) (link.side party).written.stream.outgoing (link.closed party)

/-- What a call adds to the frames of a stream: at most a message with octets or a close frame. -/
theorem call_frames (written : Written) (call : Call) :
    ∃ frames, (written.step call).stream.outgoing = written.stream.outgoing ++ frames ∧
      (frames = [] ∨ (∃ data, data ≠ [] ∧ frames = [.binary data]) ∨ frames = [.close]) := by
  have none_added : ∃ frames, written.stream.outgoing = written.stream.outgoing ++ frames ∧
      (frames = [] ∨ (∃ data, data ≠ [] ∧ frames = [.binary data]) ∨ frames = [.close]) :=
    ⟨[], (List.append_nil _).symm, .inl rfl⟩
  cases call with
  | pollWrite buf => exact none_added
  | pollFlush sink =>
    simp only [Written.step, WsProxyStream.pollFlush]
    split
    · next nonempty =>
      split
      · split
        · exact ⟨_, rfl, .inr (.inl ⟨_, nonempty, rfl⟩)⟩
        · exact none_added
      · exact none_added
      · exact none_added
    · exact none_added
  | pollShutdown pollClose =>
    simp only [Written.step, WsProxyStream.pollShutdown]
    split
    · exact none_added
    · exact ⟨_, rfl, .inr (.inr rfl)⟩

/-- A call leaves what is read. -/
theorem call_reader (written : Written) (call : Call) :
    readerOf (written.step call).stream = readerOf written.stream := by
  cases call with
  | pollWrite buf => rfl
  | pollFlush sink =>
    simp only [Written.step, WsProxyStream.pollFlush]
    repeat' split
    all_goals rfl
  | pollShutdown pollClose => rfl

/-- A read leaves what is written. -/
theorem read_writer (stream : WsProxyStream) (size : Nat) :
    (stream.pollRead size).2.outgoing = stream.outgoing ∧
      (stream.pollRead size).2.writeBuf = stream.writeBuf := by
  unfold WsProxyStream.pollRead
  split
  · generalize pollNext stream.incoming = next
    obtain ⟨answer, incoming⟩ := next
    repeat' split
    all_goals exact ⟨rfl, rfl⟩
  · exact ⟨rfl, rfl⟩

end Views

section Following

variable {link : WsLink}

/-- As long as no close frame was sent, none is on the wire. -/
theorem Tidy.running {wire outgoing : List Frame} {closed : Bool} (tidy : Tidy wire outgoing closed)
    (running : .close ∉ outgoing) : .close ∉ wire := by
  intro member
  obtain ⟨before, after, split⟩ := List.append_of_mem member
  exact running (tidy.last before after split).2

/-- A close frame has no chunk. -/
theorem chunks_close (frames : List Frame) : chunksOf (frames ++ [.close]) = chunksOf frames := by
  by_cases closed : .close ∈ frames
  · exact chunks_closed closed _
  · rw [chunks_open closed]
    exact List.append_nil _

/-- A call of the sending end sends a chunk or finishes. -/
theorem call_own {party : Party} (tidy : link.Tidied party) (call : Call) :
    Proceeds false .plain (link.direction party) ((link.call party call).direction party) := by
  obtain ⟨frames, outgoing, kinds⟩ := call_frames (link.side party).written call
  have apart := peer_apart party
  by_cases closed : .close ∈ (link.side party).written.stream.outgoing
  · left
    simp only [WsLink.direction, WsLink.call, Function.update_self, Function.update_of_ne apart,
      outgoing, chunks_closed closed, closed, List.mem_append, true_or, if_true]
  · rcases kinds with rfl | ⟨data, nonempty, rfl⟩ | rfl
    · left
      simp only [WsLink.direction, WsLink.call, Function.update_self, Function.update_of_ne apart,
        outgoing, List.append_nil, if_neg closed, List.drop_length]
    · refine .inr ⟨.send data, nonempty, ?_⟩
      have onWire : chunksOf (link.wire party ++ [.binary data]) =
          chunksOf (link.wire party) ++ [data] := chunks_open (tidy.running closed) _
      simp only [WsLink.direction, WsLink.call, Function.update_self, Function.update_of_ne apart,
        outgoing, if_neg closed, List.drop_left, chunks_open closed, onWire, ChunkLink.step]
      simp [closed, chunksOf]
    · refine .inr ⟨.finish, trivial, ?_⟩
      simp only [WsLink.direction, WsLink.call, Function.update_self, Function.update_of_ne apart,
        outgoing, if_neg closed, List.drop_left, chunks_close, ChunkLink.step]
      simp

/-- A call of the receiving end changes nothing. -/
theorem call_other (link : WsLink) (party : Party) (call : Call) :
    (link.call party.peer call).direction party = link.direction party := by
  have apart := (peer_apart party).symm
  simp only [WsLink.direction, WsLink.call, Function.update_self, Function.update_of_ne apart,
    call_reader]
  split
  · rfl
  · rw [Function.update_of_ne apart]

/-- A read of the receiving end is one of the chunk link. -/
theorem read_own (link : WsLink) (party : Party) (size : Nat) :
    (link.read party.peer size).direction party =
      (link.direction party).step false .plain (.read size) := by
  have apart := (peer_apart party).symm
  simp only [WsLink.direction, WsLink.read, Function.update_self, Function.update_of_ne apart,
    ChunkLink.step, ChunkLink.read, reads_as_reader size]

/-- A read by the sender itself is not in this direction. -/
theorem read_other (link : WsLink) (party : Party) (size : Nat) :
    (link.read party size).direction party = link.direction party := by
  have apart := peer_apart party
  simp only [WsLink.direction, WsLink.read, Function.update_self, Function.update_of_ne apart,
    (read_writer _ size).1]

/-- What is delivered to the receiving end is an answer of the chunk link. -/
theorem deliver_own (link : WsLink) (party : Party) (answer : Answer String Message) :
    (link.deliver party.peer answer).direction party =
      (link.direction party).answer (WsStreams.chunkOf answer) := by
  have apart := (peer_apart party).symm
  simp only [WsLink.direction, WsLink.deliver, Function.update_self, Function.update_of_ne apart,
    ChunkLink.answer, readerOf, List.map_append, List.map_cons, List.map_nil]

/-- What arrives of the sending end arrives on the chunk link. -/
theorem arrive_own {party : Party} (tidy : link.Tidied party) :
    (link.arrive party).direction party = (link.direction party).step false .plain .arrive := by
  have apart := (peer_apart party).symm
  simp only [WsLink.arrive, ChunkLink.step, ChunkLink.arrive, Ending.answer]
  by_cases closed : link.closed party = true
  · rw [if_pos closed, if_pos (by exact closed)]
    exact deliver_own link party _
  · rw [if_neg closed, if_neg (by exact closed)]
    cases onWire : link.wire party with
    | nil =>
      have running : .close ∉ (link.side party).written.stream.outgoing := by
        intro sent
        have there := tidy.there sent (by simpa using closed)
        simp [onWire] at there
      simp [WsLink.direction, onWire, chunksOf, running]
    | cons frame wire =>
      cases frame with
      | binary data =>
        simp [WsLink.direction, WsLink.deliver, Function.update_of_ne apart, ChunkLink.answer,
          readerOf, onWire, chunksOf, WsStreams.chunkOf, Message.payload]
      | close =>
        obtain ⟨rfl, sent⟩ := tidy.last [] wire onWire
        simp [WsLink.direction, WsLink.deliver, Function.update_of_ne apart, ChunkLink.answer,
          readerOf, onWire, chunksOf, WsStreams.chunkOf, sent]

/-- What arrives of the receiving end changes nothing. -/
theorem arrive_other (link : WsLink) (party : Party) :
    (link.arrive party.peer).direction party = link.direction party := by
  have apart := peer_apart party
  unfold WsLink.arrive
  rw [peer_peer]
  repeat' split
  all_goals
    simp [WsLink.direction, WsLink.deliver, Function.update_of_ne apart,
      Function.update_of_ne apart.symm]

/-- A failure of the direction breaks it. -/
theorem breaks_own (link : WsLink) (party : Party) (error : Option String) :
    (link.breaks party error).direction party =
      (link.direction party).step false .plain (.breaks (error.map wsErr)) := by
  have apart := (peer_apart party).symm
  cases error <;>
    simp [WsLink.breaks, WsLink.direction, WsLink.deliver, Function.update_of_ne apart,
      ChunkLink.step, ChunkLink.breaks, ChunkLink.answer, readerOf, WsStreams.chunkOf]

/-- A failure of the other direction does not break it. -/
theorem breaks_other (link : WsLink) (party : Party) (error : Option String) :
    (link.breaks party.peer error).direction party = link.direction party := by
  have apart := peer_apart party
  simp [WsLink.breaks, WsLink.direction, WsLink.deliver, Function.update_of_ne apart,
    Function.update_of_ne apart.symm]

/-- Every event is one of the direction or leaves it as it is. -/
theorem step_proceeds {party : Party} (tidy : link.Tidied party) (event : WsEvent) :
    Proceeds false .plain (link.direction party) ((link.step event).direction party) := by
  cases event with
  | calls other call =>
    rcases party_cases party other with rfl | rfl
    · exact call_own tidy call
    · exact .inl (call_other link party call)
  | reads other size =>
    rcases party_cases party other with rfl | rfl
    · exact .inl (read_other link other size)
    · exact .inr ⟨.read size, trivial, read_own link party size⟩
  | arrives other =>
    rcases party_cases party other with rfl | rfl
    · exact .inr ⟨.arrive, trivial, arrive_own tidy⟩
    · exact .inl (arrive_other link party)
  | breaks other error =>
    rcases party_cases party other with rfl | rfl
    · exact .inr ⟨.breaks (error.map wsErr), trivial, breaks_own link other error⟩
    · exact .inl (breaks_other link party error)

end Following

section Keeping

variable {link : WsLink} {party : Party}

/-- Taking the first frame leaves the wire tidy, if a close frame is noted when it is taken. -/
theorem Tidy.tail {frame : Frame} {wire outgoing : List Frame} {closed after : Bool}
    (tidy : Tidy (frame :: wire) outgoing closed)
    (gone : .close ∈ outgoing → after = false → frame ≠ .close ∧ closed = false) :
    Tidy wire outgoing after where
  last before later split := tidy.last (frame :: before) later (by rw [split]; rfl)
  there sent running := by
    obtain ⟨other, before⟩ := gone sent running
    rcases List.mem_cons.mp (tidy.there sent before) with same | later
    · exact absurd same.symm other
    · exact later

/-- What a call puts on the wire comes behind what is there. -/
theorem Tidy.more {wire outgoing frames : List Frame} {closed : Bool}
    (tidy : Tidy wire outgoing closed) (running : .close ∉ outgoing)
    (kinds : frames = [] ∨ (∃ data, data ≠ [] ∧ frames = [.binary data]) ∨ frames = [.close]) :
    Tidy (wire ++ frames) (outgoing ++ frames) closed where
  last before after split := by
    have none_before := tidy.running running
    rcases kinds with rfl | ⟨data, -, rfl⟩ | rfl
    · rw [List.append_nil] at split
      exact absurd (by rw [split]; simp) none_before
    · have member : Frame.close ∈ wire ++ [.binary data] := by rw [split]; simp
      exact absurd (by simpa using member) none_before
    · rcases List.eq_nil_or_concat after with rfl | ⟨after, last, rfl⟩
      · simp
      · have longer : wire ++ [.close] = (before ++ .close :: after) ++ [last] := by
          simpa using split
        obtain ⟨same, -⟩ := List.append_inj' longer rfl
        exact absurd (by rw [same]; simp) none_before
  there sent _ := by
    rcases List.mem_append.mp sent with before | new
    · exact absurd before running
    · exact List.mem_append_right _ new

/-- A call behind the close frame puts nothing on the wire. -/
theorem Tidy.after {wire outgoing : List Frame} {closed : Bool} (tidy : Tidy wire outgoing closed)
    (sent : .close ∈ outgoing) (frames : List Frame) : Tidy wire (outgoing ++ frames) closed where
  last before after split := ⟨(tidy.last before after split).1, List.mem_append_left _ sent⟩
  there _ := tidy.there sent

/-- A call of an end keeps its wire tidy. -/
theorem call_tidied (tidy : link.Tidied party) (call : Call) :
    (link.call party call).Tidied party := by
  obtain ⟨frames, outgoing, kinds⟩ := call_frames (link.side party).written call
  unfold WsLink.Tidied WsLink.call
  simp only [Function.update_self, outgoing, List.drop_left]
  split
  · next sent => exact tidy.after sent frames
  · next running =>
    rw [Function.update_self]
    exact tidy.more running kinds

/-- An arrival keeps the wire tidy. -/
theorem arrive_tidied (tidy : link.Tidied party) : (link.arrive party).Tidied party := by
  have apart := (peer_apart party).symm
  unfold WsLink.arrive
  split
  · simpa only [WsLink.Tidied, WsLink.deliver, Function.update_of_ne apart] using tidy
  · next running =>
    split
    · next data wire onWire =>
      rw [WsLink.Tidied, onWire] at tidy
      simp only [WsLink.Tidied, WsLink.deliver, Function.update_of_ne apart, Function.update_self]
      exact tidy.tail fun _ _ => ⟨by simp, by simpa using running⟩
    · next wire onWire =>
      rw [WsLink.Tidied, onWire] at tidy
      simp only [WsLink.Tidied, WsLink.deliver, Function.update_of_ne apart, Function.update_self]
      exact tidy.tail fun _ open_ => absurd open_ (by simp)
    · exact tidy

/-- What arrives of an end leaves what the other sends. -/
theorem arrive_elsewhere (link : WsLink) (party : Party) :
    (link.arrive party.peer).wire party = link.wire party ∧
      ((link.arrive party.peer).side party).written.stream.outgoing =
        (link.side party).written.stream.outgoing ∧
      (link.arrive party.peer).closed party = link.closed party := by
  have apart := (peer_apart party).symm
  unfold WsLink.arrive
  rw [peer_peer]
  repeat' split
  all_goals simp [WsLink.deliver, Function.update_of_ne apart]

/-- Every event keeps the wire tidy. -/
theorem step_tidied (tidy : link.Tidied party) (event : WsEvent) :
    (link.step event).Tidied party := by
  have apart := peer_apart party
  cases event with
  | calls other call =>
    rcases party_cases party other with rfl | rfl
    · exact call_tidied tidy call
    · unfold WsLink.Tidied WsLink.step WsLink.call
      simp only [Function.update_of_ne apart.symm]
      split
      · exact tidy
      · rw [Function.update_of_ne apart.symm]
        exact tidy
  | reads other size =>
    rcases party_cases party other with rfl | rfl
    · simp only [WsLink.Tidied, WsLink.step, WsLink.read, Function.update_self,
        (read_writer _ size).1]
      exact tidy
    · simp only [WsLink.Tidied, WsLink.step, WsLink.read, Function.update_of_ne apart.symm]
      exact tidy
  | arrives other =>
    rcases party_cases party other with rfl | rfl
    · exact arrive_tidied tidy
    · obtain ⟨onWire, outgoing, closed⟩ := arrive_elsewhere link party
      rw [WsLink.Tidied, WsLink.step, onWire, outgoing, closed]
      exact tidy
  | breaks other error =>
    rcases party_cases party other with rfl | rfl
    · simp only [WsLink.Tidied, WsLink.step, WsLink.breaks, WsLink.deliver, Function.update_self,
        Function.update_of_ne apart.symm]
      exact ⟨tidy.last, fun _ open_ => absurd open_ (by simp)⟩
    · simpa [WsLink.Tidied, WsLink.step, WsLink.breaks, WsLink.deliver,
        Function.update_of_ne apart.symm] using tidy

/-- What holds of a direction in every run. -/
structure Joined (link : WsLink) (party : Party) : Prop where
  tidied : link.Tidied party
  kept : Kept (link.direction party)

/-- A fresh link keeps the invariant. -/
theorem start_joined (party : Party) : Joined .start party where
  tidied :=
    { last := fun before after split => by simp [WsLink.start] at split
      there := fun sent _ => by simp [WsLink.start, fresh] at sent }
  kept := start_kept

/-- Every event keeps the invariant of a direction. -/
theorem step_joined (joined : Joined link party) (event : WsEvent) :
    Joined (link.step event) party where
  tidied := step_tidied joined.tidied event
  kept := (step_proceeds joined.tidied event).kept joined.kept

/-- Both directions keep the invariant in every run. -/
theorem run_joined (events : List WsEvent) (party : Party) :
    Joined (run WsLink.step .start events) party :=
  @run_kept _ _ WsLink.step .start (fun link => Joined link party) (start_joined party)
    (fun _ event joined => step_joined joined event) events

end Keeping

section Relaying

/-- An event loses nothing of what an end has accepted: it is no call of that end, or one that
loses nothing. -/
def Careful (party : Party) (link : WsLink) : WsEvent → Prop
  | .calls other call => other = party → LosesNothing (link.side party).written call
  | _ => True

/-- The library takes a message and has sent it. -/
def sinkReady : SinkAnswers := ⟨.ready (.ok ()), .ok (), .ready (.ok ())⟩

/-- The events that carry octets on from an end to the other. -/
inductive Onward (party : Party) : WsEvent → Prop where
  | flush : Onward party (.calls party (.pollFlush sinkReady))
  | arrive : Onward party (.arrives party)
  | read : Onward party (.reads party.peer 1)

variable {link : WsLink} {party : Party}

def WsLink.accepted (link : WsLink) (party : Party) : Bytes := (link.side party).written.accepted

/-- What leads the direction somewhere leads the connection there. -/
theorem onward_lift (joined : Joined link party) {Good : ChunkLink IoError → Prop}
    (leads : Leads (ChunkLink.step false .plain) ChunkLinks.LinkEvent.Internal Good
      (link.direction party)) :
    Leads WsLink.step (Onward party) (fun other => Good (other.direction party)) link := by
  refine @leads_lift _ _ (ChunkLink.step false .plain) _ _ WsLink.step
    (fun other => other.direction party) (fun other => Joined other party) _ _
    (fun other event sound internal => .inr ?_) Good _ joined leads
  cases internal with
  | arrive => exact ⟨.arrives party, .arrive, step_joined sound _, arrive_own sound.tidied⟩
  | read => exact ⟨.reads party.peer 1, .read, step_joined sound _, read_own other party 1⟩

/-- What a connection relays from an end to the other after a run. -/
structure Relays (events : List WsEvent) (party : Party) (link : WsLink) : Prop where
  conveys : Conveys false .plain (link.direction party)
  front : EachStep WsLink.step .start (Careful party) events →
    (link.side party.peer).returned <+: link.accepted party
  ends : EachStep WsLink.step .start (Careful party) events → ∀ size, 0 < size →
    ((link.side party.peer).written.stream.pollRead size).1 = .ready (.ok []) →
    link.broken party = true ∨
      .close ∈ (link.side party).written.stream.outgoing ∧
        (link.side party.peer).returned = link.accepted party
  completes : EachStep WsLink.step .start (Careful party) events → link.broken party = false →
    Leads WsLink.step (Onward party)
      (fun other => (other.side party.peer).returned = link.accepted party) link

example :
    ((run WsLink.step .start
      [.calls .client (.pollWrite [104, 105]), .calls .client (.pollFlush sinkReady),
        .arrives .client, .reads .server 1, .reads .server 4]).side .server).returned =
      [104, 105] := by
  decide

end Relaying

end OmniProxy.WsRelay
