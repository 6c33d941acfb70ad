import OmniProxy.ChunkLinks
import OmniProxy.H2Streams

/-!
# What the stream of an HTTP/2 body relays

Both ends of a stream write data frames as far as the window goes, and the library carries them
to the other end and cuts those that are longer than it may send. A write accepts what it has
sent, so nothing waits for a flush; a shutdown sends an empty frame that ends the body. Each
direction is a link that carries chunks, and its end comes as an empty one. A reader gives the
window of a chunk back when it takes the chunk, so all that is neither on the wire nor waiting
for the reader can be sent again.
-/

namespace OmniProxy.H2Relay

open ByteStrings ChunkLinks Connections GuardedRuns H2Streams PolledReaders

section Writing

/-- The body that is sent: the data frames, and whether one has ended it. -/
structure SendStream where
  chunks : List Bytes
  ended : Bool

/-- What the library answers to a write or a shutdown: the window for it, and whether it
refuses the frame. -/
structure SendAnswers where
  capacity : Poll (Option (Except String Nat))
  refuses : Bool
  refusal : String

/-- A data frame that does not end the body. The library refuses all frames behind the end. -/
def SendStream.sendData (answers : SendAnswers) (chunk : Bytes) (self : SendStream) :
    Except String Unit × SendStream :=
  if answers.refuses || self.ended then (.error answers.refusal, self)
  else (.ok (), { self with chunks := self.chunks ++ [chunk] })

/-- The empty data frame that ends it. -/
def SendStream.sendEnd (answers : SendAnswers) (self : SendStream) :
    Except String Unit × SendStream :=
  if answers.refuses || self.ended then (.error answers.refusal, self)
  else (.ok (), { self with ended := true })

def SendStream.pollWrite (answers : SendAnswers) (buf : Bytes) (self : SendStream) :
    Poll (Except IoError Nat) × SendStream :=
  match answers.capacity with
  | .ready (some (.ok n)) =>
      let chunk := buf.take (min n buf.length)
      match self.sendData answers chunk with
      | (.ok (), self) => (.ready (.ok (min n buf.length)), self)
      | (.error e, self) => (.ready (.error (ioerr e)), self)
  | .ready (some (.error e)) => (.ready (.error (ioerr e)), self)
  | .ready none => (.ready (.error (ioerr "capacity closed")), self)
  | .pending => (.pending, self)

def SendStream.pollFlush (self : SendStream) : Poll (Except IoError Unit) × SendStream :=
  (.ready (.ok ()), self)

/-- The answer of the library is ignored. -/
def SendStream.pollShutdown (answers : SendAnswers) (self : SendStream) :
    Poll (Except IoError Unit) × SendStream :=
  (.ready (.ok ()), (self.sendEnd answers).2)

/-- The octets of a buffer that a write has accepted. -/
def acceptedOf (buf : Bytes) : Poll (Except IoError Nat) → Bytes
  | .ready (.ok n) => buf.take n
  | _ => []

end Writing

section Links

/-- An end: both halves of its stream, what its writes have accepted and its reads returned. -/
structure H2Side where
  send : SendStream
  stream : H2Stream
  accepted : Bytes
  returned : Bytes

inductive Call where
  | pollWrite (buf : Bytes) (answers : SendAnswers)
  | pollFlush
  | pollShutdown (answers : SendAnswers)

def H2Side.call (self : H2Side) : Call → H2Side
  | .pollWrite buf answers =>
      let (completion, send) := self.send.pollWrite answers buf
      { self with send, accepted := self.accepted ++ acceptedOf buf completion }
  | .pollFlush => { self with send := self.send.pollFlush.2 }
  | .pollShutdown answers => { self with send := (self.send.pollShutdown answers).2 }

def H2Side.read (self : H2Side) (size : Nat) : H2Side :=
  let (completion, stream) := self.stream.pollRead size
  { self with stream, returned := self.returned ++ given completion }

/-- The body of an end has one more answer. -/
def H2Side.answered (self : H2Side) (answer : Answer String Bytes) : H2Side :=
  let recv := self.stream.recv
  { self with
    stream := { self.stream with recv := { recv with answers := recv.answers ++ [answer] } } }

/-- A stream. For each end: the data frames that it has on the wire, and whether the body at the
other end has ended, or was reset. -/
structure H2Link where
  side : Party → H2Side
  wire : Party → List Bytes
  closed : Party → Bool
  broken : Party → Bool

def H2Link.start : H2Link where
  side _ := ⟨⟨[], false⟩, .new ⟨[], 0⟩, [], []⟩
  wire _ := []
  closed _ := false
  broken _ := false

inductive H2Event where
  | calls (party : Party) (call : Call)
  | reads (party : Party) (size : Nat)
  | cuts (party : Party) (place : Nat)
  | arrives (party : Party)
  | breaks (party : Party) (error : Option String)

def H2Link.call (link : H2Link) (party : Party) (call : Call) : H2Link :=
  let side := link.side party
  let after := side.call call
  { link with
    side := Function.update link.side party after
    wire :=
      Function.update link.wire party
        (link.wire party ++ after.send.chunks.drop side.send.chunks.length) }

def H2Link.read (link : H2Link) (party : Party) (size : Nat) : H2Link :=
  { link with side := Function.update link.side party ((link.side party).read size) }

def H2Link.deliver (link : H2Link) (party : Party) (answer : Answer String Bytes) : H2Link :=
  { link with side := Function.update link.side party ((link.side party).answered answer) }

/-- The library sends the first frame of an end in two. -/
def H2Link.cuts (link : H2Link) (party : Party) (place : Nat) : H2Link :=
  { link with wire := Function.update link.wire party (cutFirst place (link.wire party)) }

/-- The next frame of an end arrives at the other. The one that ends the body is empty. -/
def H2Link.arrive (link : H2Link) (party : Party) : H2Link :=
  if link.closed party then link.deliver party.peer (.ready none)
  else
    match link.wire party with
    | chunk :: wire =>
        { link.deliver party.peer (.ready (some (.ok chunk))) with
          wire := Function.update link.wire party wire }
    | [] =>
        if (link.side party).send.ended then
          { link.deliver party.peer (.ready (some (.ok []))) with
            closed := Function.update link.closed party true }
        else link

/-- The body at the other end is reset, or ends without its last frame. -/
def H2Link.breaks (link : H2Link) (party : Party) (error : Option String) : H2Link :=
  let answer : Answer String Bytes :=
    match error with
    | some error => .ready (some (.error error))
    | none => .ready none
  { link.deliver party.peer answer with
    closed := Function.update link.closed party true
    broken := Function.update link.broken party true }

def H2Link.step (link : H2Link) : H2Event → H2Link
  | .calls party call => link.call party call
  | .reads party size => link.read party size
  | .cuts party place => link.cuts party place
  | .arrives party => link.arrive party
  | .breaks party error => link.breaks party error

/-- A write has octets, and the window that it is given is not empty. -/
def Call.Proper : Call → Prop
  | .pollWrite buf answers => buf ≠ [] ∧ answers.capacity ≠ .ready (some (.ok 0))
  | _ => True

def H2Event.Proper : H2Event → Prop
  | .calls _ call => call.Proper
  | _ => True

end Links

section Directions

/-- The direction from an end to the other, as a link that carries chunks. -/
def H2Link.direction (link : H2Link) (party : Party) : ChunkLink IoError where
  sent := (link.side party).send.chunks
  finished := (link.side party).send.ended
  wire := link.wire party
  closed := link.closed party
  broken := link.broken party
  reader := readerOf (link.side party.peer).stream
  returned := (link.side party.peer).returned

/-- What a call sends: nothing, a data frame with what it has accepted, or the end. -/
inductive Sends (side : H2Side) : H2Side → Prop where
  | nothing : Sends side side
  | chunk (chunk : Bytes) (running : side.send.ended = false) (nonempty : chunk ≠ []) :
      Sends side { side with
        send := { side.send with chunks := side.send.chunks ++ [chunk] }
        accepted := side.accepted ++ chunk }
  | ends (running : side.send.ended = false) :
      Sends side { side with send := { side.send with ended := true } }

/-- Accepting nothing leaves the account as it is. -/
theorem accepted_nothing {side : H2Side} {buf : Bytes} {completion : Poll (Except IoError Nat)}
    (empty : acceptedOf buf completion = []) :
    { side with accepted := side.accepted ++ acceptedOf buf completion } = side := by
  rw [empty, List.append_nil]

/-- A write with an open window sends a data frame with what it accepts, or nothing. -/
theorem write_sends (side : H2Side) {buf : Bytes} {answers : SendAnswers} (nonempty : buf ≠ [])
    (window : answers.capacity ≠ .ready (.some (.ok 0))) :
    Sends side (side.call (.pollWrite buf answers)) := by
  have idle {completion : Poll (Except IoError Nat)} (empty : acceptedOf buf completion = []) :
      Sends side { side with accepted := side.accepted ++ acceptedOf buf completion } := by
    rw [accepted_nothing empty]
    exact .nothing
  obtain ⟨capacity, refuses, refusal⟩ := answers
  rcases capacity with (_ | (e | n)) | _
  · exact idle rfl
  · exact idle rfl
  · by_cases refused : (refuses || side.send.ended) = true
    · simp only [H2Side.call, SendStream.pollWrite, SendStream.sendData, if_pos refused]
      exact idle rfl
    · simp only [H2Side.call, SendStream.pollWrite, SendStream.sendData, if_neg refused,
        acceptedOf]
      refine .chunk _ (by simp_all) ?_
      have positive : 0 < n := Nat.pos_of_ne_zero fun zero => window (by rw [zero])
      have octets : 0 < buf.length := List.length_pos_of_ne_nil nonempty
      apply List.ne_nil_of_length_pos
      rw [List.length_take]
      omega
  · exact idle rfl

/-- Every call on an end sends nothing, a data frame or the end. -/
theorem call_sends (side : H2Side) {call : Call} (proper : call.Proper) :
    Sends side (side.call call) := by
  cases call with
  | pollWrite buf answers => exact write_sends side proper.1 proper.2
  | pollFlush => exact .nothing
  | pollShutdown answers =>
    by_cases refused : (answers.refuses || side.send.ended) = true
    · simp only [H2Side.call, SendStream.pollShutdown, SendStream.sendEnd, if_pos refused]
      exact .nothing
    · simp only [H2Side.call, SendStream.pollShutdown, SendStream.sendEnd, if_neg refused]
      exact .ends (by simp_all)

variable {link : H2Link} {party : Party}

/-- A call of the sending end sends a chunk or finishes. -/
theorem call_own (link : H2Link) (party : Party) {call : Call} (proper : call.Proper) :
    Proceeds true .blank (link.direction party) ((link.call party call).direction party) := by
  have apart := peer_apart party
  have sends := call_sends (link.side party) proper
  simp only [Proceeds, H2Link.direction, H2Link.call, Function.update_self,
    Function.update_of_ne apart]
  generalize (link.side party).call call = after at sends
  cases sends with
  | nothing =>
    left
    rw [List.drop_length, List.append_nil]
  | chunk chunk running some =>
    refine .inr ⟨.send chunk, some, ?_⟩
    simp [ChunkLink.step, running]
  | ends running =>
    refine .inr ⟨.finish, trivial, ?_⟩
    simp [ChunkLink.step]

/-- A call leaves what is read. -/
theorem call_other (link : H2Link) (party : Party) {call : Call} (proper : call.Proper) :
    (link.call party.peer call).direction party = link.direction party := by
  have apart := (peer_apart party).symm
  have sends := call_sends (link.side party.peer) proper
  simp only [H2Link.direction, H2Link.call, Function.update_self, Function.update_of_ne apart]
  generalize (link.side party.peer).call call = after at sends
  cases sends <;> rfl

/-- A read by the peer is a read in this direction. -/
theorem read_own (link : H2Link) (party : Party) (size : Nat) :
    (link.read party.peer size).direction party =
      (link.direction party).step true .blank (.read size) := by
  have apart := (peer_apart party).symm
  simp only [H2Link.direction, H2Link.read, H2Side.read, Function.update_self,
    Function.update_of_ne apart, ChunkLink.step, ChunkLink.read, reads_as_reader size]

/-- A read by the sender itself is not in this direction. -/
theorem read_other (link : H2Link) (party : Party) (size : Nat) :
    (link.read party size).direction party = link.direction party := by
  have apart := peer_apart party
  simp only [H2Link.direction, H2Link.read, H2Side.read, Function.update_self,
    Function.update_of_ne apart]

/-- A cut is one of the direction. -/
theorem cuts_own (link : H2Link) (party : Party) (place : Nat) :
    (link.cuts party place).direction party =
      (link.direction party).step true .blank (.cut place) := by
  simp only [H2Link.direction, H2Link.cuts, Function.update_self, ChunkLink.step]

/-- A cut leaves the other direction. -/
theorem cuts_other (link : H2Link) (party : Party) (place : Nat) :
    (link.cuts party.peer place).direction party = link.direction party := by
  have apart := (peer_apart party).symm
  simp only [H2Link.direction, H2Link.cuts, Function.update_of_ne apart]

/-- An arrival of what the party has sent is an arrival in this direction. -/
theorem arrive_own (link : H2Link) (party : Party) :
    (link.arrive party).direction party = (link.direction party).step true .blank .arrive := by
  have apart := (peer_apart party).symm
  have delivered (answer : Answer String Bytes) : (link.deliver party.peer answer).direction party =
      (link.direction party).answer (H2Streams.chunkOf answer) := by
    simp [H2Link.direction, H2Link.deliver, H2Side.answered, Function.update_of_ne apart,
      ChunkLink.answer, readerOf]
  simp only [H2Link.arrive, ChunkLink.step, ChunkLink.arrive, Ending.answer]
  by_cases closed : link.closed party = true
  · have shown : (link.direction party).closed = true := closed
    rw [if_pos closed, if_pos shown]
    exact delivered _
  · have shown : (link.direction party).closed ≠ true := closed
    rw [if_neg closed, if_neg shown]
    cases onWire : link.wire party with
    | nil =>
      by_cases ended : (link.side party).send.ended = true
      · simp [H2Link.direction, H2Link.deliver, H2Side.answered, Function.update_of_ne apart,
          ChunkLink.answer, readerOf, H2Streams.chunkOf, onWire, ended]
      · simp [H2Link.direction, onWire, ended]
    | cons chunk wire =>
      simp [H2Link.direction, H2Link.deliver, H2Side.answered, Function.update_of_ne apart,
        ChunkLink.answer, readerOf, H2Streams.chunkOf, onWire]

/-- An arrival of what the peer has sent is not in this direction. -/
theorem arrive_other (link : H2Link) (party : Party) :
    (link.arrive party.peer).direction party = link.direction party := by
  have apart := peer_apart party
  unfold H2Link.arrive
  rw [peer_peer]
  repeat' split
  all_goals
    simp [H2Link.direction, H2Link.deliver, H2Side.answered, Function.update_of_ne apart,
      Function.update_of_ne apart.symm]

/-- A failure of the direction breaks it. -/
theorem breaks_own (link : H2Link) (party : Party) (error : Option String) :
    (link.breaks party error).direction party =
      (link.direction party).step true .blank (.breaks (error.map ioerr)) := by
  have apart := (peer_apart party).symm
  cases error <;>
    simp [H2Link.breaks, H2Link.direction, H2Link.deliver, H2Side.answered,
      Function.update_of_ne apart, ChunkLink.step, ChunkLink.breaks, ChunkLink.answer, readerOf,
      H2Streams.chunkOf]

/-- A failure of the other direction does not break it. -/
theorem breaks_other (link : H2Link) (party : Party) (error : Option String) :
    (link.breaks party.peer error).direction party = link.direction party := by
  have apart := peer_apart party
  simp [H2Link.breaks, H2Link.direction, H2Link.deliver, H2Side.answered,
    Function.update_of_ne apart, Function.update_of_ne apart.symm]

/-- Every proper event is one of the direction or leaves it as it is. -/
theorem step_proceeds (link : H2Link) (party : Party) {event : H2Event} (proper : event.Proper) :
    Proceeds true .blank (link.direction party) ((link.step event).direction party) := by
  cases event with
  | calls other call =>
    rcases party_cases party other with rfl | rfl
    · exact call_own link other proper
    · exact .inl (call_other link party proper)
  | reads other size =>
    rcases party_cases party other with rfl | rfl
    · exact .inl (read_other link other size)
    · exact .inr ⟨.read size, trivial, read_own link party size⟩
  | cuts other place =>
    rcases party_cases party other with rfl | rfl
    · exact .inr ⟨.cut place, trivial, cuts_own link other place⟩
    · exact .inl (cuts_other link party place)
  | arrives other =>
    rcases party_cases party other with rfl | rfl
    · exact .inr ⟨.arrive, trivial, arrive_own link other⟩
    · exact .inl (arrive_other link party)
  | breaks other error =>
    rcases party_cases party other with rfl | rfl
    · exact .inr ⟨.breaks (error.map ioerr), trivial, breaks_own link other error⟩
    · exact .inl (breaks_other link party error)

end Directions

section Sides

/-- What an end keeps by itself: its writes have accepted what it has sent, and it has given the
window back for all that it has taken. -/
structure Balanced (side : H2Side) : Prop where
  accepted : side.accepted = side.send.chunks.flatten
  released : side.stream.recv.released = side.returned.length + side.stream.wbuf.length

/-- A call accepts what it sends. -/
theorem call_balanced {side : H2Side} (balanced : Balanced side) {call : Call}
    (proper : call.Proper) : Balanced (side.call call) := by
  have sends := call_sends side proper
  generalize side.call call = after at sends
  cases sends with
  | nothing => exact balanced
  | chunk chunk running some =>
    exact ⟨by simp [balanced.accepted], balanced.released⟩
  | ends running => exact ⟨balanced.accepted, balanced.released⟩

/-- A read gives the window of a chunk back when it takes it. The cases are those of the read. -/
theorem read_balanced {side : H2Side} (balanced : Balanced side) (size : Nat) :
    Balanced (side.read size) := by
  obtain ⟨send, ⟨⟨answers, released⟩, wbuf, eof⟩, accepted, returned⟩ := side
  obtain ⟨sent, taken⟩ := balanced
  refine ⟨sent, ?_⟩
  simp only at taken
  by_cases empty : wbuf = []
  · subst empty
    cases eof with
    | true => simpa [H2Side.read, H2Stream.pollRead, given] using taken
    | false =>
      rcases answers with _ | ⟨(_ | (error | chunk)) | _, answers⟩
      · simpa [H2Side.read, H2Stream.pollRead, RecvStream.pollData, pollNext, given] using taken
      · simpa [H2Side.read, H2Stream.pollRead, RecvStream.pollData, pollNext, given] using taken
      · simpa [H2Side.read, H2Stream.pollRead, RecvStream.pollData, pollNext, given] using taken
      · simp only [H2Side.read, poll_chunk, given, List.length_append, taken, List.length_take,
          List.length_drop, List.length_nil]
        omega
      · simpa [H2Side.read, H2Stream.pollRead, RecvStream.pollData, pollNext, given] using taken
  · simp only [H2Side.read, poll_leftover size _ empty, given, List.length_append, taken,
      List.length_take, List.length_drop]
    omega

/-- An answer that arrives at an end changes no account. -/
theorem answered_balanced {side : H2Side} (balanced : Balanced side)
    (answer : Answer String Bytes) : Balanced (side.answered answer) :=
  ⟨balanced.accepted, balanced.released⟩

/-- Every end keeps this in every run. -/
theorem step_balanced {link : H2Link} (balanced : ∀ party, Balanced (link.side party))
    {event : H2Event} (proper : event.Proper) (party : Party) :
    Balanced ((link.step event).side party) := by
  have updated (other : Party) {side : H2Side} (kept : Balanced side) :
      Balanced (Function.update link.side other side party) := by
    by_cases same : party = other
    · subst same
      rwa [Function.update_self]
    · rw [Function.update_of_ne same]
      exact balanced party
  cases event with
  | calls other call => exact updated other (call_balanced (balanced other) proper)
  | reads other size => exact updated other (read_balanced (balanced other) size)
  | cuts other place => exact balanced party
  | arrives other =>
    have delivered (answer : Answer String Bytes) :
        Balanced ((link.deliver other.peer answer).side party) :=
      updated other.peer (answered_balanced (balanced other.peer) answer)
    unfold H2Link.step H2Link.arrive
    dsimp only
    repeat' split
    · exact delivered _
    · exact delivered _
    · exact delivered _
    · exact balanced party
  | breaks other error =>
    exact updated other.peer (answered_balanced (balanced other.peer) _)

end Sides

section Relaying

/-- What holds of a stream in every run. -/
structure Joined (link : H2Link) : Prop where
  kept : ∀ party, Kept (link.direction party)
  balanced : ∀ party, Balanced (link.side party)

/-- Both ends and both directions keep their invariants in every run. -/
theorem run_joined (events : List H2Event) (proper : ∀ event ∈ events, event.Proper) :
    Joined (run H2Link.step .start events) := by
  induction events using List.reverseRecOn with
  | nil => exact ⟨fun _ => start_kept, fun _ => ⟨rfl, rfl⟩⟩
  | append_singleton events event inductionHypothesis =>
    rw [run_snoc]
    have joined := inductionHypothesis fun other member => proper other (by simp [member])
    have last := proper event (by simp)
    exact ⟨fun party => (step_proceeds _ party last).kept (joined.kept party),
      step_balanced joined.balanced last⟩

/-- The events that carry octets on from an end to the other. -/
inductive Onward (party : Party) : H2Event → Prop where
  | arrive : Onward party (.arrives party)
  | read : Onward party (.reads party.peer 1)

/-- The octets of an end for which the other has not given the window back. -/
def H2Link.outstanding (link : H2Link) (party : Party) : Nat :=
  (received (link.side party.peer).stream.recv.answers).length + (link.wire party).flatten.length

/-- What a stream relays from an end to the other. -/
structure Relays (link : H2Link) (party : Party) : Prop where
  conveys : Conveys true .blank (link.direction party)
  front : (link.side party.peer).returned <+: (link.side party).accepted
  ends : ∀ size, 0 < size →
    ((link.side party.peer).stream.pollRead size).1 = .ready (.ok []) →
    link.broken party = true ∨ (link.side party).send.ended = true ∧
      (link.side party.peer).returned = (link.side party).accepted
  window : (link.side party.peer).stream.recv.released + link.outstanding party =
    (link.side party).accepted.length
  completes : link.broken party = false →
    Leads H2Link.step (Onward party)
      (fun other => (other.side party.peer).returned = (link.side party).accepted ∧
        other.outstanding party = 0) link

variable {link : H2Link} {party : Party}

/-- The chunks that the stream sees have the octets that the library gave. -/
theorem received_view (answers : List (Answer String Bytes)) :
    received (answers.map H2Streams.chunkOf) = received answers := by
  induction answers with
  | nil => rfl
  | cons answer answers inductionHypothesis =>
    rcases answer with (_ | (error | chunk)) | _ <;>
      simp only [List.map_cons, H2Streams.chunkOf, received, inductionHypothesis]

/-- The window that is left covers all but what is outstanding. -/
theorem Joined.window (joined : Joined link) (party : Party) :
    (link.side party.peer).stream.recv.released + link.outstanding party =
      (link.side party).accepted.length := by
  have whole := congrArg List.length (joined.kept party).exact
  simp only [H2Link.direction, readerOf, received_view, List.length_append] at whole
  rw [(joined.balanced party).accepted, whole, (joined.balanced party.peer).released,
    H2Link.outstanding]
  omega

/-- An event that carries octets on keeps the invariants. -/
theorem onward_joined (joined : Joined link) {event : H2Event} (onward : Onward party event) :
    Joined (link.step event) := by
  have proper : event.Proper := by cases onward <;> trivial
  exact ⟨fun other => (step_proceeds link other proper).kept (joined.kept other),
    step_balanced joined.balanced proper⟩

/-- What leads the direction somewhere leads the stream there. -/
theorem onward_lift (joined : Joined link) {Good : ChunkLink IoError → Prop}
    (leads : Leads (ChunkLink.step true .blank) LinkEvent.Internal Good (link.direction party)) :
    Leads H2Link.step (Onward party) (fun other => Good (other.direction party)) link := by
  refine @leads_lift _ _ (ChunkLink.step true .blank) _ _ H2Link.step
    (fun other => other.direction party) Joined _ _
    (fun other event sound internal => .inr ?_) Good _ joined leads
  cases internal with
  | arrive => exact ⟨.arrives party, .arrive, onward_joined sound .arrive, arrive_own other party⟩
  | read => exact ⟨.reads party.peer 1, .read, onward_joined sound .read, read_own other party 1⟩

/-- The invariants of a link give what it relays from either end. -/
theorem Joined.relays (joined : Joined link) (party : Party) : Relays link party := by
  have conveys : Conveys true .blank (link.direction party) := (joined.kept party).conveys
  have accepted : (link.side party).accepted = (link.direction party).sent.flatten :=
    (joined.balanced party).accepted
  refine ⟨conveys, ?_, fun size room completed => ?_, joined.window party, fun unbroken => ?_⟩
  · rw [accepted]
    exact conveys.front
  · have reader_completed :
        (pollRead true size (readerOf (link.side party.peer).stream)).1 = .ready (.ok []) := by
      rw [reads_as_reader size]
      exact completed
    cases broken : link.broken party with
    | true => exact .inl rfl
    | false =>
      obtain ⟨finished, whole⟩ := (conveys.ends size room reader_completed).2 broken
      exact .inr ⟨finished, whole.trans accepted.symm⟩
  · obtain ⟨more, onward, delivered⟩ := onward_lift joined (conveys.completes unbroken)
    refine ⟨more, onward, delivered.returned.trans accepted.symm, ?_⟩
    obtain ⟨onWire, waiting⟩ := delivered.arrived
    simp only [H2Link.direction, readerOf, received_view] at onWire waiting
    rw [H2Link.outstanding, onWire, waiting]
    rfl

/-- In every run of a stream on which no empty data frame is written, what an end reads is a
front of what the writes of the other have accepted. A read that has room completes with no
octets only when the body broke, or everything was read and the other has shut down. The window
is given back for all but what is outstanding, and until the body breaks, arrivals and reads of
single octets deliver everything and leave nothing outstanding. -/
theorem h2_stream_relays (events : List H2Event) (proper : ∀ event ∈ events, event.Proper)
    (party : Party) : Relays (run H2Link.step .start events) party :=
  (run_joined events proper).relays party

/-- A window of three octets, and no refusal. -/
def windowOfThree : SendAnswers := ⟨.ready (some (.ok 3)), false, "stream closed"⟩

/-- Five octets are written through a window of three, the first frame of which is sent in two, and
the body is ended and read. -/
def conversation : List H2Event :=
  [.calls .client (.pollWrite [104, 101, 108, 108, 111] windowOfThree),
    .calls .client (.pollWrite [108, 111] windowOfThree),
    .calls .client (.pollShutdown windowOfThree), .cuts .client 1, .arrives .client,
    .reads .server 2, .arrives .client, .arrives .client, .reads .server 4, .reads .server 4,
    .arrives .client]

/-- A window of three cuts a write in two, and a cut on the wire cuts it again. -/
theorem windowed_relays :
    Relays (run H2Link.step .start conversation) .client ∧
      ((run H2Link.step .start conversation).side .server).returned =
        [104, 101, 108, 108, 111] := by
  refine ⟨h2_stream_relays conversation ?_ .client, by decide⟩
  simp [conversation, H2Event.Proper, Call.Proper, windowOfThree]

end Relaying

end OmniProxy.H2Relay
