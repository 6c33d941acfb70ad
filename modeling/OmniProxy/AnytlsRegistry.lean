import OmniProxy.AnytlsTasks
import OmniProxy.GuardedRuns
import OmniProxy.ListUpdates

/-!
# The registry of an AnyTLS session

The loop that reads a session looks the number of a frame up in a registry, which has a
sender for the queue of each registered stream. An opening frame of the peer puts a sender
there, and so does opening a stream. Only a closing frame of the peer takes one out. The
registry is shared: the loop has it until it returns, and on a client the session has it as
long as a connector keeps the session.

A run is any order of steps of the loop, of openings, of the holders of the streams and of
the task that writes. The octets of the connection are those the peer likes to send. A
queue that is full makes the loop wait. The task that writes may fail at any time, and an
opening may be given up. A number that overflows starts again at zero.
-/

namespace OmniProxy.AnytlsRegistry

open AnytlsFrames AnytlsStreams ByteStrings Connections GuardedRuns ListUpdates ProxyTargets

section Streams

/-- The messages that fit the queue of a stream. -/
def streamBuf : Nat := 256

/-- A stream that was put into the registry, and whether somebody has it. Recorded with it
are the messages that came into its queue, and whether its closing frame went out and one for
its number came in. -/
structure LocalStream where
  stream : AnytlsStream
  held : Bool
  arrived : List StreamMsg
  finQueued : Bool
  finReceived : Bool

def LocalStream.new (sid : UInt32) (held : Bool) : LocalStream := ⟨.new sid, held, [], false, false⟩

/-- A message comes into the queue. -/
def LocalStream.receive (entry : LocalStream) (msg : StreamMsg) : LocalStream :=
  { entry with
    stream := { entry.stream with rx := entry.stream.rx ++ [msg] }
    arrived := entry.arrived ++ [msg] }

/-- A closing frame of the peer was for the number of the stream. -/
def LocalStream.finish (sid : UInt32) (entry : LocalStream) : LocalStream :=
  if entry.stream.sid = sid then { entry with finReceived := true } else entry

end Streams

section Sessions

/-- A call of `open_stream_to`: its stream, whether the opening frame was sent, and whether a
slot is held for the next one. -/
structure Opener where
  index : Nat
  sid : UInt32
  target : ProxyTarget
  synSent : Bool
  slot : Bool

/-- A session. The loop may be sending a message to a stream, which takes a sender of its
own. The writer is the task that takes frames from the queue. -/
structure Session where
  isServer : Bool
  queue : FrameQueue
  writing : Bool
  buf : Bytes
  gotSettings : Bool
  registry : UInt32 → Option Nat
  streams : List LocalStream
  sending : Option (Nat × StreamMsg)
  result : Option (Except IoError Unit)
  handle : Bool
  nextSid : UInt32
  opener : Option Opener

/-- A client begins with the settings in the queue, and its session is kept. -/
def Session.start (isServer : Bool) : Session where
  isServer
  queue := ⟨0, if isServer then [] else [settingsFrame], []⟩
  writing := true
  buf := []
  gotSettings := false
  registry := fun _ => none
  streams := []
  sending := none
  result := none
  handle := !isServer
  nextSid := 1
  opener := none

/-- Somebody still has the registry. -/
def Session.registryLive (session : Session) : Bool := session.result.isNone || session.handle

/-- There is a sender for a stream, in the registry or with the loop. -/
def Session.hasSender (session : Session) (index : Nat) (sid : UInt32) : Bool :=
  session.registryLive && session.registry sid == some index ||
    session.sending.map Prod.fst == some index

def Session.change (session : Session) (index : Nat) (f : LocalStream → LocalStream) : Session :=
  { session with streams := session.streams.modify index f }

/-- A stream is made, and its sender put into the registry. -/
def Session.register (session : Session) (sid : UInt32) (held : Bool) : Session :=
  { session with
    registry := Function.update session.registry sid (some session.streams.length)
    streams := session.streams ++ [.new sid held] }

def Session.fail (session : Session) (kind : ErrorKind) (message : String) : Session :=
  { session with result := some (.error ⟨kind, message⟩) }

/-- The loop refuses an opening frame: a server wants the settings first. -/
def Session.refusesSyn (session : Session) : Bool := session.isServer && !session.gotSettings

/-- The message of a frame with data. A frame without any is an end. -/
def messageOf (frame : Frame) : StreamMsg := if frame.data.isEmpty then .eof else .data frame.data

/-- What the loop does with a frame. A client drops the stream of an opening frame at once. -/
def Session.handleFrame (session : Session) (frame : Frame) : Session :=
  if frame.cmd = cmdWaste then session
  else if frame.cmd = cmdSettings then { session with gotSettings := true }
  else if frame.cmd = cmdSyn then
    if session.refusesSyn then
      session.fail .invalidData "anytls: SYN before settings"
    else session.register frame.sid session.isServer
  else if frame.cmd = cmdPsh then
    { session with sending := (session.registry frame.sid).map (·, messageOf frame) }
  else if frame.cmd = cmdFin then
    { session with
      registry := Function.update session.registry frame.sid none
      streams := session.streams.map (·.finish frame.sid)
      sending := (session.registry frame.sid).map (·, .eof) }
  else if frame.cmd = cmdAlert then
    session.fail .permissionDenied ("anytls: alert from peer: " ++ fromUtf8Lossy frame.data)
  else session

/-- The loop sends a message. It waits for a place in the queue, and does without a stream
that nobody has. -/
def Session.deliver (session : Session) (index : Nat) (msg : StreamMsg) : Session :=
  match session.streams[index]? with
  | none => { session with sending := none }
  | some entry =>
      if !entry.held then { session with sending := none }
      else if entry.stream.rx.length < streamBuf then
        { session.change index (·.receive msg) with sending := none }
      else session

/-- The frame that the loop handles next, with its length. -/
def Session.next (session : Session) : Option (Frame × Nat) :=
  if session.result.isSome ∨ session.sending.isSome then none
  else
    match tryDecode session.buf with
    | .frame frame consumed => some (frame, consumed)
    | .needMore => none

/-- One round of the loop: a message is sent, or the next frame is handled. -/
def Session.readLoop (session : Session) : Session :=
  match session.sending, session.next with
  | some (index, msg), _ => session.deliver index msg
  | none, some (frame, consumed) =>
      Session.handleFrame { session with buf := session.buf.drop consumed } frame
  | none, none => session

/-- The loop reads the connection when it needs more. No octets are the end. -/
def Session.received (session : Session) (octets : Except IoError Bytes) : Session :=
  if session.result.isSome ∨ session.sending.isSome ∨ tryDecode session.buf ≠ .needMore then
    session
  else
    match octets with
    | .error error => { session with result := some (.error error) }
    | .ok [] =>
        if session.buf.isEmpty then { session with result := some (.ok ()) }
        else session.fail .unexpectedEof "anytls: truncated frame"
    | .ok octets => { session with buf := session.buf ++ octets }

/-- The opening of a stream begins. The session is locked meanwhile. -/
def Session.beginOpen (session : Session) (target : ProxyTarget) : Session :=
  if session.handle ∧ session.opener.isNone then
    { session.register session.nextSid true with
      nextSid := session.nextSid + 1
      opener := some ⟨session.streams.length, session.nextSid, target, false, false⟩ }
  else session

/-- An opening ends without a stream, and gives back its slot. -/
def Session.abandon (session : Session) (opener : Opener) : Session :=
  { session.change opener.index ({ · with held := false }) with
    queue := if opener.slot then { session.queue with held := session.queue.held - 1 }
      else session.queue
    opener := none }

/-- An opening waits for a free slot. It fails when there is no writer. -/
def Session.acquire (session : Session) : Session :=
  match session.opener with
  | none => session
  | some opener =>
      if opener.slot then session
      else if !session.writing then session.abandon opener
      else if session.queue.free = 0 then session
      else
        { session with
          queue := { session.queue with held := session.queue.held + 1 }
          opener := some { opener with slot := true } }

/-- An opening puts its next frame into its slot. After the address the stream is returned. -/
def Session.push (session : Session) : Session :=
  match session.opener with
  | none => session
  | some opener =>
      let queue := { session.queue with held := session.queue.held - 1 }
      if !opener.slot then session
      else if opener.synSent then
        { session with
          queue := queue.put ⟨cmdPsh, opener.sid, addressOf opener.target⟩
          opener := none }
      else
        { session with
          queue := queue.put (.new cmdSyn opener.sid)
          opener := some { opener with synSent := true, slot := false } }

/-- The call that opens a stream is given up. -/
def Session.cancelOpen (session : Session) : Session :=
  match session.opener with
  | none => session
  | some opener => session.abandon opener

/-- A stream that somebody has after it was opened. -/
def Session.ownedStream (session : Session) (index : Nat) : Option LocalStream :=
  if session.opener.map Opener.index = some index then none
  else session.streams[index]?.filter LocalStream.held

/-- One round of a write. -/
def Session.write (session : Session) (index : Nat) (chunk : Bytes) : Session :=
  match session.ownedStream index with
  | none => session
  | some entry =>
      if session.writing then
        match entry.stream.sendPsh session.queue chunk with
        | .error _ => session
        | .ok queue => { session with queue }
      else session

/-- A stream is shut down. Its closing frame is lost without a writer or a free slot. -/
def Session.shutdown (session : Session) (index : Nat) : Session :=
  match session.ownedStream index with
  | none => session
  | some entry =>
      if entry.stream.finSent then session
      else
        let sent := if session.writing then session.queue.trySend (finFrame entry.stream.sid)
          else none
        { session.change index fun entry =>
            { entry with
              stream := { entry.stream with finSent := true }
              finQueued := entry.finQueued || sent.isSome } with
          queue := sent.getD session.queue }

/-- A read of a stream into a buffer of a size. -/
def Session.read (session : Session) (index size : Nat) : Session :=
  match session.ownedStream index with
  | none => session
  | some entry =>
      let closed := !session.hasSender index entry.stream.sid
      session.change index ({ · with stream := (entry.stream.pollRead closed size).2 })

/-- An owner drops a stream. -/
def Session.dropStream (session : Session) (index : Nat) : Session :=
  match session.ownedStream index with
  | none => session
  | some _ => session.change index ({ · with held := false })

inductive Event where
  | received (octets : Except IoError Bytes)
  | loop
  | beginOpen (target : ProxyTarget)
  | acquire
  | push
  | cancelOpen
  | write (index : Nat) (chunk : Bytes)
  | shutdown (index : Nat)
  | read (index size : Nat)
  | drop (index : Nat)
  | writer
  | writerFails
  | dropHandle

/-- One step of a run. -/
def step (session : Session) : Event → Session
  | .received octets => session.received octets
  | .loop => session.readLoop
  | .beginOpen target => session.beginOpen target
  | .acquire => session.acquire
  | .push => session.push
  | .cancelOpen => session.cancelOpen
  | .write index chunk => session.write index chunk
  | .shutdown index => session.shutdown index
  | .read index size => session.read index size
  | .drop index => session.dropStream index
  | .writer => if session.writing then { session with queue := session.queue.recv } else session
  | .writerFails => { session with writing := false }
  | .dropHandle => if session.opener.isNone then { session with handle := false } else session

end Sessions

section Steps

variable {session : Session}

/-- The stream that a step takes from its holder. -/
def Session.loses (session : Session) : Event → Option Nat
  | .drop index => (session.ownedStream index).map fun _ => index
  | .acquire =>
      (session.opener.filter fun opener => !opener.slot && !session.writing).map Opener.index
  | .cancelOpen => session.opener.map Opener.index
  | _ => none

/-- A stream after a step of its own side, with the frames that are then in the queue or were
taken from it. -/
structure Follows (entry after : LocalStream) (lost : Prop) (order : List Frame) : Prop where
  sid : after.stream.sid = entry.stream.sid
  arrived : after.arrived = entry.arrived
  finReceived : after.finReceived = entry.finReceived
  finQueued : entry.finQueued = true → after.finQueued = true
  fin : lost → after.finQueued = entry.finQueued
  sent : after.finQueued = true → entry.finQueued = true ∨ finFrame after.stream.sid ∈ order
  held : after.held = true ↔ entry.held = true ∧ ¬lost
  leftover : entry.stream.leftover ≠ some [] → after.stream.leftover ≠ some []

/-- A step of the own side: of an opening, of the owners, or of the writer. -/
def Event.own : Event → Bool
  | .received _ | .loop | .beginOpen _ => false
  | _ => true

/-- What such a step leaves as it is. -/
structure Aside (session : Session) (event : Event) (after : Session) : Prop where
  isServer : after.isServer = session.isServer
  buf : after.buf = session.buf
  gotSettings : after.gotSettings = session.gotSettings
  registry : after.registry = session.registry
  sending : after.sending = session.sending
  result : after.result = session.result
  handle : after.handle = true → session.handle = true
  kept : session.loses event ≠ none → after.handle = session.handle
  order : ∀ frame ∈ session.queue.order, frame ∈ after.queue.order
  length : after.streams.length = session.streams.length
  streams : ∀ (index : Nat) (entry : LocalStream), session.streams[index]? = some entry →
    ∃ later, after.streams[index]? = some later ∧
      Follows entry later (session.loses event = some index) after.queue.order

/-- A stream that the step does not touch follows from itself. -/
theorem Follows.refl (entry : LocalStream) {lost : Prop} (kept : ¬lost) (order : List Frame) :
    Follows entry entry lost order :=
  ⟨rfl, rfl, rfl, id, fun _ => rfl, .inl, by simp [kept], id⟩

/-- Nobody has the stream any more. -/
theorem Follows.drop (entry : LocalStream) {lost : Prop} (gone : lost) (order : List Frame) :
    Follows entry { entry with held := false } lost order :=
  ⟨rfl, rfl, rfl, id, fun _ => rfl, .inl, by simp [gone], id⟩

/-- A change of one stream leaves the others as they are. -/
theorem change_follows {index : Nat} {f : LocalStream → LocalStream} {lost : Option Nat}
    {order : List Frame}
    (here : ∀ entry, session.streams[index]? = some entry →
      Follows entry (f entry) (lost = some index) order)
    (others : ∀ other, index ≠ other → lost ≠ some other) (other : Nat) (entry : LocalStream)
    (there : session.streams[other]? = some entry) :
    ∃ later, (session.change index f).streams[other]? = some later ∧
      Follows entry later (lost = some other) order := by
  by_cases same : index = other
  · subst same
    exact ⟨f entry, by simp [Session.change, there], here entry there⟩
  · refine ⟨entry, ?_, Follows.refl entry (others other same) order⟩
    rw [Session.change, List.getElem?_modify_ne f _ same, there]

/-- An owned stream exists, is held by somebody and is not the one being opened. -/
theorem owned_stream_some {index : Nat} {entry : LocalStream}
    (owned : session.ownedStream index = some entry) :
    session.streams[index]? = some entry ∧ entry.held = true ∧
      session.opener.map Opener.index ≠ some index := by
  unfold Session.ownedStream at owned
  split at owned
  · simp at owned
  · next apart =>
    obtain ⟨there, held⟩ := Option.filter_eq_some_iff.mp owned
    exact ⟨there, held, apart⟩

/-- A stream after the step was there before. -/
theorem Aside.before {event : Event} {after : Session} (aside : Aside session event after)
    {index : Nat} {later : LocalStream} (there : after.streams[index]? = some later) :
    ∃ entry, session.streams[index]? = some entry ∧
      Follows entry later (session.loses event = some index) after.queue.order := by
  have inside := (List.getElem?_eq_some_iff.mp there).1
  rw [aside.length] at inside
  obtain ⟨found, known, follows⟩ := aside.streams index _ (List.getElem?_eq_getElem inside)
  obtain rfl := Option.some.inj (there.symm.trans known)
  exact ⟨_, List.getElem?_eq_getElem inside, follows⟩

/-- A step that changes at most the queue, the opening, the writer or the handle. -/
theorem Aside.other {event : Event} (queue : FrameQueue) (writing handle : Bool)
    (opener : Option Opener) (order : ∀ frame ∈ session.queue.order, frame ∈ queue.order)
    (keeps : handle = true → session.handle = true) (kept : session.loses event = none) :
    Aside session event { session with queue, writing, handle, opener } := by
  refine ⟨rfl, rfl, rfl, rfl, rfl, rfl, keeps, fun lost => absurd kept lost, order, rfl, ?_⟩
  rw [kept]
  exact fun index entry there => ⟨entry, there, Follows.refl entry (by simp) _⟩

/-- A step that changes one stream, and at most the queue and the opening besides. -/
theorem Aside.of_change {event : Event} {index : Nat} {f : LocalStream → LocalStream}
    (queue : FrameQueue) (opener : Option Opener)
    (order : ∀ frame ∈ session.queue.order, frame ∈ queue.order)
    (here : ∀ entry, session.streams[index]? = some entry →
      Follows entry (f entry) (session.loses event = some index) queue.order)
    (others : ∀ other, index ≠ other → session.loses event ≠ some other) :
    Aside session event { session.change index f with queue, opener } :=
  ⟨rfl, rfl, rfl, rfl, rfl, rfl, id, fun _ => rfl, order, List.length_modify ..,
    change_follows here others⟩

/-- A step that takes a stream from its holder. -/
theorem Aside.of_loss {event : Event} {index : Nat} (lost : session.loses event = some index)
    (queue : FrameQueue) (opener : Option Opener)
    (order : ∀ frame ∈ session.queue.order, frame ∈ queue.order) :
    Aside session event
      { session.change index ({ · with held := false }) with queue, opener } := by
  apply Aside.of_change queue opener order
  · exact fun entry _ => Follows.drop entry lost _
  · rw [lost]
    rintro other different ⟨⟩
    exact different rfl

/-- A frame that is put into the queue comes after what is there. -/
theorem put_order (queue : FrameQueue) (frame : Frame) :
    (∀ other ∈ queue.order, other ∈ (queue.put frame).order) ∧
      frame ∈ (queue.put frame).order := by
  rw [order_put]
  exact ⟨fun other member => List.mem_append_left _ member, by simp⟩

/-- A frame that was sent without waiting stands at the end of the queue. -/
theorem try_send_put {queue after : FrameQueue} {frame : Frame}
    (sent : queue.trySend frame = some after) : after = queue.put frame := by
  unfold FrameQueue.trySend at sent
  split at sent
  · simp at sent
  · exact (Option.some.inj sent).symm

/-- Data that was sent stands at the end of the queue as one frame of the stream. -/
theorem send_psh_put {stream : AnytlsStream} {queue after : FrameQueue} {data : Bytes}
    (sent : stream.sendPsh queue data = .ok after) :
    after = queue.put ⟨cmdPsh, stream.sid, data⟩ := by
  unfold AnytlsStream.sendPsh at sent
  split at sent
  · simp at sent
  · split at sent
    · simp at sent
    · next put =>
      cases sent
      exact try_send_put put

/-- What a read leaves over is not empty. -/
theorem poll_read_leftover_some (stream : AnytlsStream) (closed : Bool) (size : Nat)
    (whole : stream.leftover ≠ some []) : (stream.pollRead closed size).2.leftover ≠ some [] := by
  unfold AnytlsStream.pollRead
  split
  · next data _ => exact AnytlsTasks.hand_out_leftover size data
  · split
    · exact whole
    · split
      · next data _ _ =>
        split
        · exact whole
        · exact AnytlsTasks.hand_out_leftover size data
      · exact whole
      · split
        · exact whole
        · exact whole

/-- A step that changes at most the queue, the opening and the writer. -/
theorem Aside.queued {event : Event} (queue : FrameQueue) (opener : Option Opener)
    (writing : Bool) (order : ∀ frame ∈ session.queue.order, frame ∈ queue.order)
    (kept : session.loses event = none) :
    Aside session event { session with queue, writing, opener } :=
  .other queue writing session.handle opener order id kept

/-- A step that changes nothing leaves everything as it is. -/
theorem Aside.same {event : Event} (kept : session.loses event = none) :
    Aside session event session :=
  .queued session.queue session.opener session.writing (fun _ => id) kept

/-- Taking a permit is a step beside the loop. -/
theorem acquire_aside (session : Session) : Aside session .acquire session.acquire := by
  unfold Session.acquire
  split
  · next opener => exact .same (by simp [Session.loses, opener])
  · next opener there =>
    split
    · next slot => exact .same (by simp [Session.loses, there, slot])
    · next slot =>
      split
      · next dead =>
        have lost : session.loses .acquire = some opener.index := by
          simpa [Session.loses, there, slot] using dead
        apply Aside.of_loss lost
        rw [if_neg slot]
        exact fun _ => id
      · next alive =>
        have kept : session.loses .acquire = none := by
          simpa [Session.loses, there, slot] using alive
        split
        · exact .same kept
        · exact .queued _ _ _ (fun _ => id) kept

/-- Pushing the address is a step beside the loop. -/
theorem push_aside (session : Session) : Aside session .push session.push := by
  unfold Session.push
  split
  · exact .same rfl
  · next opener there =>
    split
    · exact .same rfl
    · split
      · exact .queued _ _ _ (put_order _ _).1 rfl
      · exact .queued _ _ _ (put_order _ _).1 rfl

/-- Giving an opening call up is a step beside the loop. -/
theorem cancel_open_aside (session : Session) : Aside session .cancelOpen session.cancelOpen := by
  unfold Session.cancelOpen
  split
  · next opener => exact .same (by simp [Session.loses, opener])
  · next opener there =>
    have lost : session.loses .cancelOpen = some opener.index := by
      simp [Session.loses, there]
    apply Aside.of_loss lost
    split <;> exact fun _ => id

/-- A write is a step beside the loop: the stream only sends. -/
theorem write_aside (session : Session) (index : Nat) (chunk : Bytes) :
    Aside session (.write index chunk) (session.write index chunk) := by
  unfold Session.write
  split
  · exact .same rfl
  · split
    · split
      · exact .same rfl
      · next sent =>
        rw [send_psh_put sent]
        exact .queued _ _ _ (put_order _ _).1 rfl
    · exact .same rfl

/-- The closing frame of a shutdown is put into the queue, or the shutdown fails. -/
theorem shutdown_aside (session : Session) (index : Nat) :
    Aside session (.shutdown index) (session.shutdown index) := by
  unfold Session.shutdown
  split
  · exact .same rfl
  · next entry owned =>
    split
    · exact .same rfl
    · generalize sends : (if session.writing then _ else none) = sent
      have put (queue : FrameQueue) (something : sent = some queue) :
          queue = session.queue.put (finFrame entry.stream.sid) := by
        rw [something] at sends
        split at sends
        · exact try_send_put sends
        · simp at sends
      have order : ∀ frame ∈ session.queue.order, frame ∈ (sent.getD session.queue).order := by
        cases sent with
        | none => exact fun _ => id
        | some queue =>
          rw [put queue rfl]
          exact (put_order _ _).1
      apply Aside.of_change _ _ order
      · intro entry' there
        obtain rfl := Option.some.inj (there.symm.trans (owned_stream_some owned).1)
        refine ⟨rfl, rfl, rfl, fun before => by simp [before], by simp [Session.loses], ?_,
          by simp [Session.loses], id⟩
        intro queued
        cases sent with
        | none => exact .inl (by simpa using queued)
        | some queue =>
          rw [put queue rfl]
          exact .inr (put_order _ _).2
      · simp [Session.loses]

/-- A read is a step beside the loop: the stream only takes its messages. -/
theorem read_aside (session : Session) (index size : Nat) :
    Aside session (.read index size) (session.read index size) := by
  unfold Session.read
  split
  · exact .same rfl
  · next entry owned =>
    apply Aside.of_change session.queue session.opener (fun _ => id)
    · intro entry' there
      obtain rfl := Option.some.inj (there.symm.trans (owned_stream_some owned).1)
      exact ⟨AnytlsTasks.poll_read_sid _ _ _, rfl, rfl, id, fun _ => rfl, .inl,
        by simp [Session.loses], poll_read_leftover_some _ _ _⟩
    · simp [Session.loses]

/-- Dropping a stream is a step beside the loop; the registry keeps its entry. -/
theorem drop_stream_aside (session : Session) (index : Nat) :
    Aside session (.drop index) (session.dropStream index) := by
  unfold Session.dropStream
  split
  · next owned => exact .same (by simp [Session.loses, owned])
  · next entry owned =>
    have lost : session.loses (.drop index) = some index := by simp [Session.loses, owned]
    exact Aside.of_loss lost session.queue session.opener (fun _ => id)

/-- Steps of the own side leave the registry and the loop alone. -/
theorem step_aside (session : Session) (event : Event) (own : event.own = true) :
    Aside session event (step session event) := by
  cases event with
  | received octets => cases own
  | loop => cases own
  | beginOpen target => cases own
  | acquire => exact acquire_aside session
  | push => exact push_aside session
  | cancelOpen => exact cancel_open_aside session
  | write index chunk => exact write_aside session index chunk
  | shutdown index => exact shutdown_aside session index
  | read index size => exact read_aside session index size
  | drop index => exact drop_stream_aside session index
  | writer =>
    simp only [step]
    split
    · apply Aside.queued _ _ _ _ rfl
      rw [order_recv]
      exact fun _ => id
    · exact .same rfl
  | writerFails => exact .queued _ _ _ (fun _ => id) rfl
  | dropHandle =>
    simp only [step]
    split
    · exact .other session.queue session.writing false session.opener (fun _ => id)
        (fun gone => by simp at gone) rfl
    · exact .same rfl

end Steps

section Loop

variable {session : Session} {frame : Frame}

/-- What the loop may do with a frame. -/
inductive Handled (session : Session) (frame : Frame) : Session → Prop where
  | quiet (gotSettings : Bool) (syn : frame.cmd ≠ cmdSyn) (psh : frame.cmd ≠ cmdPsh)
      (fin : frame.cmd ≠ cmdFin) (alert : frame.cmd ≠ cmdAlert) :
      Handled session frame { session with gotSettings }
  | refused (error : IoError)
      (cause : frame.cmd = cmdAlert ∨ frame.cmd = cmdSyn ∧ session.refusesSyn = true) :
      Handled session frame { session with result := some (.error error) }
  | syn (cmd : frame.cmd = cmdSyn) (accepted : session.refusesSyn = false) :
      Handled session frame (session.register frame.sid session.isServer)
  | psh (cmd : frame.cmd = cmdPsh) :
      Handled session frame
        { session with sending := (session.registry frame.sid).map (·, messageOf frame) }
  | fin (cmd : frame.cmd = cmdFin) :
      Handled session frame
        { session with
          registry := Function.update session.registry frame.sid none
          streams := session.streams.map (·.finish frame.sid)
          sending := (session.registry frame.sid).map (·, .eof) }

/-- Whatever its command, a frame is handled in one of the listed ways. -/
theorem frame_handled (session : Session) (frame : Frame) :
    Handled session frame (session.handleFrame frame) := by
  unfold Session.handleFrame
  split
  · next waste =>
    apply Handled.quiet session.gotSettings <;> rw [waste] <;> decide
  · split
    · next settings =>
      apply Handled.quiet true <;> rw [settings] <;> decide
    · split
      · next syn =>
        split
        · next refuses =>
          exact .refused _ (.inr ⟨syn, refuses⟩)
        · next accepts => exact .syn syn (by simpa using accepts)
      · next syn =>
        split
        · next psh => exact .psh psh
        · next psh =>
          split
          · next fin => exact .fin fin
          · next fin =>
            split
            · next alert => exact .refused _ (.inl alert)
            · next alert => exact .quiet session.gotSettings syn psh fin alert

/-- An opening frame that is not refused registers a new stream. -/
theorem handle_accepted_syn (syn : frame.cmd = cmdSyn) (accepted : session.refusesSyn = false) :
    session.handleFrame frame = session.register frame.sid session.isServer := by
  have quiet : ¬frame.cmd = cmdWaste ∧ ¬frame.cmd = cmdSettings := by rw [syn]; decide
  rw [Session.handleFrame, if_neg quiet.1, if_neg quiet.2, if_pos syn, accepted]
  rfl

/-- The next frame is there only while the loop runs and sends no message. -/
theorem next_some {consumed : Nat} (next : session.next = some (frame, consumed)) :
    session.result = none ∧ session.sending = none := by
  unfold Session.next at next
  split at next
  · simp at next
  · next running => simpa using running

/-- A round of the loop sends its message, or handles the next frame. -/
theorem read_loop_sending {index : Nat} {msg : StreamMsg}
    (sending : session.sending = some (index, msg)) :
    session.readLoop = session.deliver index msg := by
  simp only [Session.readLoop, sending]

/-- The loop takes the next frame out of its buffer and handles it. -/
theorem read_loop_next {consumed : Nat} (next : session.next = some (frame, consumed)) :
    session.readLoop =
      Session.handleFrame { session with buf := session.buf.drop consumed } frame := by
  unfold Session.readLoop
  split
  · next sending => simp [(next_some next).2] at sending
  · next there =>
    obtain ⟨rfl, rfl⟩ := Prod.mk.inj (Option.some.inj (next.symm.trans there))
    rfl
  · next there => simp [next] at there

/-- Without a whole frame the loop waits for more octets. -/
theorem read_loop_idle (quiet : session.sending = none) (absent : session.next = none) :
    session.readLoop = session := by
  simp only [Session.readLoop, quiet, absent]

/-- An opening frame that the loop accepts registers a stream. -/
theorem read_loop_syn {consumed : Nat} (next : session.next = some (frame, consumed))
    (syn : frame.cmd = cmdSyn) (accepted : session.refusesSyn = false) :
    session.readLoop =
      Session.register { session with buf := session.buf.drop consumed } frame.sid
        session.isServer :=
  (read_loop_next next).trans (handle_accepted_syn syn accepted)

/-- Reading the connection gives octets, or ends the loop while it sends no message. -/
theorem received_cases (session : Session) (octets : Except IoError Bytes) :
    (∃ buf, session.received octets = { session with buf }) ∨
      (session.result = none ∧ session.sending = none ∧
        ∃ result, session.received octets = { session with result := some result }) := by
  unfold Session.received
  split
  · exact .inl ⟨session.buf, rfl⟩
  · next running =>
    have idle : session.result = none ∧ session.sending = none := by
      simp only [not_or, Bool.not_eq_true, Option.isSome_eq_false_iff, Option.isNone_iff_eq_none]
        at running
      exact ⟨running.1, running.2.1⟩
    split
    · exact .inr ⟨idle.1, idle.2, _, rfl⟩
    · split
      · exact .inr ⟨idle.1, idle.2, _, rfl⟩
      · exact .inr ⟨idle.1, idle.2, _, rfl⟩
    · exact .inl ⟨_, rfl⟩

/-- Sending a message gives it to the stream, or waits, or gives it up with a stream that
nobody has. -/
theorem deliver_cases (session : Session) (index : Nat) (msg : StreamMsg) :
    session.deliver index msg = session ∨
      ((∀ entry, session.streams[index]? = some entry → entry.held = false) ∧
        session.deliver index msg = { session with sending := none }) ∨
      session.deliver index msg =
        { session.change index (·.receive msg) with sending := none } := by
  unfold Session.deliver
  split
  · next absent => exact .inr (.inl ⟨by simp [absent], rfl⟩)
  · next entry there =>
    split
    · next gone =>
      refine .inr (.inl ⟨?_, rfl⟩)
      rintro found known
      obtain rfl := Option.some.inj (there.symm.trans known)
      simpa using gone
    · split
      · exact .inr (.inr rfl)
      · exact .inl rfl

/-- A registered stream stands behind all that were there before. -/
theorem registered_new (sid : UInt32) (held : Bool) :
    (session.register sid held).streams[session.streams.length]? = some (.new sid held) := by
  simp [Session.register]

/-- Registering a stream leaves the others where they are. -/
theorem registered_old {sid : UInt32} {held : Bool} {index : Nat} {entry : LocalStream}
    (there : session.streams[index]? = some entry) :
    (session.register sid held).streams[index]? = some entry := by
  rw [Session.register, List.getElem?_append_left (List.getElem?_eq_some_iff.mp there).1, there]

/-- A closing frame of another number does not touch the stream. -/
theorem finish_other {sid : UInt32} {entry : LocalStream} (other : entry.stream.sid ≠ sid) :
    entry.finish sid = entry := if_neg other

/-- A closing frame of its number is noted at the stream. -/
theorem finish_own {sid : UInt32} {entry : LocalStream} (own : entry.stream.sid = sid) :
    entry.finish sid = { entry with finReceived := true } := if_pos own

/-- A closing frame of the peer leaves the rest of a stream as it is. -/
theorem finish_rest (sid : UInt32) (entry : LocalStream) :
    (entry.finish sid).stream = entry.stream ∧ (entry.finish sid).held = entry.held ∧
      (entry.finish sid).arrived = entry.arrived ∧
      (entry.finish sid).finQueued = entry.finQueued := by
  unfold LocalStream.finish
  split <;> exact ⟨rfl, rfl, rfl, rfl⟩

/-- A stream after a step of the loop, or after an opening has begun, was there before or is a
new one. -/
theorem loop_streams {event : Event} (own : event.own = false) {index : Nat}
    {later : LocalStream} (there : (step session event).streams[index]? = some later) :
    (∃ entry, session.streams[index]? = some entry ∧ later.stream.sid = entry.stream.sid ∧
      later.held = entry.held ∧ later.finQueued = entry.finQueued ∧
      later.stream.leftover = entry.stream.leftover) ∨
    ∃ sid held, index = session.streams.length ∧ later = .new sid held := by
  have same {found : LocalStream} (known : session.streams[index]? = some found) :
      ∃ entry, session.streams[index]? = some entry ∧ found.stream.sid = entry.stream.sid ∧
        found.held = entry.held ∧ found.finQueued = entry.finQueued ∧
        found.stream.leftover = entry.stream.leftover := ⟨found, known, rfl, rfl, rfl, rfl⟩
  cases event with
  | received octets =>
    obtain ⟨buf, after⟩ | ⟨-, -, result, after⟩ := received_cases session octets
    · rw [step, after] at there
      exact .inl (same there)
    · rw [step, after] at there
      exact .inl (same there)
  | beginOpen target =>
    simp only [step, Session.beginOpen] at there
    split at there
    · rcases append_cases there with old | ⟨last, new⟩
      · exact .inl (same old)
      · exact .inr ⟨_, _, last, new⟩
    · exact .inl (same there)
  | loop =>
    simp only [step, Session.readLoop] at there
    split at there
    · next target msg _ =>
      rcases deliver_cases session target msg with after | ⟨-, after⟩ | after
      · rw [after] at there
        exact .inl (same there)
      · rw [after] at there
        exact .inl (same there)
      · rw [after] at there
        obtain ⟨-, entry, known, rfl⟩ | ⟨-, known⟩ := modify_cases there
        · exact .inl ⟨entry, known, rfl, rfl, rfl, rfl⟩
        · exact .inl (same known)
    · next frame consumed _ _ =>
      generalize after : Session.handleFrame _ frame = handled at there
      have outcome := after ▸ frame_handled { session with buf := session.buf.drop consumed } frame
      cases outcome with
      | quiet => exact .inl (same there)
      | refused => exact .inl (same there)
      | psh => exact .inl (same there)
      | syn =>
        rcases append_cases there with old | ⟨last, new⟩
        · exact .inl (same old)
        · exact .inr ⟨_, _, last, new⟩
      | fin =>
        simp only [List.getElem?_map, Option.map_eq_some_iff] at there
        obtain ⟨entry, known, rfl⟩ := there
        obtain ⟨stream, held, -, queued⟩ := finish_rest frame.sid entry
        exact .inl ⟨entry, known, by rw [stream], held, queued, by rw [stream]⟩
    · exact .inl (same there)
  | _ => cases own

end Loop

end OmniProxy.AnytlsRegistry
