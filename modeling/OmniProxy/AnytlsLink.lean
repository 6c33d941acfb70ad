import OmniProxy.AnytlsIntake

/-!
# Both sides of an AnyTLS link

A client and a server have one connection. What a side puts into its queue is written to the
connection frame by frame, and what arrives there is decoded by the loop of the other side.
A run is any order of steps of both sides, with octets that arrive in any pieces. A write may
fail after any of its octets, and either side may see the connection end or fail at any time.

Whatever the order, the reader of a stream gets a front of what was accepted on the other side
for the stream of its number, no loop meets a frame that it refuses, and what was accepted can
still be read as long as no write failed and the connection was not cut.
-/

namespace OmniProxy.AnytlsLink

open AnytlsEndpoints AnytlsFrames AnytlsIntake AnytlsIsolation AnytlsRegistry AnytlsStreams
open ByteStrings Connections GuardedRuns ListUpdates ProxyTargets

section Frames

/-- What a stream sends behind its opening frame is the data of a chunk or the end. -/
theorem sent_frames_cases {sid : UInt32} {chunks : List Bytes} {closed : Bool} {frame : Frame}
    (member : frame ∈ sentFrames sid chunks closed) :
    (∃ chunk ∈ chunks, frame = pshFrame sid chunk) ∨ frame = finFrame sid := by
  rcases List.mem_append.mp member with data | fin
  · obtain ⟨chunk, among, rfl⟩ := List.mem_map.mp data
    exact .inl ⟨chunk, among, rfl⟩
  · cases closed with
    | true => exact .inr (List.mem_singleton.mp fin)
    | false => simp at fin

/-- No stream sends a second opening frame. -/
theorem syn_not_sent (sid : UInt32) (chunks : List Bytes) (closed : Bool) :
    .new cmdSyn sid ∉ sentFrames sid chunks closed := by
  intro member
  rcases sent_frames_cases member with ⟨chunk, -, same⟩ | same
  · exact (by decide : cmdSyn ≠ cmdPsh) (congrArg Frame.cmd same)
  · exact (by decide : cmdSyn ≠ cmdFin) (congrArg Frame.cmd same)

/-- Nothing comes before the opening frame. -/
theorem syn_first {sid : UInt32} {chunks : List Bytes} {closed : Bool}
    {opening before rest : List Frame}
    (shape : before ++ .new cmdSyn sid :: rest = opening ++ sentFrames sid chunks closed)
    (opens : opening = [] ∨ opening = [.new cmdSyn sid]) : before = [] := by
  rcases opens with rfl | rfl
  · refine absurd ?_ (syn_not_sent sid chunks closed)
    rw [List.nil_append] at shape
    rw [← shape]
    simp
  · cases before with
    | nil => rfl
    | cons first before =>
      obtain ⟨-, shape⟩ := List.cons.inj shape
      have sent : before ++ .new cmdSyn sid :: rest = sentFrames sid chunks closed := shape
      refine absurd ?_ (syn_not_sent sid chunks closed)
      rw [← sent]
      simp

/-- Nothing comes after the closing frame. -/
theorem fin_last {sid : UInt32} {chunks : List Bytes} {closed : Bool} {frame : Frame}
    {opening before rest : List Frame}
    (shape : before ++ frame :: rest = opening ++ sentFrames sid chunks closed)
    (opens : opening = [] ∨ opening = [.new cmdSyn sid]) : finFrame sid ∉ before := by
  intro member
  have unsent : finFrame sid ∉ opening ++ chunks.map (pshFrame sid) := by
    intro among
    rcases List.mem_append.mp among with first | data
    · rcases opens with rfl | rfl
      · simp at first
      · have same := congrArg Frame.cmd (List.mem_singleton.mp first)
        exact (by decide : cmdFin ≠ cmdSyn) same
    · obtain ⟨chunk, -, same⟩ := List.mem_map.mp data
      exact (by decide : cmdPsh ≠ cmdFin) (congrArg Frame.cmd same)
  have early : finFrame sid ∈ (before ++ frame :: rest).dropLast := by
    rw [List.dropLast_append_of_ne_nil (List.cons_ne_nil _ _)]
    exact List.mem_append_left _ member
  rw [shape, sentFrames, ← List.append_assoc] at early
  cases closed with
  | true =>
    rw [if_pos rfl, List.dropLast_concat] at early
    exact unsent early
  | false =>
    simp only [Bool.false_eq_true, if_false, List.append_nil] at early
    exact unsent (List.dropLast_subset _ early)

variable {side : Side}

/-- A frame in the queue is the settings or one of a stream. -/
theorem frame_cases (offers : Offers side) {frame : Frame}
    (member : frame ∈ side.session.queue.order) :
    (frame = settingsFrame ∧ side.session.isServer = false) ∨
      ∃ (index : Nat) (entry : LocalStream), side.session.streams[index]? = some entry ∧
        frame.sid = entry.stream.sid ∧
        (frame = .new cmdSyn entry.stream.sid ∧ side.session.isServer = false ∨
          (∃ chunk ∈ side.accepted index, frame = pshFrame entry.stream.sid chunk) ∨
          frame = finFrame entry.stream.sid) := by
  rcases offers.known frame member with settings | ⟨index, entry, there, own⟩
  · exact .inl settings
  · refine .inr ⟨index, entry, there, own.symm, ?_⟩
    obtain ⟨⟨opening, frames, server, client⟩, -, -, -, -⟩ := offers.offer index entry there
    have among : frame ∈ framesOf entry.stream.sid side.session.queue.order :=
      List.mem_filter.mpr ⟨member, decide_eq_true own.symm⟩
    rw [frames] at among
    rcases List.mem_append.mp among with first | sent
    · cases isServer : side.session.isServer with
      | true => simp [server isServer] at first
      | false =>
        rcases client isServer with rfl | ⟨rfl, -, -⟩
        · exact .inl ⟨List.mem_singleton.mp first, rfl⟩
        · simp at first
    · exact .inr (sent_frames_cases sent)

/-- Every frame in the queue is short enough for its length field. -/
theorem frames_fit (offers : Offers side) :
    ∀ frame ∈ side.session.queue.order, frame.fits := by
  intro frame member
  rcases frame_cases offers member with ⟨rfl, -⟩ | ⟨index, entry, there, -, kind⟩
  · exact settings_fits
  · have small : (0 : Nat) < 2 ^ 16 := by decide
    rcases kind with ⟨rfl, -⟩ | ⟨chunk, among, rfl⟩ | rfl
    · exact small
    · exact ((offers.offer index entry there).sized chunk among).2
    · exact small

/-- Of a stream with frames in the queue, the opening frame is the first and the closing frame
is the last. -/
theorem frame_placed (offers : Offers side) {index : Nat} {entry : LocalStream}
    (there : side.session.streams[index]? = some entry) {before rest : List Frame} {frame : Frame}
    (order : side.session.queue.order = before ++ frame :: rest)
    (own : frame.sid = entry.stream.sid) :
    (frame = .new cmdSyn entry.stream.sid → framesOf entry.stream.sid before = []) ∧
      finFrame entry.stream.sid ∉ before := by
  obtain ⟨⟨opening, frames, server, client⟩, -, -, -, -⟩ := offers.offer index entry there
  rw [order, frames_of_append, frames_of_own own] at frames
  have opens : opening = [] ∨ opening = [.new cmdSyn entry.stream.sid] := by
    cases isServer : side.session.isServer with
    | true => exact .inl (server isServer)
    | false =>
      rcases client isServer with opened | ⟨unopened, -, -⟩
      · exact .inr opened
      · exact .inl unopened
  constructor
  · rintro rfl
    exact syn_first frames opens
  · intro member
    exact fin_last frames opens (List.mem_filter.mpr ⟨member, decide_eq_true rfl⟩)

end Frames

section Channels

/-- What a side has put into its queue is what the other has handled, and then what the other
has collected, what is on the wire and what was not written. -/
def Channel (sender receiver : Side) (wire : Bytes) : Prop :=
  ∃ todo rest, sender.session.queue.order = receiver.handled ++ todo ∧
    encodeAll todo = receiver.session.buf ++ (wire ++ rest) ∧
    (sender.session.writing = true → rest = encodeAll sender.session.queue.frames)

/-- The steps of a side that do not use its connection. -/
def offline : Event → Bool
  | .received _ | .writer | .writerFails => false
  | _ => true

/-- Frames are encoded one behind the other. -/
theorem encode_all_append (first second : List Frame) :
    encodeAll (first ++ second) = encodeAll first ++ encodeAll second := by
  simp [encodeAll]

/-- A step that does not use the connection leaves the writer and what it has taken, and may put
frames behind those in the queue. -/
structure Grows (session after : Session) : Prop where
  writing : after.writing = session.writing
  taken : after.queue.taken = session.queue.taken
  frames : ∃ new, after.queue.frames = session.queue.frames ++ new

/-- A step that touches neither the writer nor the queue is such a step. -/
theorem grows_same {session after : Session} (writing : after.writing = session.writing)
    (taken : after.queue.taken = session.queue.taken)
    (frames : after.queue.frames = session.queue.frames) : Grows session after :=
  ⟨writing, taken, [], by rw [frames, List.append_nil]⟩

/-- Giving an opening call up leaves the connection alone. -/
theorem abandon_grows (session : Session) (opener : Opener) :
    Grows session (session.abandon opener) := by
  unfold Session.abandon
  split <;> exact grows_same rfl rfl rfl

/-- Handling a frame leaves the connection alone, whatever the frame asks for. -/
theorem handle_frame_grows (session : Session) (buf : Bytes) (frame : Frame) :
    Grows session (Session.handleFrame { session with buf } frame) := by
  generalize handles : Session.handleFrame _ frame = after
  have outcome := handles ▸ frame_handled { session with buf } frame
  cases outcome <;> exact grows_same rfl rfl rfl

/-- Every step that does not use the connection is such a step. -/
theorem offline_grows (session : Session) (event : Event) (offline : offline event = true) :
    Grows session (AnytlsRegistry.step session event) := by
  cases event with
  | received octets => cases offline
  | writer => cases offline
  | writerFails => cases offline
  | loop =>
    simp only [AnytlsRegistry.step, Session.readLoop]
    split
    · next index msg _ =>
      rcases deliver_cases session index msg with same | ⟨-, same⟩ | same <;> rw [same] <;>
        exact grows_same rfl rfl rfl
    · next frame consumed _ _ =>
      exact handle_frame_grows session (session.buf.drop consumed) frame
    · exact grows_same rfl rfl rfl
  | beginOpen target =>
    simp only [AnytlsRegistry.step, Session.beginOpen]
    split <;> exact grows_same rfl rfl rfl
  | acquire =>
    simp only [AnytlsRegistry.step, Session.acquire]
    split
    · exact grows_same rfl rfl rfl
    · split
      · exact grows_same rfl rfl rfl
      · split
        · exact abandon_grows session _
        · split <;> exact grows_same rfl rfl rfl
  | push =>
    simp only [AnytlsRegistry.step, Session.push]
    split
    · exact grows_same rfl rfl rfl
    · split
      · exact grows_same rfl rfl rfl
      · split <;> exact ⟨rfl, rfl, _, rfl⟩
  | cancelOpen =>
    simp only [AnytlsRegistry.step, Session.cancelOpen]
    split
    · exact grows_same rfl rfl rfl
    · exact abandon_grows session _
  | write index chunk =>
    simp only [AnytlsRegistry.step, Session.write]
    split
    · exact grows_same rfl rfl rfl
    · split
      · split
        · exact grows_same rfl rfl rfl
        · next sent =>
          rw [send_psh_put sent]
          exact ⟨rfl, rfl, _, rfl⟩
      · exact grows_same rfl rfl rfl
  | shutdown index =>
    simp only [AnytlsRegistry.step, Session.shutdown]
    split
    · exact grows_same rfl rfl rfl
    · split
      · exact grows_same rfl rfl rfl
      · split
        · next entry _ _ _ =>
          cases sent : session.queue.trySend (finFrame entry.stream.sid) with
          | none => exact grows_same rfl rfl rfl
          | some queue =>
            rw [try_send_put sent]
            exact ⟨rfl, rfl, _, rfl⟩
        · exact grows_same rfl rfl rfl
  | read index size =>
    simp only [AnytlsRegistry.step, Session.read]
    split <;> exact grows_same rfl rfl rfl
  | drop index =>
    simp only [AnytlsRegistry.step, Session.dropStream]
    split <;> exact grows_same rfl rfl rfl
  | dropHandle =>
    simp only [AnytlsRegistry.step]
    split <;> exact grows_same rfl rfl rfl

/-- What such a step adds to the queue stands at the end of the order. -/
theorem Grows.order {session after : Session} (grows : Grows session after) :
    ∃ new, after.queue.frames = session.queue.frames ++ new ∧
      after.queue.order = session.queue.order ++ new := by
  obtain ⟨-, taken, new, frames⟩ := grows
  refine ⟨new, frames, ?_⟩
  rw [FrameQueue.order, FrameQueue.order, taken, frames, List.append_assoc]

variable {sender receiver : Side} {wire : Bytes}

/-- Frames that are put into the queue come behind what is there. -/
theorem Channel.offer (channel : Channel sender receiver wire) (event : Event)
    (isOffline : offline event = true) : Channel (sender.step event) receiver wire := by
  obtain ⟨todo, rest, order, octets, unwritten⟩ := channel
  have grows := offline_grows sender.session event isOffline
  obtain ⟨new, frames, longer⟩ := grows.order
  refine ⟨todo ++ new, rest ++ encodeAll new, ?_, ?_, ?_⟩
  · rw [step_session, longer, order, List.append_assoc]
  · rw [encode_all_append, octets]
    simp only [List.append_assoc]
  · rw [step_session, grows.writing, frames, encode_all_append]
    exact fun writing => by rw [unwritten writing]

/-- A receiver that neither reads the connection nor handles a frame leaves what is to come. -/
theorem Channel.aside (channel : Channel sender receiver wire) {after : Side}
    (handled : after.handled = receiver.handled)
    (buf : after.session.buf = receiver.session.buf) : Channel sender after wire := by
  rw [Channel, handled, buf]
  exact channel

/-- The frame that is handled next is the next one to come. -/
theorem Channel.next (channel : Channel sender receiver wire)
    (fit : ∀ frame ∈ sender.session.queue.order, frame.fits) {frame : Frame} {consumed : Nat}
    (next : receiver.session.next = some (frame, consumed)) :
    ∃ todo rest, sender.session.queue.order = receiver.handled ++ frame :: todo ∧
      encodeAll todo = receiver.session.buf.drop consumed ++ (wire ++ rest) ∧
      (sender.session.writing = true → rest = encodeAll sender.session.queue.frames) := by
  obtain ⟨todo, rest, order, octets, unwritten⟩ := channel
  have decoded : tryDecode receiver.session.buf = .frame frame consumed := by
    unfold Session.next at next
    split at next
    · simp at next
    · split at next
      · next found length there =>
        obtain ⟨rfl, rfl⟩ := Prod.mk.inj (Option.some.inj next)
        exact there
      · simp at next
  cases todo with
  | nil =>
    have empty := (List.append_eq_nil_iff.mp octets.symm).1
    rw [empty] at decoded
    simp [tryDecode, headerSize] at decoded
  | cons first todo =>
    have fits : first.fits := fit first (by rw [order]; simp)
    rcases try_decode_stream first fits todo _ _ octets.symm with
      ⟨waits, -⟩ | ⟨length, taken, left⟩
    · rw [decoded] at waits
      simp at waits
    · rw [decoded] at taken
      obtain ⟨rfl, rfl⟩ := DecodeOutcome.frame.inj taken
      exact ⟨todo, rest, order, left.symm, unwritten⟩

/-- A round of the loop takes the frame that it handles from what is to come. -/
theorem Channel.loop (channel : Channel sender receiver wire)
    (fit : ∀ frame ∈ sender.session.queue.order, frame.fits) :
    Channel sender (receiver.step .loop) wire := by
  rcases next : receiver.session.next with _ | ⟨frame, consumed⟩
  · apply channel.aside
    · simp only [Side.step, handles, next, Option.map_none, Option.toList_none, List.append_nil]
    · rw [step_session]
      simp only [AnytlsRegistry.step, Session.readLoop, next]
      split
      · next index msg _ =>
        rcases deliver_cases receiver.session index msg with same | ⟨-, same⟩ | same <;>
          rw [same]
        rfl
      · simp_all
      · rfl
  · obtain ⟨todo, rest, order, octets, unwritten⟩ := channel.next fit next
    refine ⟨todo, rest, ?_, ?_, unwritten⟩
    · simp only [Side.step, handles_next next, Option.toList_some]
      rw [order, List.append_assoc]
      rfl
    · rw [step_session]
      have steps : AnytlsRegistry.step receiver.session .loop = _ := read_loop_next next
      rw [steps]
      generalize handles : Session.handleFrame _ frame = result
      have outcome := handles ▸
        frame_handled { receiver.session with buf := receiver.session.buf.drop consumed } frame
      cases outcome <;> exact octets

/-- The writer puts the next frame on the wire. -/
theorem Channel.send (channel : Channel sender receiver wire)
    (writing : sender.session.writing = true) {frame : Frame} {frames : List Frame}
    (queued : sender.session.queue.frames = frame :: frames) :
    Channel (sender.step .writer) receiver (wire ++ frame.encode) := by
  obtain ⟨todo, rest, order, octets, unwritten⟩ := channel
  have steps : AnytlsRegistry.step sender.session .writer =
      { sender.session with queue := sender.session.queue.recv } := if_pos writing
  refine ⟨todo, encodeAll frames, ?_, ?_, ?_⟩
  · rw [step_session, steps, order_recv]
    exact order
  · rw [octets, unwritten writing, queued, encode_all_cons]
    simp only [List.append_assoc]
  · rw [step_session, steps]
    intro _
    simp only [FrameQueue.recv, queued]

/-- A write that fails has put some octets of the next frame on the wire. -/
theorem Channel.break (channel : Channel sender receiver wire)
    (writing : sender.session.writing = true) (count : Nat) {frame : Frame} {frames : List Frame}
    (queued : sender.session.queue.frames = frame :: frames) :
    Channel (sender.step .writerFails) receiver (wire ++ frame.encode.take count) := by
  obtain ⟨todo, rest, order, octets, unwritten⟩ := channel
  refine ⟨todo, frame.encode.drop count ++ encodeAll frames, order, ?_, ?_⟩
  · rw [octets, unwritten writing, queued, encode_all_cons]
    conv_lhs => rw [← List.take_append_drop count frame.encode]
    simp only [List.append_assoc]
  · intro still
    simp [Side.step, Side.session, Ledger.step, AnytlsRegistry.step] at still

/-- Octets from the front of the wire arrive. -/
theorem Channel.arrive (channel : Channel sender receiver wire) (count : Nat)
    (nonempty : wire.take count ≠ [])
    (wants : receiver.session.result = none ∧ receiver.session.sending = none ∧
      tryDecode receiver.session.buf = .needMore) :
    Channel sender (receiver.step (.received (.ok (wire.take count)))) (wire.drop count) := by
  obtain ⟨todo, rest, order, octets, unwritten⟩ := channel
  have steps : AnytlsRegistry.step receiver.session (.received (.ok (wire.take count))) =
      { receiver.session with buf := receiver.session.buf ++ wire.take count } := by
    obtain ⟨running, quiet, waits⟩ := wants
    cases taken : wire.take count with
    | nil => exact absurd taken nonempty
    | cons octet more =>
      simp [AnytlsRegistry.step, Session.received, running, quiet, waits]
  refine ⟨todo, rest, ?_, ?_, unwritten⟩
  · change _ = (receiver.handled ++ []) ++ todo
    rw [List.append_nil]
    exact order
  · rw [step_session, steps, octets]
    conv_lhs => rw [← List.take_append_drop count wire]
    simp only [List.append_assoc]

end Channels

section Roles

/-- The order of the queue only ever grows at its end. -/
theorem order_grows (session : Session) (event : Event) :
    ∃ new, (AnytlsRegistry.step session event).queue.order = session.queue.order ++ new := by
  cases isOffline : offline event with
  | true =>
    obtain ⟨new, -, order⟩ := (offline_grows session event isOffline).order
    exact ⟨new, order⟩
  | false =>
    refine ⟨[], ?_⟩
    rw [List.append_nil]
    cases event with
    | received octets =>
      obtain ⟨buf, same⟩ | ⟨-, -, result, same⟩ := received_cases session octets
      · simp only [AnytlsRegistry.step, same]
      · simp only [AnytlsRegistry.step, same]
    | writer =>
      simp only [AnytlsRegistry.step]
      split
      · exact order_recv _
      · rfl
    | writerFails => rfl
    | _ => cases isOffline

/-- What no step changes, and what only an opening changes. -/
theorem step_role (session : Session) (event : Event) :
    (AnytlsRegistry.step session event).isServer = session.isServer ∧
      ((AnytlsRegistry.step session event).handle = true → session.handle = true) ∧
      (opens session event = none →
        (AnytlsRegistry.step session event).nextSid = session.nextSid) := by
  cases event with
  | received octets =>
    obtain ⟨buf, same⟩ | ⟨-, -, result, same⟩ := received_cases session octets <;>
      simp only [AnytlsRegistry.step, same] <;> exact ⟨trivial, id, fun _ => trivial⟩
  | loop =>
    simp only [AnytlsRegistry.step, Session.readLoop]
    split
    · next index msg _ =>
      rcases deliver_cases session index msg with same | ⟨-, same⟩ | same <;> rw [same] <;>
        exact ⟨rfl, id, fun _ => rfl⟩
    · next frame consumed _ _ =>
      generalize handles : Session.handleFrame _ frame = after
      have outcome := handles ▸
        frame_handled { session with buf := session.buf.drop consumed } frame
      cases outcome <;> exact ⟨rfl, id, fun _ => rfl⟩
    · exact ⟨rfl, id, fun _ => rfl⟩
  | beginOpen target =>
    simp only [AnytlsRegistry.step, Session.beginOpen, opens]
    split
    · exact ⟨rfl, id, by simp⟩
    · exact ⟨rfl, id, fun _ => rfl⟩
  | _ =>
    refine ⟨(step_aside session _ rfl).isServer, (step_aside session _ rfl).handle, fun _ => ?_⟩
    simp only [AnytlsRegistry.step, Session.acquire, Session.push, Session.cancelOpen,
      Session.write, Session.shutdown, Session.read, Session.dropStream, Session.abandon]
    repeat' split
    all_goals rfl

/-- A client's streams are numbered from one, and its settings come first. -/
structure ClientSide (side : Side) : Prop where
  isServer : side.session.isServer = false
  numbered : ∀ (index : Nat) (entry : LocalStream), side.session.streams[index]? = some entry →
    entry.stream.sid = UInt32.ofNat (index + 1)
  next : side.session.nextSid = UInt32.ofNat (side.session.streams.length + 1)
  greeting : ∃ rest, side.session.queue.order = settingsFrame :: rest

/-- A server has a stream for each opening frame that it has handled and no others, and it has
the settings when it has handled anything. -/
structure ServerSide (side : Side) : Prop where
  isServer : side.session.isServer = true
  handle : side.session.handle = false
  greeted : side.handled ≠ [] → side.session.gotSettings = true
  opened : ∀ (index : Nat) (entry : LocalStream), side.session.streams[index]? = some entry →
    ∃ frame ∈ side.handled, frame.cmd = cmdSyn ∧ frame.sid = entry.stream.sid
  answered : ∀ frame ∈ side.handled, frame.cmd = cmdSyn → ∃ (index : Nat) (entry : LocalStream),
    side.session.streams[index]? = some entry ∧ entry.stream.sid = frame.sid

variable {side : Side}

/-- A loop that accepts no opening frame leaves the numbers of the streams. -/
theorem loop_numbers (noSyn : ∀ frame, handles side.session .loop = some frame →
      frame.cmd ≠ cmdSyn) :
    (AnytlsRegistry.step side.session .loop).streams.length = side.session.streams.length ∧
      ∀ (index : Nat) (later : LocalStream),
        (AnytlsRegistry.step side.session .loop).streams[index]? = some later →
        ∃ entry, side.session.streams[index]? = some entry ∧
          later.stream.sid = entry.stream.sid := by
  simp only [AnytlsRegistry.step, Session.readLoop]
  split
  · next target msg _ =>
    constructor
    · rcases deliver_cases side.session target msg with same | ⟨-, same⟩ | same <;> rw [same]
      exact List.length_modify ..
    · intro index later there
      rcases deliver_streams side.session target msg index later there with
        same | ⟨entry, known, rfl, -⟩
      · exact ⟨later, same, rfl⟩
      · exact ⟨entry, known, rfl⟩
  · next frame consumed _ next =>
    have other := noSyn frame (handles_next next)
    generalize handles : Session.handleFrame _ frame = after
    have outcome := handles ▸
      frame_handled { side.session with buf := side.session.buf.drop consumed } frame
    cases outcome with
    | syn cmd accepted => exact absurd cmd other
    | fin cmd =>
      refine ⟨List.length_map .., fun index later there => ?_⟩
      obtain ⟨entry, known, rfl⟩ := Option.map_eq_some_iff.mp
        ((List.getElem?_map ..).symm.trans there)
      exact ⟨entry, known, congrArg _ (finish_rest frame.sid entry).1⟩
    | _ => exact ⟨rfl, fun index later there => ⟨later, there, rfl⟩⟩
  · exact ⟨rfl, fun index later there => ⟨later, there, rfl⟩⟩

/-- A client keeps its numbering and its greeting while the steps are as expected. -/
theorem ClientSide.step (clientSide : ClientSide side) (event : Event)
    (expects : Expects side event) : ClientSide (side.step event) := by
  obtain ⟨isServer, numbered, next, first, greeting⟩ := clientSide
  obtain ⟨same, -, nextSid⟩ := step_role side.session event
  obtain ⟨new, order⟩ := order_grows side.session event
  have greets : ∃ rest, (side.step event).session.queue.order = settingsFrame :: rest := by
    refine ⟨first ++ new, ?_⟩
    rw [step_session, order, greeting]
    rfl
  -- without a new stream the numbers stay
  have kept (unopened : opens side.session event = none)
      (length : (AnytlsRegistry.step side.session event).streams.length =
        side.session.streams.length)
      (streams : ∀ (index : Nat) (later : LocalStream),
        (AnytlsRegistry.step side.session event).streams[index]? = some later →
        ∃ entry, side.session.streams[index]? = some entry ∧
          later.stream.sid = entry.stream.sid) : ClientSide (side.step event) := by
    refine ⟨same.trans isServer, ?_, ?_, greets⟩
    · intro index later there
      obtain ⟨entry, known, own⟩ := streams index later there
      rw [own]
      exact numbered index entry known
    · rw [step_session, nextSid unopened, length]
      exact next
  cases event with
  | received octets =>
    obtain ⟨buf, steps⟩ | ⟨-, -, result, steps⟩ := received_cases side.session octets <;>
      apply kept rfl <;> simp only [AnytlsRegistry.step, steps]
    · exact fun index later there => ⟨later, there, rfl⟩
    · exact fun index later there => ⟨later, there, rfl⟩
  | loop =>
    have noSyn (frame : Frame) (handled : handles side.session .loop = some frame) :
        frame.cmd ≠ cmdSyn := by
      intro syn
      have server := ((expects frame handled).opening syn).1
      simp [isServer] at server
    exact kept rfl (loop_numbers noSyn).1 (loop_numbers noSyn).2
  | beginOpen target =>
    by_cases free : side.session.handle ∧ side.session.opener.isNone
    · have steps : AnytlsRegistry.step side.session (.beginOpen target) = _ := if_pos free
      refine ⟨same.trans isServer, ?_, ?_, greets⟩
      · intro index later there
        rw [step_session, steps] at there
        rcases append_cases there with known | ⟨rfl, rfl⟩
        · exact numbered index later known
        · exact next
      · rw [step_session, steps]
        simp only [Session.register, next, List.length_append, List.length_singleton]
        exact (UInt32.ofNat_add _ 1).symm
    · have steps : AnytlsRegistry.step side.session (.beginOpen target) = side.session :=
        if_neg free
      have unopened : opens side.session (.beginOpen target) = none := if_neg free
      apply kept unopened <;> rw [steps]
      exact fun index later there => ⟨later, there, rfl⟩
  | _ =>
    refine kept rfl (step_aside side.session _ rfl).length fun index later there => ?_
    obtain ⟨entry, known, follows⟩ := (step_aside side.session _ rfl).before there
    exact ⟨entry, known, follows.sid⟩

/-- The loop of a server that has settings keeps them. -/
theorem settings_kept (session : Session) (event : Event) (got : session.gotSettings = true) :
    (AnytlsRegistry.step session event).gotSettings = true := by
  cases event with
  | received octets =>
    obtain ⟨buf, same⟩ | ⟨-, -, result, same⟩ := received_cases session octets <;>
      simp only [AnytlsRegistry.step, same] <;> exact got
  | loop =>
    simp only [AnytlsRegistry.step, Session.readLoop]
    split
    · next index msg _ =>
      rcases deliver_cases session index msg with same | ⟨-, same⟩ | same <;> rw [same] <;>
        exact got
    · next frame consumed _ _ =>
      unfold Session.handleFrame
      repeat' split
      all_goals first | rfl | exact got
    · exact got
  | beginOpen target =>
    simp only [AnytlsRegistry.step, Session.beginOpen]
    split <;> exact got
  | _ => exact (step_aside session _ rfl).gotSettings.trans got

/-- A server never gets a handle for opening streams. -/
theorem ServerSide.handleless (serverSide : ServerSide side) (event : Event) :
    (side.step event).session.handle = false := by
  by_contra kept
  have before := (step_role side.session event).2.1 (by simpa using kept)
  simp [serverSide.handle] at before

/-- After its first frame a server has the settings of its client. -/
theorem ServerSide.greeted_step (serverSide : ServerSide side) {event : Event}
    (greets : ∀ frame, handles side.session event = some frame → side.handled = [] →
      frame = settingsFrame) (nonempty : (side.step event).handled ≠ []) :
    (side.step event).session.gotSettings = true := by
  by_cases first : side.handled = []
  · cases event with
    | loop =>
      rcases next : side.session.next with _ | ⟨frame, consumed⟩
      · simp [Side.step, handles, next, first] at nonempty
      · obtain rfl := greets frame (handles_next next) first
        have steps : AnytlsRegistry.step side.session .loop = _ := read_loop_next next
        rw [step_session, steps]
        rfl
    | _ => simp [Side.step, handles, first] at nonempty
  · exact settings_kept side.session event (serverSide.greeted first)

/-- Without an opening frame the streams of a server stay. -/
theorem ServerSide.kept (serverSide : ServerSide side) {event : Event}
    (settings : (side.step event).handled ≠ [] → (side.step event).session.gotSettings = true)
    (noSyn : ∀ frame, handles side.session event = some frame → frame.cmd ≠ cmdSyn)
    (length : (AnytlsRegistry.step side.session event).streams.length =
      side.session.streams.length)
    (streams : ∀ (index : Nat) (later : LocalStream),
      (AnytlsRegistry.step side.session event).streams[index]? = some later →
      ∃ entry, side.session.streams[index]? = some entry ∧
        later.stream.sid = entry.stream.sid) : ServerSide (side.step event) := by
  refine ⟨(step_role side.session event).1.trans serverSide.isServer,
    serverSide.handleless event, settings, fun index later there => ?_, ?_⟩
  · obtain ⟨entry, known, own⟩ := streams index later there
    obtain ⟨frame, member, syn, number⟩ := serverSide.opened index entry known
    exact ⟨frame, List.mem_append_left _ member, syn, number.trans own.symm⟩
  · intro frame member syn
    rcases List.mem_append.mp member with before | new
    · obtain ⟨index, entry, known, own⟩ := serverSide.answered frame before syn
      have inside := (List.getElem?_eq_some_iff.mp known).1
      rw [← length] at inside
      obtain ⟨found, place, number⟩ := streams index _ (List.getElem?_eq_getElem inside)
      obtain rfl := Option.some.inj (known.symm.trans place)
      exact ⟨index, _, List.getElem?_eq_getElem inside, number.trans own⟩
    · exact absurd syn (noSyn frame (Option.mem_toList.mp new))

/-- A server has a stream for each opening frame as long as the settings come first. -/
theorem ServerSide.step (serverSide : ServerSide side) (event : Event)
    (expects : Expects side event)
    (greets : ∀ frame, handles side.session event = some frame → side.handled = [] →
      frame = settingsFrame) : ServerSide (side.step event) := by
  have settings := serverSide.greeted_step greets
  cases event with
  | received octets =>
    obtain ⟨buf, steps⟩ | ⟨-, -, result, steps⟩ := received_cases side.session octets <;>
      apply serverSide.kept settings (by simp [handles]) <;> simp only [AnytlsRegistry.step, steps]
    · exact fun index later there => ⟨later, there, rfl⟩
    · exact fun index later there => ⟨later, there, rfl⟩
  | loop =>
    by_cases noSyn : ∀ frame, handles side.session .loop = some frame → frame.cmd ≠ cmdSyn
    · exact serverSide.kept settings noSyn (loop_numbers noSyn).1 (loop_numbers noSyn).2
    · push Not at noSyn
      obtain ⟨frame, handled, syn⟩ := noSyn
      rcases next : side.session.next with _ | ⟨found, consumed⟩
      · simp [handles, next] at handled
      · obtain rfl := Option.some.inj ((handles_next next).symm.trans handled)
        have accepted := ((expects found handled).opening syn).2.1
        have steps : AnytlsRegistry.step side.session .loop = _ :=
          read_loop_syn next syn accepted
        have member : (side.step .loop).handled = side.handled ++ [found] := by
          simp only [Side.step, handles_next next, Option.toList_some]
        refine ⟨(step_role side.session .loop).1.trans serverSide.isServer,
          serverSide.handleless .loop, settings, fun index later there => ?_, ?_⟩
        · rw [step_session, steps] at there
          rw [member]
          rcases append_cases there with known | ⟨rfl, rfl⟩
          · obtain ⟨frame, before, cmd, number⟩ := serverSide.opened index later known
            exact ⟨frame, List.mem_append_left _ before, cmd, number⟩
          · exact ⟨found, by simp, syn, rfl⟩
        · rw [member, step_session, steps]
          intro frame among cmd
          rcases List.mem_append.mp among with before | new
          · obtain ⟨index, entry, known, own⟩ := serverSide.answered frame before cmd
            exact ⟨index, entry, registered_old known, own⟩
          · obtain rfl := List.mem_singleton.mp new
            exact ⟨side.session.streams.length, _, registered_new frame.sid side.session.isServer,
              rfl⟩
  | beginOpen target =>
    have steps : AnytlsRegistry.step side.session (.beginOpen target) = side.session :=
      if_neg fun free => by simp [serverSide.handle] at free
    apply serverSide.kept settings (by simp [handles]) <;> rw [steps]
    exact fun index later there => ⟨later, there, rfl⟩
  | _ =>
    refine serverSide.kept settings (by simp [handles]) (step_aside side.session _ rfl).length
      fun index later there => ?_
    obtain ⟨entry, known, follows⟩ := (step_aside side.session _ rfl).before there
    exact ⟨entry, known, follows.sid⟩

end Roles

section Links

inductive Party where
  | client
  | server
deriving DecidableEq

def Party.peer : Party → Party
  | .client => .server
  | .server => .client

/-- A link: both sides, and the octets that each has on the wire. -/
structure Link where
  side : Party → Side
  wire : Party → Bytes

/-- Nothing was sent yet, and the client has its settings in the queue. -/
def Link.start : Link := ⟨fun party => .start (decide (party = .server)), fun _ => []⟩

def Link.act (link : Link) (party : Party) (event : Event) : Link :=
  { link with side := Function.update link.side party ((link.side party).step event) }

/-- The loop reads the connection when it sends no message and has no whole frame. -/
def wants (session : Session) : Bool :=
  session.result.isNone && session.sending.isNone && decide (tryDecode session.buf = .needMore)

inductive LinkEvent where
  | acts (party : Party) (event : Event)
  | sends (party : Party)
  | breaks (party : Party) (count : Nat)
  | arrives (party : Party) (count : Nat)
  | ends (party : Party) (error : Option IoError)

/-- One step of a link. The writer puts the next frame on the wire, or fails after some of its
octets. The loop reads at most one buffer, or the end or an error. -/
def Link.step (link : Link) : LinkEvent → Link
  | .acts party event => if offline event then link.act party event else link
  | .sends party =>
      match (link.side party).session.queue.frames with
      | [] => link
      | frame :: _ =>
          if (link.side party).session.writing then
            { link.act party .writer with
              wire := Function.update link.wire party (link.wire party ++ frame.encode) }
          else link
  | .breaks party count =>
      match (link.side party).session.queue.frames with
      | [] => link
      | frame :: _ =>
          if (link.side party).session.writing then
            { link.act party .writerFails with
              wire := Function.update link.wire party
                (link.wire party ++ frame.encode.take count) }
          else link
  | .arrives party count =>
      let octets := (link.wire party.peer).take (min count maxPayload)
      if wants (link.side party).session ∧ octets ≠ [] then
        { link.act party (.received (.ok octets)) with
          wire := Function.update link.wire party.peer
            ((link.wire party.peer).drop (min count maxPayload)) }
      else link
  | .ends party error =>
      if wants (link.side party).session then
        link.act party (.received (error.elim (.ok []) .error))
      else link

end Links

end OmniProxy.AnytlsLink
