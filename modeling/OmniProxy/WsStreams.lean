import OmniProxy.Connections
import OmniProxy.GuardedRuns
import OmniProxy.PolledReaders

/-!
# The stream of a WebSocket

The stream reads the payloads of binary and text messages and writes its octets as binary
messages. A control message has no payload, but completes the read that has polled it, so a
ping in the middle looks like the end. What is written is kept until a flush sends it as one
message, and a shutdown closes the WebSocket without one.
-/

namespace OmniProxy.WsStreams

open ByteStrings Connections GuardedRuns PolledReaders

section Streams

/-- A message that the library delivers. -/
inductive Message where
  | text (t : String)
  | binary (b : Bytes)
  | ping (payload : Bytes)
  | pong (payload : Bytes)
  | close
  | frame
deriving DecidableEq

/-- What the stream has the library send. -/
inductive Frame where
  | binary (data : Bytes)
  | close
deriving DecidableEq

/-- The stream, with what the library delivers to it and what it has sent. -/
structure WsProxyStream where
  incoming : List (Answer String Message)
  outgoing : List Frame
  readBuf : Bytes
  writeBuf : Bytes

def wsErr (e : String) : IoError := ⟨.other, "ws: " ++ e⟩

/-- Hand out of the buffer what a read has room for. -/
def WsProxyStream.putSlice (self : WsProxyStream) (remaining : Nat) :
    Poll (Except IoError Bytes) × WsProxyStream :=
  let n := min remaining self.readBuf.length
  (.ready (.ok (self.readBuf.take n)), { self with readBuf := self.readBuf.drop n })

def WsProxyStream.pollRead (remaining : Nat) (self : WsProxyStream) :
    Poll (Except IoError Bytes) × WsProxyStream :=
  if self.readBuf = [] then
    let (answer, incoming) := pollNext self.incoming
    let self := { self with incoming := incoming }
    match answer with
    | .ready (some (.ok (.binary b))) =>
        { self with readBuf := self.readBuf ++ b }.putSlice remaining
    | .ready (some (.ok (.text t))) =>
        { self with readBuf := self.readBuf ++ asBytes t }.putSlice remaining
    | .ready (some (.ok .close)) => (.ready (.ok []), self)
    | .ready (some (.ok _)) => self.putSlice remaining
    | .ready (some (.error e)) => (.ready (.error (wsErr e)), self)
    | .ready none => (.ready (.ok []), self)
    | .pending => (.pending, self)
  else self.putSlice remaining

/-- Keep what is written. -/
def WsProxyStream.pollWrite (buf : Bytes) (self : WsProxyStream) :
    Poll (Except IoError Nat) × WsProxyStream :=
  (.ready (.ok buf.length), { self with writeBuf := self.writeBuf ++ buf })

/-- What the library answers to the calls of a flush. -/
structure SinkAnswers where
  pollReady : Poll (Except String Unit)
  startSend : Except String Unit
  pollFlush : Poll (Except String Unit)

/-- The answer of the library with its error as one of the stream. -/
def answered : Poll (Except String Unit) → Poll (Except IoError Unit)
  | .ready (.ok ()) => .ready (.ok ())
  | .ready (.error e) => .ready (.error (wsErr e))
  | .pending => .pending

/-- Send what has been written as one message when the library is ready for it. -/
def WsProxyStream.pollFlush (sink : SinkAnswers) (self : WsProxyStream) :
    Poll (Except IoError Unit) × WsProxyStream :=
  if self.writeBuf ≠ [] then
    let data := self.writeBuf
    let self := { self with writeBuf := [] }
    match sink.pollReady with
    | .ready (.ok ()) =>
        match sink.startSend with
        | .ok () =>
            (answered sink.pollFlush, { self with outgoing := self.outgoing ++ [.binary data] })
        | .error e => (.ready (.error (wsErr e)), self)
    | .ready (.error e) => (.ready (.error (wsErr e)), self)
    | .pending => (.pending, { self with writeBuf := data })
  else (answered sink.pollFlush, self)

/-- Close the WebSocket: the library sends a close frame at the first call. -/
def WsProxyStream.pollShutdown (pollClose : Poll (Except String Unit)) (self : WsProxyStream) :
    Poll (Except IoError Unit) × WsProxyStream :=
  let outgoing :=
    if .close ∈ self.outgoing then self.outgoing else self.outgoing ++ [.close]
  (answered pollClose, { self with outgoing := outgoing })

end Streams

section Reading

/-- The payload of a message for the reader. -/
def Message.payload : Message → Bytes
  | .text t => asBytes t
  | .binary b => b
  | _ => []

/-- What the answers of the library are for the reader: chunks, errors and the end. -/
def chunkOf : Answer String Message → Answer IoError Bytes
  | .ready (some (.ok .close)) => .ready none
  | .ready (some (.ok message)) => .ready (some (.ok message.payload))
  | .ready (some (.error e)) => .ready (some (.error (wsErr e)))
  | .ready none => .ready none
  | .pending => .pending

/-- The stream as a reader of such chunks. -/
def readerOf (self : WsProxyStream) : Reader IoError :=
  ⟨self.readBuf, false, self.incoming.map chunkOf⟩

/-- A read hands out the front of what is held, and keeps the rest. -/
theorem put_slice_eq (self : WsProxyStream) (remaining : Nat) :
    self.putSlice remaining =
      (.ready (.ok (self.readBuf.take remaining)),
        { self with readBuf := self.readBuf.drop remaining }) := by
  rw [WsProxyStream.putSlice, take_capped, drop_capped]

/-- A message that does not close the stream is handed out as far as there is room. -/
theorem poll_message (message : Message) (stays : message ≠ .close) (size : Nat)
    (incoming : List (Answer String Message)) (outgoing : List Frame) (writeBuf : Bytes) :
    WsProxyStream.pollRead size
        ⟨.ready (some (.ok message)) :: incoming, outgoing, [], writeBuf⟩ =
      WsProxyStream.putSlice ⟨incoming, outgoing, message.payload, writeBuf⟩ size := by
  cases message with
  | close => exact absurd rfl stays
  | _ => rfl

/-- A message that is no close frame gives its payload as a chunk. -/
theorem chunk_of_message {message : Message} (stays : message ≠ .close) :
    chunkOf (.ready (some (.ok message))) = .ready (some (.ok message.payload)) := by
  cases message with
  | close => exact absurd rfl stays
  | _ => rfl

/-- The stream reads as that reader. The cases are the answers of the library. -/
theorem reads_as_reader : ReadAs false WsProxyStream.pollRead readerOf := by
  intro size self
  obtain ⟨incoming, outgoing, readBuf, writeBuf⟩ := self
  by_cases empty : readBuf = []
  · subst empty
    rcases incoming with _ | ⟨(_ | (error | message)) | _, incoming⟩
    · rfl
    · rfl
    · rfl
    · by_cases close : message = .close
      · subst close
        rfl
      · rw [poll_message message close, put_slice_eq, readerOf, List.map_cons,
          chunk_of_message close]
        rfl
    · rfl
  · have nonempty : (readerOf ⟨incoming, outgoing, readBuf, writeBuf⟩).leftover ≠ [] := empty
    rw [pollRead, WsProxyStream.pollRead, if_pos nonempty, if_neg empty, put_slice_eq]
    rfl

/-- The source has ended the stream: it has no more, or has delivered a close message. -/
def EndsStream (answer : Answer String Message) : Prop :=
  answer = .ready none ∨ answer = .ready (some (.ok .close))

/-- No message in front of the end is without octets for the reader. -/
def NoBlankMessage (incoming : List (Answer String Message)) : Prop :=
  ∀ before message after, incoming = before ++ .ready (some (.ok message)) :: after →
    message.payload = [] → message = .close ∨ ∃ answer ∈ before, EndsStream answer

/-- The stream sees an end exactly when the answer ends it. -/
theorem chunk_of_end_iff (answer : Answer String Message) :
    chunkOf answer = .ready none ↔ EndsStream answer := by
  rcases answer with (_ | (error | message)) | _
  · simp [chunkOf, EndsStream]
  · simp [chunkOf, EndsStream]
  · cases message <;> simp [chunkOf, EndsStream]
  · simp [chunkOf, EndsStream]

/-- The stream sees an empty chunk exactly when a message has no octets. -/
theorem chunk_of_blank_iff (answer : Answer String Message) :
    chunkOf answer = .ready (some (.ok [])) ↔
      ∃ message, answer = .ready (some (.ok message)) ∧ message.payload = [] ∧
        message ≠ .close := by
  rcases answer with (_ | (error | message)) | _
  · simp [chunkOf]
  · simp [chunkOf]
  · cases message <;> simp [chunkOf, Message.payload]
  · simp [chunkOf]

/-- The stream sees no empty chunk exactly when no message is without octets. -/
theorem no_blank_iff (incoming : List (Answer String Message)) :
    NoBlank (incoming.map chunkOf) ↔ NoBlankMessage incoming := by
  simp only [no_blank_map_iff, chunk_of_end_iff, chunk_of_blank_iff]
  constructor
  · intro noBlank before message after split empty
    by_cases close : message = .close
    · exact .inl close
    · exact .inr (noBlank before _ after split ⟨message, rfl, empty, close⟩)
  · rintro noBlank before item after split ⟨message, rfl, empty, other⟩
    exact (noBlank before message after split empty).resolve_left other

/-- For all messages and all buffers that are not empty: the stream gives the payloads up to
the first close message or the end, and no octets only there, exactly when no control message
and no empty one comes before it. -/
theorem ws_reads_as_stream_iff (incoming : List (Answer String Message))
    (outgoing : List Frame) (writeBuf : Bytes) :
    ReadsAsStream WsProxyStream.pollRead (fun self => self.incoming.map chunkOf)
        ⟨incoming, outgoing, [], writeBuf⟩ ↔ NoBlankMessage incoming := by
  rw [← no_blank_iff]
  exact view_reads_as_stream_iff reads_as_reader ⟨rfl, rfl⟩

/-- A ping in front of a message completes the first read with no octets. -/
theorem ping_looks_like_end :
    (WsProxyStream.pollRead 4
      ⟨[.ready (some (.ok (.ping []))), .ready (some (.ok (.binary [104, 105])))], [], [], []⟩).1 =
        .ready (.ok []) ∧
    ¬ReadsAsStream WsProxyStream.pollRead (fun self => self.incoming.map chunkOf)
      ⟨[.ready (some (.ok (.ping []))), .ready (some (.ok (.binary [104, 105])))], [], [], []⟩ := by
  refine ⟨rfl, fun reads => ?_⟩
  have noBlank := (no_blank_iff _).mp
    ((view_reads_as_stream_iff reads_as_reader ⟨rfl, rfl⟩).mp reads)
  rcases noBlank [] (.ping []) _ rfl rfl with same | ⟨answer, member, -⟩
  · cases same
  · cases member

end Reading

section Writing

/-- A call of the writer, with what the library answers. -/
inductive Call where
  | pollWrite (buf : Bytes)
  | pollFlush (sink : SinkAnswers)
  | pollShutdown (pollClose : Poll (Except String Unit))

/-- The stream and the octets that it has accepted. -/
structure Written where
  stream : WsProxyStream
  accepted : Bytes

def Written.step (state : Written) : Call → Written
  | .pollWrite buf => ⟨(state.stream.pollWrite buf).2, state.accepted ++ buf⟩
  | .pollFlush sink => { state with stream := (state.stream.pollFlush sink).2 }
  | .pollShutdown pollClose => { state with stream := (state.stream.pollShutdown pollClose).2 }

/-- The payloads of the binary messages in front of the close frame. -/
def sentBeforeClose : List Frame → Bytes
  | .binary data :: frames => data ++ sentBeforeClose frames
  | _ => []

/-- A flush with octets to send fails before the library has taken them. -/
def Fails (sink : SinkAnswers) : Prop :=
  (∃ e, sink.pollReady = .ready (.error e)) ∨
    sink.pollReady = .ready (.ok ()) ∧ ∃ e, sink.startSend = .error e

/-- No call loses octets: nothing is written behind the close frame, no flush fails with octets
to send, and the first shutdown finds none. -/
def LosesNothing (state : Written) : Call → Prop
  | .pollWrite buf => .close ∈ state.stream.outgoing → buf = []
  | .pollFlush sink =>
      .close ∉ state.stream.outgoing → state.stream.writeBuf ≠ [] → ¬Fails sink
  | .pollShutdown _ => .close ∉ state.stream.outgoing → state.stream.writeBuf = []

/-- The octets that are sent, and before the close frame those that still can be. -/
def carried (state : Written) : Bytes :=
  sentBeforeClose state.stream.outgoing ++
    if .close ∈ state.stream.outgoing then [] else state.stream.writeBuf

/-- All octets that are accepted are sent before the close frame. -/
def SentAll (state : Written) : Prop :=
  sentBeforeClose state.stream.outgoing = state.accepted

/-- Behind a close frame nothing counts. -/
theorem sent_closed {frames : List Frame} (closed : .close ∈ frames) (more : List Frame) :
    sentBeforeClose (frames ++ more) = sentBeforeClose frames := by
  induction frames with
  | nil => cases closed
  | cons frame frames inductionHypothesis =>
    cases frame with
    | close => rfl
    | binary data =>
      have later : .close ∈ frames := by
        rcases List.mem_cons.mp closed with same | later
        · cases same
        · exact later
      rw [List.cons_append, sentBeforeClose, sentBeforeClose, inductionHypothesis later]

/-- In front of it every frame counts. -/
theorem sent_open {frames : List Frame} (running : .close ∉ frames) (more : List Frame) :
    sentBeforeClose (frames ++ more) = sentBeforeClose frames ++ sentBeforeClose more := by
  induction frames with
  | nil => rfl
  | cons frame frames inductionHypothesis =>
    cases frame with
    | close => exact absurd (.head _) running
    | binary data =>
      rw [List.cons_append, sentBeforeClose, sentBeforeClose,
        inductionHypothesis fun later => running (.tail _ later), List.append_assoc]

/-- Behind a close frame only what was sent is carried. -/
theorem carried_closed {state : Written} (closed : .close ∈ state.stream.outgoing) :
    carried state = sentBeforeClose state.stream.outgoing := by
  rw [carried, if_pos closed, List.append_nil]

/-- Before a close frame what is buffered is carried too. -/
theorem carried_open {state : Written} (running : .close ∉ state.stream.outgoing) :
    carried state = sentBeforeClose state.stream.outgoing ++ state.stream.writeBuf := by
  rw [carried, if_neg running]

/-- The octets that a call offers. -/
def Call.offered : Call → Bytes
  | .pollWrite buf => buf
  | .pollFlush _ => []
  | .pollShutdown _ => []

/-- What a call does: the octets that it offers are accepted and carried, unless it loses some;
then fewer are carried. -/
structure Effect (state : Written) (call : Call) : Prop where
  accepts : (state.step call).accepted = state.accepted ++ call.offered
  carries : LosesNothing state call → carried (state.step call) = carried state ++ call.offered
  loses : ¬LosesNothing state call →
    (carried (state.step call)).length < (carried state ++ call.offered).length

/-- What a write does, whatever the sink answers. -/
theorem write_effect (state : Written) (buf : Bytes) : Effect state (.pollWrite buf) where
  accepts := rfl
  carries nothing := by
    by_cases closed : .close ∈ state.stream.outgoing
    · have still : .close ∈ (state.step (.pollWrite buf)).stream.outgoing := closed
      rw [carried_closed still, carried_closed closed, Call.offered, nothing closed,
        List.append_nil]
      rfl
    · have still : .close ∉ (state.step (.pollWrite buf)).stream.outgoing := closed
      rw [carried_open still, carried_open closed, List.append_assoc]
      rfl
  loses lost := by
    rw [LosesNothing, Classical.not_imp] at lost
    obtain ⟨closed, something⟩ := lost
    have still : .close ∈ (state.step (.pollWrite buf)).stream.outgoing := closed
    rw [carried_closed still, carried_closed closed, List.length_append]
    exact Nat.lt_add_of_pos_right (List.length_pos_of_ne_nil something)

/-- A call that offers nothing and changes nothing has its effect. -/
theorem idle_effect {state : Written} {call : Call} (same : state.step call = state)
    (empty : call.offered = []) (nothing : LosesNothing state call) : Effect state call := by
  refine ⟨?_, fun _ => ?_, fun lost => absurd nothing lost⟩ <;>
    rw [same, empty, List.append_nil]

/-- The first shutdown sends the close frame, and what has been kept cannot be sent any more. -/
theorem shutdown_effect (state : Written) (pollClose : Poll (Except String Unit)) :
    Effect state (.pollShutdown pollClose) := by
  by_cases closed : .close ∈ state.stream.outgoing
  · have same : state.step (.pollShutdown pollClose) = state := by
      rw [Written.step, WsProxyStream.pollShutdown, if_pos closed]
    exact idle_effect same rfl fun running => absurd closed running
  · have frames : (state.step (.pollShutdown pollClose)).stream.outgoing =
        state.stream.outgoing ++ [.close] := if_neg closed
    have sent : carried (state.step (.pollShutdown pollClose)) =
        sentBeforeClose state.stream.outgoing := by
      rw [carried_closed (by rw [frames]; simp), frames, sent_open closed]
      exact List.append_nil _
    refine ⟨(List.append_nil _).symm, fun nothing => ?_, fun lost => ?_⟩
    · rw [sent, carried_open closed, nothing closed, List.append_nil, Call.offered,
        List.append_nil]
    · rw [LosesNothing, Classical.not_imp] at lost
      rw [sent, carried_open closed, Call.offered, List.append_nil, List.length_append]
      exact Nat.lt_add_of_pos_right (List.length_pos_of_ne_nil lost.2)

section Flushing

variable {state : Written} {sink : SinkAnswers}

/-- A flush that fails forgets what has been kept. -/
theorem failed_effect (nonempty : state.stream.writeBuf ≠ []) (fails : Fails sink)
    (stepped : state.step (.pollFlush sink) =
      { state with stream := { state.stream with writeBuf := [] } }) :
    Effect state (.pollFlush sink) := by
  have same : (state.step (.pollFlush sink)).stream.outgoing = state.stream.outgoing := by
    rw [stepped]
  refine ⟨?_, fun nothing => ?_, fun lost => ?_⟩
  · rw [stepped, Call.offered, List.append_nil]
  · have closed : .close ∈ state.stream.outgoing := by
      by_contra running
      exact nothing running nonempty fails
    rw [carried_closed (by rwa [same]), carried_closed closed, same, Call.offered,
      List.append_nil]
  · have running : .close ∉ state.stream.outgoing := by
      intro closed
      exact lost fun running => absurd closed running
    rw [carried_open (by rwa [same]), carried_open running, same, stepped, Call.offered,
      List.append_nil, List.append_nil, List.length_append]
    exact Nat.lt_add_of_pos_right (List.length_pos_of_ne_nil nonempty)

/-- A flush for which the library is ready sends it. -/
theorem sent_effect (succeeds : ¬Fails sink)
    (stepped : state.step (.pollFlush sink) =
      { state with
        stream :=
          { state.stream with
            outgoing := state.stream.outgoing ++ [.binary state.stream.writeBuf]
            writeBuf := [] } }) :
    Effect state (.pollFlush sink) := by
  have frames : (state.step (.pollFlush sink)).stream.outgoing =
      state.stream.outgoing ++ [.binary state.stream.writeBuf] := by
    rw [stepped]
  have nothing : LosesNothing state (.pollFlush sink) := fun _ _ => succeeds
  refine ⟨?_, fun _ => ?_, fun lost => absurd nothing lost⟩
  · rw [stepped, Call.offered, List.append_nil]
  · rw [Call.offered, List.append_nil]
    by_cases closed : .close ∈ state.stream.outgoing
    · rw [carried_closed (by rw [frames]; exact List.mem_append_left _ closed),
        carried_closed closed, frames, sent_closed closed]
    · rw [carried_open (by rw [frames]; simpa using closed), carried_open closed, frames,
        sent_open closed, stepped]
      simp [sentBeforeClose]

/-- A flush sends what has been kept, keeps it while the library is not ready, or forgets it
when the library fails. -/
theorem flush_effect (state : Written) (sink : SinkAnswers) :
    Effect state (.pollFlush sink) := by
  by_cases empty : state.stream.writeBuf = []
  · have same : state.step (.pollFlush sink) = state := by
      rw [Written.step, WsProxyStream.pollFlush, if_neg (not_not.mpr empty)]
    exact idle_effect same rfl fun _ something => absurd empty something
  · cases ready : sink.pollReady with
    | pending =>
      have same : state.step (.pollFlush sink) = state := by
        rw [Written.step, WsProxyStream.pollFlush, if_pos empty, ready]
      refine idle_effect same rfl fun _ _ fails => ?_
      simp [Fails, ready] at fails
    | ready answer =>
      cases answer with
      | error e =>
        refine failed_effect empty (.inl ⟨e, ready⟩) ?_
        rw [Written.step, WsProxyStream.pollFlush, if_pos empty, ready]
      | ok done =>
        cases sent : sink.startSend with
        | error e =>
          refine failed_effect empty (.inr ⟨ready, e, sent⟩) ?_
          rw [Written.step, WsProxyStream.pollFlush, if_pos empty, ready]
          dsimp only
          rw [sent]
        | ok sentDone =>
          refine sent_effect ?_ ?_
          · simp [Fails, ready, sent]
          · rw [Written.step, WsProxyStream.pollFlush, if_pos empty, ready]
            dsimp only
            rw [sent]

end Flushing

/-- Every call accepts the octets that it offers, and carries them unless it loses some. -/
theorem call_effect (state : Written) (call : Call) : Effect state call := by
  cases call with
  | pollWrite buf => exact write_effect state buf
  | pollFlush sink => exact flush_effect state sink
  | pollShutdown pollClose => exact shutdown_effect state pollClose

/-- No call carries more than is accepted. -/
theorem carried_fits (state : Written) (call : Call)
    (fits : (carried state).length ≤ state.accepted.length) :
    (carried (state.step call)).length ≤ (state.step call).accepted.length := by
  obtain ⟨accepts, carries, loses⟩ := call_effect state call
  rw [accepts, List.length_append]
  by_cases nothing : LosesNothing state call
  · rw [carries nothing, List.length_append]
    omega
  · have fewer := loses nothing
    rw [List.length_append] at fewer
    omega

/-- A call leads to a state that carries what is accepted exactly from such a state, and when it
loses nothing. -/
theorem call_carries_iff (state : Written) (call : Call)
    (fits : (carried state).length ≤ state.accepted.length) :
    carried (state.step call) = (state.step call).accepted ↔
      carried state = state.accepted ∧ LosesNothing state call := by
  obtain ⟨accepts, carries, loses⟩ := call_effect state call
  rw [accepts]
  by_cases nothing : LosesNothing state call
  · rw [carries nothing, List.append_left_inj, and_iff_left nothing]
  · refine iff_of_false (fun same => ?_) fun both => nothing both.2
    have fewer := loses nothing
    rw [same, List.length_append, List.length_append] at fewer
    omega

/-- A shutdown leaves a close frame. -/
theorem shutdown_closes (state : Written) (pollClose : Poll (Except String Unit)) :
    .close ∈ (state.step (.pollShutdown pollClose)).stream.outgoing := by
  rw [Written.step, WsProxyStream.pollShutdown]
  dsimp only
  split
  · assumption
  · exact List.mem_append_right _ (.head _)

/-- A stream on which nothing has been written. -/
def fresh (incoming : List (Answer String Message)) : Written := ⟨⟨incoming, [], [], []⟩, []⟩

/-- A completed shutdown. -/
def shutdownDone : Call := .pollShutdown (.ready (.ok ()))

/-- When a shutdown completes, all octets that were accepted have been sent before the close
frame, in order and once, exactly when no call has lost any. -/
theorem shutdown_sends_all_iff (incoming : List (Answer String Message)) (calls : List Call) :
    SentAll (run Written.step (fresh incoming) (calls ++ [shutdownDone])) ↔
      EachStep Written.step (fresh incoming) LosesNothing (calls ++ [shutdownDone]) := by
  have final := @final_iff_each_step _ _ Written.step (fresh incoming)
    (fun state => (carried state).length ≤ state.accepted.length)
    (fun state => carried state = state.accepted) LosesNothing (Nat.le_refl _) rfl carried_fits
    call_carries_iff (calls ++ [shutdownDone])
  have closed : .close ∈
      (run Written.step (fresh incoming) (calls ++ [shutdownDone])).stream.outgoing := by
    rw [run_snoc]
    exact shutdown_closes _ _
  rw [← final, carried_closed closed]
  rfl

/-- The calls of a hijacked connection: its answer is written and the stream shut down. -/
def hijack (resp : Bytes) : List Call :=
  (if resp = [] then [] else [.pollWrite resp]) ++ [shutdownDone]

/-- There is no flush in between, so the close frame is all that is sent. -/
theorem hijack_outgoing (incoming : List (Answer String Message)) (resp : Bytes) :
    (run Written.step (fresh incoming) (hijack resp)).stream.outgoing = [.close] ∧
      (run Written.step (fresh incoming) (hijack resp)).accepted = resp := by
  by_cases empty : resp = []
  · rw [hijack, if_pos empty, empty]
    exact ⟨rfl, rfl⟩
  · rw [hijack, if_neg empty]
    exact ⟨rfl, rfl⟩

/-- An answer of three octets is lost. -/
theorem hijack_loses_answer :
    hijack [97, 98, 99] = [.pollWrite [97, 98, 99]] ++ [shutdownDone] ∧
      ¬SentAll (run Written.step (fresh []) ([.pollWrite [97, 98, 99]] ++ [shutdownDone])) := by
  refine ⟨rfl, fun sent => ?_⟩
  cases sent

end Writing

end OmniProxy.WsStreams
