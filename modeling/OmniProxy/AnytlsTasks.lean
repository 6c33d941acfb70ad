import OmniProxy.AnytlsSession

/-!
# The task of an AnyTLS stream

For a stream of a client the messages in its queue and those still to come make up what
is ahead of its task. The task takes the address from the front, calls the route with the
client's target, and every read then returns what is next of the data written. The end is
seen when nothing is ahead.

This is about one stream. How messages come into its queue is left open.
-/

namespace OmniProxy.AnytlsTasks

open AnytlsFrames AnytlsSession AnytlsStreams ByteStrings ProxyTargets

section Clients

/-- The frame that carries a message. -/
def frameOf (sid : UInt32) : StreamMsg → Frame
  | .data data => ⟨cmdPsh, sid, data⟩
  | .eof => finFrame sid

/-- The pieces in which a client sends its data. -/
def chunksOf (client : ClientStream) : List Bytes := client.writes.flatMap (pieces maxPayload)

/-- The messages of a stream after its address. -/
def dataMessages (client : ClientStream) : List StreamMsg :=
  (chunksOf client).map .data ++ [.eof]

/-- The messages of a stream. -/
def messagesOf (client : ClientStream) : List StreamMsg :=
  .data (addressOf client.target) :: dataMessages client

/-- A stream's frames open it and carry its messages. -/
theorem frames_of_messages (client : ClientStream) :
    client.frames = .new cmdSyn client.sid :: (messagesOf client).map (frameOf client.sid) := by
  have writes : client.writes.flatMap (writeFrames client.sid) =
      ((chunksOf client).map StreamMsg.data).map (frameOf client.sid) := by
    simp only [chunksOf, List.map_flatMap, List.map_map]
    rfl
  rw [ClientStream.frames, writes, messagesOf, dataMessages, List.map_cons, List.map_append]
  rfl

/-- A stream writes no empty chunk. -/
theorem chunks_nonempty (client : ClientStream) : ∀ chunk ∈ chunksOf client, chunk ≠ [] := by
  intro chunk member
  obtain ⟨data, -, inside⟩ := List.mem_flatMap.mp member
  exact (pieces_bounded maxPayload data (by decide) chunk inside).1

/-- The chunks of a stream are what it wrote. -/
theorem chunks_flatten (client : ClientStream) : (chunksOf client).flatten = client.written := by
  rw [chunksOf, ClientStream.written]
  induction client.writes with
  | nil => rfl
  | cons data writes inductionHypothesis =>
    rw [List.flatMap_cons, List.flatten_append, inductionHypothesis,
      pieces_flatten maxPayload data (by decide), List.flatten_cons]

/-- The frame of a message has the number of its stream. -/
theorem frame_of_sid (sid : UInt32) (msg : StreamMsg) : (frameOf sid msg).sid = sid := by
  cases msg <;> rfl

/-- All frames of a stream have its number. -/
theorem frames_sid (client : ClientStream) : ∀ frame ∈ client.frames, frame.sid = client.sid := by
  intro frame member
  rw [frames_of_messages] at member
  rcases List.mem_cons.mp member with rfl | member
  · rfl
  · obtain ⟨msg, -, rfl⟩ := List.mem_map.mp member
    exact frame_of_sid client.sid msg

/-- A stream with a named target sends only frames short enough for their length field. -/
theorem frames_fit (client : ClientStream) (named : client.target.named) :
    ∀ frame ∈ client.frames, frame.fits := by
  intro frame member
  rw [frames_of_messages, messagesOf, dataMessages] at member
  have empty : (0 : Nat) < 2 ^ 16 := by decide
  rcases List.mem_cons.mp member with rfl | member
  · exact empty
  · obtain ⟨msg, among, rfl⟩ := List.mem_map.mp member
    rcases List.mem_cons.mp among with rfl | among
    · exact Nat.lt_of_le_of_lt (encode_into_length client.target named) (by decide)
    · rcases List.mem_append.mp among with among | among
      · obtain ⟨chunk, inside, rfl⟩ := List.mem_map.mp among
        obtain ⟨data, -, piece⟩ := List.mem_flatMap.mp inside
        exact Nat.lt_of_le_of_lt (pieces_bounded maxPayload data (by decide) chunk piece).2
          (by decide)
      · obtain rfl := List.mem_singleton.mp among
        exact empty

end Clients

section Tasks

/-- What is handed out and what is left over make up the data. -/
theorem hand_out_join (remaining : Nat) (data : Bytes) :
    (handOut remaining data).1 ++ (handOut remaining data).2.getD [] = data := by
  simp only [handOut]
  split
  · rw [Option.getD_some, List.take_append_drop]
  · rw [Option.getD_none, List.append_nil, List.take_of_length_le (by omega)]

/-- What a read leaves over has octets in it. -/
theorem hand_out_leftover (remaining : Nat) (data : Bytes) :
    (handOut remaining data).2 ≠ some [] := by
  simp only [handOut]
  split
  · rename_i more
    rw [ne_eq, Option.some.injEq, List.drop_eq_nil_iff]
    omega
  · simp

/-- With room, something is handed out. -/
theorem hand_out_some (remaining : Nat) (data : Bytes) (nonempty : data ≠ []) :
    (decide (0 < remaining) && (handOut remaining data).1.isEmpty) = false := by
  have positive := List.length_pos_of_ne_nil nonempty
  by_cases room : 0 < remaining
  · have out : (handOut remaining data).1 ≠ [] := by
      intro empty
      have width := congrArg List.length empty
      simp only [handOut, List.length_take, List.length_nil] at width
      omega
    simp [out]
  · simp [room]

/-- How the task of a client's stream stands, with the messages ahead of it and the calls
of the route for it. -/
inductive Serves (client : ClientStream) :
    StreamTask → List StreamMsg → List ProxyTarget → Prop where
  | waiting (stream : AnytlsStream) (fresh : stream.leftover = none) (more : stream.eof = false) :
      Serves client ⟨stream, .addressing []⟩ (messagesOf client) []
  | addressed (stream : AnytlsStream) (fresh : stream.leftover = none) (more : stream.eof = false) :
      Serves client ⟨stream, .addressing (addressOf client.target)⟩ (dataMessages client) []
  | flowing (stream : AnytlsStream) (pushedBack : Option Bytes) (consumed : Bytes)
      (chunks : List Bytes) (returned : pushedBack.getD [] = []) (more : stream.eof = false)
      (useful : stream.leftover ≠ some []) (nonempty : ∀ chunk ∈ chunks, chunk ≠ [])
      (exact : consumed ++ stream.leftover.getD [] ++ chunks.flatten = client.written) :
      Serves client ⟨stream, .routed pushedBack consumed false⟩ (chunks.map .data ++ [.eof])
        [client.target]
  | ended (stream : AnytlsStream) (pushedBack : Option Bytes) (ended : Bool)
      (returned : pushedBack.getD [] = []) (last : stream.eof = true)
      (fresh : stream.leftover = none) :
      Serves client ⟨stream, .routed pushedBack client.written ended⟩ [] [client.target]

variable {client : ClientStream}

/-- The end of the stream is the last thing ahead. -/
theorem Serves.ahead {task : StreamTask} {ahead : List StreamMsg} {routes : List ProxyTarget}
    (serves : Serves client task ahead routes) :
    ahead = [] ∨ ∃ chunks : List Bytes, (∀ chunk ∈ chunks, chunk ≠ []) ∧
      ahead = chunks.map StreamMsg.data ++ [.eof] := by
  cases serves with
  | waiting =>
    refine .inr ⟨addressOf client.target :: chunksOf client, ?_, rfl⟩
    intro chunk member
    rcases List.mem_cons.mp member with rfl | member
    · exact encode_into_nonempty _
    · exact chunks_nonempty client chunk member
  | addressed => exact .inr ⟨chunksOf client, chunks_nonempty client, rfl⟩
  | flowing stream pushedBack consumed chunks returned more useful nonempty =>
    exact .inr ⟨chunks, nonempty, rfl⟩
  | ended => exact .inl rfl

/-- The queue has a sender while its messages are to come. -/
theorem sender_there {closed : Bool} {later : List StreamMsg} (sender : closed = true → later = [])
    (coming : later ≠ []) : closed = false := by
  rw [← Bool.not_eq_true]
  exact fun isClosed => coming (sender isClosed)

/-- The task takes the address whole with its first read. -/
theorem round_waiting (named : client.target.named) (stream : AnytlsStream) (closed : Bool)
    (rx : List StreamMsg) (fresh : stream.leftover = none) (more : stream.eof = false)
    (queue : stream.rx = .data (addressOf client.target) :: rx) :
    StreamTask.round ⟨stream, .addressing []⟩ closed =
      (none, ⟨{ stream with rx := rx }, .addressing (addressOf client.target)⟩) := by
  have undecoded : ∃ error, Socks5Addr.decode [] = .error error := ⟨_, rfl⟩
  obtain ⟨error, undecoded⟩ := undecoded
  have nonempty : addressOf client.target ≠ [] := encode_into_nonempty _
  have whole : handOut 512 (addressOf client.target) = (addressOf client.target, none) := by
    have short : (addressOf client.target).length ≤ 259 := encode_into_length client.target named
    simp only [handOut]
    rw [Nat.min_eq_right (by omega), List.take_length, if_neg (Nat.lt_irrefl _)]
  simp only [StreamTask.round, undecoded, poll_read_data fresh more queue nonempty, whole]
  simp [nonempty, fresh]

/-- With the address the task calls the route and has nothing to push back. -/
theorem round_addressed (named : client.target.named) (stream : AnytlsStream) (closed : Bool) :
    StreamTask.round ⟨stream, .addressing (addressOf client.target)⟩ closed =
      (some client.target, ⟨stream, .routed (some []) [] false⟩) := by
  have decoded := decode_encode_target client.target named []
  rw [List.append_nil, ← addressOf] at decoded
  simp only [StreamTask.round, decoded, to_from_proxy_target, List.drop_length]

/-- A round of the task keeps its stream served. Its queue loses its sender only when no
message is to come. -/
theorem Serves.round (named : client.target.named) {task : StreamTask} {later : List StreamMsg}
    {routes : List ProxyTarget} {closed : Bool} (sender : closed = true → later = [])
    (serves : Serves client task (task.stream.rx ++ later) routes) :
    Serves client (task.round closed).2 ((task.round closed).2.stream.rx ++ later)
      (routes ++ (task.round closed).1.toList) := by
  generalize ahead : task.stream.rx ++ later = messages at serves
  cases serves with
  | waiting stream fresh more =>
    cases queue : stream.rx with
    | nil =>
      rw [queue, List.nil_append] at ahead
      have there := sender_there sender (by rw [ahead]; simp [messagesOf])
      have pending : StreamTask.round ⟨stream, .addressing []⟩ false =
          (none, ⟨stream, .addressing []⟩) := by
        simp only [StreamTask.round, poll_read_pending fresh more queue]
        rfl
      rw [there, pending]
      simp only [queue, List.nil_append, ahead, Option.toList_none, List.append_nil]
      exact .waiting stream fresh more
    | cons msg rx =>
      rw [queue, messagesOf, List.cons_append, List.cons.injEq] at ahead
      obtain ⟨rfl, rest⟩ := ahead
      rw [round_waiting named stream closed rx fresh more queue]
      simp only [rest, Option.toList_none, List.append_nil]
      exact .addressed { stream with rx := rx } fresh more
  | addressed stream fresh more =>
    rw [round_addressed named stream closed]
    simp only [ahead, Option.toList_some, List.nil_append]
    apply Serves.flowing
    · rfl
    · exact more
    · rw [fresh]
      simp
    · exact chunks_nonempty client
    · rw [fresh, chunks_flatten]
      rfl
  | flowing stream pushedBack consumed chunks returned more useful nonempty exact =>
    simp only [StreamTask.round, Option.toList_none, List.append_nil, ahead]
    exact .flowing stream pushedBack consumed chunks returned more useful nonempty exact
  | ended stream pushedBack ended returned last fresh =>
    simp only [StreamTask.round, Option.toList_none, List.append_nil, ahead]
    exact .ended stream pushedBack ended returned last fresh

/-- A read keeps the stream served: what it returns is next of what was written. -/
theorem Serves.read {task : StreamTask} {later : List StreamMsg} {routes : List ProxyTarget}
    {closed : Bool} (size : Nat) (sender : closed = true → later = [])
    (serves : Serves client task (task.stream.rx ++ later) routes) :
    Serves client (task.read closed size) ((task.read closed size).stream.rx ++ later)
      routes := by
  generalize ahead : task.stream.rx ++ later = messages at serves
  cases serves with
  | waiting stream fresh more =>
    simp only [StreamTask.read, ahead]
    exact .waiting stream fresh more
  | addressed stream fresh more =>
    simp only [StreamTask.read, ahead]
    exact .addressed stream fresh more
  | flowing stream pushedBack consumed chunks returned more useful nonempty exact =>
    simp only [StreamTask.read, prefixed_poll_read _ _ _ _ returned]
    cases left : stream.leftover with
    | some data =>
      have something : data ≠ [] := fun empty => useful (by rw [left, empty])
      simp only [poll_read_leftover left, hand_out_some size data something, Bool.or_false, ahead]
      apply Serves.flowing
      · rfl
      · exact more
      · exact hand_out_leftover size data
      · exact nonempty
      · rw [left, Option.getD_some] at exact
        rw [List.append_assoc consumed, hand_out_join, exact]
    | none =>
      rw [left, Option.getD_none, List.append_nil] at exact
      cases queue : stream.rx with
      | nil =>
        rw [queue, List.nil_append] at ahead
        have there := sender_there sender (by rw [ahead]; simp)
        subst there
        simp only [poll_read_pending left more queue, queue, List.nil_append, ahead]
        apply Serves.flowing
        · rfl
        · exact more
        · exact useful
        · exact nonempty
        · rw [left, Option.getD_none, List.append_nil, exact]
      | cons msg rx =>
        rw [queue, List.cons_append] at ahead
        cases chunks with
        | nil =>
          obtain ⟨rfl, rest⟩ := List.cons.inj ahead
          simp only [poll_read_eof left more queue, rest]
          rw [List.flatten_nil, List.append_nil] at exact
          rw [exact, List.append_nil]
          exact .ended _ none _ rfl rfl left
        | cons chunk chunks =>
          obtain ⟨rfl, rest⟩ := List.cons.inj ahead
          have something := nonempty chunk List.mem_cons_self
          simp only [poll_read_data left more queue something, Bool.or_false,
            hand_out_some size chunk something]
          rw [rest]
          apply Serves.flowing
          · rfl
          · exact more
          · exact hand_out_leftover size chunk
          · exact fun other member => nonempty other (List.mem_cons_of_mem chunk member)
          · rw [List.append_assoc consumed, hand_out_join, List.append_assoc, ← exact,
              List.flatten_cons]
  | ended stream pushedBack ended returned last fresh =>
    simp only [StreamTask.read, prefixed_poll_read _ _ _ _ returned, poll_read_ended fresh last,
      ahead, List.append_nil]
    exact .ended stream none _ rfl last fresh

/-- A message put into the queue was ahead before. -/
theorem Serves.send {task : StreamTask} {later : List StreamMsg} {routes : List ProxyTarget}
    {msg : StreamMsg} (serves : Serves client task (task.stream.rx ++ msg :: later) routes) :
    Serves client (task.send msg) ((task.send msg).stream.rx ++ later) routes := by
  generalize ahead : task.stream.rx ++ msg :: later = messages at serves
  rw [List.append_cons] at ahead
  cases serves with
  | waiting stream fresh more =>
    simp only [StreamTask.send, reduceCtorEq, if_false, ahead]
    exact .waiting _ fresh more
  | addressed stream fresh more =>
    simp only [StreamTask.send, reduceCtorEq, if_false, ahead]
    exact .addressed _ fresh more
  | flowing stream pushedBack consumed chunks returned more useful nonempty exact =>
    simp only [StreamTask.send, reduceCtorEq, if_false, ahead]
    exact .flowing _ pushedBack consumed chunks returned more useful nonempty exact
  | ended => simp at ahead

/-- A message to come is data, with more to come after it, or it is the last. -/
theorem Serves.coming {task : StreamTask} {queue later : List StreamMsg} {routes : List ProxyTarget}
    {msg : StreamMsg} (serves : Serves client task (queue ++ msg :: later) routes) :
    (∃ data, msg = .data data ∧ data ≠ [] ∧ later ≠ []) ∨ (msg = .eof ∧ later = []) := by
  rcases serves.ahead with empty | ⟨chunks, nonempty, ahead⟩
  · simp at empty
  · rcases List.eq_nil_or_concat later with rfl | ⟨later, last, rfl⟩
    · obtain ⟨-, rfl⟩ : queue = chunks.map StreamMsg.data ∧ msg = .eof := by
        simpa using List.append_inj' ahead rfl
      exact .inr ⟨rfl, rfl⟩
    · rw [List.concat_eq_append, ← List.cons_append, ← List.append_assoc] at ahead
      have front := (List.append_inj' ahead rfl).1
      have member : msg ∈ chunks.map StreamMsg.data := by
        rw [← front]
        simp
      obtain ⟨chunk, inside, rfl⟩ := List.mem_map.mp member
      exact .inl ⟨chunk, rfl, nonempty chunk inside, by simp⟩

/-- A task that neither a round nor a read moves has delivered its stream, if all its
messages are in the queue. -/
theorem Serves.settled (named : client.target.named) {task : StreamTask}
    {routes : List ProxyTarget} {closed : Bool} (serves : Serves client task task.stream.rx routes)
    (round : (task.round closed).2 = task) (read : task.read closed 1 = task) :
    routes = [client.target] ∧ task.reader? = some (client.written, true) := by
  generalize ahead : task.stream.rx = messages at serves
  cases serves with
  | waiting stream fresh more =>
    rw [round_waiting named stream closed _ fresh more ahead] at round
    have stage := congrArg StreamTask.stage round
    exact absurd (Stage.addressing.inj stage) (encode_into_nonempty _)
  | addressed stream fresh more =>
    rw [round_addressed named stream closed] at round
    have stage := congrArg StreamTask.stage round
    simp at stage
  | flowing stream pushedBack consumed chunks returned more useful nonempty exact =>
    simp only [StreamTask.read, prefixed_poll_read _ _ _ _ returned] at read
    have unmoved (data : Bytes) (something : data ≠ [])
        (kept : consumed ++ (handOut 1 data).1 = consumed) : False := by
      have out := hand_out_some 1 data something
      simp [List.append_right_eq_self.mp kept] at out
    cases left : stream.leftover with
    | some data =>
      rw [poll_read_leftover left] at read
      have stage := congrArg StreamTask.stage read
      simp only [Stage.routed.injEq] at stage
      exact absurd stage.2.1 (unmoved data fun empty => useful (by rw [left, empty]))
    | none =>
      cases chunks with
      | nil =>
        rw [poll_read_eof left more ahead] at read
        have end_seen := congrArg (fun task => task.stream.eof) read
        simp only [more] at end_seen
        simp at end_seen
      | cons chunk chunks =>
        have something := nonempty chunk List.mem_cons_self
        rw [poll_read_data left more ahead something] at read
        have stage := congrArg StreamTask.stage read
        simp only [Stage.routed.injEq] at stage
        exact absurd stage.2.1 (unmoved chunk something)
  | ended stream pushedBack ended returned last fresh =>
    simp only [StreamTask.read, prefixed_poll_read _ _ _ _ returned,
      poll_read_ended fresh last] at read
    have stage := congrArg StreamTask.stage read
    simp only [Stage.routed.injEq] at stage
    obtain ⟨-, -, seen⟩ := stage
    have seen : ended = true := by simpa using seen
    exact ⟨rfl, by rw [seen]; rfl⟩

section Numbers

variable (stream : AnytlsStream) (task : StreamTask) (closed : Bool) (size : Nat)

/-- Reading keeps the number of a stream. -/
theorem poll_read_sid : (stream.pollRead closed size).2.sid = stream.sid := by
  unfold AnytlsStream.pollRead
  repeat' split
  all_goals rfl

/-- Receiving a message keeps the number of the stream. -/
theorem send_sid (msg : StreamMsg) : (task.send msg).stream.sid = task.stream.sid := by
  unfold StreamTask.send
  split <;> rfl

/-- A round of its task keeps the number of the stream. -/
theorem round_sid : (task.round closed).2.stream.sid = task.stream.sid := by
  have kept := poll_read_sid task.stream closed 512
  unfold StreamTask.round
  repeat' split
  all_goals simp_all

/-- A read of the stream behind its address keeps the number. -/
theorem prefixed_poll_read_sid (stream : PrefixedStream) :
    (stream.pollRead closed size).2.inner.sid = stream.inner.sid := by
  unfold PrefixedStream.pollRead
  split
  · rfl
  · exact poll_read_sid stream.inner closed size

/-- A read of the task's stream keeps the number. -/
theorem read_sid : (task.read closed size).stream.sid = task.stream.sid := by
  unfold StreamTask.read
  split
  · rename_i pushedBack consumed ended stage
    have kept := prefixed_poll_read_sid closed size ⟨task.stream, pushedBack⟩
    split <;> simp_all
  · rfl

end Numbers

end Tasks

end OmniProxy.AnytlsTasks
