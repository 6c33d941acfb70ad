import OmniProxy.AnytlsFrames
import OmniProxy.Connections

/-!
# AnyTLS streams

A stream reads messages from a queue of its own and writes frames into a queue that all
streams of the session share. Reading hands out the data of a message in parts that fit
the caller's buffer. Writing never waits: a frame that finds the shared queue full is
refused, as if the session were closed.

The queues are those of the runtime. The shared one has a fixed number of slots, of which
senders that wait may hold some.
-/

namespace OmniProxy.AnytlsStreams

open AnytlsFrames ByteStrings Connections

section Reading

/-- A message for a stream. -/
inductive StreamMsg where
  | data (data : Bytes)
  | eof
deriving DecidableEq

/-- A stream with the messages in its queue. -/
structure AnytlsStream where
  sid : UInt32
  rx : List StreamMsg
  leftover : Option Bytes
  finSent : Bool
  eof : Bool
deriving DecidableEq

def AnytlsStream.new (sid : UInt32) : AnytlsStream := ⟨sid, [], none, false, false⟩

/-- Hand out data into a buffer of a size, with what is left over. -/
def handOut (remaining : Nat) (data : Bytes) : Bytes × Option Bytes :=
  let capped := min remaining data.length
  (data.take capped, if capped < data.length then some (data.drop capped) else none)

/-- Read into a buffer of a size. Nothing is returned while the queue is empty and has a
sender. -/
def AnytlsStream.pollRead (stream : AnytlsStream) (closed : Bool) (remaining : Nat) :
    Option Bytes × AnytlsStream :=
  match stream.leftover with
  | some data =>
      let (out, leftover) := handOut remaining data
      (some out, { stream with leftover })
  | none =>
      if stream.eof then (some [], stream)
      else
        match stream.rx with
        | .data data :: rx =>
            if data.isEmpty then (some [], { stream with rx, eof := true })
            else
              let (out, leftover) := handOut remaining data
              (some out, { stream with rx, leftover })
        | .eof :: rx => (some [], { stream with rx, eof := true })
        | [] => if closed then (some [], { stream with eof := true }) else (none, stream)

section PollRead

variable {stream : AnytlsStream} {closed : Bool} {remaining : Nat} {data : Bytes}
  {rx : List StreamMsg}

/-- Leftover octets are handed out before anything else. -/
theorem poll_read_leftover (left : stream.leftover = some data) :
    stream.pollRead closed remaining =
      (some (handOut remaining data).1,
        { stream with leftover := (handOut remaining data).2 }) := by
  simp [AnytlsStream.pollRead, left]

/-- A stream that has seen its end goes on answering with it. -/
theorem poll_read_ended (fresh : stream.leftover = none) (last : stream.eof = true) :
    stream.pollRead closed remaining = (some [], stream) := by
  simp [AnytlsStream.pollRead, fresh, last]

/-- Data is handed out as far as there is room, and the rest is left over. -/
theorem poll_read_data (fresh : stream.leftover = none) (more : stream.eof = false)
    (queue : stream.rx = .data data :: rx) (nonempty : data ≠ []) :
    stream.pollRead closed remaining =
      (some (handOut remaining data).1,
        { stream with rx := rx, leftover := (handOut remaining data).2 }) := by
  simp [AnytlsStream.pollRead, fresh, more, queue, nonempty]

/-- An empty chunk of data ends the stream, as an end does. -/
theorem poll_read_empty (fresh : stream.leftover = none) (more : stream.eof = false)
    (queue : stream.rx = .data [] :: rx) :
    stream.pollRead closed remaining = (some [], { stream with rx := rx, eof := true }) := by
  simp [AnytlsStream.pollRead, fresh, more, queue]

/-- An end that arrived is the end of the stream. -/
theorem poll_read_eof (fresh : stream.leftover = none) (more : stream.eof = false)
    (queue : stream.rx = .eof :: rx) :
    stream.pollRead closed remaining = (some [], { stream with rx := rx, eof := true }) := by
  simp [AnytlsStream.pollRead, fresh, more, queue]

/-- When nothing can arrive any more, the stream is at its end. -/
theorem poll_read_closed (fresh : stream.leftover = none) (more : stream.eof = false)
    (queue : stream.rx = []) :
    stream.pollRead true remaining = (some [], { stream with eof := true }) := by
  simp [AnytlsStream.pollRead, fresh, more, queue]

/-- With nothing in the channel a read waits. -/
theorem poll_read_pending (fresh : stream.leftover = none) (more : stream.eof = false)
    (queue : stream.rx = []) : stream.pollRead false remaining = (none, stream) := by
  simp [AnytlsStream.pollRead, fresh, more, queue]

end PollRead

/-- A stream with octets that were read too far. -/
structure PrefixedStream where
  inner : AnytlsStream
  pushedBack : Option Bytes
deriving DecidableEq

/-- Read into a buffer of a size, first what was pushed back. -/
def PrefixedStream.pollRead (stream : PrefixedStream) (closed : Bool) (remaining : Nat) :
    Option Bytes × PrefixedStream :=
  match stream.pushedBack with
  | some (octet :: octets) =>
      let n := min remaining (octet :: octets).length
      (some ((octet :: octets).take n),
        { stream with pushedBack := some ((octet :: octets).drop n) })
  | _ =>
      let (out, inner) := stream.inner.pollRead closed remaining
      (out, ⟨inner, none⟩)

/-- A read of a stream with nothing pushed back is a read of the stream itself. -/
theorem prefixed_poll_read (stream : AnytlsStream) (pushedBack : Option Bytes) (closed : Bool)
    (size : Nat) (returned : pushedBack.getD [] = []) :
    PrefixedStream.pollRead ⟨stream, pushedBack⟩ closed size =
      ((stream.pollRead closed size).1, ⟨(stream.pollRead closed size).2, none⟩) := by
  rcases pushedBack with _ | _ | ⟨octet, octets⟩
  · rfl
  · rfl
  · simp at returned

end Reading

section Queue

/-- The slots of the queue of frames. -/
def frameBuf : Nat := 256

/-- The queue of frames: the slots that waiting senders hold, the frames in the queue and
those the writer has taken. -/
structure FrameQueue where
  held : Nat
  frames : List Frame
  taken : List Frame

def FrameQueue.free (queue : FrameQueue) : Nat := frameBuf - (queue.frames.length + queue.held)

/-- All frames that were put into the queue, in order. -/
def FrameQueue.order (queue : FrameQueue) : List Frame := queue.taken ++ queue.frames

def FrameQueue.put (queue : FrameQueue) (frame : Frame) : FrameQueue :=
  { queue with frames := queue.frames ++ [frame] }

/-- Put a frame into the queue without waiting. -/
def FrameQueue.trySend (queue : FrameQueue) (frame : Frame) : Option FrameQueue :=
  if queue.free = 0 then none else some (queue.put frame)

/-- The writer takes the next frame, if there is one. -/
def FrameQueue.recv (queue : FrameQueue) : FrameQueue :=
  match queue.frames with
  | [] => queue
  | frame :: frames => { queue with frames, taken := queue.taken ++ [frame] }

/-- A frame put into the queue is the last of its order. -/
@[simp] theorem order_put (queue : FrameQueue) (frame : Frame) :
    (queue.put frame).order = queue.order ++ [frame] := by
  simp only [FrameQueue.order, FrameQueue.put, List.append_assoc]

/-- Taking a frame from the queue does not change its order. -/
@[simp] theorem order_recv (queue : FrameQueue) : queue.recv.order = queue.order := by
  unfold FrameQueue.recv
  cases content : queue.frames with
  | nil => rfl
  | cons frame frames => simp [FrameQueue.order, content]

end Queue

section Writing

/-- The error of a write after the stream was shut down. -/
def closedError : IoError := ⟨.brokenPipe, "anytls: closed"⟩

/-- The error of a frame that the queue refuses, for whatever reason. -/
def sessionClosedError : IoError := ⟨.brokenPipe, "anytls: session closed"⟩

/-- Put data of a stream into the queue. -/
def AnytlsStream.sendPsh (stream : AnytlsStream) (queue : FrameQueue) (data : Bytes) :
    Except IoError FrameQueue :=
  if stream.finSent then .error closedError
  else
    match queue.trySend ⟨cmdPsh, stream.sid, data⟩ with
    | none => .error sessionClosedError
    | some queue => .ok queue

/-- Put the closing frame of a stream into the queue, the first time only. A refusal goes
unnoticed. -/
def AnytlsStream.sendFin (stream : AnytlsStream) (queue : FrameQueue) :
    AnytlsStream × FrameQueue :=
  if stream.finSent then (stream, queue)
  else ({ stream with finSent := true }, (queue.trySend (finFrame stream.sid)).getD queue)

/-- A call of `poll_write` under way: its buffer, the chunks that are left and the frames
it has put into the queue. -/
structure WriteCall where
  buf : Bytes
  left : List Bytes
  enqueued : List Frame

/-- A call writes its buffer in chunks of limited size. -/
def WriteCall.new (buf : Bytes) : WriteCall := ⟨buf, pieces maxPayload buf, []⟩

/-- The next round of a call, with its result when it returns. Between two rounds other
tasks may use the queue. -/
def AnytlsStream.pollWrite (stream : AnytlsStream) (queue : FrameQueue) (call : WriteCall) :
    Option (Except IoError Nat) × FrameQueue × WriteCall :=
  match call.left with
  | [] => (some (.ok call.buf.length), queue, call)
  | chunk :: left =>
      match stream.sendPsh queue chunk with
      | .error error => (some (.error error), queue, call)
      | .ok queue =>
          (none, queue,
            { call with left, enqueued := call.enqueued ++ [⟨cmdPsh, stream.sid, chunk⟩] })

variable {stream : AnytlsStream}

/-- Data of an open stream goes into the queue if there is a free slot. -/
theorem send_psh_open (more : stream.finSent = false) (queue : FrameQueue) (data : Bytes) :
    stream.sendPsh queue data =
      if queue.free = 0 then .error sessionClosedError
      else .ok (queue.put ⟨cmdPsh, stream.sid, data⟩) := by
  by_cases full : queue.free = 0
  · simp [AnytlsStream.sendPsh, FrameQueue.trySend, more, full]
  · simp [AnytlsStream.sendPsh, FrameQueue.trySend, more, full]

/-- A stream that was shut down sends no more data. -/
theorem send_psh_shut (shut : stream.finSent = true) (queue : FrameQueue) (data : Bytes) :
    stream.sendPsh queue data = .error closedError := by
  rw [AnytlsStream.sendPsh, if_pos shut]

/-- The closing frame of an open stream goes into the queue if there is a free slot. -/
theorem send_fin_open (more : stream.finSent = false) (queue : FrameQueue) :
    stream.sendFin queue =
      ({ stream with finSent := true },
        if queue.free = 0 then queue else queue.put (finFrame stream.sid)) := by
  by_cases full : queue.free = 0
  · simp [AnytlsStream.sendFin, FrameQueue.trySend, more, full]
  · simp [AnytlsStream.sendFin, FrameQueue.trySend, more, full]

/-- A stream that was shut down sends no second closing frame. -/
theorem send_fin_shut (shut : stream.finSent = true) (queue : FrameQueue) :
    stream.sendFin queue = (stream, queue) := by
  rw [AnytlsStream.sendFin, if_pos shut]

end Writing

end OmniProxy.AnytlsStreams
