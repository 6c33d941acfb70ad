import OmniProxy.AnytlsStreams
import OmniProxy.GuardedRuns

/-!
# The server's side of an AnyTLS session

One loop takes frames from what has arrived and sends their data to the queue of the
stream they belong to. Each stream has a task that collects the address from the front
of the stream, calls the route with the target and hands the rest of the stream over.
Whoever has the stream then reads from it.

A run is any order of rounds of the loop, rounds of tasks and reads, and the connection
may end. The reads of the connection are given, however they are cut. Queues do not
fill, and the authentication in front of the frames is not part of a run.
-/

namespace OmniProxy.AnytlsSession

open AnytlsFrames AnytlsStreams ByteStrings Connections ProxyTargets

section Tasks

/-- How far the task of a stream is: it has part of the address, it has called the
route and its stream has been read so far, or it has given the stream up. -/
inductive Stage where
  | addressing (buf : Bytes)
  | routed (pushedBack : Option Bytes) (consumed : Bytes) (ended : Bool)
  | returned
deriving DecidableEq

/-- The task of a stream. -/
structure StreamTask where
  stream : AnytlsStream
  stage : Stage
deriving DecidableEq

/-- A message is put into the queue, unless the stream was given up. -/
def StreamTask.send (task : StreamTask) (msg : StreamMsg) : StreamTask :=
  if task.stage = .returned then task
  else { task with stream := { task.stream with rx := task.stream.rx ++ [msg] } }

/-- One round of the task, with the target if it calls the route. -/
def StreamTask.round (task : StreamTask) (closed : Bool) : Option ProxyTarget × StreamTask :=
  match task.stage with
  | .addressing buf =>
      match Socks5Addr.decode buf with
      | .ok (addr, used) =>
          (some addr.toProxyTarget,
            { task with stage := .routed (some (buf.drop used)) [] false })
      | .error _ =>
          if 4096 < buf.length then (none, { task with stage := .returned })
          else
            match task.stream.pollRead closed 512 with
            | (none, stream) => (none, { task with stream })
            | (some out, stream) =>
                if out.isEmpty then (none, ⟨stream, .returned⟩)
                else (none, ⟨stream, .addressing (buf ++ out)⟩)
  | _ => (none, task)

/-- One read of the stream that was handed over. The end is seen when a read with room
returns nothing. -/
def StreamTask.read (task : StreamTask) (closed : Bool) (size : Nat) : StreamTask :=
  match task.stage with
  | .routed pushedBack consumed ended =>
      match PrefixedStream.pollRead ⟨task.stream, pushedBack⟩ closed size with
      | (none, stream) => ⟨stream.inner, .routed stream.pushedBack consumed ended⟩
      | (some out, stream) =>
          ⟨stream.inner, .routed stream.pushedBack (consumed ++ out)
            (ended || (decide (0 < size) && out.isEmpty))⟩
  | _ => task

end Tasks

section Sessions

/-- A read of the connection: some octets, at most those of the buffer. -/
abbrev Read := { octets : Bytes // octets ≠ [] ∧ octets.length ≤ maxPayload }

/-- The octets of reads that follow one another. -/
def joined (reads : List Read) : Bytes := (reads.map Subtype.val).flatten

/-- A session: the reads to come, the octets collected, the streams by number, their
tasks, the calls of the route and the result of the loop. -/
structure Session where
  incoming : List Read
  buf : Bytes
  gotSettings : Bool
  registry : UInt32 → Option Nat
  tasks : List StreamTask
  routes : List (UInt32 × ProxyTarget)
  result : Option (Except IoError Unit)

def Session.start (incoming : List Read) : Session :=
  ⟨incoming, [], false, fun _ => none, [], [], none⟩

def Session.fail (session : Session) (kind : ErrorKind) (message : String) : Session :=
  { session with result := some (.error ⟨kind, message⟩) }

/-- Send a message to the stream of a number, if there is one. -/
def Session.sendTo (session : Session) (sid : UInt32) (msg : StreamMsg) : Session :=
  match session.registry sid with
  | some index => { session with tasks := session.tasks.modify index (·.send msg) }
  | none => session

/-- What the loop does with a frame. The stream of an opening frame replaces one of the
same number. -/
def Session.handle (session : Session) (isServer : Bool) (frame : Frame) : Session :=
  if frame.cmd = cmdWaste then session
  else if frame.cmd = cmdSettings then { session with gotSettings := true }
  else if frame.cmd = cmdSyn then
    if isServer && !session.gotSettings then
      session.fail .invalidData "anytls: SYN before settings"
    else
      { session with
        registry := Function.update session.registry frame.sid (some session.tasks.length)
        tasks := session.tasks ++ [⟨.new frame.sid, .addressing []⟩] }
  else if frame.cmd = cmdPsh then
    session.sendTo frame.sid (if frame.data.isEmpty then .eof else .data frame.data)
  else if frame.cmd = cmdFin then
    { session.sendTo frame.sid .eof with
      registry := Function.update session.registry frame.sid none }
  else if frame.cmd = cmdAlert then
    session.fail .permissionDenied ("anytls: alert from peer: " ++ fromUtf8Lossy frame.data)
  else session

/-- One round of the loop: a frame is handled, or more octets are read. -/
def Session.readLoop (session : Session) : Session :=
  if session.result.isSome then session
  else
    match tryDecode session.buf with
    | .frame frame consumed =>
        Session.handle { session with buf := session.buf.drop consumed } true frame
    | .needMore =>
        match session.incoming with
        | [] => session
        | octets :: incoming => { session with buf := session.buf ++ octets.val, incoming }

/-- The connection ends after its last octet. The loop returns when it meets the end. -/
def Session.close (session : Session) : Session :=
  if session.result.isSome then session
  else
    match tryDecode session.buf, session.incoming with
    | .needMore, [] =>
        if session.buf.isEmpty then { session with result := some (.ok ()) }
        else session.fail .unexpectedEof "anytls: truncated frame"
    | _, _ => session

/-- The queue of a task has no sender: its stream is no longer registered, or the loop
has returned and the registry with it. -/
def Session.closed (session : Session) (index : Nat) (task : StreamTask) : Bool :=
  session.result.isSome || decide (session.registry task.stream.sid ≠ some index)

inductive Event where
  | loop
  | close
  | task (index : Nat)
  | read (index size : Nat)

/-- One step of a run. -/
def step (session : Session) : Event → Session
  | .loop => session.readLoop
  | .close => session.close
  | .task index =>
      match session.tasks[index]? with
      | none => session
      | some task =>
          let (target, after) := task.round (session.closed index task)
          { session with
            tasks := session.tasks.set index after
            routes := session.routes ++ target.toList.map (task.stream.sid, ·) }
  | .read index size =>
      match session.tasks[index]? with
      | none => session
      | some task =>
          { session with
            tasks := session.tasks.set index (task.read (session.closed index task) size) }

section Equations

variable {session : Session} {index : Nat} {task : StreamTask}

/-- A stream without a task cannot do a step of one. -/
theorem step_task_none (absent : session.tasks[index]? = none) :
    step session (.task index) = session := by
  simp only [step, absent]

/-- A step of a task changes that task alone. -/
theorem step_task_some (there : session.tasks[index]? = some task) :
    step session (.task index) =
      { session with
        tasks := session.tasks.set index (task.round (session.closed index task)).2
        routes := session.routes ++
          (task.round (session.closed index task)).1.toList.map (task.stream.sid, ·) } := by
  simp only [step, there]

/-- A stream without a task cannot be read. -/
theorem step_read_none (absent : session.tasks[index]? = none) (size : Nat) :
    step session (.read index size) = session := by
  simp only [step, absent]

/-- A read changes the task of its own stream alone. -/
theorem step_read_some (there : session.tasks[index]? = some task) (size : Nat) :
    step session (.read index size) =
      { session with
        tasks := session.tasks.set index (task.read (session.closed index task) size) } := by
  simp only [step, there]

end Equations

/-- The numbers of the streams that have a task. -/
def Session.sids (session : Session) : List UInt32 := session.tasks.map (·.stream.sid)

/-- The targets for which the route was called with the stream of a number. -/
def Session.routesOf (session : Session) (sid : UInt32) : List ProxyTarget :=
  (session.routes.filter (·.1 = sid)).map Prod.snd

/-- What was read from a stream that was handed over, and whether its end was seen. -/
def StreamTask.reader? (task : StreamTask) : Option (Bytes × Bool) :=
  match task.stage with
  | .routed _ consumed ended => some (consumed, ended)
  | _ => none

/-- The readers of the streams of a number. -/
def Session.readersOf (session : Session) (sid : UInt32) : List (Bytes × Bool) :=
  (session.tasks.filter (·.stream.sid = sid)).filterMap StreamTask.reader?

end Sessions

end OmniProxy.AnytlsSession
