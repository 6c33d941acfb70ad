import OmniProxy.AnytlsStreams
import OmniProxy.GuardedRuns
import OmniProxy.ListUpdates

/-!
# Writes to a busy AnyTLS session

The streams of a session put their frames into one queue, and a task takes them out and
sends them. Opening a stream waits for free slots. Writing and shutting down do not: a
write that finds too few free slots fails after some of its frames, and a closing frame
that finds none is lost.

The read loop of a server makes a stream for every opening frame, also for one whose number
a stream has already. Each of the streams keeps for itself whether it was shut down, so a
number may be closed twice. A run goes well exactly when every write to an open stream and
every first shutdown meets enough free slots, and no stream is shut down after another one
of its number.

The task that sends the frames keeps running.
-/

namespace OmniProxy.AnytlsWriter

open AnytlsFrames AnytlsStreams ByteStrings Connections GuardedRuns ListUpdates ProxyTargets

section Sessions

/-- A stream being opened: whether its first frame was sent, and whether a slot is held
for the next one. -/
structure Opener where
  sid : UInt32
  target : ProxyTarget
  synSent : Bool
  slot : Bool

/-- A stream with its call under way, and two places in the order of the queue: the one behind
its last data, and that of its closing frame. -/
structure Handle where
  stream : AnytlsStream
  writing : Option WriteCall
  dataEnd : Nat
  finPlace : Option Nat

/-- A stream that was made, with its data in front of a place. -/
def Handle.new (sid : UInt32) (dataEnd : Nat) : Handle := ⟨.new sid, none, dataEnd, none⟩

/-- A call of `poll_write` that has returned: whether the stream was shut down, the call
as it was then, and its result. -/
structure WriteReturn where
  shut : Bool
  call : WriteCall
  result : Except IoError Nat

/-- The writing side of a session, with the streams in the order they were made. -/
structure Session where
  isServer : Bool
  queue : FrameQueue
  streams : List Handle
  opener : Option Opener
  nextSid : UInt32
  returns : List WriteReturn

/-- The session of a client begins with the settings in the queue. -/
def Session.start (isServer : Bool) : Session :=
  ⟨isServer, ⟨0, if isServer then [] else [settingsFrame], []⟩, [], none, 1, []⟩

inductive Event where
  | accept (sid : UInt32)
  | beginOpen (target : ProxyTarget)
  | acquire
  | push
  | cancelOpen
  | write (index : Nat) (buf : Bytes)
  | proceed (index : Nat)
  | shutdown (index : Nat)
  | writer

/-- The read loop makes a stream for an opening frame. A client drops it at once. -/
def Session.accept (session : Session) (sid : UInt32) : Session :=
  if session.isServer then { session with streams := session.streams ++ [.new sid 0] }
  else session

/-- The opening of a stream begins. One is opened at a time, by a client. -/
def Session.beginOpen (session : Session) (target : ProxyTarget) : Session :=
  if session.isServer = false ∧ session.opener.isNone = true then
    { session with
      opener := some ⟨session.nextSid, target, false, false⟩
      nextSid := session.nextSid + 1 }
  else session

/-- A waiting sender takes a free slot. -/
def Session.acquire (session : Session) : Session :=
  match session.opener with
  | none => session
  | some opener =>
      if opener.slot = true ∨ session.queue.free = 0 then session
      else
        { session with
          queue := { session.queue with held := session.queue.held + 1 }
          opener := some { opener with slot := true } }

/-- A sender that holds a slot puts its frame there. After the address the stream is
open. -/
def Session.push (session : Session) : Session :=
  match session.opener with
  | none => session
  | some opener =>
      let queue := { session.queue with held := session.queue.held - 1 }
      if opener.slot = false then session
      else if opener.synSent then
        let queue := queue.put ⟨cmdPsh, opener.sid, addressOf opener.target⟩
        { session with
          queue
          streams := session.streams ++ [.new opener.sid queue.order.length]
          opener := none }
      else
        { session with
          queue := queue.put (.new cmdSyn opener.sid)
          opener := some { opener with synSent := true, slot := false } }

/-- The call that opens a stream is dropped, and gives its slot back. -/
def Session.cancelOpen (session : Session) : Session :=
  match session.opener with
  | none => session
  | some opener =>
      let held := if opener.slot then session.queue.held - 1 else session.queue.held
      { session with queue := { session.queue with held }, opener := none }

/-- Something happens to one of the streams. -/
def Session.change (session : Session) (index : Nat) (f : Handle → Handle) : Session :=
  { session with streams := session.streams.modify index f }

/-- A write begins. A stream has one call at a time. -/
def Session.write (session : Session) (index : Nat) (buf : Bytes) : Session :=
  match session.streams[index]? with
  | some ⟨_, none, _, _⟩ => session.change index ({ · with writing := some (.new buf) })
  | _ => session

/-- A call goes on. A result ends it. -/
def Session.proceed (session : Session) (index : Nat) : Session :=
  match session.streams[index]? with
  | some ⟨stream, some call, _, _⟩ =>
      match stream.pollWrite session.queue call with
      | (none, queue, call) =>
          { session.change index
              ({ · with writing := some call, dataEnd := queue.order.length }) with queue }
      | (some result, queue, call) =>
          { session.change index ({ · with writing := none }) with
            queue
            returns := session.returns ++ [⟨stream.finSent, call, result⟩] }
  | _ => session

/-- A stream is shut down, when no call is under way. If that puts a closing frame into the
queue, its place is the next one. -/
def Session.shutdown (session : Session) (index : Nat) : Session :=
  match session.streams[index]? with
  | some ⟨stream, none, _, finPlace⟩ =>
      let (after, queue) := stream.sendFin session.queue
      let place := session.queue.order.length
      { session.change index
          ({ · with
            stream := after
            finPlace := if place < queue.order.length then some place else finPlace }) with
        queue }
  | _ => session

/-- One step of a run. -/
def step (session : Session) : Event → Session
  | .accept sid => session.accept sid
  | .beginOpen target => session.beginOpen target
  | .acquire => session.acquire
  | .push => session.push
  | .cancelOpen => session.cancelOpen
  | .write index buf => session.write index buf
  | .proceed index => session.proceed index
  | .shutdown index => session.shutdown index
  | .writer => { session with queue := session.queue.recv }

/-- The one closing frame of a number has a place. -/
structure ClosedAt (order : List Frame) (sid : UInt32) (place : Nat) : Prop where
  here : order[place]? = some (finFrame sid)
  only : ∀ other frame, order[other]? = some frame → frame.sid = sid → frame.cmd = cmdFin →
    other = place

/-- Writes survive: one to an open stream succeeds, one that fails has enqueued nothing,
and shutting a stream down has put the one closing frame of its number into the queue, behind
the data of the stream. -/
structure Survives (session : Session) : Prop where
  accepted : ∀ done ∈ session.returns, done.shut = false →
    done.result = .ok done.call.buf.length
  whole : ∀ done ∈ session.returns, ∀ error, done.result = .error error →
    done.call.enqueued = []
  closed : ∀ (index : Nat) (handle : Handle), session.streams[index]? = some handle →
    handle.stream.finSent = true → ∃ place, handle.finPlace = some place ∧
      handle.dataEnd ≤ place ∧ ClosedAt session.queue.order handle.stream.sid place

/-- There is a free slot for a frame that a step puts into the queue without waiting: the
next data of an open stream, or its closing frame. And no other stream of the number was shut
down before. -/
def Room (session : Session) : Event → Prop
  | .proceed index => ∀ (handle : Handle) (call : WriteCall),
      session.streams[index]? = some handle → handle.writing = some call →
      handle.stream.finSent = false → call.left ≠ [] → 0 < session.queue.free
  | .shutdown index => ∀ handle : Handle, session.streams[index]? = some handle →
      handle.writing = none → handle.stream.finSent = false →
      0 < session.queue.free ∧ ∀ (other : Nat) (entry : Handle),
        session.streams[other]? = some entry → entry.stream.finSent = true →
        entry.stream.sid ≠ handle.stream.sid
  | _ => True

end Sessions

section Invariant

/-- A return that survival allows. -/
def WriteReturn.fine (done : WriteReturn) : Prop :=
  (done.shut = false → done.result = .ok done.call.buf.length) ∧
    ∀ error, done.result = .error error → done.call.enqueued = []

/-- A stream that was shut down has its closing frame, and its call has enqueued nothing. -/
structure Closed (order : List Frame) (handle : Handle) : Prop where
  place : ∃ place, handle.finPlace = some place ∧ handle.dataEnd ≤ place ∧
    ClosedAt order handle.stream.sid place
  refused : ∀ call, handle.writing = some call → call.enqueued = []

/-- All streams are in order, every closing frame is that of a stream that was shut down, and
all calls have returned well. -/
structure Sound (session : Session) : Prop where
  shut : ∀ (index : Nat) (handle : Handle), session.streams[index]? = some handle →
    handle.stream.finSent = true → Closed session.queue.order handle
  opened : ∀ (index : Nat) (handle : Handle), session.streams[index]? = some handle →
    handle.stream.finSent = false →
    handle.finPlace = none ∧ handle.dataEnd ≤ session.queue.order.length
  closings : ∀ frame ∈ session.queue.order, frame.cmd = cmdFin →
    ∃ (index : Nat) (handle : Handle), session.streams[index]? = some handle ∧
      handle.stream.finSent = true ∧ handle.stream.sid = frame.sid
  returned : ∀ done ∈ session.returns, done.fine

variable {session : Session}

/-- The invariant of the session gives its promises. -/
theorem Sound.survives (sound : Sound session) : Survives session where
  accepted done member := (sound.returned done member).1
  whole done member := (sound.returned done member).2
  closed index handle there last := (sound.shut index handle there last).place

/-- A fresh session has no streams. -/
theorem start_sound (isServer : Bool) : Sound (.start isServer) where
  shut := by simp [Session.start]
  opened := by simp [Session.start]
  closings := by
    intro frame member closing
    cases isServer with
    | true => simp [Session.start, FrameQueue.order] at member
    | false =>
      obtain rfl : frame = settingsFrame := List.mem_singleton.mp member
      exact absurd closing (by decide)
  returned := by simp [Session.start]

/-- Frames behind others that close nothing leave a closing frame where it is. -/
theorem ClosedAt.append {order more : List Frame} {sid : UInt32} {place : Nat}
    (closed : ClosedAt order sid place)
    (unclosing : ∀ frame ∈ more, frame.sid = sid → frame.cmd ≠ cmdFin) :
    ClosedAt (order ++ more) sid place where
  here := by
    have inside := (List.getElem?_eq_some_iff.mp closed.here).1
    rw [List.getElem?_append_left inside]
    exact closed.here
  only := by
    intro other frame there own closing
    rcases Nat.lt_or_ge other order.length with before | behind
    · rw [List.getElem?_append_left before] at there
      exact closed.only other frame there own closing
    · rw [List.getElem?_append_right behind] at there
      exact absurd closing (unclosing frame (List.mem_of_getElem? there) own)

/-- A stream goes on: it was open and still is, or a call of one that was shut down has
enqueued nothing. -/
inductive GoesOn (length : Nat) (handle later : Handle) : Prop where
  | opened (stream : later.stream = handle.stream) (more : handle.stream.finSent = false)
      (finPlace : later.finPlace = handle.finPlace) (dataEnd : later.dataEnd ≤ length) :
      GoesOn length handle later
  | shut (stream : later.stream = handle.stream) (finPlace : later.finPlace = handle.finPlace)
      (dataEnd : later.dataEnd = handle.dataEnd)
      (refused : ∀ call, later.writing = some call → call.enqueued = []) :
      GoesOn length handle later

/-- A handle that goes on has its stream as it was. -/
theorem GoesOn.stream {length : Nat} {handle later : Handle}
    (goesOn : GoesOn length handle later) : later.stream = handle.stream := by
  cases goesOn with
  | opened stream => exact stream
  | shut stream => exact stream

/-- A stream that nothing happens to goes on. -/
theorem Sound.still (sound : Sound session) {index length : Nat} {handle : Handle}
    (there : session.streams[index]? = some handle)
    (longer : session.queue.order.length ≤ length) : GoesOn length handle handle := by
  cases last : handle.stream.finSent with
  | true => exact .shut rfl rfl rfl (sound.shut index handle there last).refused
  | false =>
    exact .opened rfl last rfl ((sound.opened index handle there last).2.trans longer)

/-- Steps that shut nothing down keep a session sound: the streams go on, new ones are open,
and the frames that are put into the queue close nothing. -/
theorem Sound.advance (sound : Sound session) {changed : Session} {more : List Frame}
    (order : changed.queue.order = session.queue.order ++ more)
    (unclosing : ∀ frame ∈ more, frame.cmd ≠ cmdFin)
    (before : ∀ (index : Nat) (later : Handle), changed.streams[index]? = some later →
      (later.stream.finSent = false ∧ later.finPlace = none ∧
          later.dataEnd ≤ changed.queue.order.length) ∨
        ∃ handle, session.streams[index]? = some handle ∧
          GoesOn changed.queue.order.length handle later)
    (after : ∀ (index : Nat) (handle : Handle), session.streams[index]? = some handle →
      ∃ later, changed.streams[index]? = some later ∧ later.stream = handle.stream)
    (returned : ∀ done ∈ changed.returns, done.fine) : Sound changed where
  shut := by
    intro index later there last
    rcases before index later there with ⟨open_, -⟩ | ⟨handle, known, goesOn⟩
    · rw [open_] at last
      cases last
    · cases goesOn with
      | opened stream more => rw [stream, more] at last; cases last
      | shut stream finPlace dataEnd refused =>
        obtain ⟨place, own, behind, closed⟩ :=
          (sound.shut index handle known (stream ▸ last)).place
        refine ⟨⟨place, finPlace.trans own, dataEnd ▸ behind, ?_⟩, refused⟩
        rw [order, stream]
        exact closed.append fun frame member _ => unclosing frame member
  opened := by
    intro index later there open_
    rcases before index later there with ⟨-, fresh⟩ | ⟨handle, known, goesOn⟩
    · exact fresh
    · have was : handle.stream.finSent = false := goesOn.stream ▸ open_
      obtain ⟨none_yet, inside⟩ := sound.opened index handle known was
      cases goesOn with
      | opened _ _ finPlace dataEnd => exact ⟨finPlace.trans none_yet, dataEnd⟩
      | shut _ finPlace dataEnd =>
        refine ⟨finPlace.trans none_yet, ?_⟩
        rw [dataEnd, order, List.length_append]
        omega
  closings := by
    intro frame member closing
    rw [order] at member
    rcases List.mem_append.mp member with old | new
    · obtain ⟨index, handle, there, last, own⟩ := sound.closings frame old closing
      obtain ⟨later, known, stream⟩ := after index handle there
      exact ⟨index, later, known, stream ▸ last, stream ▸ own⟩
    · exact absurd closing (unclosing frame new)
  returned

/-- A step that leaves the streams alone. -/
theorem Sound.aside (sound : Sound session) {changed : Session} {more : List Frame}
    (order : changed.queue.order = session.queue.order ++ more)
    (unclosing : ∀ frame ∈ more, frame.cmd ≠ cmdFin)
    (streams : changed.streams = session.streams) (returns : changed.returns = session.returns) :
    Sound changed := by
  refine sound.advance order unclosing (fun index later there => .inr ?_)
    (fun index handle there => ⟨handle, streams ▸ there, rfl⟩) (returns ▸ sound.returned)
  rw [streams] at there
  refine ⟨later, there, sound.still there ?_⟩
  rw [order, List.length_append]
  omega

/-- A step that makes a stream. -/
theorem Sound.create (sound : Sound session) {changed : Session} {more : List Frame}
    (order : changed.queue.order = session.queue.order ++ more)
    (unclosing : ∀ frame ∈ more, frame.cmd ≠ cmdFin) {sid : UInt32} {dataEnd : Nat}
    (inside : dataEnd ≤ changed.queue.order.length)
    (streams : changed.streams = session.streams ++ [.new sid dataEnd])
    (returns : changed.returns = session.returns) : Sound changed := by
  refine sound.advance order unclosing (fun index later there => ?_)
    (fun index handle there => ⟨handle, ?_, rfl⟩) (returns ▸ sound.returned)
  · rw [streams] at there
    rcases append_cases there with known | ⟨-, rfl⟩
    · refine .inr ⟨later, known, sound.still known ?_⟩
      rw [order, List.length_append]
      omega
    · exact .inl ⟨rfl, rfl, inside⟩
  · rw [streams, List.getElem?_append_left (List.getElem?_eq_some_iff.mp there).1]
    exact there

/-- A step that changes one stream, which goes on. -/
theorem Sound.change (sound : Sound session) {changed : Session} {more : List Frame}
    (order : changed.queue.order = session.queue.order ++ more)
    (unclosing : ∀ frame ∈ more, frame.cmd ≠ cmdFin) {index : Nat} {handle : Handle}
    {f : Handle → Handle} (there : session.streams[index]? = some handle)
    (streams : changed.streams = session.streams.modify index f)
    (goesOn : GoesOn changed.queue.order.length handle (f handle))
    (returned : ∀ done ∈ changed.returns, done.fine) : Sound changed := by
  have longer : session.queue.order.length ≤ changed.queue.order.length := by
    rw [order, List.length_append]
    omega
  refine sound.advance order unclosing (fun place later known => .inr ?_)
    (fun place entry known => ?_) returned
  · rw [streams] at known
    rcases modify_cases known with ⟨rfl, before, own, rfl⟩ | ⟨apart, own⟩
    · obtain rfl := Option.some.inj (there.symm.trans own)
      exact ⟨handle, there, goesOn⟩
    · exact ⟨later, own, sound.still own longer⟩
  · rw [streams]
    by_cases own : index = place
    · subst own
      obtain rfl := Option.some.inj (there.symm.trans known)
      exact ⟨f handle, by rw [List.getElem?_modify_eq, there]; rfl, goesOn.stream⟩
    · exact ⟨entry, by rw [List.getElem?_modify_ne _ _ own]; exact known, rfl⟩

end Invariant

section Steps

variable {session : Session}

/-- An opening frame closes nothing. -/
theorem syn_unclosing (sid : UInt32) : ∀ frame ∈ [Frame.new cmdSyn sid],
    frame.cmd ≠ cmdFin := by
  simp [Frame.new, cmdSyn, cmdFin]

/-- Data closes nothing. -/
theorem data_unclosing (sid : UInt32) (data : Bytes) :
    ∀ frame ∈ [(⟨cmdPsh, sid, data⟩ : Frame)], frame.cmd ≠ cmdFin := by
  simp [cmdPsh, cmdFin]

/-- An opening frame makes a stream that nothing was written to, or is not accepted. -/
theorem accept_sound (sound : Sound session) (sid : UInt32) : Sound (session.accept sid) := by
  unfold Session.accept
  split
  · exact sound.create (List.append_nil _).symm (by simp) (Nat.zero_le _) rfl rfl
  · exact sound

/-- Beginning to open a stream puts no frame into the queue. -/
theorem begin_open_sound (sound : Sound session) (target : ProxyTarget) :
    Sound (session.beginOpen target) := by
  unfold Session.beginOpen
  split
  · exact sound.aside (List.append_nil _).symm (by simp) rfl rfl
  · exact sound

/-- Acquiring a permit leaves all streams as they are. -/
theorem acquire_sound (sound : Sound session) : Sound session.acquire := by
  unfold Session.acquire
  split
  · exact sound
  · split
    · exact sound
    · exact sound.aside (List.append_nil _).symm (by simp) rfl rfl

/-- Pushing the address of an opening call keeps all streams in order. -/
theorem push_sound (sound : Sound session) : Sound session.push := by
  unfold Session.push
  split
  · exact sound
  · next opener opening =>
    simp only
    split
    · exact sound
    · split
      · exact sound.create (order_put _ _) (data_unclosing _ _) (Nat.le_refl _) rfl rfl
      · exact sound.aside (order_put _ _) (syn_unclosing _) rfl rfl

/-- Giving an opening call up keeps all streams in order. -/
theorem cancel_open_sound (sound : Sound session) : Sound session.cancelOpen := by
  unfold Session.cancelOpen
  split
  · exact sound
  · exact sound.aside (List.append_nil _).symm (by simp) rfl rfl

/-- A write begins a call that has enqueued nothing yet. -/
theorem write_sound (sound : Sound session) (index : Nat) (buf : Bytes) :
    Sound (session.write index buf) := by
  unfold Session.write
  split
  · next stream dataEnd finPlace there =>
    refine sound.change (List.append_nil _).symm (by simp) there rfl ?_ sound.returned
    rcases sound.still there (Nat.le_refl _) with ⟨-, more, -, inside⟩ | -
    · exact .opened rfl more rfl inside
    · refine .shut rfl rfl rfl ?_
      intro call same
      obtain rfl := Option.some.inj same
      rfl
  · exact sound

/-- A call that returns well ends. -/
theorem Sound.finish (sound : Sound session) {index : Nat} {handle : Handle}
    (there : session.streams[index]? = some handle) {done : WriteReturn} (fine : done.fine) :
    Sound { session.change index ({ · with writing := none }) with
      returns := session.returns ++ [done] } := by
  refine sound.change (List.append_nil _).symm (by simp) there rfl ?_ ?_
  · rcases sound.still there (Nat.le_refl _) with ⟨-, more, -, inside⟩ | -
    · exact .opened rfl more rfl inside
    · exact .shut rfl rfl rfl (by simp)
  · intro other member
    rcases List.mem_append.mp member with before | new
    · exact sound.returned other before
    · rw [List.mem_singleton.mp new]
      exact fine

/-- A pending write that proceeds into a free slot enqueues its chunk. -/
theorem proceed_sound (sound : Sound session) (index : Nat)
    (room : Room session (.proceed index)) : Sound (session.proceed index) := by
  unfold Session.proceed
  split
  · next stream call dataEnd finPlace there =>
    cases left : call.left with
    | nil =>
      simp only [AnytlsStream.pollWrite, left]
      exact sound.finish there ⟨fun _ => rfl, by simp⟩
    | cons chunk rest =>
      simp only [AnytlsStream.pollWrite, left]
      cases last : stream.finSent with
      | false =>
        have free : session.queue.free ≠ 0 :=
          Nat.pos_iff_ne_zero.mp (room _ call there rfl last (by simp [left]))
        simp only [send_psh_open last, if_neg free]
        exact sound.change (order_put _ _) (data_unclosing _ _) there rfl
          (.opened rfl last rfl (Nat.le_refl _)) sound.returned
      | true =>
        simp only [send_psh_shut last]
        exact sound.finish there
          ⟨by simp, fun _ _ => (sound.shut index _ there last).refused call rfl⟩
  · exact sound

/-- A stream that is shut down with a free slot, as the first one of its number, gets the one
closing frame. -/
theorem Sound.close (sound : Sound session) {index : Nat} {handle : Handle}
    (there : session.streams[index]? = some handle) (idle : handle.writing = none)
    (more : handle.stream.finSent = false)
    (alone : ∀ (other : Nat) (entry : Handle), session.streams[other]? = some entry →
      entry.stream.finSent = true → entry.stream.sid ≠ handle.stream.sid) :
    Sound { session.change index ({ · with
        stream := { handle.stream with finSent := true }
        finPlace := some session.queue.order.length }) with
      queue := session.queue.put (finFrame handle.stream.sid) } := by
  have order := order_put session.queue (finFrame handle.stream.sid)
  have unclosed (frame : Frame) (member : frame ∈ session.queue.order)
      (own : frame.sid = handle.stream.sid) : frame.cmd ≠ cmdFin := by
    intro closing
    obtain ⟨other, entry, known, last, same⟩ := sound.closings frame member closing
    exact alone other entry known last (same.trans own)
  constructor
  · intro other later known last
    rcases modify_cases known with ⟨rfl, before, own, rfl⟩ | ⟨apart, own⟩
    · obtain rfl := Option.some.inj (there.symm.trans own)
      refine ⟨⟨_, rfl, (sound.opened other handle there more).2, ?_, ?_⟩, by simp [idle]⟩
      · rw [order, List.getElem?_append_right (Nat.le_refl _), Nat.sub_self]
        rfl
      · intro place frame found same closing
        rw [order] at found
        rcases append_cases found with inside | ⟨end_, -⟩
        · exact absurd closing (unclosed frame (List.mem_of_getElem? inside) same)
        · exact end_
    · obtain ⟨⟨place, place_own, behind, closed⟩, refused⟩ := sound.shut other later own last
      refine ⟨⟨place, place_own, behind, ?_⟩, refused⟩
      rw [order]
      refine closed.append fun frame member same => ?_
      rw [List.mem_singleton.mp member] at same
      exact absurd same.symm (alone other later own last)
  · intro other later known open_
    rcases modify_cases known with ⟨rfl, before, own, rfl⟩ | ⟨apart, own⟩
    · cases open_
    · obtain ⟨none_yet, inside⟩ := sound.opened other later own open_
      refine ⟨none_yet, ?_⟩
      rw [order, List.length_append]
      omega
  · intro frame member closing
    rw [order] at member
    rcases List.mem_append.mp member with old | new
    · obtain ⟨other, entry, known, last, same⟩ := sound.closings frame old closing
      by_cases own : index = other
      · subst own
        obtain rfl := Option.some.inj (there.symm.trans known)
        rw [more] at last
        cases last
      · exact ⟨other, entry, (List.getElem?_modify_ne _ _ own).trans known, last, same⟩
    · rw [List.mem_singleton.mp new]
      refine ⟨index, { handle with
        stream := { handle.stream with finSent := true }
        finPlace := some session.queue.order.length }, ?_, rfl, rfl⟩
      change (session.streams.modify index _)[index]? = _
      rw [List.getElem?_modify_eq, there]
      rfl
  · exact sound.returned

/-- What shutting an open stream down does. -/
theorem shutdown_open {index : Nat} {handle : Handle}
    (there : session.streams[index]? = some handle) (idle : handle.writing = none)
    (more : handle.stream.finSent = false) :
    session.shutdown index =
      if session.queue.free = 0 then
        session.change index ({ · with
          stream := { handle.stream with finSent := true }, finPlace := handle.finPlace })
      else
        { session.change index ({ · with
            stream := { handle.stream with finSent := true }
            finPlace := some session.queue.order.length }) with
          queue := session.queue.put (finFrame handle.stream.sid) } := by
  obtain ⟨stream, writing, dataEnd, finPlace⟩ := handle
  cases idle
  simp only [Session.shutdown, there, send_fin_open more]
  split <;> simp [Session.change]

/-- Shutting down with a free slot puts the one closing frame behind the data. -/
theorem shutdown_sound (sound : Sound session) (index : Nat)
    (room : Room session (.shutdown index)) : Sound (session.shutdown index) := by
  rcases there : session.streams[index]? with _ | ⟨stream, _ | call, dataEnd, finPlace⟩
  · simp only [Session.shutdown, there]
    exact sound
  · cases last : stream.finSent with
    | false =>
      obtain ⟨free, alone⟩ := room _ there rfl last
      rw [shutdown_open there rfl last, if_neg (Nat.pos_iff_ne_zero.mp free)]
      exact sound.close there rfl last alone
    | true =>
      simp only [Session.shutdown, there, send_fin_shut last, lt_self_iff_false, if_false]
      exact sound.change (List.append_nil _).symm (by simp) there rfl
        (.shut rfl rfl rfl (by simp)) sound.returned
  · simp only [Session.shutdown, there]
    exact sound

/-- Every step with room keeps the invariant. -/
theorem step_sound (sound : Sound session) (event : Event) (room : Room session event) :
    Sound (step session event) := by
  cases event with
  | accept sid => exact accept_sound sound sid
  | beginOpen target => exact begin_open_sound sound target
  | acquire => exact acquire_sound sound
  | push => exact push_sound sound
  | cancelOpen => exact cancel_open_sound sound
  | write index buf => exact write_sound sound index buf
  | proceed index => exact proceed_sound sound index room
  | shutdown index => exact shutdown_sound sound index room
  | writer =>
    refine sound.aside ?_ (fun frame (member : frame ∈ []) => ?_) rfl rfl
    · rw [List.append_nil]
      exact order_recv session.queue
    · cases member

/-- A shutdown without room is not survived: without a free slot the closing frame is lost,
and after another stream of the number it is a second one. -/
theorem shutdown_broken (sound : Sound session) (index : Nat)
    (full : ¬Room session (.shutdown index)) : ¬Survives (session.shutdown index) := by
  simp only [Room, not_forall] at full
  obtain ⟨handle, there, idle, more, full⟩ := full
  intro survives
  rw [shutdown_open there idle more] at survives
  split at survives
  · obtain ⟨place, own, -⟩ := survives.closed index _
      (by
        change (session.streams.modify index _)[index]? = _
        rw [List.getElem?_modify_eq, there]
        rfl) rfl
    rw [(sound.opened index handle there more).1] at own
    cases own
  · next free =>
    obtain ⟨other, entry, known, last, same⟩ :
        ∃ (other : Nat) (entry : Handle), session.streams[other]? = some entry ∧
          entry.stream.finSent = true ∧ entry.stream.sid = handle.stream.sid := by
      by_contra alone
      exact full ⟨Nat.pos_of_ne_zero free, fun other entry known last same =>
        alone ⟨other, entry, known, last, same⟩⟩
    have apart : index ≠ other := by
      rintro rfl
      obtain rfl := Option.some.inj (there.symm.trans known)
      rw [more] at last
      cases last
    obtain ⟨place, own, -, closed⟩ := survives.closed other entry
      ((List.getElem?_modify_ne _ _ apart).trans known) last
    obtain ⟨⟨earlier, before, -, first⟩, -⟩ := sound.shut other entry known last
    obtain rfl := Option.some.inj (own.symm.trans before)
    have inside := (List.getElem?_eq_some_iff.mp first.here).1
    have second := closed.only session.queue.order.length (finFrame handle.stream.sid)
      (by
        rw [order_put, List.getElem?_append_right (Nat.le_refl _), Nat.sub_self]
        rfl) same.symm rfl
    omega

/-- A step without room breaks survival at once: the call returns an error for an open
stream, or the number of the stream does not get its one closing frame. -/
theorem step_broken (sound : Sound session) (event : Event) (full : ¬Room session event) :
    ¬Survives (step session event) := by
  cases event with
  | accept | beginOpen | acquire | push | cancelOpen | write | writer => exact absurd trivial full
  | shutdown index => exact shutdown_broken sound index full
  | proceed index =>
    simp only [Room, not_forall] at full
    obtain ⟨⟨stream, writing, dataEnd, finPlace⟩, call, there, rfl, more, left, full⟩ := full
    obtain ⟨chunk, rest, left⟩ := List.exists_cons_of_ne_nil left
    intro survives
    have failed : (⟨stream.finSent, call, .error sessionClosedError⟩ : WriteReturn) ∈
        (step session (.proceed index)).returns := by
      simp [step, Session.proceed, there, AnytlsStream.pollWrite, left, send_psh_open more,
        Nat.eq_zero_of_not_pos full]
    have accepted := survives.accepted _ failed more
    simp at accepted

/-- Writes survive throughout a run exactly if every frame of a write to an open stream,
and the closing frame of every first shutdown, meets a free slot of the queue, and no stream
is shut down after another one of its number. -/
theorem writes_survive_iff (isServer : Bool) (events : List Event) :
    Always step (.start isServer) Survives events ↔
      EachStep step (.start isServer) Room events :=
  always_iff_each_step (start_sound isServer)
    (fun _ event sound room => step_sound sound event room)
    (fun _ sound => sound.survives) (fun _ event sound full => step_broken sound event full) events

end Steps

section BusySession

variable {session : Session} {stream : AnytlsStream} {call : WriteCall} {index : Nat}

/-- A stream has a call under way. -/
def Under (session : Session) (index : Nat) (stream : AnytlsStream) (call : WriteCall) : Prop :=
  ∃ dataEnd finPlace, session.streams[index]? = some ⟨stream, some call, dataEnd, finPlace⟩

/-- A round of a call with a free slot puts one more chunk into the queue. -/
theorem proceed_put (under : Under session index stream call) (more : stream.finSent = false)
    (room : 0 < session.queue.free) {chunk : Bytes} {rest : List Bytes}
    (left : call.left = chunk :: rest) :
    (session.proceed index).queue = session.queue.put ⟨cmdPsh, stream.sid, chunk⟩ ∧
      (session.proceed index).returns = session.returns ∧
      Under (session.proceed index) index stream ⟨call.buf, rest,
        call.enqueued ++ [⟨cmdPsh, stream.sid, chunk⟩]⟩ := by
  obtain ⟨dataEnd, finPlace, there⟩ := under
  have proceeds : session.proceed index =
      { session.change index ({ · with
          writing := some ⟨call.buf, rest, call.enqueued ++ [⟨cmdPsh, stream.sid, chunk⟩]⟩
          dataEnd := (session.queue.put ⟨cmdPsh, stream.sid, chunk⟩).order.length }) with
        queue := session.queue.put ⟨cmdPsh, stream.sid, chunk⟩ } := by
    simp [Session.proceed, there, AnytlsStream.pollWrite, left, send_psh_open more,
      Nat.pos_iff_ne_zero.mp room]
  rw [proceeds]
  refine ⟨rfl, rfl, (session.queue.put ⟨cmdPsh, stream.sid, chunk⟩).order.length, finPlace, ?_⟩
  change (session.streams.modify index _)[index]? = _
  rw [List.getElem?_modify_eq, there]
  rfl

/-- Rounds of a call fill the free slots while the task that sends frames does not run. -/
theorem proceed_fills (count : Nat) (under : Under session index stream call)
    (more : stream.finSent = false) (room : count ≤ session.queue.free)
    (enough : count ≤ call.left.length) :
    ∃ later, Under (run step session (List.replicate count (.proceed index))) index stream later ∧
      (run step session (List.replicate count (.proceed index))).queue.free =
        session.queue.free - count ∧
      (run step session (List.replicate count (.proceed index))).returns = session.returns ∧
      later.left = call.left.drop count ∧
      later.enqueued.length = call.enqueued.length + count := by
  induction count generalizing session call with
  | zero => exact ⟨call, under, rfl, rfl, rfl, rfl⟩
  | succ count inductionHypothesis =>
    obtain ⟨chunk, rest, left⟩ : ∃ chunk rest, call.left = chunk :: rest :=
      List.exists_cons_of_length_pos (by omega)
    obtain ⟨queue, returned, goes⟩ := proceed_put under more (by omega) left
    have free : (session.proceed index).queue.free = session.queue.free - 1 := by
      rw [queue]
      simp only [FrameQueue.free, FrameQueue.put, List.length_append, List.length_singleton]
      omega
    rw [left, List.length_cons] at enough
    obtain ⟨later, under', room', returns, left', enqueued⟩ :=
      inductionHypothesis goes (by rw [free]; omega) (by simpa using enough)
    refine ⟨later, under', ?_, returns.trans returned, ?_, ?_⟩
    · exact room'.trans (by rw [free]; omega)
    · rw [left', left, List.drop_succ_cons]
    · rw [enqueued, List.length_append, List.length_singleton]
      omega

/-- A write to the first stream of a server, while the task that sends frames does not run. -/
def loneWrite (buf : Bytes) : List Event :=
  [.accept 1, .write 0 buf] ++ List.replicate 256 (.proceed 0) ++ [.proceed 0]

/-- A write of more frames than the queue has slots fails, with the first frames in the
queue. -/
theorem lone_write_fails (buf : Bytes) (many : 257 ≤ (pieces maxPayload buf).length) :
    ∃ call, (run step (.start true) (loneWrite buf)).returns =
        [⟨false, call, .error sessionClosedError⟩] ∧ call.enqueued.length = 256 := by
  obtain ⟨session, begun, under, free, returns⟩ :
      ∃ session, run step (.start true) [.accept 1, .write 0 buf] = session ∧
        Under session 0 (.new 1) (.new buf) ∧ session.queue.free = 256 ∧ session.returns = [] :=
    ⟨_, rfl, ⟨_, _, rfl⟩, rfl, rfl⟩
  obtain ⟨later, ⟨dataEnd, finPlace, there⟩, full, kept, left, enqueued⟩ :=
    proceed_fills 256 under rfl (by omega) (by simp only [WriteCall.new]; omega)
  obtain ⟨chunk, rest, left⟩ : ∃ chunk rest, later.left = chunk :: rest := by
    apply List.exists_cons_of_length_pos
    rw [left, List.length_drop]
    simp only [WriteCall.new]
    omega
  rw [free] at full
  rw [returns] at kept
  refine ⟨later, ?_, enqueued⟩
  rw [loneWrite, run_snoc, run_append, begun]
  generalize run step session (List.replicate 256 (.proceed 0)) = busy at *
  have failed : AnytlsStream.sendPsh (.new 1) busy.queue chunk = .error sessionClosedError := by
    rw [send_psh_open rfl, if_pos full]
  simp only [step, Session.proceed, there, AnytlsStream.pollWrite, left, failed, kept]
  rfl

/-- A write of a little over four mebibytes fails as if the session were closed, with 256 of
its frames in the queue. -/
theorem large_write_fails :
    (∃ call, (run step (.start true) (loneWrite (List.replicate (257 * maxPayload) 0))).returns =
        [⟨false, call, .error ⟨.brokenPipe, "anytls: session closed"⟩⟩] ∧
      call.enqueued.length = 256) ∧
      ¬Always step (.start true) Survives (loneWrite (List.replicate (257 * maxPayload) 0)) := by
  have many : 257 ≤ (pieces maxPayload (List.replicate (257 * maxPayload) (0 : UInt8))).length :=
    pieces_many maxPayload 257 _ (by decide) (by rw [List.length_replicate])
  obtain ⟨call, returned, enqueued⟩ := lone_write_fails _ many
  refine ⟨⟨call, returned, enqueued⟩, ?_⟩
  intro always
  have survives := always _ [] (List.append_nil _).symm
  have accepted := survives.accepted ⟨false, call, .error sessionClosedError⟩
    (by rw [returned]; exact List.mem_cons_self) rfl
  simp at accepted

/-- Two streams of one number are closed twice. -/
example : (run step (.start true) [.accept 1, .accept 1, .shutdown 0, .shutdown 1]).queue.order =
    [finFrame 1, finFrame 1] := by
  decide

end BusySession

end OmniProxy.AnytlsWriter
