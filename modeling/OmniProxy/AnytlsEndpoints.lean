import OmniProxy.AnytlsEndings
import OmniProxy.AnytlsIsolation
import OmniProxy.AnytlsTasks
import OmniProxy.AnytlsWriter

/-!
# One side of an AnyTLS link

A side is a session with a record of what it did: the frames that its loop has handled, the
data that its streams have accepted and those that reads of them have returned. Two things
hold of a side alone. The frames that it puts into its queue for a number are those of one
stream, in order and with all data that was accepted. What it returns to the readers of a
stream is a front of what the handled frames have for its number, as long as those frames are
what the other side may send.
-/

namespace OmniProxy.AnytlsEndpoints

open AnytlsEndings AnytlsFrames AnytlsIsolation AnytlsRegistry AnytlsStreams ByteStrings
open Connections ListUpdates ProxyTargets

section Sides

/-- A side with its records. The targets are those of the openings. It is cut when its
connection has ended or failed. -/
structure Side where
  ledger : Ledger
  handled : List Frame
  target : Nat → Option ProxyTarget
  accepted : Nat → List Bytes
  returned : Nat → Bytes
  cut : Bool

def Side.start (isServer : Bool) : Side where
  ledger := .start isServer
  handled := []
  target := fun _ => none
  accepted := fun _ => []
  returned := fun _ => []
  cut := false

def Side.session (side : Side) : Session := side.ledger.session

/-- The frame that the loop handles in a step. -/
def handles (session : Session) : Event → Option Frame
  | .loop => session.next.map Prod.fst
  | _ => none

/-- The stream that begins to be opened in a step, and for which target. -/
def opens (session : Session) : Event → Option (Nat × ProxyTarget)
  | .beginOpen target =>
      if session.handle ∧ session.opener.isNone then some (session.streams.length, target) else none
  | _ => none

/-- The data that a stream accepts in a step. An opening has its address accepted. -/
def accepts (session : Session) : Event → Option (Nat × List Bytes)
  | .push =>
      (session.opener.filter fun opener => opener.slot && opener.synSent).map
        fun opener => (opener.index, [addressOf opener.target])
  | .write index chunk =>
      match session.ownedStream index with
      | none => none
      | some entry =>
          if session.writing then
            match entry.stream.sendPsh session.queue chunk with
            | .error _ => none
            | .ok _ => some (index, [chunk])
          else none
  | _ => none

/-- The data that a read of a stream returns. -/
def hands (session : Session) : Event → Option (Nat × Bytes)
  | .read index size =>
      (session.ownedStream index).bind fun entry =>
        (entry.stream.pollRead (!session.hasSender index entry.stream.sid) size).1.map (index, ·)
  | _ => none

/-- The connection ends or fails. -/
def cuts : Event → Bool
  | .received (.ok octets) => octets.isEmpty
  | .received (.error _) => true
  | _ => false

/-- A record with what is new for one stream. -/
def extended {Item : Type} (record : Nat → List Item) : Option (Nat × List Item) → Nat → List Item
  | none => record
  | some (index, items) => Function.update record index (record index ++ items)

/-- One step of a side. -/
def Side.step (side : Side) (event : Event) : Side where
  ledger := side.ledger.step event
  handled := side.handled ++ (handles side.session event).toList
  target :=
    match opens side.session event with
    | none => side.target
    | some (index, target) => Function.update side.target index (some target)
  accepted := extended side.accepted (accepts side.session event)
  returned := extended side.returned (hands side.session event)
  cut := side.cut || cuts event

/-- Holders write chunks that fit a frame and are not empty, and open streams for targets that
can be written. -/
def Event.Proper : Event → Prop
  | .write _ chunk => chunk ≠ [] ∧ chunk.length ≤ maxPayload
  | .beginOpen target => target.named
  | _ => True

/-- A step of a side is that step of its session, with the ledger kept beside it. -/
@[simp] theorem step_session (side : Side) (event : Event) :
    (side.step event).session = AnytlsRegistry.step side.session event := rfl

end Sides

section Messages

/-- The message that a frame has for the stream of its number. -/
def carried (frame : Frame) : Option StreamMsg :=
  if frame.cmd = cmdPsh then some (messageOf frame)
  else if frame.cmd = cmdFin then some .eof
  else none

/-- The messages that frames have for a number. -/
def messagesFor (sid : UInt32) (frames : List Frame) : List StreamMsg :=
  (framesOf sid frames).filterMap carried

/-- The messages for a number come from the frames in their order. -/
theorem messages_for_append (sid : UInt32) (before after : List Frame) :
    messagesFor sid (before ++ after) = messagesFor sid before ++ messagesFor sid after := by
  rw [messagesFor, frames_of_append, List.filterMap_append]
  rfl

/-- One more frame adds its own message when it has the number, and nothing else. -/
theorem messages_for_snoc (sid : UInt32) (frames : List Frame) (frame : Frame) :
    messagesFor sid (frames ++ [frame]) =
      messagesFor sid frames ++ if frame.sid = sid then (carried frame).toList else [] := by
  rw [messages_for_append]
  congr 1
  by_cases own : frame.sid = sid
  · rw [if_pos own, messagesFor, frames_of_own own]
    cases message : carried frame <;> simp [framesOf, message]
  · rw [if_neg own, messagesFor, frames_of_other own]
    rfl

/-- Without a frame of its number a stream gets no message. -/
theorem messages_for_nothing {sid : UInt32} {frames : List Frame}
    (empty : framesOf sid frames = []) : messagesFor sid frames = [] := by
  rw [messagesFor, empty]
  rfl

/-- The frame with data of a stream. -/
def pshFrame (sid : UInt32) (chunk : Bytes) : Frame := ⟨cmdPsh, sid, chunk⟩

/-- The frames that a stream has after its opening. -/
def sentFrames (sid : UInt32) (chunks : List Bytes) (closed : Bool) : List Frame :=
  chunks.map (pshFrame sid) ++ if closed then [finFrame sid] else []

/-- The messages of these frames. -/
def sentMessages (chunks : List Bytes) (closed : Bool) : List StreamMsg :=
  chunks.map .data ++ if closed then [.eof] else []

/-- The frames of a stream carry its chunks and then its end. -/
theorem sent_messages_carried (sid : UInt32) (chunks : List Bytes) (closed : Bool)
    (more : ∀ chunk ∈ chunks, chunk ≠ []) :
    (sentFrames sid chunks closed).filterMap carried = sentMessages chunks closed := by
  have data : (chunks.map (pshFrame sid)).filterMap carried = chunks.map .data := by
    induction chunks with
    | nil => rfl
    | cons chunk chunks inductionHypothesis =>
      have something := more chunk List.mem_cons_self
      rw [List.map_cons, List.filterMap_cons_some (b := .data chunk), List.map_cons,
        inductionHypothesis fun other member => more other (List.mem_cons_of_mem _ member)]
      simp [carried, pshFrame, messageOf, something]
  rw [sentFrames, sentMessages, List.filterMap_append, data]
  cases closed <;> rfl

end Messages

section Expectations

/-- A number that has no stream yet, and no frame of which was handled. -/
structure Fresh (side : Side) (sid : UInt32) : Prop where
  nonzero : sid ≠ 0
  unused : ∀ (index : Nat) (entry : LocalStream), side.session.streams[index]? = some entry →
    entry.stream.sid ≠ sid
  unhandled : framesOf sid side.handled = []

/-- A frame that the other side may send: a server gets one opening frame for a number, a
frame with data has some, and no frame of a number comes after its closing frame. -/
structure Expected (side : Side) (frame : Frame) : Prop where
  opening : frame.cmd = cmdSyn →
    side.session.isServer = true ∧ side.session.refusesSyn = false ∧ Fresh side frame.sid
  unalarming : frame.cmd ≠ cmdAlert
  last : frame.cmd = cmdPsh ∨ frame.cmd = cmdFin → finFrame frame.sid ∉ side.handled
  data : frame.cmd = cmdPsh → frame.data ≠ []
  closing : frame.cmd = cmdFin → frame = finFrame frame.sid

/-- What a step of a side needs. -/
def Expects (side : Side) : Event → Prop
  | .loop => ∀ frame, handles side.session .loop = some frame → Expected side frame
  | .beginOpen target => opens side.session (.beginOpen target) ≠ none →
      target.named ∧ side.session.isServer = false ∧ Fresh side side.session.nextSid
  | .write _ chunk => chunk ≠ [] ∧ chunk.length ≤ maxPayload
  | _ => True

end Expectations

section Offers

/-- What a side has put into its queue for a stream: on a client an opening frame, then the
data that the stream has accepted and its closing frame. A client's stream that was opened
has accepted its address. -/
structure Offer (side : Side) (index : Nat) (entry : LocalStream) : Prop where
  frames : ∃ opening, framesOf entry.stream.sid side.session.queue.order =
      opening ++ sentFrames entry.stream.sid (side.accepted index) entry.finQueued ∧
    (side.session.isServer = true → opening = []) ∧
    (side.session.isServer = false → opening = [.new cmdSyn entry.stream.sid] ∨
      opening = [] ∧ side.accepted index = [] ∧ entry.finQueued = false)
  shut : entry.finQueued = true → entry.stream.finSent = true
  sized : ∀ chunk ∈ side.accepted index, chunk ≠ [] ∧ chunk.length < 2 ^ 16
  ready : side.session.isServer = false → side.session.ownedStream index ≠ none →
    side.accepted index ≠ []
  addressed : side.session.isServer = false → side.accepted index = [] ∨
    ∃ target, side.target index = some target ∧
      (side.accepted index).head? = some (addressOf target)

/-- An opening under way: its stream has accepted nothing yet. -/
structure Opening (side : Side) (opener : Opener) : Prop where
  client : side.session.isServer = false
  entry : ∃ entry, side.session.streams[opener.index]? = some entry ∧
    entry.stream.sid = opener.sid ∧ entry.finQueued = false
  target : side.target opener.index = some opener.target
  named : opener.target.named
  nothing : side.accepted opener.index = []
  syn : framesOf opener.sid side.session.queue.order =
    if opener.synSent then [.new cmdSyn opener.sid] else []

/-- Every frame in the queue is the settings or one of a stream, and no two streams have one
number. -/
structure Offers (side : Side) : Prop where
  offer : ∀ (index : Nat) (entry : LocalStream), side.session.streams[index]? = some entry →
    Offer side index entry
  beyond : ∀ index, side.session.streams.length ≤ index → side.accepted index = []
  known : ∀ frame ∈ side.session.queue.order,
    (frame = settingsFrame ∧ side.session.isServer = false) ∨
      ∃ (index : Nat) (entry : LocalStream), side.session.streams[index]? = some entry ∧
        entry.stream.sid = frame.sid
  distinct : ∀ (index other : Nat) (entry found : LocalStream),
    side.session.streams[index]? = some entry → side.session.streams[other]? = some found →
    entry.stream.sid = found.stream.sid → index = other
  numbered : ∀ (index : Nat) (entry : LocalStream), side.session.streams[index]? = some entry →
    entry.stream.sid ≠ 0
  opener : ∀ opener, side.session.opener = some opener → Opening side opener

/-- A stream of which a step puts no frame into the queue. -/
structure Kept (entry later : LocalStream) : Prop where
  sid : later.stream.sid = entry.stream.sid
  held : later.held = true → entry.held = true
  finQueued : later.finQueued = entry.finQueued
  finSent : entry.stream.finSent = true → later.stream.finSent = true

/-- A step that puts no frame into the queue and makes no stream. -/
structure Quiet (side after : Side) : Prop where
  isServer : after.session.isServer = side.session.isServer
  order : after.session.queue.order = side.session.queue.order
  accepted : after.accepted = side.accepted
  target : after.target = side.target
  length : after.session.streams.length = side.session.streams.length
  streams : ∀ (index : Nat) (later : LocalStream), after.session.streams[index]? = some later →
    ∃ entry, side.session.streams[index]? = some entry ∧ Kept entry later
  owned : ∀ index, after.session.ownedStream index ≠ none →
    side.session.ownedStream index ≠ none
  opener : ∀ later, after.session.opener = some later →
    ∃ slot, side.session.opener = some { later with slot }

variable {side after : Side}

/-- A stream that is not touched is kept. -/
theorem Kept.refl (entry : LocalStream) : Kept entry entry := ⟨rfl, id, rfl, id⟩

/-- A fresh side offers the settings when it is a client's, and nothing else. -/
theorem start_offers (isServer : Bool) : Offers (.start isServer) where
  offer := by simp [Side.start, Side.session, Ledger.start, Session.start]
  beyond _ _ := rfl
  known := by
    intro frame member
    cases isServer with
    | true =>
      simp [Side.start, Side.session, Ledger.start, Session.start, FrameQueue.order] at member
    | false =>
      left
      simpa [Side.start, Side.session, Ledger.start, Session.start, FrameQueue.order] using member
  distinct := by simp [Side.start, Side.session, Ledger.start, Session.start]
  numbered := by simp [Side.start, Side.session, Ledger.start, Session.start]
  opener := by simp [Side.start, Side.session, Ledger.start, Session.start]

/-- A stream is still there after a quiet step. -/
theorem Quiet.later (quiet : Quiet side after) {index : Nat} {entry : LocalStream}
    (there : side.session.streams[index]? = some entry) :
    ∃ later, after.session.streams[index]? = some later ∧ Kept entry later := by
  have inside := (List.getElem?_eq_some_iff.mp there).1
  rw [← quiet.length] at inside
  obtain ⟨found, known, kept⟩ := quiet.streams index _ (List.getElem?_eq_getElem inside)
  obtain rfl := Option.some.inj (there.symm.trans known)
  exact ⟨_, List.getElem?_eq_getElem inside, kept⟩

/-- A step that puts no frame into the queue and makes no stream keeps the invariant. -/
theorem Offers.quiet (offers : Offers side) (quiet : Quiet side after) : Offers after where
  offer := by
    intro index later there
    obtain ⟨entry, known, kept⟩ := quiet.streams index later there
    obtain ⟨frames, shut, sized, ready, addressed⟩ := offers.offer index entry known
    refine ⟨?_, ?_, ?_, ?_, ?_⟩
    · rw [kept.sid, kept.finQueued, quiet.order, quiet.accepted, quiet.isServer]
      exact frames
    · intro queued
      exact kept.finSent (shut (kept.finQueued ▸ queued))
    · rw [quiet.accepted]
      exact sized
    · rw [quiet.isServer, quiet.accepted]
      exact fun client owned => ready client (quiet.owned index owned)
    · rw [quiet.isServer, quiet.accepted, quiet.target]
      exact addressed
  beyond := by
    rw [quiet.length, quiet.accepted]
    exact offers.beyond
  known := by
    rw [quiet.order, quiet.isServer]
    intro frame member
    rcases offers.known frame member with settings | ⟨index, entry, there, own⟩
    · exact .inl settings
    · obtain ⟨later, known, kept⟩ := quiet.later there
      exact .inr ⟨index, later, known, kept.sid.trans own⟩
  distinct := by
    intro index other later found there known same
    obtain ⟨entry, before, kept⟩ := quiet.streams index later there
    obtain ⟨second, earlier, holds⟩ := quiet.streams other found known
    rw [kept.sid, holds.sid] at same
    exact offers.distinct index other entry second before earlier same
  numbered := by
    intro index later there
    obtain ⟨entry, known, kept⟩ := quiet.streams index later there
    rw [kept.sid]
    exact offers.numbered index entry known
  opener := by
    intro later there
    obtain ⟨slot, before⟩ := quiet.opener later there
    obtain ⟨client, ⟨entry, known, own, unqueued⟩, target, named, nothing, syn⟩ :=
      offers.opener _ before
    obtain ⟨found, place, kept⟩ := quiet.later known
    refine ⟨quiet.isServer.trans client, ?_, ?_, named, ?_, ?_⟩
    · exact ⟨found, place, kept.sid.trans own, kept.finQueued.trans unqueued⟩
    · rw [quiet.target]
      exact target
    · rw [quiet.accepted]
      exact nothing
    · rw [quiet.order]
      exact syn

/-- A step that puts a frame of one stream into the queue. -/
structure Puts (side after : Side) (index : Nat) (entry later : LocalStream) (frame : Frame) :
    Prop where
  there : side.session.streams[index]? = some entry
  here : after.session.streams[index]? = some later
  others : ∀ other, other ≠ index →
    after.session.streams[other]? = side.session.streams[other]?
  length : after.session.streams.length = side.session.streams.length
  isServer : after.session.isServer = side.session.isServer
  order : after.session.queue.order = side.session.queue.order ++ [frame]
  own : frame.sid = entry.stream.sid
  sid : later.stream.sid = entry.stream.sid
  accepted : ∀ other, other ≠ index → after.accepted other = side.accepted other
  target : after.target = side.target
  owned : ∀ other, other ≠ index → after.session.ownedStream other ≠ none →
    side.session.ownedStream other ≠ none

/-- Such a step keeps what the other streams have put into the queue. -/
theorem Offers.puts (offers : Offers side) {index : Nat} {entry later : LocalStream}
    {frame : Frame} (puts : Puts side after index entry later frame)
    (offer : Offer after index later)
    (opener : ∀ opener, after.session.opener = some opener → Opening after opener) :
    Offers after := by
  have before (other : Nat) (found : LocalStream)
      (known : after.session.streams[other]? = some found) :
      ∃ old, side.session.streams[other]? = some old ∧ found.stream.sid = old.stream.sid := by
    by_cases same : other = index
    · subst same
      obtain rfl := Option.some.inj (puts.here.symm.trans known)
      exact ⟨entry, puts.there, puts.sid⟩
    · exact ⟨found, (puts.others other same).symm.trans known, rfl⟩
  have inside := (List.getElem?_eq_some_iff.mp puts.there).1
  refine ⟨?_, ?_, ?_, ?_, ?_, opener⟩
  · intro other found known
    by_cases same : other = index
    · subst same
      obtain rfl := Option.some.inj (puts.here.symm.trans known)
      exact offer
    · rw [puts.others other same] at known
      obtain ⟨frames, shut, sized, ready, addressed⟩ := offers.offer other found known
      have foreign : frame.sid ≠ found.stream.sid := by
        rw [puts.own]
        intro shared
        exact same (offers.distinct index other entry found puts.there known shared).symm
      refine ⟨?_, shut, ?_, ?_, ?_⟩
      · rw [puts.order, frames_of_append, frames_of_other foreign, puts.accepted other same,
          puts.isServer]
        rw [show framesOf found.stream.sid [] = [] from rfl, List.append_nil]
        exact frames
      · rw [puts.accepted other same]
        exact sized
      · rw [puts.isServer, puts.accepted other same]
        exact fun client owned => ready client (puts.owned other same owned)
      · rw [puts.isServer, puts.accepted other same, puts.target]
        exact addressed
  · intro other past
    rw [puts.length] at past
    rw [puts.accepted other (by omega)]
    exact offers.beyond other past
  · intro other member
    rw [puts.order] at member
    rcases List.mem_append.mp member with old | new
    · rcases offers.known other old with settings | ⟨place, found, known, own⟩
      · rw [puts.isServer]
        exact .inl settings
      · right
        by_cases same : place = index
        · subst same
          obtain rfl := Option.some.inj (puts.there.symm.trans known)
          exact ⟨place, later, puts.here, puts.sid.trans own⟩
        · exact ⟨place, found, (puts.others place same).trans known, own⟩
    · obtain rfl := List.mem_singleton.mp new
      exact .inr ⟨index, later, puts.here, puts.sid.trans puts.own.symm⟩
  · intro first second one two there known same
    obtain ⟨old, earlier, oneSid⟩ := before first one there
    obtain ⟨other, place, twoSid⟩ := before second two known
    rw [oneSid, twoSid] at same
    exact offers.distinct first second old other earlier place same
  · intro other found known
    obtain ⟨old, earlier, same⟩ := before other found known
    rw [same]
    exact offers.numbered other old earlier

/-- No frame of a number without a stream is in the queue. -/
theorem Offers.unknown (offers : Offers side) {sid : UInt32} (nonzero : sid ≠ 0)
    (fresh : ∀ (index : Nat) (entry : LocalStream), side.session.streams[index]? = some entry →
      entry.stream.sid ≠ sid) : framesOf sid side.session.queue.order = [] := by
  rw [framesOf, List.filter_eq_nil_iff]
  intro frame member own
  have own : frame.sid = sid := of_decide_eq_true own
  rcases offers.known frame member with ⟨rfl, -⟩ | ⟨index, entry, there, same⟩
  · exact nonzero own.symm
  · exact fresh index entry there (same.trans own)

/-- A new stream has put nothing into the queue. -/
theorem Offers.register (offers : Offers side) {sid : UInt32} (held : Bool) (nonzero : sid ≠ 0)
    (fresh : ∀ (index : Nat) (entry : LocalStream), side.session.streams[index]? = some entry →
      entry.stream.sid ≠ sid)
    (streams : after.session.streams = side.session.streams ++ [.new sid held])
    (isServer : after.session.isServer = side.session.isServer)
    (order : after.session.queue.order = side.session.queue.order)
    (accepted : after.accepted = side.accepted)
    (target : ∀ other, other < side.session.streams.length →
      after.target other = side.target other)
    (owned : ∀ other, after.session.ownedStream other ≠ none →
      side.session.ownedStream other ≠ none ∨
        other = side.session.streams.length ∧ side.session.isServer = true)
    (opener : ∀ opener, after.session.opener = some opener → Opening after opener) :
    Offers after := by
  have old {index : Nat} {entry : LocalStream} (there : side.session.streams[index]? = some entry) :
      after.session.streams[index]? = some entry := by
    rw [streams, List.getElem?_append_left (List.getElem?_eq_some_iff.mp there).1, there]
  have nothing : side.accepted side.session.streams.length = [] :=
    offers.beyond _ (Nat.le_refl _)
  refine ⟨?_, ?_, ?_, ?_, ?_, opener⟩
  · intro index entry there
    rw [streams] at there
    rcases append_cases there with known | ⟨rfl, rfl⟩
    · have inside := (List.getElem?_eq_some_iff.mp known).1
      obtain ⟨frames, shut, sized, ready, addressed⟩ := offers.offer index entry known
      refine ⟨?_, shut, ?_, ?_, ?_⟩
      · rw [order, accepted, isServer]
        exact frames
      · rw [accepted]
        exact sized
      · rw [isServer, accepted]
        intro client holds
        rcases owned index holds with before | ⟨last, -⟩
        · exact ready client before
        · exact absurd last (Nat.ne_of_lt inside)
      · rw [isServer, accepted, target index inside]
        exact addressed
    · refine ⟨?_, by simp [LocalStream.new], ?_, ?_, ?_⟩
      · refine ⟨[], ?_, fun _ => rfl, fun _ => .inr ⟨rfl, accepted ▸ nothing, rfl⟩⟩
        rw [order, accepted, nothing]
        exact offers.unknown nonzero fresh
      · rw [accepted, nothing]
        simp
      · rw [isServer]
        intro client holds
        rcases owned _ holds with before | ⟨-, server⟩
        · exact absurd (by simp [Session.ownedStream]) before
        · simp [client] at server
      · exact fun _ => .inl (accepted ▸ nothing)
  · intro index past
    rw [streams, List.length_append] at past
    rw [accepted]
    exact offers.beyond index (by omega)
  · intro frame member
    rw [order] at member
    rw [isServer]
    rcases offers.known frame member with settings | ⟨index, entry, there, own⟩
    · exact .inl settings
    · exact .inr ⟨index, entry, old there, own⟩
  · intro first second one two there known same
    rw [streams] at there known
    rcases append_cases there with there | ⟨rfl, rfl⟩ <;>
      rcases append_cases known with known | ⟨rfl, rfl⟩
    · exact offers.distinct first second one two there known same
    · exact absurd same (fresh first one there)
    · exact absurd same.symm (fresh second two known)
    · rfl
  · intro index entry there
    rw [streams] at there
    rcases append_cases there with known | ⟨-, rfl⟩
    · exact offers.numbered index entry known
    · exact nonzero

end Offers

section OfferSteps

variable {side : Side}

/-- A handle is owned when its stream was returned to a caller and is not being opened. -/
theorem owned_iff (session : Session) (index : Nat) :
    session.ownedStream index ≠ none ↔ session.opener.map Opener.index ≠ some index ∧
      ∃ entry, session.streams[index]? = some entry ∧ entry.held = true := by
  unfold Session.ownedStream
  split
  · next same => simp [same]
  · next other => simp [other, Option.filter_eq_none_iff]

/-- A step that only changes what is not in the queue. -/
theorem quiet_of_kept {event : Event} {result : Session}
    (steps : AnytlsRegistry.step side.session event = result)
    (accepts : accepts side.session event = none) (opens : opens side.session event = none)
    (isServer : result.isServer = side.session.isServer)
    (order : result.queue.order = side.session.queue.order)
    (length : result.streams.length = side.session.streams.length)
    (streams : ∀ (index : Nat) (later : LocalStream), result.streams[index]? = some later →
      ∃ entry, side.session.streams[index]? = some entry ∧ Kept entry later)
    (places : result.opener.map Opener.index = side.session.opener.map Opener.index)
    (opener : ∀ later, result.opener = some later →
      ∃ slot, side.session.opener = some { later with slot }) :
    Quiet side (side.step event) := by
  refine ⟨?_, ?_, ?_, ?_, ?_, ?_, ?_, ?_⟩
  · rw [step_session, steps, isServer]
  · rw [step_session, steps, order]
  · simp only [Side.step, accepts, extended]
  · simp only [Side.step, opens]
  · rw [step_session, steps, length]
  · rw [step_session, steps]
    exact streams
  · intro index owned
    rw [step_session, steps, owned_iff, places] at owned
    obtain ⟨apart, later, there, held⟩ := owned
    obtain ⟨entry, known, kept⟩ := streams index later there
    rw [owned_iff]
    exact ⟨apart, entry, known, kept.held held⟩
  · rw [step_session, steps]
    exact opener

/-- A step that leaves the streams and the opening as they are. -/
theorem quiet_of_same {event : Event} {result : Session}
    (steps : AnytlsRegistry.step side.session event = result)
    (accepts : accepts side.session event = none) (opens : opens side.session event = none)
    (isServer : result.isServer = side.session.isServer)
    (order : result.queue.order = side.session.queue.order)
    (streams : result.streams = side.session.streams)
    (opener : result.opener = side.session.opener) : Quiet side (side.step event) := by
  apply quiet_of_kept steps accepts opens isServer order
  · rw [streams]
  · rw [streams]
    exact fun index later there => ⟨later, there, Kept.refl later⟩
  · rw [opener]
  · rw [opener]
    exact fun later there => ⟨later.slot, there⟩

/-- A step that changes one stream. -/
theorem quiet_of_change {event : Event} {index : Nat} {f : LocalStream → LocalStream}
    {result : Session} (steps : AnytlsRegistry.step side.session event = result)
    (accepts : accepts side.session event = none) (opens : opens side.session event = none)
    (isServer : result.isServer = side.session.isServer)
    (order : result.queue.order = side.session.queue.order)
    (streams : result.streams = side.session.streams.modify index f)
    (kept : ∀ entry, Kept entry (f entry)) (opener : result.opener = side.session.opener) :
    Quiet side (side.step event) := by
  apply quiet_of_kept steps accepts opens isServer order
  · rw [streams, List.length_modify]
  · intro other later there
    rw [streams] at there
    obtain ⟨rfl, entry, known, rfl⟩ | ⟨-, known⟩ := modify_cases there
    · exact ⟨entry, known, kept entry⟩
    · exact ⟨later, known, Kept.refl later⟩
  · rw [opener]
  · rw [opener]
    exact fun later there => ⟨later.slot, there⟩

/-- An opening that is given up leaves nothing of it. -/
theorem quiet_of_abandon {event : Event} {opener : Opener}
    (there : side.session.opener = some opener)
    (steps : AnytlsRegistry.step side.session event = side.session.abandon opener)
    (accepts : accepts side.session event = none) (opens : opens side.session event = none) :
    Quiet side (side.step event) := by
  refine ⟨?_, ?_, ?_, ?_, ?_, ?_, ?_, ?_⟩
  · rw [step_session, steps]
    rfl
  · rw [step_session, steps]
    simp only [Session.abandon]
    split <;> rfl
  · simp only [Side.step, accepts, extended]
  · simp only [Side.step, opens]
  · rw [step_session, steps]
    exact List.length_modify ..
  · rw [step_session, steps]
    intro index later known
    obtain ⟨rfl, entry, before, rfl⟩ | ⟨-, before⟩ := modify_cases known
    · exact ⟨entry, before, rfl, by simp, rfl, id⟩
    · exact ⟨later, before, Kept.refl later⟩
  · intro index owned
    rw [step_session, steps, owned_iff] at owned
    obtain ⟨-, later, known, held⟩ := owned
    obtain ⟨rfl, entry, before, rfl⟩ | ⟨apart, before⟩ := modify_cases known
    · simp at held
    · rw [owned_iff, there]
      exact ⟨by simpa using Ne.symm apart, later, before, held⟩
  · rw [step_session, steps]
    simp [Session.abandon]

/-- Reading never marks a stream as closed for writing. -/
theorem poll_read_fin_sent (stream : AnytlsStream) (closed : Bool) (size : Nat) :
    (stream.pollRead closed size).2.finSent = stream.finSent := by
  unfold AnytlsStream.pollRead
  split
  · rfl
  · split
    · rfl
    · split
      · split <;> rfl
      · rfl
      · split <;> rfl

/-- The loop handles the frame that is next in its buffer. -/
theorem handles_next {side : Side} {frame : Frame} {consumed : Nat}
    (next : side.session.next = some (frame, consumed)) :
    handles side.session .loop = some frame := by
  simp only [handles, next, Option.map_some]

/-- The loop makes a stream for an opening frame, and puts nothing into the queue. -/
theorem loop_offers (offers : Offers side) (expects : Expects side .loop) :
    Offers (side.step .loop) := by
  rcases sending : side.session.sending with _ | ⟨index, msg⟩
  · rcases next : side.session.next with _ | ⟨frame, consumed⟩
    · exact offers.quiet (quiet_of_same (read_loop_idle sending next) rfl rfl rfl rfl rfl rfl)
    · have expected := expects frame (handles_next next)
      have steps : AnytlsRegistry.step side.session .loop = _ := read_loop_next next
      generalize handles : Session.handleFrame _ frame = result at steps
      have outcome := handles ▸
        frame_handled { side.session with buf := side.session.buf.drop consumed } frame
      cases outcome with
      | quiet gotSettings syn psh fin alert =>
        exact offers.quiet (quiet_of_same steps rfl rfl rfl rfl rfl rfl)
      | refused error cause =>
        exact offers.quiet (quiet_of_same steps rfl rfl rfl rfl rfl rfl)
      | syn cmd accepted =>
        obtain ⟨server, -, fresh⟩ := expected.opening cmd
        have unopened (opener : Opener) : side.session.opener ≠ some opener := by
          intro there
          have client := (offers.opener opener there).client
          simp [server] at client
        apply offers.register side.session.isServer fresh.nonzero fresh.unused
        · rw [step_session, steps]
          rfl
        · rw [step_session, steps]
          rfl
        · rw [step_session, steps]
          rfl
        · rfl
        · exact fun other inside => rfl
        · intro other owned
          rw [step_session, steps, owned_iff] at owned
          obtain ⟨apart, later, there, held⟩ := owned
          rcases append_cases there with known | ⟨rfl, rfl⟩
          · left
            rw [owned_iff]
            exact ⟨apart, later, known, held⟩
          · exact .inr ⟨rfl, server⟩
        · intro opener there
          rw [step_session, steps] at there
          exact absurd there (unopened opener)
      | psh cmd =>
        exact offers.quiet (quiet_of_same steps rfl rfl rfl rfl rfl rfl)
      | fin cmd =>
        apply offers.quiet
        apply quiet_of_kept steps rfl rfl rfl rfl
        · exact List.length_map ..
        · intro index later there
          obtain ⟨entry, known, rfl⟩ := Option.map_eq_some_iff.mp
            ((List.getElem?_map ..).symm.trans there)
          obtain ⟨stream, holds, -, queued⟩ := finish_rest frame.sid entry
          refine ⟨entry, known, ?_, ?_, queued, ?_⟩
          · rw [stream]
          · rw [holds]
            exact id
          · rw [stream]
            exact id
        · rfl
        · exact fun later there => ⟨later.slot, there⟩
  · have steps : AnytlsRegistry.step side.session .loop = _ := read_loop_sending sending
    rcases deliver_cases side.session index msg with same | ⟨-, same⟩ | same
    · exact offers.quiet (quiet_of_same (steps.trans same) rfl rfl rfl rfl rfl rfl)
    · exact offers.quiet (quiet_of_same (steps.trans same) rfl rfl rfl rfl rfl rfl)
    · exact offers.quiet (quiet_of_change (steps.trans same) rfl rfl rfl rfl rfl
        (fun entry => ⟨rfl, id, rfl, id⟩) rfl)

/-- An opening begins with a stream that has put nothing into the queue. -/
theorem begin_open_offers (offers : Offers side) (target : ProxyTarget)
    (expects : Expects side (.beginOpen target)) : Offers (side.step (.beginOpen target)) := by
  by_cases free : side.session.handle ∧ side.session.opener.isNone
  · have opened : opens side.session (.beginOpen target) =
        some (side.session.streams.length, target) := if_pos free
    obtain ⟨named, client, fresh⟩ := expects (by simp [opened])
    have steps : AnytlsRegistry.step side.session (.beginOpen target) = _ := if_pos free
    have absent : side.session.opener = none := by simpa using free.2
    have targets : (side.step (.beginOpen target)).target =
        Function.update side.target side.session.streams.length (some target) := by
      simp only [Side.step, opened]
    apply offers.register true fresh.nonzero fresh.unused
    · rw [step_session, steps]
      rfl
    · rw [step_session, steps]
      rfl
    · rw [step_session, steps]
      rfl
    · rfl
    · intro other inside
      rw [targets, Function.update_of_ne (Nat.ne_of_lt inside)]
    · intro other owned
      rw [step_session, steps, owned_iff] at owned
      obtain ⟨apart, later, there, held⟩ := owned
      rcases append_cases there with known | ⟨rfl, -⟩
      · left
        rw [owned_iff, absent]
        exact ⟨by simp, later, known, held⟩
      · simp at apart
    · intro opener there
      rw [step_session, steps] at there
      obtain rfl := Option.some.inj there
      refine ⟨?_, ?_, ?_, named, ?_, ?_⟩
      · rw [step_session, steps]
        exact client
      · refine ⟨.new side.session.nextSid true, ?_, rfl, rfl⟩
        rw [step_session, steps]
        exact registered_new side.session.nextSid true
      · rw [targets, Function.update_self]
      · exact offers.beyond _ (Nat.le_refl _)
      · rw [step_session, steps]
        exact offers.unknown fresh.nonzero fresh.unused
  · have steps : AnytlsRegistry.step side.session (.beginOpen target) = side.session := if_neg free
    have unopened : opens side.session (.beginOpen target) = none := if_neg free
    exact offers.quiet (quiet_of_same steps rfl unopened rfl rfl rfl rfl)

/-- Acquiring a permit for an opening call puts no frame into the queue. -/
theorem acquire_offers (offers : Offers side) : Offers (side.step .acquire) := by
  apply offers.quiet
  have same (steps : AnytlsRegistry.step side.session .acquire = side.session) :
      Quiet side (side.step .acquire) := quiet_of_same steps rfl rfl rfl rfl rfl rfl
  cases there : side.session.opener with
  | none =>
    apply same
    simp only [AnytlsRegistry.step, Session.acquire, there]
  | some opener =>
    by_cases slot : opener.slot = true
    · apply same
      simp only [AnytlsRegistry.step, Session.acquire, there, slot, if_true]
    · by_cases writing : side.session.writing = true
      · by_cases full : side.session.queue.free = 0
        · apply same
          simp [AnytlsRegistry.step, Session.acquire, there, slot, writing, full]
        · have steps : AnytlsRegistry.step side.session .acquire =
              { side.session with
                queue := { side.session.queue with held := side.session.queue.held + 1 }
                opener := some { opener with slot := true } } := by
            simp [AnytlsRegistry.step, Session.acquire, there, slot, writing, full]
          apply quiet_of_kept steps rfl rfl rfl rfl rfl
          · exact fun index later known => ⟨later, known, Kept.refl later⟩
          · rw [there]
            rfl
          · rintro later ⟨⟩
            exact ⟨opener.slot, there⟩
      · apply quiet_of_abandon there _ rfl rfl
        simp [AnytlsRegistry.step, Session.acquire, there, slot, writing]

/-- Giving an opening call up puts no frame into the queue. -/
theorem cancel_open_offers (offers : Offers side) : Offers (side.step .cancelOpen) := by
  apply offers.quiet
  cases there : side.session.opener with
  | none =>
    apply quiet_of_same _ rfl rfl rfl rfl rfl rfl
    simp only [AnytlsRegistry.step, Session.cancelOpen, there]
  | some opener =>
    apply quiet_of_abandon there _ rfl rfl
    simp only [AnytlsRegistry.step, Session.cancelOpen, there]

/-- A chunk written to an open stream adds its own data frame at the end. -/
theorem sent_frames_snoc (sid : UInt32) (chunks : List Bytes) (chunk : Bytes) :
    sentFrames sid (chunks ++ [chunk]) false =
      sentFrames sid chunks false ++ [pshFrame sid chunk] := by
  simp [sentFrames]

/-- Closing a stream adds its closing frame at the end. -/
theorem sent_frames_closed (sid : UInt32) (chunks : List Bytes) :
    sentFrames sid chunks true = sentFrames sid chunks false ++ [finFrame sid] := by
  simp [sentFrames]

/-- A frame of a stream is put into the queue, and the streams stay as they are. -/
theorem puts_of_same {event : Event} {result : Session} {index : Nat} {entry : LocalStream}
    {frame : Frame} (there : side.session.streams[index]? = some entry)
    (steps : AnytlsRegistry.step side.session event = result)
    (streams : result.streams = side.session.streams)
    (isServer : result.isServer = side.session.isServer)
    (order : result.queue.order = side.session.queue.order ++ [frame])
    (own : frame.sid = entry.stream.sid)
    (accepted : ∀ other, other ≠ index → (side.step event).accepted other = side.accepted other)
    (opens : opens side.session event = none)
    (opener : ∀ other, other ≠ index → result.opener.map Opener.index ≠ some other →
      side.session.opener.map Opener.index ≠ some other) :
    Puts side (side.step event) index entry entry frame := by
  refine ⟨there, ?_, ?_, ?_, ?_, ?_, own, rfl, accepted, ?_, ?_⟩
  · rw [step_session, steps, streams]
    exact there
  · rw [step_session, steps, streams]
    exact fun other apart => rfl
  · rw [step_session, steps, streams]
  · rw [step_session, steps, isServer]
  · rw [step_session, steps, order]
  · simp only [Side.step, opens]
  · intro other apart owned
    rw [step_session, steps, owned_iff, streams] at owned
    rw [owned_iff]
    exact ⟨opener other apart owned.1, owned.2⟩

/-- A stream that is being opened belongs to nobody yet. -/
theorem opening_unowned {session : Session} {opener : Opener}
    (there : session.opener = some opener) : session.ownedStream opener.index = none := by
  by_contra owned
  apply ((owned_iff _ _).mp owned).1
  rw [there]
  rfl

/-- The stream of the opening call is none that a caller already has. -/
theorem opening_apart {session : Session} {opener : Opener} {index : Nat} {entry : LocalStream}
    (there : session.opener = some opener) (owned : session.ownedStream index = some entry) :
    opener.index ≠ index := by
  rintro rfl
  simp [opening_unowned there] at owned

/-- A frame of another stream leaves an opening as it is. -/
theorem Opening.puts {after : Side} {opener : Opener} {index : Nat} {entry later : LocalStream}
    {frame : Frame} (opening : Opening side opener) (offers : Offers side)
    (puts : Puts side after index entry later frame) (apart : opener.index ≠ index) :
    Opening after opener := by
  obtain ⟨client, ⟨other, there, own, unqueued⟩, target, named, nothing, syn⟩ := opening
  have foreign : frame.sid ≠ opener.sid := by
    rw [puts.own, ← own]
    exact fun shared => apart (offers.distinct _ _ other entry there puts.there shared.symm)
  refine ⟨puts.isServer.trans client, ⟨other, ?_, own, unqueued⟩, ?_, named, ?_, ?_⟩
  · exact (puts.others _ apart).trans there
  · rw [puts.target]
    exact target
  · exact (puts.accepted _ apart).trans nothing
  · rw [puts.order, frames_of_append, frames_of_other foreign, syn]
    exact List.append_nil _

/-- An opening puts its opening frame into the queue. -/
theorem push_syn_offers (offers : Offers side) {opener : Opener}
    (there : side.session.opener = some opener) (slot : opener.slot = true)
    (first : opener.synSent = false) : Offers (side.step .push) := by
  obtain ⟨client, ⟨entry, known, own, unqueued⟩, target, named, nothing, syn⟩ :=
    offers.opener opener there
  have steps : AnytlsRegistry.step side.session .push =
      { side.session with
        queue := { side.session.queue with held := side.session.queue.held - 1 }.put
          (.new cmdSyn opener.sid)
        opener := some { opener with synSent := true, slot := false } } := by
    simp [AnytlsRegistry.step, Session.push, there, slot, first]
  have accepted : (side.step .push).accepted = side.accepted := by
    simp [Side.step, accepts, there, Option.filter_some, first, extended]
  rw [first, if_neg Bool.false_ne_true] at syn
  have puts : Puts side (side.step .push) opener.index entry entry (.new cmdSyn opener.sid) := by
    apply puts_of_same known steps rfl rfl (order_put _ _) own.symm
      (fun other _ => congrFun accepted other) rfl
    rw [there]
    exact fun other _ apart => apart
  have opened : framesOf opener.sid (side.step .push).session.queue.order =
      [.new cmdSyn opener.sid] := by
    rw [puts.order, frames_of_append, syn]
    exact frames_of_own rfl
  have later : (side.step .push).session.opener =
      some { opener with synSent := true, slot := false } := by
    rw [step_session, steps]
  apply offers.puts puts
  · refine ⟨⟨[.new cmdSyn entry.stream.sid], ?_, ?_, fun _ => .inl rfl⟩,
      (offers.offer opener.index entry known).shut, ?_, ?_, ?_⟩
    · rw [accepted, nothing, unqueued, own, opened]
      rfl
    · rw [puts.isServer, client]
      simp
    · rw [accepted, nothing]
      simp
    · exact fun _ owned => absurd (opening_unowned later) owned
    · exact fun _ => .inl (accepted ▸ nothing)
  · intro other found
    obtain rfl := Option.some.inj (later.symm.trans found)
    refine ⟨puts.isServer.trans client, ⟨entry, puts.here, own, unqueued⟩, target, named,
      accepted ▸ nothing, ?_⟩
    rw [if_pos rfl]
    exact opened

/-- Then it puts its address into the queue, and the stream is returned. -/
theorem push_address_offers (offers : Offers side) {opener : Opener}
    (there : side.session.opener = some opener) (slot : opener.slot = true)
    (second : opener.synSent = true) : Offers (side.step .push) := by
  obtain ⟨client, ⟨entry, known, own, unqueued⟩, target, named, nothing, syn⟩ :=
    offers.opener opener there
  have steps : AnytlsRegistry.step side.session .push =
      { side.session with
        queue := { side.session.queue with held := side.session.queue.held - 1 }.put
          (pshFrame opener.sid (addressOf opener.target))
        opener := none } := by
    simp [AnytlsRegistry.step, Session.push, there, slot, second, pshFrame]
  have accepts : accepts side.session .push = some (opener.index, [addressOf opener.target]) := by
    simp [accepts, there, Option.filter_some, slot, second]
  have accepted : (side.step .push).accepted =
      Function.update side.accepted opener.index [addressOf opener.target] := by
    simp only [Side.step, accepts, extended, nothing, List.nil_append]
  rw [second, if_pos rfl] at syn
  have puts : Puts side (side.step .push) opener.index entry entry
      (pshFrame opener.sid (addressOf opener.target)) := by
    apply puts_of_same known steps rfl rfl (order_put _ _) own.symm _ rfl
    · rw [there]
      intro other apart _ same
      exact apart (Option.some.inj same).symm
    · intro other apart
      rw [accepted, Function.update_of_ne apart]
  apply offers.puts puts
  · refine ⟨⟨[.new cmdSyn entry.stream.sid], ?_, ?_, fun _ => .inl rfl⟩,
      (offers.offer opener.index entry known).shut, ?_, ?_, ?_⟩
    · rw [puts.order, accepted, Function.update_self, unqueued, frames_of_append, own, syn]
      congr 1
      exact frames_of_own rfl
    · rw [puts.isServer, client]
      simp
    · rw [accepted, Function.update_self]
      intro chunk member
      obtain rfl := List.mem_singleton.mp member
      refine ⟨encode_into_nonempty _, ?_⟩
      exact Nat.lt_of_le_of_lt (encode_into_length opener.target named) (by decide)
    · intro _ _
      rw [accepted, Function.update_self]
      simp
    · intro _
      rw [accepted, Function.update_self]
      exact .inr ⟨opener.target, target, rfl⟩
  · intro later found
    rw [step_session, steps] at found
    simp at found

/-- Pushing the address of an opening call keeps the invariant. -/
theorem push_offers (offers : Offers side) : Offers (side.step .push) := by
  have same (steps : AnytlsRegistry.step side.session .push = side.session)
      (nothing : accepts side.session .push = none) : Offers (side.step .push) :=
    offers.quiet (quiet_of_same steps nothing rfl rfl rfl rfl rfl)
  cases there : side.session.opener with
  | none =>
    apply same
    · simp only [AnytlsRegistry.step, Session.push, there]
    · simp only [accepts, there, Option.filter_none, Option.map_none]
  | some opener =>
    cases slot : opener.slot with
    | false =>
      apply same
      · simp [AnytlsRegistry.step, Session.push, there, slot]
      · simp [accepts, there, Option.filter_some, slot]
    | true =>
      cases sent : opener.synSent with
      | false => exact push_syn_offers offers there slot sent
      | true => exact push_address_offers offers there slot sent

/-- The frames of a stream that somebody has and that is open. -/
theorem Offers.open_frames (offers : Offers side) {index : Nat} {entry : LocalStream}
    (owned : side.session.ownedStream index = some entry)
    (more : entry.stream.finSent = false) :
    entry.finQueued = false ∧ ∃ opening,
      framesOf entry.stream.sid side.session.queue.order =
        opening ++ sentFrames entry.stream.sid (side.accepted index) false ∧
      (side.session.isServer = true → opening = []) ∧
      (side.session.isServer = false → opening = [.new cmdSyn entry.stream.sid]) := by
  obtain ⟨⟨opening, frames, server, client⟩, shut, -, ready, -⟩ :=
    offers.offer index entry (owned_stream_some owned).1
  have unqueued : entry.finQueued = false := by
    by_contra queued
    have sent := shut (by simpa using queued)
    simp [more] at sent
  rw [unqueued] at frames
  refine ⟨unqueued, opening, frames, server, fun isClient => ?_⟩
  rcases client isClient with opened | ⟨-, nothing, -⟩
  · exact opened
  · exact absurd nothing (ready isClient (by simp [owned]))

/-- A chunk that is accepted is put into the queue. -/
theorem write_offers (offers : Offers side) (index : Nat) (chunk : Bytes)
    (expects : Expects side (.write index chunk)) : Offers (side.step (.write index chunk)) := by
  have same (steps : AnytlsRegistry.step side.session (.write index chunk) = side.session)
      (nothing : accepts side.session (.write index chunk) = none) :
      Offers (side.step (.write index chunk)) :=
    offers.quiet (quiet_of_same steps nothing rfl rfl rfl rfl rfl)
  cases owned : side.session.ownedStream index with
  | none =>
    apply same
    · simp only [AnytlsRegistry.step, Session.write, owned]
    · simp only [accepts, owned]
  | some entry =>
    cases writing : side.session.writing with
    | false =>
      apply same
      · simp [AnytlsRegistry.step, Session.write, owned, writing]
      · simp [accepts, owned, writing]
    | true =>
      cases sent : entry.stream.sendPsh side.session.queue chunk with
      | error error =>
        apply same
        · simp [AnytlsRegistry.step, Session.write, owned, writing, sent]
        · simp [accepts, owned, writing, sent]
      | ok queue =>
        have more : entry.stream.finSent = false := by
          by_contra shut
          rw [send_psh_shut (by simpa using shut)] at sent
          simp at sent
        obtain rfl := send_psh_put sent
        have there := (owned_stream_some owned).1
        obtain ⟨unqueued, opening, frames, server, client⟩ := offers.open_frames owned more
        obtain ⟨-, shut, sized, ready, addressed⟩ := offers.offer index entry there
        have steps : AnytlsRegistry.step side.session (.write index chunk) =
            { side.session with
              queue := side.session.queue.put (pshFrame entry.stream.sid chunk) } := by
          simp [AnytlsRegistry.step, Session.write, owned, writing, sent, pshFrame]
        have accepts : accepts side.session (.write index chunk) = some (index, [chunk]) := by
          simp [accepts, owned, writing, sent]
        have accepted : (side.step (.write index chunk)).accepted =
            Function.update side.accepted index (side.accepted index ++ [chunk]) := by
          simp only [Side.step, accepts, extended]
        have puts : Puts side (side.step (.write index chunk)) index entry entry
            (pshFrame entry.stream.sid chunk) := by
          apply puts_of_same there steps rfl rfl (order_put _ _) rfl _ rfl
          · exact fun other _ apart => apart
          · intro other apart
            rw [accepted, Function.update_of_ne apart]
        apply offers.puts puts
        · refine ⟨⟨opening, ?_, ?_, ?_⟩, shut, ?_, ?_, ?_⟩
          · rw [puts.order, accepted, Function.update_self, unqueued, sent_frames_snoc,
              frames_of_append, frames, List.append_assoc]
            congr 2
            exact frames_of_own rfl
          · rw [puts.isServer]
            exact server
          · rw [puts.isServer]
            exact fun isClient => .inl (client isClient)
          · rw [accepted, Function.update_self]
            intro other member
            rcases List.mem_append.mp member with old | new
            · exact sized other old
            · obtain rfl := List.mem_singleton.mp new
              exact ⟨expects.1, Nat.lt_of_le_of_lt expects.2 (by decide)⟩
          · intro _ _
            rw [accepted, Function.update_self]
            simp
          · rw [puts.isServer, accepted, Function.update_self, puts.target]
            intro isClient
            rcases addressed isClient with nothing | ⟨target, known, first⟩
            · exact absurd nothing (ready isClient (by simp [owned]))
            · exact .inr ⟨target, known, by simp [List.head?_append, first]⟩
        · intro opener found
          rw [step_session, steps] at found
          exact (offers.opener opener found).puts offers puts (opening_apart found owned)

/-- A closing frame that finds a place stands behind the others. -/
theorem Offers.close (offers : Offers side) {index : Nat} {entry : LocalStream}
    {queue : FrameQueue} (owned : side.session.ownedStream index = some entry)
    (more : entry.stream.finSent = false)
    (steps : AnytlsRegistry.step side.session (.shutdown index) =
      { side.session.change index fun entry =>
          { entry with
            stream := { entry.stream with finSent := true }
            finQueued := entry.finQueued || true } with
        queue })
    (order : queue.order = side.session.queue.order ++ [finFrame entry.stream.sid]) :
    Offers (side.step (.shutdown index)) := by
  obtain ⟨there, -, -⟩ := owned_stream_some owned
  obtain ⟨unqueued, opening, frames, server, client⟩ := offers.open_frames owned more
  obtain ⟨-, -, sized, ready, addressed⟩ := offers.offer index entry there
  have streams : (side.step (.shutdown index)).session.streams =
      side.session.streams.modify index fun entry =>
        { entry with
          stream := { entry.stream with finSent := true }
          finQueued := entry.finQueued || true } := by
    rw [step_session, steps]
    rfl
  have kept : (side.step (.shutdown index)).session.opener = side.session.opener := by
    rw [step_session, steps]
    rfl
  have puts : Puts side (side.step (.shutdown index)) index entry
      { entry with
        stream := { entry.stream with finSent := true }
        finQueued := entry.finQueued || true } (finFrame entry.stream.sid) := by
    refine ⟨there, ?_, ?_, ?_, ?_, ?_, rfl, rfl, fun _ _ => rfl, rfl, ?_⟩
    · rw [streams, List.getElem?_modify_eq, there]
      rfl
    · intro other apart
      rw [streams, List.getElem?_modify_ne _ _ (Ne.symm apart)]
    · rw [streams, List.length_modify]
    · rw [step_session, steps]
      rfl
    · rw [step_session, steps]
      exact order
    · intro other apart holds
      rw [owned_iff, kept, streams, List.getElem?_modify_ne _ _ (Ne.symm apart)] at holds
      rw [owned_iff]
      exact holds
  apply offers.puts puts
  · refine ⟨⟨opening, ?_, ?_, ?_⟩, fun _ => rfl, sized, ?_, ?_⟩
    · rw [puts.order, frames_of_append, frames, List.append_assoc, Bool.or_true]
      change _ = opening ++ sentFrames entry.stream.sid (side.accepted index) true
      rw [sent_frames_closed]
      congr 2
      exact frames_of_own rfl
    · rw [puts.isServer]
      exact server
    · rw [puts.isServer]
      exact fun isClient => .inl (client isClient)
    · rw [puts.isServer]
      exact fun isClient _ => ready isClient (by simp [owned])
    · rw [puts.isServer]
      exact addressed
  · intro opener found
    rw [kept] at found
    exact (offers.opener opener found).puts offers puts (opening_apart found owned)

/-- A closing frame that finds a place is put into the queue, once. -/
theorem shutdown_offers (offers : Offers side) (index : Nat) :
    Offers (side.step (.shutdown index)) := by
  have same (steps : AnytlsRegistry.step side.session (.shutdown index) = side.session) :
      Offers (side.step (.shutdown index)) :=
    offers.quiet (quiet_of_same steps rfl rfl rfl rfl rfl rfl)
  cases owned : side.session.ownedStream index with
  | none =>
    apply same
    simp only [AnytlsRegistry.step, Session.shutdown, owned]
  | some entry =>
    cases more : entry.stream.finSent with
    | true =>
      apply same
      simp [AnytlsRegistry.step, Session.shutdown, owned, more]
    | false =>
      generalize sends : (if side.session.writing then
        side.session.queue.trySend (finFrame entry.stream.sid) else none) = sent
      have steps : AnytlsRegistry.step side.session (.shutdown index) =
          { side.session.change index fun entry =>
              { entry with
                stream := { entry.stream with finSent := true }
                finQueued := entry.finQueued || sent.isSome } with
            queue := sent.getD side.session.queue } := by
        simp only [AnytlsRegistry.step, Session.shutdown, owned, more, Bool.false_eq_true, if_false,
          ← sends]
      cases sent with
      | none =>
        exact offers.quiet (quiet_of_change steps rfl rfl rfl rfl rfl
          (fun entry => ⟨rfl, id, Bool.or_false _, fun _ => rfl⟩) rfl)
      | some queue =>
        have order : queue.order = side.session.queue.order ++ [finFrame entry.stream.sid] := by
          split at sends
          · rw [try_send_put sends, order_put]
          · simp at sends
        exact offers.close owned more steps order

/-- Every step that meets what a side needs keeps what it puts into its queue. -/
theorem step_offers (offers : Offers side) (event : Event) (expects : Expects side event) :
    Offers (side.step event) := by
  cases event with
  | received octets =>
    apply offers.quiet
    obtain ⟨buf, steps⟩ | ⟨-, -, result, steps⟩ := received_cases side.session octets
    · exact quiet_of_same steps rfl rfl rfl rfl rfl rfl
    · exact quiet_of_same steps rfl rfl rfl rfl rfl rfl
  | loop => exact loop_offers offers expects
  | beginOpen target => exact begin_open_offers offers target expects
  | acquire => exact acquire_offers offers
  | push => exact push_offers offers
  | cancelOpen => exact cancel_open_offers offers
  | write index chunk => exact write_offers offers index chunk expects
  | shutdown index => exact shutdown_offers offers index
  | read index size =>
    apply offers.quiet
    cases owned : side.session.ownedStream index with
    | none =>
      apply quiet_of_same _ rfl rfl rfl rfl rfl rfl
      simp only [AnytlsRegistry.step, Session.read, owned]
    | some entry =>
      have there := (owned_stream_some owned).1
      have steps : AnytlsRegistry.step side.session (.read index size) =
          side.session.change index ({ · with stream := (entry.stream.pollRead
            (!side.session.hasSender index entry.stream.sid) size).2 }) := by
        simp only [AnytlsRegistry.step, Session.read, owned]
      apply quiet_of_kept steps rfl rfl rfl rfl
      · exact List.length_modify ..
      · intro other later known
        obtain ⟨rfl, old, before, rfl⟩ | ⟨-, before⟩ := modify_cases known
        · obtain rfl := Option.some.inj (there.symm.trans before)
          refine ⟨entry, before, AnytlsTasks.poll_read_sid _ _ _, id, rfl, ?_⟩
          rw [poll_read_fin_sent]
          exact id
        · exact ⟨later, before, Kept.refl later⟩
      · rfl
      · exact fun later found => ⟨later.slot, found⟩
  | drop index =>
    apply offers.quiet
    cases owned : side.session.ownedStream index with
    | none =>
      apply quiet_of_same _ rfl rfl rfl rfl rfl rfl
      simp only [AnytlsRegistry.step, Session.dropStream, owned]
    | some entry =>
      have steps : AnytlsRegistry.step side.session (.drop index) =
          side.session.change index ({ · with held := false }) := by
        simp only [AnytlsRegistry.step, Session.dropStream, owned]
      exact quiet_of_change steps rfl rfl rfl rfl rfl
        (fun entry => ⟨rfl, by simp, rfl, id⟩) rfl
  | writer =>
    apply offers.quiet
    cases writing : side.session.writing with
    | true =>
      have steps : AnytlsRegistry.step side.session .writer =
          { side.session with queue := side.session.queue.recv } := if_pos writing
      exact quiet_of_same steps rfl rfl rfl (order_recv _) rfl rfl
    | false =>
      have steps : AnytlsRegistry.step side.session .writer = side.session :=
        if_neg (by simp [writing])
      exact quiet_of_same steps rfl rfl rfl rfl rfl rfl
  | writerFails => exact offers.quiet (quiet_of_same rfl rfl rfl rfl rfl rfl rfl)
  | dropHandle =>
    apply offers.quiet
    have steps : AnytlsRegistry.step side.session .dropHandle = _ := rfl
    by_cases free : side.session.opener.isNone = true
    · exact quiet_of_same (if_pos free) rfl rfl rfl rfl rfl rfl
    · exact quiet_of_same (if_neg free) rfl rfl rfl rfl rfl rfl

end OfferSteps

end OmniProxy.AnytlsEndpoints
