import OmniProxy.AnytlsRegistry

/-!
# Streams at the end of an AnyTLS session

A stream ends when its queue is empty and has no sender. The loop takes its share of the
registry with it when it returns, but a client whose session is kept has another, and the
senders in it stay: such a stream never ends. The streams end exactly when the loop returns
to a session that nobody keeps, or that has no stream registered, and none is opened later.
-/

namespace OmniProxy.AnytlsEndings

open AnytlsFrames AnytlsRegistry AnytlsStreams ByteStrings Connections GuardedRuns ProxyTargets

section Reading

/-- The data of messages in front of an end. -/
def queuedData : List StreamMsg → Bytes
  | .data data :: rx => if data.isEmpty then [] else data ++ queuedData rx
  | _ => []

/-- The data that a stream has for its reader. -/
def queued (stream : AnytlsStream) : Bytes :=
  stream.leftover.getD [] ++ if stream.eof then [] else queuedData stream.rx

/-- Reads into buffers of a size return some data and then the end. -/
inductive ReadsOut (closed : Bool) (size : Nat) : AnytlsStream → Bytes → Prop where
  | ended (stream : AnytlsStream) (read : (stream.pollRead closed size).1 = some []) :
      ReadsOut closed size stream []
  | next (stream : AnytlsStream) (out data : Bytes)
      (read : (stream.pollRead closed size).1 = some out) (more : out ≠ [])
      (rest : ReadsOut closed size (stream.pollRead closed size).2 data) :
      ReadsOut closed size stream (out ++ data)

/-- One read of a stream without a sender returns what is next, or the end after all data. -/
theorem read_closed (stream : AnytlsStream) (size : Nat) (room : 0 < size)
    (whole : stream.leftover ≠ some []) :
    (queued stream = [] ∧ (stream.pollRead true size).1 = some []) ∨
      ∃ out, out ≠ [] ∧ (stream.pollRead true size).1 = some out ∧
        out ++ queued (stream.pollRead true size).2 = queued stream := by
  have handed (data : Bytes) (nonempty : data ≠ []) : (handOut size data).1 ≠ [] := by
    have out := AnytlsTasks.hand_out_some size data nonempty
    simpa [room] using out
  cases left : stream.leftover with
  | some data =>
    rw [poll_read_leftover left]
    refine .inr ⟨_, handed data ?_, rfl, ?_⟩
    · rintro rfl
      exact whole left
    · simp only [queued, left, Option.getD_some]
      rw [← List.append_assoc, AnytlsTasks.hand_out_join]
  | none =>
    cases ended : stream.eof with
    | true =>
      rw [poll_read_ended left ended]
      exact .inl ⟨by simp [queued, left, ended], rfl⟩
    | false =>
      rcases content : stream.rx with _ | ⟨_ | _, rx⟩
      · rw [poll_read_closed left ended content]
        exact .inl ⟨by simp [queued, left, ended, content, queuedData], rfl⟩
      · next data =>
        by_cases empty : data = []
        · subst empty
          rw [poll_read_empty left ended content]
          exact .inl ⟨by simp [queued, left, ended, content, queuedData], rfl⟩
        · rw [poll_read_data left ended content empty]
          refine .inr ⟨_, handed data empty, rfl, ?_⟩
          simp only [queued, left, ended, content, queuedData, Option.getD_none, List.nil_append,
            List.isEmpty_iff, empty, Bool.false_eq_true, if_false]
          rw [← List.append_assoc, AnytlsTasks.hand_out_join]
      · rw [poll_read_eof left ended content]
        exact .inl ⟨by simp [queued, left, ended, content, queuedData], rfl⟩

/-- A stream without a sender is read to its end. The induction is on the data it has. -/
theorem reads_out (stream : AnytlsStream) (size : Nat) (room : 0 < size)
    (whole : stream.leftover ≠ some []) : ReadsOut true size stream (queued stream) := by
  induction amount : (queued stream).length using Nat.strongRecOn generalizing stream with
  | ind amount inductionHypothesis =>
    obtain ⟨nothing, ended⟩ | ⟨out, more, read, rest⟩ := read_closed stream size room whole
    · rw [nothing]
      exact .ended stream ended
    · rw [← rest]
      apply ReadsOut.next stream out _ read more
      apply inductionHypothesis _ _ _ (poll_read_leftover_some stream true size whole) rfl
      rw [← amount, ← rest, List.length_append]
      have something := List.length_pos_of_ne_nil more
      omega

end Reading

section Endings

/-- After the loop has returned, every stream that somebody has is read to its end, for no
sender is left. -/
def StreamsEnd (session : Session) : Prop :=
  session.result.isSome = true → ∀ (index : Nat) (entry : LocalStream),
    session.streams[index]? = some entry → entry.held = true →
    session.hasSender index entry.stream.sid = false ∧
      ∀ size, 0 < size →
        ReadsOut (!session.hasSender index entry.stream.sid) size entry.stream (queued entry.stream)

/-- The loop returns in a step: the connection ends or fails, the peer sends an alert, or the
frame is refused. -/
def Returns (session : Session) : Event → Prop
  | .received octets => session.result = none ∧ session.sending = none ∧
      tryDecode session.buf = .needMore ∧ ∀ more, octets = .ok more → more = []
  | .loop => ∃ frame consumed, session.next = some (frame, consumed) ∧
      (frame.cmd = cmdAlert ∨ frame.cmd = cmdSyn ∧ session.refusesSyn = true)
  | _ => False

/-- When the loop returns, nobody keeps the session, or no stream that somebody has is
registered. After that no stream is opened. -/
def Released (session : Session) (event : Event) : Prop :=
  (Returns session event → session.handle = true → ∀ (index : Nat) (entry : LocalStream),
    session.streams[index]? = some entry → entry.held = true →
    session.registry entry.stream.sid ≠ some index) ∧
  ∀ target, event = .beginOpen target → session.result.isSome = true → session.handle = true →
    session.opener ≠ none

variable {session : Session}

/-- The loop has its share of the registry until it returns, in a step that changes no more
than its result. -/
inductive LoopStep (session : Session) (event : Event) (after : Session) : Prop where
  | goesOn (stays : ¬Returns session event) (result : after.result = session.result)
  | returns (returns : Returns session event) (before : session.sending = none)
      (result : after.result.isSome = true) (sending : after.sending = none)
      (registry : after.registry = session.registry) (streams : after.streams = session.streams)
      (handle : after.handle = session.handle)

/-- The loop returns when the connection has ended or failed. -/
theorem received_result (session : Session) (octets : Except IoError Bytes) :
    LoopStep session (.received octets) (session.received octets) := by
  unfold Session.received
  split
  · next busy =>
    refine .goesOn ?_ rfl
    rintro ⟨running, idle, needs, -⟩
    simp [running, idle, needs] at busy
  · next idle =>
    simp only [not_or, Bool.not_eq_true, Option.isSome_eq_false_iff, Option.isNone_iff_eq_none,
      ne_eq, not_not] at idle
    obtain ⟨running, quiet, needs⟩ := idle
    rcases octets with error | _ | ⟨octet, octets⟩
    · exact .returns ⟨running, quiet, needs, by simp⟩ quiet rfl quiet rfl rfl rfl
    · dsimp only
      split
      · exact .returns ⟨running, quiet, needs, by simp⟩ quiet rfl quiet rfl rfl rfl
      · exact .returns ⟨running, quiet, needs, by simp⟩ quiet rfl quiet rfl rfl rfl
    · exact .goesOn (by simp [Returns]) rfl

/-- The loop returns when the next frame is an alert or is refused. -/
theorem loop_result (session : Session) : LoopStep session .loop session.readLoop := by
  unfold Session.readLoop
  split
  · next index msg sending =>
    apply LoopStep.goesOn
    · rintro ⟨frame, consumed, next, -⟩
      simp [(next_some next).2] at sending
    · rcases deliver_cases session index msg with same | ⟨-, same⟩ | same
      · rw [same]
      · rw [same]
      · rw [same]
        rfl
  · next frame consumed quiet next =>
    have returns : Returns session .loop →
        frame.cmd = cmdAlert ∨ frame.cmd = cmdSyn ∧ session.refusesSyn = true := by
      rintro ⟨other, length, there, cause⟩
      rw [next] at there
      obtain ⟨rfl, -⟩ := Prod.mk.inj (Option.some.inj there)
      exact cause
    generalize after : Session.handleFrame _ frame = handled
    have outcome := after ▸ frame_handled { session with buf := session.buf.drop consumed } frame
    cases outcome with
    | refused error cause =>
      exact .returns ⟨frame, consumed, next, cause⟩ quiet rfl quiet rfl rfl rfl
    | quiet gotSettings syn psh fin alert =>
      refine .goesOn (fun ends => ?_) rfl
      rcases returns ends with cause | ⟨cause, -⟩
      · exact alert cause
      · exact syn cause
    | syn cmd accepted =>
      refine .goesOn (fun ends => ?_) rfl
      rcases returns ends with cause | ⟨-, refuses⟩
      · exact absurd (cmd.symm.trans cause) (by decide)
      · exact absurd refuses (by simpa [Session.refusesSyn] using accepted)
    | psh cmd =>
      refine .goesOn (fun ends => ?_) rfl
      rcases returns ends with cause | ⟨cause, -⟩ <;>
        exact absurd (cmd.symm.trans cause) (by decide)
    | fin cmd =>
      refine .goesOn (fun ends => ?_) rfl
      rcases returns ends with cause | ⟨cause, -⟩ <;>
        exact absurd (cmd.symm.trans cause) (by decide)
  · next quiet next =>
    refine .goesOn ?_ rfl
    rintro ⟨frame, consumed, there, -⟩
    simp [next] at there

/-- Every event is one of the steps that the loop's invariants are proved by. -/
theorem step_result (session : Session) (event : Event) :
    LoopStep session event (step session event) := by
  cases event with
  | received octets => exact received_result session octets
  | loop => exact loop_result session
  | beginOpen target =>
    apply LoopStep.goesOn id
    simp only [step, Session.beginOpen]
    split <;> rfl
  | _ => exact .goesOn id (step_aside session _ rfl).result

/-- What holds while the steps meet the condition. A stream without a sender never gets one
back. -/
structure Sound (session : Session) : Prop where
  quiet : session.result.isSome = true → session.sending = none
  ends : session.result.isSome = true → ∀ (index : Nat) (entry : LocalStream),
    session.streams[index]? = some entry → entry.held = true →
    session.hasSender index entry.stream.sid = false
  whole : ∀ (index : Nat) (entry : LocalStream), session.streams[index]? = some entry →
    entry.stream.leftover ≠ some []

/-- A fresh session keeps the invariant, as it has no stream. -/
theorem start_sound : Sound (.start false) where
  quiet := by simp [Session.start]
  ends := by simp [Session.start]
  whole := by simp [Session.start]

/-- Under the invariant the end of the loop is seen by every stream. -/
theorem Sound.streams_end (sound : Sound session) : StreamsEnd session := by
  intro returned index entry there held
  have closed := sound.ends returned index entry there held
  refine ⟨closed, fun size room => ?_⟩
  rw [closed]
  exact reads_out entry.stream size room (sound.whole index entry there)

/-- A sender of a stream is not new when the registry is the same. -/
theorem has_sender_before {after : Session} {index : Nat} {sid : UInt32}
    (registry : after.registry = session.registry) (sending : after.sending = session.sending)
    (result : after.result = session.result)
    (handle : after.handle = true → session.handle = true)
    (closed : session.hasSender index sid = false) : after.hasSender index sid = false := by
  simp only [Session.hasSender, Session.registryLive, registry, sending, result,
    Bool.or_eq_false_iff, Bool.and_eq_false_imp, Bool.or_eq_true] at closed ⊢
  exact ⟨fun live => closed.1 (live.imp_right handle), closed.2⟩

/-- No step leaves an empty chunk behind, so a read that hands out nothing is the end. -/
theorem step_whole (event : Event)
    (whole : ∀ (index : Nat) (entry : LocalStream), session.streams[index]? = some entry →
      entry.stream.leftover ≠ some [])
    (index : Nat) (later : LocalStream)
    (there : (step session event).streams[index]? = some later) :
    later.stream.leftover ≠ some [] := by
  cases own : event.own with
  | true =>
    obtain ⟨entry, known, follows⟩ := (step_aside session event own).before there
    exact follows.leftover (whole index entry known)
  | false =>
    obtain ⟨entry, known, -, -, -, same⟩ | ⟨sid, held, -, rfl⟩ := loop_streams own there
    · rw [same]
      exact whole index entry known
    · simp [LocalStream.new, AnytlsStream.new]

/-- After the loop has returned, the connection has no effect. -/
theorem loop_over (event : Event) (returned : session.result.isSome = true)
    (quiet : session.sending = none) (own : event.own = false) :
    step session event = session ∨ ∃ target, event = .beginOpen target := by
  cases event with
  | received octets => exact .inl (if_pos (.inl returned))
  | loop =>
    have ended : session.next = none := if_pos (.inl returned)
    left
    simp only [step, Session.readLoop, quiet, ended]
  | beginOpen target => exact .inr ⟨target, rfl⟩
  | _ => cases own

/-- Opening a stream does not begin in a session that nobody keeps. -/
theorem begin_open_refused (target : ProxyTarget)
    (refused : session.handle = true → session.opener ≠ none) :
    step session (.beginOpen target) = session := by
  apply if_neg
  rintro ⟨kept, free⟩
  exact refused kept (by simpa using free)

/-- After the loop has returned, a step that meets the condition leaves what is there. -/
theorem after_return (event : Event) (returned : session.result.isSome = true)
    (quiet : session.sending = none) (released : Released session event) :
    step session event = session ∨ event.own = true := by
  cases own : event.own with
  | true => exact .inr rfl
  | false =>
    rcases loop_over event returned quiet own with same | ⟨target, rfl⟩
    · exact .inl same
    · exact .inl (begin_open_refused target (released.2 target rfl returned))

/-- A step that meets the condition leaves no sender behind. -/
theorem Sound.step (sound : Sound session) (event : Event) (released : Released session event) :
    Sound (step session event) := by
  rcases step_result session event with
    ⟨-, same⟩ | ⟨returns, -, -, quiet, registry, streams, handle⟩
  · refine ⟨?_, ?_, step_whole event sound.whole⟩
    · intro returned
      rw [same] at returned
      rcases after_return event returned (sound.quiet returned) released with kept | own
      · rw [kept]
        exact sound.quiet returned
      · exact (step_aside session event own).sending.trans (sound.quiet returned)
    · intro returned index later there held
      rw [same] at returned
      rcases after_return event returned (sound.quiet returned) released with kept | own
      · rw [kept] at there ⊢
        exact sound.ends returned index later there held
      · have aside := step_aside session event own
        obtain ⟨entry, known, follows⟩ := aside.before there
        rw [follows.sid]
        apply has_sender_before aside.registry aside.sending aside.result aside.handle
        exact sound.ends returned index entry known (follows.held.mp held).1
  · refine ⟨fun _ => quiet, ?_, step_whole event sound.whole⟩
    intro returned index entry there held
    rw [streams] at there
    have ended : (AnytlsRegistry.step session event).result.isNone = false := by
      simpa using returned
    simp only [Session.hasSender, Session.registryLive, quiet, registry, handle, ended,
      Bool.false_or, Option.map_none, Bool.or_eq_false_iff, Bool.and_eq_false_imp]
    refine ⟨fun kept => ?_, by simp⟩
    simpa using released.1 returns kept index entry there held

/-- A step that does not meet the condition leaves a stream with a sender. -/
theorem unreleased_waits (event : Event) (kept : ¬Released session event) :
    ¬StreamsEnd (AnytlsRegistry.step session event) := by
  intro ends
  simp only [Released, not_and_or, Classical.not_imp, Classical.not_forall, not_not] at kept
  rcases kept with ⟨returns, handle, index, entry, there, held, registered⟩ |
    ⟨target, rfl, returned, handle, free⟩
  · rcases step_result session event with
      ⟨goesOn, -⟩ | ⟨-, -, returned, -, registry, streams, same⟩
    · exact goesOn returns
    · have closed := (ends returned index entry (streams ▸ there) held).1
      simp [Session.hasSender, Session.registryLive, registry, same, handle, registered] at closed
  · have began : AnytlsRegistry.step session (.beginOpen target) =
        { session.register session.nextSid true with
          nextSid := session.nextSid + 1
          opener := some ⟨session.streams.length, session.nextSid, target, false, false⟩ } :=
      if_pos ⟨handle, by simp [free]⟩
    rw [began] at ends
    have closed := (ends returned session.streams.length _ (registered_new session.nextSid true)
      rfl).1
    simp [Session.hasSender, Session.registryLive, Session.register, handle, LocalStream.new,
      AnytlsStream.new] at closed

/-- The streams of a client end with the loop exactly when the loop and the session release
them. -/
theorem streams_end_iff (events : List Event) :
    Always step (.start false) StreamsEnd events ↔ EachStep step (.start false) Released events := by
  apply always_iff_each_step start_sound
  · exact fun session event sound => sound.step event
  · exact fun session => Sound.streams_end
  · exact fun session event _ => unreleased_waits event

/-- A stream is open and the session is kept when the server closes the connection. -/
theorem open_stream_waits :
    ¬Always step (.start false) StreamsEnd
      [.beginOpen (.domain "a" 80), .acquire, .push, .acquire, .push, .received (.ok [])] := by
  intro always
  have ends := always _ [] (List.append_nil _).symm rfl 0 _ rfl rfl
  exact absurd ends.1 (by decide)

end Endings

end OmniProxy.AnytlsEndings
