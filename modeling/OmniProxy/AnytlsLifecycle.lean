import OmniProxy.AnytlsRegistry

/-!
# The life of AnyTLS streams

A number should be in the registry as long as somebody has its stream and the peer has not
closed it, and the peer should hear of every stream that is given up. Dropping a stream does
neither: it sends no closing frame and leaves the sender where it is, and so does an opening
that fails. The registry is exact, and the peer informed, exactly when every stream is shut
down with success and closed by the peer before it is dropped, no opening fails, and a server
opens no stream.
-/

namespace OmniProxy.AnytlsLifecycle

open AnytlsFrames AnytlsRegistry AnytlsStreams ByteStrings Connections GuardedRuns ListUpdates
open ProxyTargets

section Lifecycle

variable {session : Session}

/-- Somebody has a stream with the number, and no closing frame has come in for it. -/
def Alive (session : Session) (sid : UInt32) : Prop :=
  ∃ (index : Nat) (entry : LocalStream), session.streams[index]? = some entry ∧
    entry.stream.sid = sid ∧ entry.held = true ∧ entry.finReceived = false

/-- The registry has the numbers of the live streams, and the closing frame of every stream
that was given up has been put into the queue. -/
structure Tidy (session : Session) : Prop where
  registered : session.registryLive = true → ∀ sid,
    session.registry sid ≠ none ↔ Alive session sid
  finished : ∀ (index : Nat) (entry : LocalStream), session.streams[index]? = some entry →
    entry.held = false → entry.finQueued = true
  sent : ∀ (index : Nat) (entry : LocalStream), session.streams[index]? = some entry →
    entry.finQueued = true → finFrame entry.stream.sid ∈ session.queue.order

/-- A stream that is dropped, or whose opening fails or is given up, has put its closing frame
into the queue, and its number is not in the registry or belongs to another live stream. A
client accepts no opening frame. -/
def Closes (session : Session) (event : Event) : Prop :=
  (∀ (index : Nat) (entry : LocalStream), session.loses event = some index →
    session.streams[index]? = some entry →
    entry.finQueued = true ∧ (session.registryLive = true →
      session.registry entry.stream.sid = none ∨
        ∃ (other : Nat) (another : LocalStream), other ≠ index ∧
          session.streams[other]? = some another ∧
          another.stream.sid = entry.stream.sid ∧ another.held = true ∧
          another.finReceived = false)) ∧
  (event = .loop → ∀ (frame : Frame) (consumed : Nat), session.next = some (frame, consumed) →
    frame.cmd = cmdSyn → session.refusesSyn = false → session.isServer = true)

/-- A fresh session has no streams, so its registry is tidy. -/
theorem start_tidy (isServer : Bool) : Tidy (.start isServer) where
  registered := by simp [Session.start, Alive]
  finished := by simp [Session.start]
  sent := by simp [Session.start]

/-- A new stream that somebody has is registered and alive. -/
theorem Tidy.register (tidy : Tidy session) (live : session.registryLive = true) (sid : UInt32)
    (after : Session) (streams : after.streams = (session.register sid true).streams)
    (registry : after.registry = (session.register sid true).registry)
    (queue : after.queue = session.queue) : Tidy after := by
  refine ⟨?_, ?_, ?_⟩
  · intro _ other
    have lookup : after.registry other =
        Function.update session.registry sid (some session.streams.length) other :=
      congrFun registry other
    rw [lookup]
    by_cases same : other = sid
    · subst same
      rw [Function.update_self]
      refine iff_of_true (by simp) ⟨session.streams.length, .new other true, ?_, rfl, rfl, rfl⟩
      rw [streams]
      exact registered_new other true
    · rw [Function.update_of_ne same, tidy.registered live other]
      constructor
      · rintro ⟨index, entry, there, alive⟩
        exact ⟨index, entry, streams ▸ registered_old there, alive⟩
      · rintro ⟨index, entry, there, own, alive⟩
        rw [streams] at there
        rcases append_cases there with old | ⟨-, rfl⟩
        · exact ⟨index, entry, old, own, alive⟩
        · exact absurd own.symm same
  · intro index entry there gone
    rw [streams] at there
    rcases append_cases there with old | ⟨-, rfl⟩
    · exact tidy.finished index entry old gone
    · simp [LocalStream.new] at gone
  · intro index entry there queued
    rw [streams] at there
    rw [queue]
    rcases append_cases there with old | ⟨-, rfl⟩
    · exact tidy.sent index entry old queued
    · simp [LocalStream.new] at queued

/-- A step of the own side that meets the condition. -/
theorem Tidy.aside (tidy : Tidy session) {event : Event} {after : Session}
    (aside : Aside session event after) (closes : Closes session event) : Tidy after := by
  refine ⟨?_, ?_, ?_⟩
  · intro live sid
    have before : session.registryLive = true := by
      simp only [Session.registryLive, aside.result, Bool.or_eq_true] at live ⊢
      exact live.imp_right aside.handle
    rw [aside.registry, tidy.registered before sid]
    constructor
    · rintro ⟨index, entry, there, own, held, unfinished⟩
      by_cases lost : session.loses event = some index
      · have present := (tidy.registered before sid).mpr ⟨index, entry, there, own, held, unfinished⟩
        subst own
        rcases (closes.1 index entry lost there).2 before with nothing |
          ⟨other, another, apart, known, own, alive⟩
        · exact absurd nothing present
        · obtain ⟨later, found, follows⟩ := aside.streams other another known
          have kept : session.loses event ≠ some other := by
            rw [lost]
            exact fun same => apart (Option.some.inj same).symm
          exact ⟨other, later, found, follows.sid.trans own, follows.held.mpr ⟨alive.1, kept⟩,
            follows.finReceived.trans alive.2⟩
      · obtain ⟨later, found, follows⟩ := aside.streams index entry there
        exact ⟨index, later, found, follows.sid.trans own, follows.held.mpr ⟨held, lost⟩,
          follows.finReceived.trans unfinished⟩
    · rintro ⟨index, later, found, own, held, unfinished⟩
      obtain ⟨entry, there, follows⟩ := aside.before found
      exact ⟨index, entry, there, follows.sid.symm.trans own, (follows.held.mp held).1,
        follows.finReceived.symm.trans unfinished⟩
  · intro index later found gone
    obtain ⟨entry, there, follows⟩ := aside.before found
    apply follows.finQueued
    by_cases lost : session.loses event = some index
    · exact (closes.1 index entry lost there).1
    · cases held : entry.held with
      | false => exact tidy.finished index entry there held
      | true =>
        rw [follows.held.mpr ⟨held, lost⟩] at gone
        simp at gone
  · intro index later found queued
    obtain ⟨entry, there, follows⟩ := aside.before found
    rcases follows.sent queued with before | sent
    · rw [follows.sid]
      exact aside.order _ (tidy.sent index entry there before)
    · exact sent

/-- The loop gives a message to a stream, and waits or gives the message up otherwise. -/
theorem Tidy.deliver (tidy : Tidy session) (target : Nat) (msg : StreamMsg) :
    Tidy (session.deliver target msg) := by
  rcases deliver_cases session target msg with after | ⟨-, after⟩ | after
  · rw [after]
    exact tidy
  · rw [after]
    exact ⟨tidy.registered, tidy.finished, tidy.sent⟩
  · rw [after]
    have before {index : Nat} {later : LocalStream}
        (there : (session.change target (·.receive msg)).streams[index]? = some later) :
        ∃ entry, session.streams[index]? = some entry ∧ later.stream.sid = entry.stream.sid ∧
          later.held = entry.held ∧ later.finReceived = entry.finReceived ∧
          later.finQueued = entry.finQueued := by
      obtain ⟨-, entry, known, rfl⟩ | ⟨-, known⟩ := modify_cases there
      · exact ⟨entry, known, rfl, rfl, rfl, rfl⟩
      · exact ⟨later, known, rfl, rfl, rfl, rfl⟩
    refine ⟨?_, ?_, ?_⟩
    · intro live sid
      refine (tidy.registered live sid).trans ⟨?_, ?_⟩
      · rintro ⟨index, entry, there, alive⟩
        by_cases same : target = index
        · subst same
          exact ⟨target, entry.receive msg, by simp [Session.change, there], alive⟩
        · refine ⟨index, entry, ?_, alive⟩
          exact (List.getElem?_modify_ne _ _ same).trans there
      · rintro ⟨index, later, there, own, held, unfinished⟩
        obtain ⟨entry, known, sid, holds, finished, -⟩ := before there
        exact ⟨index, entry, known, sid.symm.trans own, holds.symm.trans held,
          finished.symm.trans unfinished⟩
    · intro index later there gone
      obtain ⟨entry, known, -, holds, -, queued⟩ := before there
      rw [queued]
      exact tidy.finished index entry known (holds.symm.trans gone)
    · intro index later there sent
      obtain ⟨entry, known, sid, -, -, queued⟩ := before there
      rw [sid]
      exact tidy.sent index entry known (queued.symm.trans sent)

/-- A closing frame of the peer takes the number out of the registry. -/
theorem Tidy.finish (tidy : Tidy session) (live : session.registryLive = true) (sid : UInt32)
    (sending : Option (Nat × StreamMsg)) :
    Tidy
      { session with
        registry := Function.update session.registry sid none
        streams := session.streams.map (·.finish sid)
        sending } := by
  have before {index : Nat} {later : LocalStream}
      (there : (session.streams.map (·.finish sid))[index]? = some later) :
      ∃ entry, session.streams[index]? = some entry ∧ entry.finish sid = later := by
    rw [List.getElem?_map] at there
    exact Option.map_eq_some_iff.mp there
  refine ⟨?_, ?_, ?_⟩
  · intro _ other
    by_cases same : other = sid
    · subst same
      refine iff_of_false (by simp) ?_
      rintro ⟨index, later, there, own, -, unfinished⟩
      obtain ⟨entry, -, rfl⟩ := before there
      rw [(finish_rest other entry).1] at own
      rw [finish_own own] at unfinished
      simp at unfinished
    · simp only [Function.update_of_ne same]
      refine (tidy.registered live other).trans ⟨?_, ?_⟩
      · rintro ⟨index, entry, there, own, alive⟩
        refine ⟨index, entry, ?_, own, alive⟩
        have apart : entry.stream.sid ≠ sid := fun equal => same (own.symm.trans equal)
        simp only [List.getElem?_map, there, Option.map_some, finish_other apart]
      · rintro ⟨index, later, there, own, alive⟩
        obtain ⟨entry, known, rfl⟩ := before there
        have own : entry.stream.sid = other := (finish_rest sid entry).1 ▸ own
        have apart : entry.stream.sid ≠ sid := fun equal => same (own.symm.trans equal)
        rw [finish_other apart] at alive
        exact ⟨index, entry, known, own, alive⟩
  · intro index later there gone
    obtain ⟨entry, known, rfl⟩ := before there
    obtain ⟨-, held, -, queued⟩ := finish_rest sid entry
    rw [queued]
    exact tidy.finished index entry known (held.symm.trans gone)
  · intro index later there sent
    obtain ⟨entry, known, rfl⟩ := before there
    obtain ⟨stream, -, -, queued⟩ := finish_rest sid entry
    rw [stream]
    exact tidy.sent index entry known (queued.symm.trans sent)

/-- A step that meets the condition keeps the registry exact. -/
theorem tidy_step (event : Event) (tidy : Tidy session) (closes : Closes session event) :
    Tidy (step session event) := by
  cases event with
  | received octets =>
    simp only [step]
    obtain ⟨buf, after⟩ | ⟨running, -, result, after⟩ := received_cases session octets
    · rw [after]
      exact ⟨tidy.registered, tidy.finished, tidy.sent⟩
    · rw [after]
      have live : session.registryLive = true := by simp [Session.registryLive, running]
      exact ⟨fun _ => tidy.registered live, tidy.finished, tidy.sent⟩
  | beginOpen target =>
    simp only [step, Session.beginOpen]
    split
    · next free =>
      have live : session.registryLive = true := by simp [Session.registryLive, free.1]
      exact tidy.register live session.nextSid _ rfl rfl rfl
    · exact tidy
  | loop =>
    simp only [step]
    rcases sending : session.sending with _ | ⟨target, msg⟩
    · rcases next : session.next with _ | ⟨frame, consumed⟩
      · rw [read_loop_idle sending next]
        exact tidy
      · have live : session.registryLive = true := by
          simp [Session.registryLive, (next_some next).1]
        rw [read_loop_next next]
        generalize handles : Session.handleFrame _ frame = after
        have outcome := handles ▸
          frame_handled { session with buf := session.buf.drop consumed } frame
        cases outcome with
        | quiet => exact ⟨tidy.registered, tidy.finished, tidy.sent⟩
        | refused => exact ⟨fun _ => tidy.registered live, tidy.finished, tidy.sent⟩
        | syn cmd accepted =>
          have server : session.isServer = true := closes.2 rfl frame consumed next cmd accepted
          exact tidy.register live frame.sid _ (by rw [server]; rfl) (by rw [server]; rfl) rfl
        | psh => exact ⟨tidy.registered, tidy.finished, tidy.sent⟩
        | fin =>
          have finished := tidy.finish live frame.sid
            ((session.registry frame.sid).map (·, .eof))
          exact ⟨finished.registered, finished.finished, finished.sent⟩
    · rw [read_loop_sending sending]
      exact tidy.deliver target msg
  | acquire => exact tidy.aside (step_aside _ .acquire rfl) closes
  | push => exact tidy.aside (step_aside _ .push rfl) closes
  | cancelOpen => exact tidy.aside (step_aside _ .cancelOpen rfl) closes
  | write index chunk => exact tidy.aside (step_aside _ (.write index chunk) rfl) closes
  | shutdown index => exact tidy.aside (step_aside _ (.shutdown index) rfl) closes
  | read index size => exact tidy.aside (step_aside _ (.read index size) rfl) closes
  | drop index => exact tidy.aside (step_aside _ (.drop index) rfl) closes
  | writer => exact tidy.aside (step_aside _ .writer rfl) closes
  | writerFails => exact tidy.aside (step_aside _ .writerFails rfl) closes
  | dropHandle => exact tidy.aside (step_aside _ .dropHandle rfl) closes

/-- A stream that is lost too early stays registered, or the peer does not hear of it. -/
theorem loss_untidy (event : Event) (own : event.own = true) {index : Nat} {entry : LocalStream}
    (lost : session.loses event = some index) (there : session.streams[index]? = some entry)
    (early : ¬(entry.finQueued = true ∧ (session.registryLive = true →
      session.registry entry.stream.sid = none ∨
        ∃ (other : Nat) (another : LocalStream), other ≠ index ∧
          session.streams[other]? = some another ∧
          another.stream.sid = entry.stream.sid ∧ another.held = true ∧
          another.finReceived = false))) : ¬Tidy (step session event) := by
  intro tidy
  have aside := step_aside session event own
  obtain ⟨later, found, follows⟩ := aside.streams index entry there
  have gone : later.held = false := by
    rw [← Bool.not_eq_true, follows.held]
    exact fun kept => kept.2 lost
  apply early
  constructor
  · exact (follows.fin lost).symm.trans (tidy.finished index later found gone)
  · intro live
    by_contra present
    rw [not_or] at present
    have after : (step session event).registryLive = true := by
      rw [Session.registryLive, aside.result, aside.kept (by simp [lost])]
      exact live
    have registered : (step session event).registry entry.stream.sid ≠ none := by
      rw [aside.registry]
      exact present.1
    obtain ⟨other, another, known, own, held, unfinished⟩ :=
      (tidy.registered after entry.stream.sid).mp registered
    obtain ⟨original, before, same⟩ := aside.before known
    have apart : other ≠ index := by
      rintro rfl
      exact (same.held.mp held).2 lost
    exact present.2 ⟨other, original, apart, before, same.sid.symm.trans own,
      (same.held.mp held).1, same.finReceived.symm.trans unfinished⟩

/-- Only steps of the own side lose a stream. -/
theorem loses_own {event : Event} {index : Nat} (lost : session.loses event = some index) :
    event.own = true := by
  cases event with
  | received => simp [Session.loses] at lost
  | loop => simp [Session.loses] at lost
  | beginOpen => simp [Session.loses] at lost
  | _ => rfl

/-- A step that loses a stream without its closing frame leaves the registry untidy. -/
theorem unclosed_untidy (event : Event) (unclosed : ¬Closes session event) :
    ¬Tidy (step session event) := by
  rw [Closes, not_and_or] at unclosed
  rcases unclosed with lost | accepted
  · simp only [Classical.not_forall] at lost
    obtain ⟨index, entry, lost, there, early⟩ := lost
    exact loss_untidy event (loses_own lost) lost there early
  · simp only [Classical.not_forall, Bool.not_eq_true] at accepted
    obtain ⟨rfl, frame, consumed, next, syn, accepts, client⟩ := accepted
    intro tidy
    rw [step, read_loop_syn next syn accepts, client] at tidy
    have queued := tidy.finished session.streams.length _ (registered_new frame.sid false) rfl
    simp [LocalStream.new] at queued

/-- The registry is exact and the peer informed in a run exactly when every stream closes. -/
theorem tidy_iff_closes (isServer : Bool) (events : List Event) :
    Always step (.start isServer) Tidy events ↔ EachStep step (.start isServer) Closes events := by
  apply always_iff_each_step (start_tidy isServer)
  · exact fun session event => tidy_step event
  · exact fun session => id
  · exact fun session event _ => unclosed_untidy event

/-- A stream is opened, shut down and dropped. -/
theorem dropped_stays_registered :
    ¬Always step (.start false) Tidy
      [.beginOpen (.domain "a" 80), .acquire, .push, .acquire, .push, .shutdown 0, .drop 0] := by
  intro always
  have tidy := always _ [] (List.append_nil _).symm
  obtain ⟨index, entry, there, -, held, -⟩ := (tidy.registered rfl 1).mp (by decide)
  have inside := (List.getElem?_eq_some_iff.mp there).1
  obtain rfl : index = 0 := Nat.lt_one_iff.mp inside
  obtain rfl := Option.some.inj there
  exact absurd held (by decide)

end Lifecycle

end OmniProxy.AnytlsLifecycle
