import OmniProxy.AnytlsRegistry

/-!
# Repeated opening frames in an AnyTLS session

A peer may send an opening frame for a number that is in use. The loop then puts a new
sender into the registry in place of the one that was there, so the stream that had the
number sees its end, and what is sent for the number goes to another stream. What each
stream is due is kept here beside the session: a number belongs to the stream for which it
was first opened, until a closing frame or until nobody has that stream. Streams get what
they are due exactly when the peer repeats no number in use.
-/

namespace OmniProxy.AnytlsIsolation

open AnytlsFrames AnytlsRegistry AnytlsStreams ByteStrings Connections GuardedRuns ListUpdates
open ProxyTargets

section Ledgers

/-- A session with the stream that each number belongs to and the messages that each stream
is due. -/
structure Ledger where
  session : Session
  owner : UInt32 → Option Nat
  due : Nat → List StreamMsg

def Ledger.start (isServer : Bool) : Ledger := ⟨.start isServer, fun _ => none, fun _ => []⟩

/-- The number belongs to a stream that somebody has. -/
def Ledger.inUse (ledger : Ledger) (sid : UInt32) : Bool :=
  ((ledger.owner sid).bind (ledger.session.streams[·]?)).any LocalStream.held

/-- A message is due to the stream that a number belongs to. -/
def Ledger.owe (ledger : Ledger) (sid : UInt32) (msg : StreamMsg) : Ledger :=
  match ledger.owner sid with
  | none => ledger
  | some index => { ledger with due := Function.update ledger.due index (ledger.due index ++ [msg]) }

/-- What a frame means for the numbers. An opening frame for a number in use means nothing. -/
def Ledger.note (ledger : Ledger) (frame : Frame) : Ledger :=
  if frame.cmd = cmdSyn then
    if ledger.session.refusesSyn || ledger.inUse frame.sid then ledger
    else
      { ledger with
        owner := Function.update ledger.owner frame.sid (some ledger.session.streams.length) }
  else if frame.cmd = cmdPsh then ledger.owe frame.sid (messageOf frame)
  else if frame.cmd = cmdFin then
    { ledger.owe frame.sid .eof with owner := Function.update ledger.owner frame.sid none }
  else ledger

/-- What a step means for the numbers. -/
def Ledger.account (ledger : Ledger) : Event → Ledger
  | .loop =>
      match ledger.session.next with
      | some (frame, _) => ledger.note frame
      | none => ledger
  | .beginOpen _ =>
      if ledger.session.handle ∧ ledger.session.opener.isNone then
        { ledger with
          owner := Function.update ledger.owner ledger.session.nextSid
            (some ledger.session.streams.length) }
      else ledger
  | _ => ledger

/-- One step of a run. -/
def Ledger.step (ledger : Ledger) (event : Event) : Ledger :=
  { ledger.account event with session := AnytlsRegistry.step ledger.session event }

/-- The message that the loop is sending to a stream. -/
def sendingTo (session : Session) (index : Nat) : List StreamMsg :=
  ((session.sending.filter (·.1 = index)).map Prod.snd).toList

/-- Every stream that somebody has gets the messages it is due, in order, and as long as the
loop runs a stream with a number has a sender. -/
structure Isolated (ledger : Ledger) : Prop where
  delivered : ∀ (index : Nat) (entry : LocalStream), ledger.session.streams[index]? = some entry →
    entry.held = true → entry.arrived ++ sendingTo ledger.session index = ledger.due index
  unended : ledger.session.result = none → ∀ (sid : UInt32) (index : Nat) (entry : LocalStream),
    ledger.owner sid = some index → ledger.session.streams[index]? = some entry →
    entry.held = true → ledger.session.hasSender index sid = true

/-- The loop accepts no opening frame for the number of a registered stream that somebody
has. -/
def Unrepeated (ledger : Ledger) : Event → Prop
  | .loop => ∀ (frame : Frame) (consumed : Nat), ledger.session.next = some (frame, consumed) →
      frame.cmd = cmdSyn → ledger.session.refusesSyn = false →
      ∀ (index : Nat) (entry : LocalStream), ledger.session.registry frame.sid = some index →
        ledger.session.streams[index]? = some entry → entry.held = false
  | _ => True

end Ledgers

section Invariant

/-- While no number is repeated, the registry has the streams that the numbers belong to. -/
structure Faithful (ledger : Ledger) : Prop where
  owner : ledger.owner = ledger.session.registry
  known : ∀ (sid : UInt32) (index : Nat), ledger.session.registry sid = some index →
    index < ledger.session.streams.length
  target : ∀ (index : Nat) (msg : StreamMsg), ledger.session.sending = some (index, msg) →
    index < ledger.session.streams.length
  delivered : ∀ (index : Nat) (entry : LocalStream), ledger.session.streams[index]? = some entry →
    entry.held = true → entry.arrived ++ sendingTo ledger.session index = ledger.due index
  later : ∀ index, ledger.session.streams.length ≤ index → ledger.due index = []

variable {ledger : Ledger}

/-- A fresh session has no streams, so its registry is right. -/
theorem start_faithful (isServer : Bool) : Faithful (.start isServer) where
  owner := rfl
  known := by simp [Ledger.start, Session.start]
  target := by simp [Ledger.start, Session.start]
  delivered := by simp [Ledger.start, Session.start]
  later := by simp [Ledger.start]

/-- A right registry gives each stream its own messages. -/
theorem Faithful.isolated (faithful : Faithful ledger) : Isolated ledger where
  delivered := faithful.delivered
  unended := by
    intro running sid index entry owner there held
    rw [faithful.owner] at owner
    simp [Session.hasSender, Session.registryLive, running, owner]

/-- While the loop does not wait for a stream, it holds no message back. -/
theorem sending_to_none {session : Session} (quiet : session.sending = none) (index : Nat) :
    sendingTo session index = [] := by
  simp [sendingTo, quiet]

/-- The message that the loop waits with belongs to the one stream that it was sent to. -/
theorem sending_to_some {session : Session} {target : Nat} {msg : StreamMsg}
    (sending : session.sending = some (target, msg)) (index : Nat) :
    sendingTo session index = if target = index then [msg] else [] := by
  by_cases same : target = index
  · simp [sendingTo, sending, same]
  · simp [sendingTo, sending, same]

/-- Owing a message changes no owner. -/
theorem owe_owner (sid : UInt32) (msg : StreamMsg) :
    (ledger.owe sid msg).owner = ledger.owner := by
  unfold Ledger.owe
  split <;> rfl

/-- A message is owed to the owner of its number and to no other stream. -/
theorem owe_due (sid : UInt32) (msg : StreamMsg) (index : Nat) :
    (ledger.owe sid msg).due index =
      if ledger.owner sid = some index then ledger.due index ++ [msg] else ledger.due index := by
  unfold Ledger.owe
  cases owner : ledger.owner sid with
  | none => simp
  | some target =>
    by_cases same : target = index
    · simp [same]
    · simp [same, Function.update_of_ne (Ne.symm same)]

/-- A message that the loop begins to send is due. -/
theorem Faithful.owed (faithful : Faithful ledger) (quiet : ledger.session.sending = none)
    (sid : UInt32) (msg : StreamMsg) {after : Session}
    (sending : after.sending = (ledger.session.registry sid).map (·, msg)) (index : Nat)
    (entry : LocalStream) (there : ledger.session.streams[index]? = some entry)
    (held : entry.held = true) :
    entry.arrived ++ sendingTo after index = (ledger.owe sid msg).due index := by
  have before := faithful.delivered index entry there held
  rw [sending_to_none quiet, List.append_nil] at before
  rw [owe_due, faithful.owner, before]
  cases registered : ledger.session.registry sid with
  | none =>
    rw [registered] at sending
    simp [sending_to_none sending]
  | some target =>
    rw [registered] at sending
    rw [sending_to_some sending]
    by_cases same : target = index
    · simp [same]
    · simp [same]

/-- A stream that does not exist yet is owed nothing. -/
theorem Faithful.owe_later (faithful : Faithful ledger) (sid : UInt32) (msg : StreamMsg)
    (index : Nat) (beyond : ledger.session.streams.length ≤ index) :
    (ledger.owe sid msg).due index = [] := by
  rw [owe_due, faithful.owner, if_neg, faithful.later index beyond]
  intro registered
  exact absurd (faithful.known sid index registered) (Nat.not_lt.mpr beyond)

/-- A new stream is due nothing yet. -/
theorem Faithful.registered (faithful : Faithful ledger) (sid : UInt32) (held : Bool)
    (after : Session) (streams : after.streams = (ledger.session.register sid held).streams)
    (registry : after.registry = (ledger.session.register sid held).registry)
    (sending : after.sending = ledger.session.sending) :
    Faithful
      { ledger with
        owner := Function.update ledger.owner sid (some ledger.session.streams.length)
        session := after } := by
  have length : after.streams.length = ledger.session.streams.length + 1 := by
    simp [streams, Session.register]
  refine ⟨?_, ?_, ?_, ?_, ?_⟩
  · rw [registry, faithful.owner]
    rfl
  · intro other index there
    have there : Function.update ledger.session.registry sid (some ledger.session.streams.length)
        other = some index := (congrFun registry other).symm.trans there
    rw [length]
    by_cases same : other = sid
    · subst same
      obtain rfl : ledger.session.streams.length = index := by simpa using there
      exact Nat.lt_succ_self _
    · rw [Function.update_of_ne same] at there
      exact Nat.lt_succ_of_lt (faithful.known other index there)
  · intro index msg there
    rw [length]
    exact Nat.lt_succ_of_lt (faithful.target index msg (sending ▸ there))
  · intro index entry there held
    have same : sendingTo after index = sendingTo ledger.session index := by
      rw [sendingTo, sendingTo, sending]
    rw [streams] at there
    rw [same]
    rcases append_cases there with old | ⟨rfl, rfl⟩
    · exact faithful.delivered index entry old held
    · have empty : sendingTo ledger.session ledger.session.streams.length = [] := by
        cases content : ledger.session.sending with
        | none => exact sending_to_none content _
        | some sent =>
          have early := faithful.target sent.1 sent.2 content
          rw [sending_to_some content, if_neg (Nat.ne_of_lt early)]
      rw [empty, faithful.later _ (Nat.le_refl _)]
      rfl
  · intro index beyond
    rw [length] at beyond
    exact faithful.later index (Nat.le_of_succ_le beyond)

/-- Steps of the own side leave what is due. -/
theorem Faithful.aside (faithful : Faithful ledger) {event : Event} {after : Session}
    (aside : Aside ledger.session event after) : Faithful { ledger with session := after } := by
  refine ⟨?_, ?_, ?_, ?_, ?_⟩
  · rw [aside.registry]
    exact faithful.owner
  · rw [aside.registry, aside.length]
    exact faithful.known
  · rw [aside.sending, aside.length]
    exact faithful.target
  · intro index later there held
    obtain ⟨entry, known, follows⟩ := aside.before there
    have same : sendingTo after index = sendingTo ledger.session index := by
      rw [sendingTo, sendingTo, aside.sending]
    rw [follows.arrived, same]
    exact faithful.delivered index entry known (follows.held.mp held).1
  · rw [aside.length]
    exact faithful.later

/-- The loop sends a message to the stream it is due to. -/
theorem Faithful.deliver (faithful : Faithful ledger) (target : Nat) (msg : StreamMsg)
    (sending : ledger.session.sending = some (target, msg)) :
    Faithful { ledger with session := ledger.session.deliver target msg } := by
  have due (index : Nat) (entry : LocalStream)
      (there : ledger.session.streams[index]? = some entry) (held : entry.held = true) :
      entry.arrived ++ (if target = index then [msg] else []) = ledger.due index := by
    rw [← sending_to_some sending]
    exact faithful.delivered index entry there held
  rcases deliver_cases ledger.session target msg with after | ⟨gone, after⟩ | after
  · rw [after]
    exact faithful
  · rw [after]
    refine ⟨faithful.owner, faithful.known, by simp, ?_, faithful.later⟩
    intro index entry there held
    have other : target ≠ index := by
      rintro rfl
      simp [gone entry there] at held
    rw [sending_to_none rfl, ← due index entry there held, if_neg other]
  · rw [after]
    have length : (ledger.session.change target (·.receive msg)).streams.length =
        ledger.session.streams.length := List.length_modify ..
    refine ⟨faithful.owner, ?_, by simp, ?_, ?_⟩
    · intro sid index there
      simp only [length]
      exact faithful.known sid index there
    · intro index later there held
      rw [sending_to_none rfl, List.append_nil]
      obtain ⟨rfl, entry, known, rfl⟩ | ⟨other, known⟩ := modify_cases there
      · rw [← due index entry known held, if_pos rfl]
        rfl
      · rw [← due index later known held, if_neg (Ne.symm other)]
        exact (List.append_nil _).symm
    · intro index beyond
      simp only [length] at beyond
      exact faithful.later index beyond

/-- A number in use is one whose stream in the registry somebody has. -/
theorem Faithful.in_use (faithful : Faithful ledger) (sid : UInt32) :
    ledger.inUse sid = true ↔ ∃ index entry, ledger.session.registry sid = some index ∧
      ledger.session.streams[index]? = some entry ∧ entry.held = true := by
  rw [Ledger.inUse, faithful.owner]
  cases registered : ledger.session.registry sid with
  | none => simp
  | some index => simp [Option.any_eq_true]

/-- What the loop does with a frame is what the frame means. -/
theorem Faithful.frame (faithful : Faithful ledger) (quiet : ledger.session.sending = none)
    (frame : Frame) (buf : Bytes)
    (unused : frame.cmd = cmdSyn → ledger.session.refusesSyn = false →
      ledger.inUse frame.sid = false) :
    Faithful
      { ledger.note frame with
        session := Session.handleFrame { ledger.session with buf } frame } := by
  generalize handles : Session.handleFrame _ frame = after
  have outcome := handles ▸ frame_handled { ledger.session with buf } frame
  cases outcome with
  | quiet gotSettings syn psh fin alert =>
    rw [Ledger.note, if_neg syn, if_neg psh, if_neg fin]
    exact ⟨faithful.owner, faithful.known, faithful.target, faithful.delivered, faithful.later⟩
  | refused error cause =>
    have nothing : ledger.note frame = ledger := by
      rcases cause with alert | ⟨syn, refuses⟩
      · simp only [Ledger.note, alert]
        rfl
      · have refuses : ledger.session.refusesSyn = true := refuses
        rw [Ledger.note, if_pos syn, refuses]
        rfl
    rw [nothing]
    exact ⟨faithful.owner, faithful.known, faithful.target, faithful.delivered, faithful.later⟩
  | syn cmd accepted =>
    have accepted : ledger.session.refusesSyn = false := accepted
    rw [Ledger.note, if_pos cmd, accepted, unused cmd accepted]
    exact faithful.registered frame.sid ledger.session.isServer _ rfl rfl rfl
  | psh cmd =>
    have other : ¬frame.cmd = cmdSyn := by rw [cmd]; decide
    rw [Ledger.note, if_neg other, if_pos cmd]
    refine ⟨(owe_owner ..).trans faithful.owner, faithful.known, ?_, ?_, ?_⟩
    · intro index msg sending
      obtain ⟨target, registered, same⟩ := Option.map_eq_some_iff.mp sending
      exact (Prod.mk.inj same).1 ▸ faithful.known frame.sid target registered
    · exact faithful.owed quiet frame.sid (messageOf frame) rfl
    · exact faithful.owe_later frame.sid (messageOf frame)
  | fin cmd =>
    have other : ¬frame.cmd = cmdSyn ∧ ¬frame.cmd = cmdPsh := by rw [cmd]; decide
    rw [Ledger.note, if_neg other.1, if_neg other.2, if_pos cmd]
    have length : (ledger.session.streams.map (·.finish frame.sid)).length =
        ledger.session.streams.length := List.length_map ..
    refine ⟨?_, ?_, ?_, ?_, ?_⟩
    · simp only [faithful.owner]
    · intro sid index registered
      by_cases same : sid = frame.sid
      · simp [same] at registered
      · simp only [Function.update_of_ne same] at registered
        simp only [length]
        exact faithful.known sid index registered
    · intro index msg sending
      obtain ⟨target, registered, same⟩ := Option.map_eq_some_iff.mp sending
      simp only [length]
      exact (Prod.mk.inj same).1 ▸ faithful.known frame.sid target registered
    · intro index later there held
      simp only [List.getElem?_map, Option.map_eq_some_iff] at there
      obtain ⟨entry, known, rfl⟩ := there
      obtain ⟨-, holds, arrived, -⟩ := finish_rest frame.sid entry
      rw [arrived]
      exact faithful.owed quiet frame.sid .eof rfl index entry known (holds.symm.trans held)
    · intro index beyond
      simp only [length] at beyond
      exact faithful.owe_later frame.sid .eof index beyond

/-- Every step keeps the registry right as long as it repeats no number. -/
theorem faithful_step (event : Event) (faithful : Faithful ledger)
    (unrepeated : Unrepeated ledger event) : Faithful (ledger.step event) := by
  cases event with
  | received octets =>
    simp only [Ledger.step, Ledger.account, AnytlsRegistry.step]
    obtain ⟨buf, after⟩ | ⟨-, -, result, after⟩ := received_cases ledger.session octets
    · rw [after]
      exact ⟨faithful.owner, faithful.known, faithful.target, faithful.delivered, faithful.later⟩
    · rw [after]
      exact ⟨faithful.owner, faithful.known, faithful.target, faithful.delivered, faithful.later⟩
  | loop =>
    simp only [Ledger.step, Ledger.account, AnytlsRegistry.step]
    rcases sending : ledger.session.sending with _ | ⟨target, msg⟩
    · rcases next : ledger.session.next with _ | ⟨frame, consumed⟩
      · rw [read_loop_idle sending next]
        exact faithful
      · rw [read_loop_next next]
        apply faithful.frame sending frame (ledger.session.buf.drop consumed)
        intro syn accepted
        rw [← Bool.not_eq_true, faithful.in_use]
        rintro ⟨index, entry, registered, there, held⟩
        have gone := unrepeated frame consumed next syn accepted index entry registered there
        rw [gone] at held
        simp at held
    · have absent : ledger.session.next = none := if_pos (.inr (by simp [sending]))
      rw [absent, read_loop_sending sending]
      exact faithful.deliver target msg sending
  | beginOpen target =>
    simp only [Ledger.step, Ledger.account, AnytlsRegistry.step, Session.beginOpen]
    split
    · exact faithful.registered _ true _ rfl rfl rfl
    · exact faithful
  | acquire => exact faithful.aside (step_aside _ .acquire rfl)
  | push => exact faithful.aside (step_aside _ .push rfl)
  | cancelOpen => exact faithful.aside (step_aside _ .cancelOpen rfl)
  | write index chunk => exact faithful.aside (step_aside _ (.write index chunk) rfl)
  | shutdown index => exact faithful.aside (step_aside _ (.shutdown index) rfl)
  | read index size => exact faithful.aside (step_aside _ (.read index size) rfl)
  | drop index => exact faithful.aside (step_aside _ (.drop index) rfl)
  | writer => exact faithful.aside (step_aside _ .writer rfl)
  | writerFails => exact faithful.aside (step_aside _ .writerFails rfl)
  | dropHandle => exact faithful.aside (step_aside _ .dropHandle rfl)

/-- After a repeated opening frame, the stream that had the number has no sender. -/
theorem repeated_ends (event : Event) (faithful : Faithful ledger)
    (repeated : ¬Unrepeated ledger event) : ¬Isolated (ledger.step event) := by
  intro isolated
  cases event with
  | loop =>
    simp only [Unrepeated, Classical.not_forall] at repeated
    obtain ⟨frame, consumed, next, syn, accepted, index, entry, registered, there, held⟩ := repeated
    obtain ⟨running, quiet⟩ := next_some next
    have inUse : ledger.inUse frame.sid = true := by
      rw [faithful.in_use]
      exact ⟨index, entry, registered, there, by simpa using held⟩
    have kept : ledger.note frame = ledger := by
      rw [Ledger.note, if_pos syn, inUse, Bool.or_true, if_pos rfl]
    have after : ledger.step .loop =
        { ledger with
          session := Session.register { ledger.session with
            buf := ledger.session.buf.drop consumed } frame.sid ledger.session.isServer } := by
      simp only [Ledger.step, Ledger.account, AnytlsRegistry.step, next, kept,
        read_loop_syn next syn accepted]
    rw [after] at isolated
    have sender := isolated.unended running frame.sid index entry
      ((congrFun faithful.owner _).trans registered) (registered_old there) (by simpa using held)
    have early := (List.getElem?_eq_some_iff.mp there).1
    simp only [Session.hasSender, Session.register, quiet, Function.update_self, Option.map_none,
      Bool.or_eq_true, Bool.and_eq_true, beq_iff_eq, Option.some.injEq, reduceCtorEq, or_false]
      at sender
    exact absurd sender.2 (Nat.ne_of_gt early)
  | _ => exact repeated trivial

/-- Streams are isolated in a run exactly when the peer repeats no number in use. -/
theorem isolated_iff_unrepeated (isServer : Bool) (events : List Event) :
    Always Ledger.step (.start isServer) Isolated events ↔
      EachStep Ledger.step (.start isServer) Unrepeated events := by
  apply always_iff_each_step (start_faithful isServer)
  · exact fun ledger event => faithful_step event
  · exact fun ledger => Faithful.isolated
  · exact fun ledger event => repeated_ends event

/-- A client opens stream 1, and the server sends an opening frame for it. -/
theorem syn_for_open_stream :
    ¬Always Ledger.step (.start false) Isolated
      [.beginOpen (.domain "a" 80), .acquire, .push, .acquire, .push,
        .received (.ok (Frame.new cmdSyn 1).encode), .loop] := by
  intro always
  have isolated := always _ [] (List.append_nil _).symm
  have sender := isolated.unended rfl 1 0 _ rfl rfl rfl
  exact absurd sender (by decide)

end Invariant

end OmniProxy.AnytlsIsolation
