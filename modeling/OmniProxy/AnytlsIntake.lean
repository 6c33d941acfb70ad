import OmniProxy.AnytlsEndpoints

/-!
# What a side of an AnyTLS link takes

The frames that a loop has handled determine what the streams of the session get: each stream
that somebody has gets the messages for its number, in order, and its reader gets their data.
The end is read after the closing frame, or when the loop has returned. All this holds while
the frames are what the other side may send.
-/

namespace OmniProxy.AnytlsIntake

open AnytlsEndings AnytlsEndpoints AnytlsFrames AnytlsIsolation AnytlsRegistry AnytlsStreams
open ByteStrings Connections ListUpdates ProxyTargets

section Readers

/-- What the reader of a stream has got: chunks that arrived, the last one perhaps in part.
It has seen the end when an end arrived, or when the loop has returned. -/
structure Reading (entry : LocalStream) (returned : Bytes) (isOver : Prop) : Prop where
  chunks : ∃ chunks : List Bytes,
    returned ++ entry.stream.leftover.getD [] = chunks.flatten ∧
    (entry.stream.eof = false → entry.arrived = chunks.map .data ++ entry.stream.rx) ∧
    (entry.stream.eof = true → entry.arrived = chunks.map .data ++ .eof :: entry.stream.rx ∨
      isOver ∧ chunks.map .data <+: entry.arrived)
  useful : entry.stream.leftover ≠ some []

variable {entry : LocalStream} {returned : Bytes} {isOver : Prop}

/-- A new stream has read nothing and has nothing to read. -/
theorem new_reading (sid : UInt32) (held : Bool) (isOver : Prop) :
    Reading (.new sid held) [] isOver :=
  ⟨⟨[], rfl, fun _ => rfl, by simp [LocalStream.new, AnytlsStream.new]⟩, by
    simp [LocalStream.new, AnytlsStream.new]⟩

/-- A stream that was not read stays read as far as it was. -/
theorem Reading.same {later : LocalStream} {isLater : Prop}
    (reading : Reading entry returned isOver) (rx : later.stream.rx = entry.stream.rx)
    (leftover : later.stream.leftover = entry.stream.leftover)
    (eof : later.stream.eof = entry.stream.eof) (arrived : later.arrived = entry.arrived)
    (stays : isOver → isLater) : Reading later returned isLater := by
  obtain ⟨⟨chunks, exact, open_, ended⟩, useful⟩ := reading
  refine ⟨⟨chunks, ?_, ?_, ?_⟩, ?_⟩
  · rw [leftover]
    exact exact
  · rw [eof, arrived, rx]
    exact open_
  · rw [eof, arrived, rx]
    exact fun last => (ended last).imp_right (And.imp_left stays)
  · rw [leftover]
    exact useful

/-- A message that arrives is behind what was there. -/
theorem Reading.receive (reading : Reading entry returned isOver) (msg : StreamMsg) :
    Reading (entry.receive msg) returned isOver := by
  obtain ⟨⟨chunks, exact, open_, ended⟩, useful⟩ := reading
  refine ⟨⟨chunks, exact, ?_, ?_⟩, useful⟩
  · intro more
    change entry.arrived ++ [msg] = chunks.map .data ++ (entry.stream.rx ++ [msg])
    rw [open_ more, List.append_assoc]
  · intro last
    rcases ended last with whole | ⟨stopped, front⟩
    · left
      change entry.arrived ++ [msg] = chunks.map .data ++ .eof :: (entry.stream.rx ++ [msg])
      rw [whole, List.append_assoc]
      rfl
    · exact .inr ⟨stopped, front.trans (List.prefix_append ..)⟩

/-- A read returns what is next. It sees the end only after an end that arrived, or without a
sender. -/
theorem Reading.read (reading : Reading entry returned isOver) (closed : Bool) (size : Nat)
    (filled : ∀ msg ∈ entry.arrived, msg ≠ .data [])
    (ends : closed = true → isOver ∨ .eof ∈ entry.arrived) :
    Reading { entry with stream := (entry.stream.pollRead closed size).2 }
      (returned ++ (entry.stream.pollRead closed size).1.getD []) isOver := by
  obtain ⟨⟨chunks, exact, open_, ended⟩, useful⟩ := reading
  refine ⟨?_, poll_read_leftover_some entry.stream closed size useful⟩
  cases left : entry.stream.leftover with
  | some data =>
    rw [poll_read_leftover left]
    rw [left, Option.getD_some] at exact
    refine ⟨chunks, ?_, open_, ended⟩
    rw [← exact, Option.getD_some, List.append_assoc, AnytlsTasks.hand_out_join]
  | none =>
    rw [left, Option.getD_none, List.append_nil] at exact
    cases last : entry.stream.eof with
    | true =>
      rw [poll_read_ended left last]
      refine ⟨chunks, ?_, open_, ended⟩
      rw [left, Option.getD_some, Option.getD_none, List.append_nil, List.append_nil]
      exact exact
    | false =>
      have arrived := open_ last
      rcases queue : entry.stream.rx with _ | ⟨_ | _, rx⟩
      · rw [queue, List.append_nil] at arrived
        cases closed with
        | true =>
          rw [poll_read_closed left last queue]
          refine ⟨chunks, ?_, by simp, fun _ => .inr ⟨?_, ?_⟩⟩
          · rw [left, Option.getD_some, Option.getD_none, List.append_nil, List.append_nil]
            exact exact
          · refine (ends rfl).resolve_right fun there => ?_
            rw [arrived] at there
            simp at there
          · simp only [arrived, List.prefix_rfl]
        | false =>
          rw [poll_read_pending left last queue]
          refine ⟨chunks, ?_, open_, ended⟩
          rw [left, Option.getD_none, List.append_nil, List.append_nil]
          exact exact
      · next data =>
        rw [queue] at arrived
        have nonempty : data ≠ [] := by
          rintro rfl
          exact filled (.data []) (by simp [arrived]) rfl
        rw [poll_read_data left last queue nonempty]
        refine ⟨chunks ++ [data], ?_, ?_, by simp [last]⟩
        · rw [Option.getD_some, List.append_assoc, AnytlsTasks.hand_out_join, exact]
          simp
        · intro _
          rw [arrived]
          simp
      · rw [queue] at arrived
        rw [poll_read_eof left last queue]
        refine ⟨chunks, ?_, by simp, fun _ => .inl arrived⟩
        rw [left, Option.getD_some, Option.getD_none, List.append_nil, List.append_nil]
        exact exact

end Readers

section Takes

/-- What holds of the streams of a side and the frames that its loop has handled. -/
structure Takes (side : Side) : Prop where
  faithful : Faithful side.ledger
  known : ∀ (sid : UInt32) (index : Nat), side.session.registry sid = some index →
    ∃ entry, side.session.streams[index]? = some entry ∧ entry.stream.sid = sid
  registered : ∀ (index : Nat) (entry : LocalStream), side.session.streams[index]? = some entry →
    finFrame entry.stream.sid ∉ side.handled →
    side.session.registry entry.stream.sid = some index
  due : ∀ (index : Nat) (entry : LocalStream), side.session.streams[index]? = some entry →
    side.ledger.due index = messagesFor entry.stream.sid side.handled
  arrived : ∀ (index : Nat) (entry : LocalStream), side.session.streams[index]? = some entry →
    entry.arrived <+: messagesFor entry.stream.sid side.handled
  filled : ∀ frame ∈ side.handled, frame.cmd = cmdPsh → frame.data ≠ []
  reading : ∀ (index : Nat) (entry : LocalStream), side.session.streams[index]? = some entry →
    Reading entry (side.returned index) (side.session.result.isSome = true)
  beyond : ∀ index, side.session.streams.length ≤ index → side.returned index = []
  uncut : side.session.result.isSome = true → side.cut = true

variable {side : Side}

/-- A fresh side has handled no frame and has no streams. -/
theorem start_takes (isServer : Bool) : Takes (.start isServer) where
  faithful := start_faithful isServer
  known := by simp [Side.start, Side.session, Ledger.start, Session.start]
  registered := by simp [Side.start, Side.session, Ledger.start, Session.start]
  due := by simp [Side.start, Side.session, Ledger.start, Session.start]
  arrived := by simp [Side.start, Side.session, Ledger.start, Session.start]
  filled := by simp [Side.start]
  reading := by simp [Side.start, Side.session, Ledger.start, Session.start]
  beyond _ _ := rfl
  uncut := by simp [Side.start, Side.session, Ledger.start, Session.start]

/-- No message for a stream is empty. -/
theorem Takes.messages_filled (takes : Takes side) (sid : UInt32) :
    ∀ msg ∈ messagesFor sid side.handled, msg ≠ .data [] := by
  rintro msg member rfl
  obtain ⟨frame, among, message⟩ := List.mem_filterMap.mp member
  have handled := (List.mem_filter.mp among).1
  unfold carried at message
  split at message
  · next psh =>
    have more := takes.filled frame handled psh
    simp [messageOf, more] at message
  · split at message <;> simp at message

/-- A closing frame that was handled is an end among the messages of its number. -/
theorem end_of_closing {sid : UInt32} {frames : List Frame} (member : finFrame sid ∈ frames) :
    .eof ∈ messagesFor sid frames :=
  List.mem_filterMap.mpr ⟨finFrame sid, List.mem_filter.mpr ⟨member, decide_eq_true rfl⟩, rfl⟩

/-- A stream that somebody has and that has no sender got its end, or the loop has returned. -/
theorem Takes.senderless (takes : Takes side) {index : Nat} {entry : LocalStream}
    (there : side.session.streams[index]? = some entry) (held : entry.held = true)
    (closed : side.session.hasSender index entry.stream.sid = false) :
    side.session.result.isSome = true ∨ .eof ∈ entry.arrived := by
  simp only [Session.hasSender, Bool.or_eq_false_iff, Bool.and_eq_false_iff] at closed
  obtain ⟨unregistered, unsent⟩ := closed
  cases result : side.session.result with
  | some _ => exact .inl rfl
  | none =>
    right
    have registry : side.session.registry entry.stream.sid ≠ some index := by
      rcases unregistered with dead | other
      · simp [Session.registryLive, result] at dead
      · simpa using other
    have closing : finFrame entry.stream.sid ∈ side.handled := by
      by_contra more
      exact registry (takes.registered index entry there more)
    have quiet : sendingTo side.session index = [] := by
      cases sending : side.session.sending with
      | none => exact sending_to_none sending index
      | some sent =>
        rw [sending] at unsent
        have other : sent.1 ≠ index := by simpa using unsent
        rw [sending_to_some sending, if_neg other]
    have delivered : entry.arrived ++ sendingTo side.session index = side.ledger.due index :=
      takes.faithful.delivered index entry there held
    rw [quiet, List.append_nil, takes.due index entry there] at delivered
    rw [delivered]
    exact end_of_closing closing

end Takes

section Steps

variable {side : Side}

/-- A step of the own side handles no frame. What it leaves of the readers is given. -/
theorem Takes.aside (takes : Takes side) {event : Event} (own : event.own = true)
    (reading : ∀ (index : Nat) (later : LocalStream),
      (side.step event).session.streams[index]? = some later →
      Reading later ((side.step event).returned index) (side.session.result.isSome = true))
    (beyond : ∀ index, side.session.streams.length ≤ index →
      (side.step event).returned index = []) : Takes (side.step event) := by
  have aside := step_aside side.session event own
  have unhandled : (side.step event).handled = side.handled := by
    cases event <;> first | exact List.append_nil _ | cases own
  have due : (side.step event).ledger.due = side.ledger.due := by
    cases event <;> first | rfl | cases own
  have cut : (side.step event).cut = side.cut := by
    cases event <;> first | exact Bool.or_false _ | cases own
  have unrepeated : Unrepeated side.ledger event := by
    cases event <;> trivial
  have before {index : Nat} {later : LocalStream}
      (there : (side.step event).session.streams[index]? = some later) :=
    aside.before there
  refine ⟨faithful_step event takes.faithful unrepeated, ?_, ?_, ?_, ?_, ?_, ?_, ?_, ?_⟩
  · intro sid index there
    rw [step_session, aside.registry] at there
    obtain ⟨entry, known, same⟩ := takes.known sid index there
    obtain ⟨later, place, follows⟩ := aside.streams index entry known
    exact ⟨later, place, follows.sid.trans same⟩
  · intro index later there more
    obtain ⟨entry, known, follows⟩ := before there
    rw [unhandled, follows.sid] at more
    rw [step_session, aside.registry, follows.sid]
    exact takes.registered index entry known more
  · intro index later there
    obtain ⟨entry, known, follows⟩ := before there
    rw [due, unhandled, follows.sid]
    exact takes.due index entry known
  · intro index later there
    obtain ⟨entry, known, follows⟩ := before there
    rw [unhandled, follows.sid, follows.arrived]
    exact takes.arrived index entry known
  · rw [unhandled]
    exact takes.filled
  · rw [step_session, aside.result]
    exact reading
  · rw [step_session, aside.length]
    exact beyond
  · rw [step_session, aside.result, cut]
    exact takes.uncut

/-- A stream that is not read in a step. -/
structure Unread (entry later : LocalStream) : Prop where
  rx : later.stream.rx = entry.stream.rx
  leftover : later.stream.leftover = entry.stream.leftover
  eof : later.stream.eof = entry.stream.eof
  arrived : later.arrived = entry.arrived

/-- A step of the own side that reads no stream. -/
theorem Takes.unread (takes : Takes side) {event : Event} (own : event.own = true)
    (nothing : hands side.session event = none)
    (streams : ∀ (index : Nat) (later : LocalStream),
      (AnytlsRegistry.step side.session event).streams[index]? = some later →
      ∃ entry, side.session.streams[index]? = some entry ∧ Unread entry later) :
    Takes (side.step event) := by
  have returned : (side.step event).returned = side.returned := by
    simp only [Side.step, nothing, extended]
  apply takes.aside own
  · intro index later there
    obtain ⟨entry, known, same⟩ := streams index later there
    rw [returned]
    exact (takes.reading index entry known).same same.rx same.leftover same.eof same.arrived id
  · rw [returned]
    exact takes.beyond

/-- Taking a stream from its holder leaves what its reader got. -/
theorem loss_unread {streams : List LocalStream} {index other : Nat} {later : LocalStream}
    (there : (streams.modify index ({ · with held := false }))[other]? = some later) :
    ∃ entry, streams[other]? = some entry ∧ Unread entry later := by
  obtain ⟨-, entry, known, rfl⟩ | ⟨-, known⟩ := modify_cases there
  · exact ⟨entry, known, rfl, rfl, rfl, rfl⟩
  · exact ⟨later, known, rfl, rfl, rfl, rfl⟩

/-- The steps of the own side other than reads leave what the readers get. -/
theorem own_unread (session : Session) {event : Event} (own : event.own = true)
    (nothing : ∀ index size, event ≠ .read index size) (index : Nat) (later : LocalStream)
    (there : (AnytlsRegistry.step session event).streams[index]? = some later) :
    ∃ entry, session.streams[index]? = some entry ∧ Unread entry later := by
  have same (stays : (AnytlsRegistry.step session event).streams = session.streams) :
      ∃ entry, session.streams[index]? = some entry ∧ Unread entry later := by
    rw [stays] at there
    exact ⟨later, there, rfl, rfl, rfl, rfl⟩
  cases event with
  | received octets => cases own
  | loop => cases own
  | beginOpen target => cases own
  | read place size => exact absurd rfl (nothing place size)
  | acquire =>
    simp only [AnytlsRegistry.step, Session.acquire] at there same
    split at there
    · exact ⟨later, there, rfl, rfl, rfl, rfl⟩
    · split at there
      · exact ⟨later, there, rfl, rfl, rfl, rfl⟩
      · split at there
        · exact loss_unread there
        · split at there
          · exact ⟨later, there, rfl, rfl, rfl, rfl⟩
          · exact ⟨later, there, rfl, rfl, rfl, rfl⟩
  | push =>
    apply same
    simp only [AnytlsRegistry.step, Session.push]
    split
    · rfl
    · split
      · rfl
      · split <;> rfl
  | cancelOpen =>
    simp only [AnytlsRegistry.step, Session.cancelOpen] at there same
    split at there
    · exact ⟨later, there, rfl, rfl, rfl, rfl⟩
    · exact loss_unread there
  | write place chunk =>
    apply same
    simp only [AnytlsRegistry.step, Session.write]
    split
    · rfl
    · split
      · split <;> rfl
      · rfl
  | shutdown place =>
    simp only [AnytlsRegistry.step, Session.shutdown] at there same
    split at there
    · exact ⟨later, there, rfl, rfl, rfl, rfl⟩
    · split at there
      · exact ⟨later, there, rfl, rfl, rfl, rfl⟩
      · obtain ⟨-, entry, known, rfl⟩ | ⟨-, known⟩ := modify_cases there
        · exact ⟨entry, known, rfl, rfl, rfl, rfl⟩
        · exact ⟨later, known, rfl, rfl, rfl, rfl⟩
  | drop place =>
    simp only [AnytlsRegistry.step, Session.dropStream] at there same
    split at there
    · exact ⟨later, there, rfl, rfl, rfl, rfl⟩
    · exact loss_unread there
  | writer =>
    apply same
    simp only [AnytlsRegistry.step]
    split <;> rfl
  | writerFails => exact same rfl
  | dropHandle =>
    apply same
    simp only [AnytlsRegistry.step]
    split <;> rfl

/-- A read returns what is next to the reader of its stream. -/
theorem read_takes (takes : Takes side) (index size : Nat) :
    Takes (side.step (.read index size)) := by
  cases owned : side.session.ownedStream index with
  | none =>
    have steps : AnytlsRegistry.step side.session (.read index size) = side.session := by
      simp only [AnytlsRegistry.step, Session.read, owned]
    apply takes.unread rfl
    · simp only [hands, owned, Option.bind_none]
    · rw [steps]
      exact fun other later there => ⟨later, there, rfl, rfl, rfl, rfl⟩
  | some entry =>
    obtain ⟨there, held, -⟩ := owned_stream_some owned
    generalize reads : entry.stream.pollRead (!side.session.hasSender index entry.stream.sid) size =
      result
    have steps : AnytlsRegistry.step side.session (.read index size) =
        side.session.change index ({ · with stream := result.2 }) := by
      simp only [AnytlsRegistry.step, Session.read, owned, reads]
    have given : hands side.session (.read index size) = result.1.map (index, ·) := by
      simp only [hands, owned, Option.bind_some, reads]
    have others (other : Nat) (apart : other ≠ index) :
        (side.step (.read index size)).returned other = side.returned other := by
      simp only [Side.step, given]
      cases result.1 with
      | none => rfl
      | some out => exact Function.update_of_ne apart _ _
    have here : (side.step (.read index size)).returned index =
        side.returned index ++ result.1.getD [] := by
      simp only [Side.step, given]
      cases result.1 with
      | none => exact (List.append_nil _).symm
      | some out => exact Function.update_self _ _ _
    apply takes.aside rfl
    · intro other later known
      rw [step_session, steps] at known
      obtain ⟨rfl, old, before, rfl⟩ | ⟨apart, before⟩ := modify_cases known
      · obtain rfl := Option.some.inj (there.symm.trans before)
        rw [here, ← reads]
        apply (takes.reading other entry there).read
        · intro msg member
          exact takes.messages_filled _ msg ((takes.arrived other entry there).subset member)
        · intro closed
          exact takes.senderless there held (by simpa using closed)
      · rw [others other apart]
        exact takes.reading other later before
    · intro other past
      rw [others other]
      · exact takes.beyond other past
      · rintro rfl
        exact absurd (List.getElem?_eq_some_iff.mp there).1 (Nat.not_lt.mpr past)

/-- Reading the connection gives octets to the loop, or ends it. -/
theorem received_takes (takes : Takes side) (octets : Except IoError Bytes) :
    Takes (side.step (.received octets)) := by
  have unhandled : (side.step (.received octets)).handled = side.handled := List.append_nil _
  have faithful := faithful_step (.received octets) takes.faithful trivial
  have grows (result : (AnytlsRegistry.step side.session (.received octets)).result.isSome = true) :
      side.session.result.isSome = true ∨ cuts (.received octets) = true := by
    simp only [AnytlsRegistry.step, Session.received] at result
    split at result
    · exact .inl result
    · split at result
      · exact .inr rfl
      · exact .inr rfl
      · exact .inl result
  have keeps (result : side.session.result.isSome = true) :
      (AnytlsRegistry.step side.session (.received octets)).result.isSome = true := by
    have same : AnytlsRegistry.step side.session (.received octets) = side.session :=
      if_pos (.inl result)
    rw [same]
    exact result
  have shape : (AnytlsRegistry.step side.session (.received octets)).registry =
        side.session.registry ∧
      (AnytlsRegistry.step side.session (.received octets)).streams = side.session.streams := by
    simp only [AnytlsRegistry.step]
    obtain ⟨buf, steps⟩ | ⟨-, -, result, steps⟩ := received_cases side.session octets
    · rw [steps]
      exact ⟨rfl, rfl⟩
    · rw [steps]
      exact ⟨rfl, rfl⟩
  have returned : (side.step (.received octets)).returned = side.returned := rfl
  refine ⟨faithful, ?_, ?_, ?_, ?_, ?_, ?_, ?_, ?_⟩
  · rw [step_session, shape.1, shape.2]
    exact takes.known
  · rw [step_session, shape.1, shape.2, unhandled]
    exact takes.registered
  · rw [step_session, shape.2, unhandled]
    exact takes.due
  · rw [step_session, shape.2, unhandled]
    exact takes.arrived
  · rw [unhandled]
    exact takes.filled
  · rw [step_session, shape.2]
    intro index entry there
    exact (takes.reading index entry there).same rfl rfl rfl rfl keeps
  · rw [step_session, shape.2]
    exact takes.beyond
  · intro result
    rcases grows result with before | cut
    · simp only [Side.step, takes.uncut before, Bool.true_or]
    · simp only [Side.step, cut, Bool.or_true]

end Steps

section Frames

variable {side after : Side}

/-- A new stream gets nothing of what was handled before. -/
theorem Takes.register (takes : Takes side) {sid : UInt32} (held : Bool)
    (unused : ∀ (index : Nat) (entry : LocalStream), side.session.streams[index]? = some entry →
      entry.stream.sid ≠ sid)
    (faithful : Faithful after.ledger)
    (streams : after.session.streams = side.session.streams ++ [.new sid held])
    (registry : after.session.registry =
      Function.update side.session.registry sid (some side.session.streams.length))
    (due : after.ledger.due = side.ledger.due)
    (fins : ∀ frame ∈ side.handled, frame ∈ after.handled)
    (others : ∀ other, other ≠ sid →
      messagesFor other after.handled = messagesFor other side.handled)
    (nothing : messagesFor sid after.handled = [])
    (filled : ∀ frame ∈ after.handled, frame.cmd = cmdPsh → frame.data ≠ [])
    (returned : after.returned = side.returned)
    (result : after.session.result = side.session.result) (cut : after.cut = side.cut) :
    Takes after := by
  have fresh : side.ledger.due side.session.streams.length = [] :=
    takes.faithful.later _ (Nat.le_refl _)
  have old {index : Nat} {entry : LocalStream} (there : side.session.streams[index]? = some entry) :
      after.session.streams[index]? = some entry := by
    rw [streams, List.getElem?_append_left (List.getElem?_eq_some_iff.mp there).1, there]
  refine ⟨faithful, ?_, ?_, ?_, ?_, filled, ?_, ?_, ?_⟩
  · intro other index there
    rw [registry] at there
    by_cases same : other = sid
    · subst same
      rw [Function.update_self] at there
      obtain rfl := Option.some.inj there
      exact ⟨.new other held, by rw [streams, List.getElem?_concat_length], rfl⟩
    · rw [Function.update_of_ne same] at there
      obtain ⟨entry, known, own⟩ := takes.known other index there
      exact ⟨entry, old known, own⟩
  · intro index entry there more
    rw [streams] at there
    rw [registry]
    rcases append_cases there with known | ⟨rfl, rfl⟩
    · rw [Function.update_of_ne (unused index entry known)]
      exact takes.registered index entry known fun before => more (fins _ before)
    · exact Function.update_self _ _ _
  · intro index entry there
    rw [streams] at there
    rw [due]
    rcases append_cases there with known | ⟨rfl, rfl⟩
    · rw [others _ (unused index entry known)]
      exact takes.due index entry known
    · rw [fresh]
      exact nothing.symm
  · intro index entry there
    rw [streams] at there
    rcases append_cases there with known | ⟨rfl, rfl⟩
    · rw [others _ (unused index entry known)]
      exact takes.arrived index entry known
    · exact List.nil_prefix
  · intro index entry there
    rw [streams] at there
    rw [returned, result]
    rcases append_cases there with known | ⟨rfl, rfl⟩
    · exact takes.reading index entry known
    · rw [takes.beyond _ (Nat.le_refl _)]
      exact new_reading sid held _
  · intro index past
    rw [streams, List.length_append] at past
    rw [returned]
    exact takes.beyond index (by omega)
  · rw [result, cut]
    exact takes.uncut

/-- A frame that makes no stream brings its message to the stream of its number. -/
theorem Takes.handle (takes : Takes side) {frame : Frame} (expected : Expected side frame)
    (faithful : Faithful after.ledger) (handled : after.handled = side.handled ++ [frame])
    (length : after.session.streams.length = side.session.streams.length)
    (streams : ∀ (index : Nat) (later : LocalStream), after.session.streams[index]? = some later →
      ∃ entry, side.session.streams[index]? = some entry ∧
        later.stream.sid = entry.stream.sid ∧ Unread entry later)
    (registry : after.session.registry = if frame.cmd = cmdFin then
      Function.update side.session.registry frame.sid none else side.session.registry)
    (due : ∀ index, after.ledger.due index = side.ledger.due index ++
      if side.session.registry frame.sid = some index then (carried frame).toList else [])
    (returned : after.returned = side.returned)
    (result : after.session.result = side.session.result) (cut : after.cut = side.cut) :
    Takes after := by
  have messages (sid : UInt32) : messagesFor sid after.handled =
      messagesFor sid side.handled ++ if frame.sid = sid then (carried frame).toList else [] := by
    rw [handled, messages_for_snoc]
  refine ⟨faithful, ?_, ?_, ?_, ?_, ?_, ?_, ?_, ?_⟩
  · intro sid index there
    have before : side.session.registry sid = some index := by
      rw [registry] at there
      split at there
      · by_cases same : sid = frame.sid
        · simp [same] at there
        · rwa [Function.update_of_ne same] at there
      · exact there
    obtain ⟨entry, known, own⟩ := takes.known sid index before
    have inside := (List.getElem?_eq_some_iff.mp known).1
    rw [← length] at inside
    obtain ⟨found, place, same, -⟩ := streams index _ (List.getElem?_eq_getElem inside)
    obtain rfl := Option.some.inj (known.symm.trans place)
    exact ⟨_, List.getElem?_eq_getElem inside, same.trans own⟩
  · intro index later there more
    obtain ⟨entry, known, same, -⟩ := streams index later there
    rw [same] at more ⊢
    rw [handled, List.mem_append, List.mem_singleton, not_or] at more
    rw [registry]
    split
    · next fin =>
      rw [Function.update_of_ne]
      · exact takes.registered index entry known more.1
      · intro shared
        exact more.2 (shared ▸ (expected.closing fin).symm)
    · exact takes.registered index entry known more.1
  · intro index later there
    obtain ⟨entry, known, same, -⟩ := streams index later there
    rw [due, same, messages, takes.due index entry known]
    congr 1
    cases message : carried frame with
    | none => simp
    | some msg =>
      have open_ : finFrame frame.sid ∉ side.handled := by
        apply expected.last
        by_contra other
        rw [not_or] at other
        simp [carried, other.1, other.2] at message
      by_cases own : frame.sid = entry.stream.sid
      · have registered := takes.registered index entry known (own ▸ open_)
        rw [if_pos own, if_pos (own ▸ registered)]
      · rw [if_neg own, if_neg]
        intro registered
        obtain ⟨found, place, shared⟩ := takes.known frame.sid index registered
        obtain rfl := Option.some.inj (known.symm.trans place)
        exact own shared.symm
  · intro index later there
    obtain ⟨entry, known, same, unread⟩ := streams index later there
    rw [same, messages, unread.arrived]
    exact (takes.arrived index entry known).trans (List.prefix_append ..)
  · rw [handled]
    intro other member
    rcases List.mem_append.mp member with before | new
    · exact takes.filled other before
    · obtain rfl := List.mem_singleton.mp new
      exact expected.data
  · intro index later there
    obtain ⟨entry, known, -, unread⟩ := streams index later there
    rw [returned, result]
    exact (takes.reading index entry known).same unread.rx unread.leftover unread.eof
      unread.arrived id
  · rw [length, returned]
    exact takes.beyond
  · rw [result, cut]
    exact takes.uncut

/-- The loop repeats no number when the frames are what the other side may send. -/
theorem Takes.unrepeated (takes : Takes side) (expects : Expects side .loop) :
    Unrepeated side.ledger .loop := by
  intro frame consumed next syn accepted index entry registered there
  obtain ⟨-, -, fresh⟩ := (expects frame (handles_next next)).opening syn
  obtain ⟨found, known, own⟩ := takes.known frame.sid index registered
  obtain rfl := Option.some.inj (there.symm.trans known)
  exact absurd own (fresh.unused index entry there)

/-- Without a whole frame in its buffer the loop adds nothing to the account. -/
theorem account_idle {ledger : Ledger} (idle : ledger.session.next = none) :
    ledger.account .loop = ledger := by
  simp only [Ledger.account, idle]

/-- The loop accounts for the frame that it takes out of its buffer. -/
theorem account_frame {ledger : Ledger} {frame : Frame} {consumed : Nat}
    (next : ledger.session.next = some (frame, consumed)) :
    ledger.account .loop = ledger.note frame := by
  simp only [Ledger.account, next]

/-- A message is sent to its stream, or given up with it. -/
theorem deliver_streams (session : Session) (target : Nat) (msg : StreamMsg) (index : Nat)
    (later : LocalStream) (there : (session.deliver target msg).streams[index]? = some later) :
    session.streams[index]? = some later ∨
      ∃ entry, session.streams[index]? = some entry ∧ later = entry.receive msg ∧
        entry.held = true := by
  unfold Session.deliver at there
  split at there
  · exact .inl there
  · next found known =>
    split at there
    · exact .inl there
    · next held =>
      split at there
      · obtain ⟨rfl, entry, before, rfl⟩ | ⟨-, before⟩ := modify_cases there
        · obtain rfl := Option.some.inj (known.symm.trans before)
          exact .inr ⟨found, before, rfl, by simpa using held⟩
        · exact .inl before
      · exact .inl there

/-- Sending a message to its stream keeps what the streams get. -/
theorem deliver_takes (takes : Takes side) {target : Nat} {msg : StreamMsg}
    (sending : side.session.sending = some (target, msg)) : Takes (side.step .loop) := by
  have steps : AnytlsRegistry.step side.session .loop = side.session.deliver target msg :=
    read_loop_sending sending
  have idle : side.session.next = none := if_pos (.inr (by simp [sending]))
  have account : side.ledger.account .loop = side.ledger := account_idle idle
  have handled : (side.step .loop).handled = side.handled := by
    simp only [Side.step, handles, idle, Option.map_none, Option.toList_none, List.append_nil]
  have due : (side.step .loop).ledger.due = side.ledger.due := by
    change (side.ledger.account .loop).due = _
    rw [account]
  have faithful : Faithful (side.step .loop).ledger := by
    apply faithful_step .loop takes.faithful
    intro frame consumed next
    exact absurd (idle.symm.trans next) (by simp)
  have shape : (side.session.deliver target msg).registry = side.session.registry ∧
      (side.session.deliver target msg).result = side.session.result ∧
      (side.session.deliver target msg).streams.length = side.session.streams.length := by
    rcases deliver_cases side.session target msg with same | ⟨-, same⟩ | same
    · rw [same]
      exact ⟨rfl, rfl, rfl⟩
    · rw [same]
      exact ⟨rfl, rfl, rfl⟩
    · rw [same]
      exact ⟨rfl, rfl, List.length_modify ..⟩
  have before {index : Nat} {later : LocalStream}
      (there : (side.step .loop).session.streams[index]? = some later) :
      ∃ entry, side.session.streams[index]? = some entry ∧
        later.stream.sid = entry.stream.sid ∧
        (later = entry ∨ later = entry.receive msg ∧ entry.held = true) := by
    rw [step_session, steps] at there
    rcases deliver_streams side.session target msg index later there with
      same | ⟨entry, known, rfl, held⟩
    · exact ⟨later, same, rfl, .inl rfl⟩
    · exact ⟨entry, known, rfl, .inr ⟨rfl, held⟩⟩
  refine ⟨faithful, ?_, ?_, ?_, ?_, ?_, ?_, ?_, ?_⟩
  · intro sid index there
    rw [step_session, steps, shape.1] at there
    obtain ⟨entry, known, own⟩ := takes.known sid index there
    have inside := (List.getElem?_eq_some_iff.mp known).1
    rw [← shape.2.2, ← steps] at inside
    obtain ⟨found, place, same, -⟩ := before (List.getElem?_eq_getElem inside)
    obtain rfl := Option.some.inj (known.symm.trans place)
    exact ⟨_, List.getElem?_eq_getElem inside, same.trans own⟩
  · intro index later there more
    obtain ⟨entry, known, same, -⟩ := before there
    rw [handled, same] at more
    rw [step_session, steps, shape.1, same]
    exact takes.registered index entry known more
  · intro index later there
    obtain ⟨entry, known, same, -⟩ := before there
    rw [due, handled, same]
    exact takes.due index entry known
  · intro index later there
    obtain ⟨entry, known, same, rfl | ⟨rfl, held⟩⟩ := before there
    · rw [handled]
      exact takes.arrived index later known
    · have delivered := faithful.delivered index (entry.receive msg) there held
      rw [due, takes.due index entry known] at delivered
      rw [handled, same, ← delivered]
      exact List.prefix_append ..
  · rw [handled]
    exact takes.filled
  · intro index later there
    change Reading later (side.returned index) _
    rw [step_session, steps, shape.2.1]
    obtain ⟨entry, known, -, rfl | ⟨rfl, -⟩⟩ := before there
    · exact takes.reading index later known
    · exact (takes.reading index entry known).receive msg
  · rw [step_session, steps, shape.2.2]
    exact takes.beyond
  · rw [step_session, steps, shape.2.1]
    intro result
    simp only [Side.step, takes.uncut result, Bool.true_or]

/-- A frame that opens no stream is owed to the owner of its number. -/
theorem note_due {ledger : Ledger} {frame : Frame} (syn : frame.cmd ≠ cmdSyn) (index : Nat) :
    (ledger.note frame).due index =
      ledger.due index ++ if ledger.owner frame.sid = some index then (carried frame).toList
        else [] := by
  rw [Ledger.note, if_neg syn]
  by_cases psh : frame.cmd = cmdPsh
  · rw [if_pos psh, owe_due, carried, if_pos psh]
    split <;> simp
  · rw [if_neg psh]
    by_cases fin : frame.cmd = cmdFin
    · rw [if_pos fin]
      change (ledger.owe frame.sid .eof).due index = _
      rw [owe_due, carried, if_neg psh, if_pos fin]
      split <;> simp
    · rw [if_neg fin, carried, if_neg psh, if_neg fin]
      split <;> simp

/-- The loop rests when nothing waits for a stream and no frame is complete. -/
theorem loop_idle (sending : side.session.sending = none) (idle : side.session.next = none) :
    side.step .loop = side := by
  have account : side.ledger.account .loop = side.ledger := account_idle idle
  have ledger : side.ledger.step .loop = side.ledger := by
    change { side.ledger.account .loop with session := side.session.readLoop } = side.ledger
    rw [account, read_loop_idle sending idle]
    rfl
  simp only [Side.step, ledger, handles, idle, opens, accepts, hands, cuts, extended,
    Option.map_none, Option.toList_none, List.append_nil, Bool.or_false]

/-- A round of the loop brings a message to its stream, or handles the next frame. -/
theorem loop_takes (takes : Takes side) (expects : Expects side .loop) :
    Takes (side.step .loop) := by
  have cut : (side.step .loop).cut = side.cut := Bool.or_false _
  have returned : (side.step .loop).returned = side.returned := rfl
  rcases sending : side.session.sending with _ | ⟨target, msg⟩
  · have faithful := faithful_step .loop takes.faithful (takes.unrepeated expects)
    rcases next : side.session.next with _ | ⟨frame, consumed⟩
    · rw [loop_idle sending next]
      exact takes
    · have expected := expects frame (handles_next next)
      have handled : (side.step .loop).handled = side.handled ++ [frame] := by
        simp only [Side.step, handles_next next, Option.toList_some]
      have due : (side.step .loop).ledger.due = (side.ledger.note frame).due := by
        change (side.ledger.account .loop).due = _
        have account : side.ledger.account .loop = side.ledger.note frame := account_frame next
        rw [account]
      have steps : AnytlsRegistry.step side.session .loop = _ := read_loop_next next
      have owner : side.ledger.owner = side.session.registry := takes.faithful.owner
      have noteless (syn : frame.cmd ≠ cmdSyn) (index : Nat) :
          (side.ledger.note frame).due index = side.ledger.due index ++
            if side.session.registry frame.sid = some index then (carried frame).toList
            else [] := by
        rw [note_due syn, owner]
      generalize handles : Session.handleFrame _ frame = result at steps
      have outcome := handles ▸
        frame_handled { side.session with buf := side.session.buf.drop consumed } frame
      cases outcome with
      | refused error cause =>
        rcases cause with alert | ⟨syn, refuses⟩
        · exact absurd alert expected.unalarming
        · obtain ⟨-, accepted, -⟩ := expected.opening syn
          exact absurd refuses (by simpa [Session.refusesSyn] using accepted)
      | quiet gotSettings syn psh fin alert =>
        apply takes.handle expected faithful handled
        · rw [step_session, steps]
        · rw [step_session, steps]
          exact fun index later there => ⟨later, there, rfl, rfl, rfl, rfl, rfl⟩
        · rw [step_session, steps, if_neg fin]
        · intro index
          rw [due, noteless syn]
        · exact returned
        · rw [step_session, steps]
        · exact cut
      | psh cmd =>
        have syn : frame.cmd ≠ cmdSyn := by rw [cmd]; decide
        apply takes.handle expected faithful handled
        · rw [step_session, steps]
        · rw [step_session, steps]
          exact fun index later there => ⟨later, there, rfl, rfl, rfl, rfl, rfl⟩
        · rw [step_session, steps, if_neg (by rw [cmd]; decide)]
        · intro index
          rw [due, noteless syn]
        · exact returned
        · rw [step_session, steps]
        · exact cut
      | fin cmd =>
        have syn : frame.cmd ≠ cmdSyn := by rw [cmd]; decide
        apply takes.handle expected faithful handled
        · rw [step_session, steps]
          exact List.length_map ..
        · rw [step_session, steps]
          intro index later there
          obtain ⟨entry, known, rfl⟩ := Option.map_eq_some_iff.mp
            ((List.getElem?_map ..).symm.trans there)
          obtain ⟨stream, -, arrived, -⟩ := finish_rest frame.sid entry
          exact ⟨entry, known, congrArg _ stream, congrArg _ stream, congrArg _ stream,
            congrArg _ stream, arrived⟩
        · rw [step_session, steps, if_pos cmd]
        · intro index
          rw [due, noteless syn]
        · exact returned
        · rw [step_session, steps]
        · exact cut
      | syn cmd accepted =>
        obtain ⟨-, -, fresh⟩ := expected.opening cmd
        have silent : carried frame = none := by
          rw [carried, if_neg (by rw [cmd]; decide), if_neg (by rw [cmd]; decide)]
        have messages (sid : UInt32) :
            messagesFor sid (side.step .loop).handled = messagesFor sid side.handled := by
          rw [handled, messages_for_snoc, silent]
          simp
        apply takes.register side.session.isServer fresh.unused faithful
        · rw [step_session, steps]
          rfl
        · rw [step_session, steps]
          rfl
        · rw [due, Ledger.note, if_pos cmd]
          split <;> rfl
        · intro other member
          rw [handled]
          exact List.mem_append_left _ member
        · exact fun other _ => messages other
        · rw [messages]
          exact messages_for_nothing fresh.unhandled
        · rw [handled]
          intro other member
          rcases List.mem_append.mp member with before | new
          · exact takes.filled other before
          · obtain rfl := List.mem_singleton.mp new
            exact expected.data
        · exact returned
        · rw [step_session, steps]
          rfl
        · exact cut
  · exact deliver_takes takes sending

/-- An opening registers a stream that gets nothing of what was handled before. -/
theorem begin_open_takes (takes : Takes side) (target : ProxyTarget)
    (expects : Expects side (.beginOpen target)) : Takes (side.step (.beginOpen target)) := by
  have faithful := faithful_step (.beginOpen target) takes.faithful trivial
  by_cases free : side.session.handle ∧ side.session.opener.isNone
  · have opened : opens side.session (.beginOpen target) =
        some (side.session.streams.length, target) := if_pos free
    obtain ⟨-, -, fresh⟩ := expects (by simp [opened])
    have steps : AnytlsRegistry.step side.session (.beginOpen target) = _ := if_pos free
    have handled : (side.step (.beginOpen target)).handled = side.handled := List.append_nil _
    have due : (side.step (.beginOpen target)).ledger.due = side.ledger.due := by
      change (side.ledger.account (.beginOpen target)).due = _
      have account : side.ledger.account (.beginOpen target) = _ := if_pos free
      rw [account]
    apply takes.register true fresh.unused faithful
    · rw [step_session, steps]
      rfl
    · rw [step_session, steps]
      rfl
    · exact due
    · rw [handled]
      exact fun frame member => member
    · rw [handled]
      exact fun other _ => rfl
    · rw [handled]
      exact messages_for_nothing fresh.unhandled
    · rw [handled]
      exact takes.filled
    · rfl
    · rw [step_session, steps]
      rfl
    · exact Bool.or_false _
  · have steps : AnytlsRegistry.step side.session (.beginOpen target) = side.session := if_neg free
    have account : side.ledger.account (.beginOpen target) = side.ledger := if_neg free
    have unopened : opens side.session (.beginOpen target) = none := if_neg free
    have same : side.step (.beginOpen target) = side := by
      change Side.mk { side.ledger.account (.beginOpen target) with
        session := AnytlsRegistry.step side.session (.beginOpen target) } _ _ _ _ _ = _
      rw [steps, account, unopened]
      simp only [handles, accepts, hands, cuts, extended, Option.toList_none, List.append_nil,
        Bool.or_false]
      rfl
    rw [same]
    exact takes

/-- Every step that meets what a side needs keeps what its streams get. -/
theorem step_takes (takes : Takes side) (event : Event) (expects : Expects side event) :
    Takes (side.step event) := by
  cases event with
  | received octets => exact received_takes takes octets
  | loop => exact loop_takes takes expects
  | beginOpen target => exact begin_open_takes takes target expects
  | read index size => exact read_takes takes index size
  | _ => exact takes.unread rfl rfl (own_unread side.session rfl (by simp))

end Frames

end OmniProxy.AnytlsIntake
