import OmniProxy.AnytlsProgress
import OmniProxy.AnytlsTasks
import OmniProxy.Interleavings
import OmniProxy.ListUpdates

/-!
# Delivery of the streams of an AnyTLS session

Every stream of a client reaches its reader intact, whatever the other streams do. The
frames that have not been handled determine what is to come for each stream. A round of
the loop moves a message from them to the queue of its stream and leaves what is ahead
of the stream's task unchanged; the other steps concern one task alone. When nothing can
move any more, nothing is ahead and everything has been read.
-/

namespace OmniProxy.AnytlsDelivery

open AnytlsFrames AnytlsProgress AnytlsSession AnytlsStreams AnytlsTasks ByteStrings GuardedRuns
open Interleavings ListUpdates ProxyTargets

section Invariant

/-- A stream that was not opened: all its frames are to come. -/
structure Unopened (client : ClientStream) (session : Session) (todo : List Frame) : Prop where
  coming : framesOf client.sid todo = client.frames
  unregistered : session.registry client.sid = none
  unrouted : session.routesOf client.sid = []

/-- A stream with a task: what is to come are frames of messages, and it is registered
while there are any. -/
structure Opened (client : ClientStream) (session : Session) (todo : List Frame) (index : Nat)
    (task : StreamTask) (later : List StreamMsg) : Prop where
  own : task.stream.sid = client.sid
  coming : framesOf client.sid todo = later.map (frameOf client.sid)
  registered : session.registry client.sid = if later = [] then none else some index
  serves : Serves client task (task.stream.rx ++ later) (session.routesOf client.sid)

/-- A step does not concern a number: its frames to come, its registration and the calls of
the route for it are as before. -/
structure Untouched (sid : UInt32) (session : Session) (todo : List Frame) (changed : Session)
    (left : List Frame) : Prop where
  frames : framesOf sid left = framesOf sid todo
  registry : changed.registry sid = session.registry sid
  routes : changed.routesOf sid = session.routesOf sid

/-- The frames not handled yet are those of the clients' streams, and every stream is
unopened or served by its own task. -/
structure Carried (clients : List ClientStream) (session : Session) (todo : List Frame) :
    Prop where
  arriving : session.buf ++ joined session.incoming =
    encodeAll (if session.gotSettings then todo else settingsFrame :: todo)
  fit : ∀ frame ∈ todo, frame.fits
  known : ∀ frame ∈ todo, ∃ client ∈ clients, client.sid = frame.sid
  running : session.result = none ∨ todo = []
  distinct : session.sids.Nodup
  routed : ∀ route ∈ session.routes, ∃ client ∈ clients, client.sid = route.1
  unopened : ∀ client ∈ clients, client.sid ∉ session.sids →
    Unopened client session todo
  opened : ∀ index task, session.tasks[index]? = some task →
    ∃ client ∈ clients, ∃ later, Opened client session todo index task later

variable {clients : List ClientStream} {session changed : Session} {todo left : List Frame}

/-- A stream that is not opened stays so when a step handles no frame of its number. -/
theorem Unopened.kept {client : ClientStream} (unopened : Unopened client session todo)
    (untouched : Untouched client.sid session todo changed left) :
    Unopened client changed left where
  coming := untouched.frames.trans unopened.coming
  unregistered := untouched.registry.trans unopened.unregistered
  unrouted := untouched.routes.trans unopened.unrouted

/-- An opened stream stays so when a step handles no frame of its number. -/
theorem Opened.kept {client : ClientStream} {index : Nat} {task : StreamTask}
    {later : List StreamMsg} (opened : Opened client session todo index task later)
    (untouched : Untouched client.sid session todo changed left) :
    Opened client changed left index task later where
  own := opened.own
  coming := untouched.frames.trans opened.coming
  registered := untouched.registry.trans opened.registered
  serves := by
    rw [untouched.routes]
    exact opened.serves

/-- A task that keeps its number leaves the numbers as they are. -/
theorem sids_set {index : Nat} {task after : StreamTask}
    (there : session.tasks[index]? = some task) (own : after.stream.sid = task.stream.sid) :
    (session.tasks.set index after).map (fun task => task.stream.sid) = session.sids := by
  rw [Session.sids, List.map_set, own]
  obtain ⟨inside, rfl⟩ := List.getElem?_eq_some_iff.mp there
  have place : index < (session.tasks.map fun task => task.stream.sid).length := by
    rw [List.length_map]
    exact inside
  rw [← List.getElem_map (fun task : StreamTask => task.stream.sid) (h := place),
    List.set_getElem_self]

/-- A task's stream has its own number. -/
theorem Carried.apart (carried : Carried clients session todo) {index other : Nat}
    {task foreign : StreamTask} (there : session.tasks[index]? = some task)
    (found : session.tasks[other]? = some foreign) (different : other ≠ index) :
    foreign.stream.sid ≠ task.stream.sid := by
  intro same
  exact different (place_of_key (fun task : StreamTask => task.stream.sid) carried.distinct
    there found same)

/-- A queue without a sender gets no more messages. -/
theorem Carried.sender (carried : Carried clients session todo) {client : ClientStream}
    {index : Nat} {task : StreamTask} {later : List StreamMsg}
    (opened : Opened client session todo index task later) :
    session.closed index task = true → later = [] := by
  intro closed
  by_contra coming
  have registered := opened.registered
  rw [if_neg coming, ← opened.own] at registered
  rcases carried.running with running | finished
  · simp [Session.closed, running, registered] at closed
  · have frames := opened.coming
    rw [finished] at frames
    exact coming (List.map_eq_nil_iff.mp frames.symm)

/-- One task changes, with the frames, the registration and the routes of its stream. The
other streams are not concerned. -/
theorem Carried.replace (carried : Carried clients session todo) {index : Nat}
    {task after : StreamTask} (there : session.tasks[index]? = some task)
    (own : after.stream.sid = task.stream.sid)
    (tasks : changed.tasks = session.tasks.set index after)
    (others : ∀ sid ≠ task.stream.sid, Untouched sid session todo changed left)
    (arriving : changed.buf ++ joined changed.incoming =
      encodeAll (if changed.gotSettings then left else settingsFrame :: left))
    (subset : ∀ frame ∈ left, frame ∈ todo)
    (running : changed.result = none ∨ left = [])
    (routed : ∀ route ∈ changed.routes, route ∈ session.routes ∨ route.1 = task.stream.sid)
    {host : ClientStream} (among : host ∈ clients) {ahead : List StreamMsg}
    (opened : Opened host changed left index after ahead) :
    Carried clients changed left := by
  have sids : changed.sids = session.sids := by rw [Session.sids, tasks, sids_set there own]
  have member : task.stream.sid ∈ session.sids :=
    List.mem_map.mpr ⟨task, List.mem_of_getElem? there, rfl⟩
  exact {
    arriving
    fit := fun frame coming => carried.fit frame (subset frame coming)
    known := fun frame coming => carried.known frame (subset frame coming)
    running
    distinct := by rw [sids]; exact carried.distinct
    routed := by
      intro route called
      rcases routed route called with before | fresh
      · exact carried.routed route before
      · exact ⟨host, among, by rw [fresh, ← own, opened.own]⟩
    unopened := by
      intro client known absent
      rw [sids] at absent
      have foreign : client.sid ≠ task.stream.sid := fun same => absent (same ▸ member)
      exact (carried.unopened client known absent).kept (others _ foreign)
    opened := by
      intro other found atOther
      rw [tasks] at atOther
      obtain ⟨rfl, rfl⟩ | ⟨apart, old⟩ := set_cases atOther
      · exact ⟨host, among, ahead, opened⟩
      · obtain ⟨client, known, later, before⟩ := carried.opened other found old
        have foreign : client.sid ≠ task.stream.sid := by
          rw [← before.own]
          exact carried.apart there old apart
        exact ⟨client, known, later, before.kept (others _ foreign)⟩ }

/-- The routes of a stream after one more call. -/
theorem routes_of_called (sid other : UInt32) (target : Option ProxyTarget)
    (tasks : List StreamTask) :
    Session.routesOf { session with
        tasks, routes := session.routes ++ target.toList.map (sid, ·) } other =
      session.routesOf other ++ if sid = other then target.toList else [] := by
  simp only [Session.routesOf, List.filter_append, List.map_append]
  congr 1
  cases target with
  | none => simp
  | some target =>
    by_cases same : sid = other
    · simp [same]
    · simp [same]

/-- One task changes and calls the route at most once. -/
theorem Carried.taskStep (carried : Carried clients session todo) {index : Nat}
    {task after : StreamTask} (there : session.tasks[index]? = some task)
    (own : after.stream.sid = task.stream.sid) (target : Option ProxyTarget)
    (served : ∀ client ∈ clients, ∀ later,
      (session.closed index task = true → later = []) →
      Serves client task (task.stream.rx ++ later) (session.routesOf client.sid) →
      Serves client after (after.stream.rx ++ later)
        (session.routesOf client.sid ++ target.toList)) :
    Carried clients { session with
      tasks := session.tasks.set index after
      routes := session.routes ++ target.toList.map (task.stream.sid, ·) } todo := by
  obtain ⟨client, known, later, opened⟩ := carried.opened index task there
  apply carried.replace there own
  case among => exact known
  case ahead => exact later
  · rfl
  · intro sid foreign
    refine ⟨rfl, rfl, ?_⟩
    rw [routes_of_called, if_neg (Ne.symm foreign), List.append_nil]
  · exact carried.arriving
  · exact fun _ coming => coming
  · exact carried.running
  · intro route called
    rcases List.mem_append.mp called with before | fresh
    · exact .inl before
    · obtain ⟨called, -, rfl⟩ := List.mem_map.mp fresh
      exact .inr rfl
  · refine ⟨own.trans opened.own, opened.coming, opened.registered, ?_⟩
    rw [routes_of_called, if_pos opened.own]
    exact served client known later (carried.sender opened) opened.serves

end Invariant

section Steps

variable {clients : List ClientStream} {session : Session} {todo : List Frame}

/-- A round of a task keeps every stream carried. -/
theorem step_task (named : ∀ client ∈ clients, client.target.named)
    (carried : Carried clients session todo) (index : Nat) :
    Carried clients (step session (.task index)) todo := by
  cases there : session.tasks[index]? with
  | none =>
    rw [step_task_none there]
    exact carried
  | some task =>
    rw [step_task_some there]
    apply carried.taskStep there
    · exact round_sid task _
    · intro client known later sender serves
      exact serves.round (named client known) sender

/-- A read keeps every stream carried. -/
theorem step_read (carried : Carried clients session todo) (index size : Nat) :
    Carried clients (step session (.read index size)) todo := by
  cases there : session.tasks[index]? with
  | none =>
    rw [step_read_none there]
    exact carried
  | some task =>
    rw [step_read_some there]
    have changed := carried.taskStep there (read_sid task (session.closed index task) size) none
      (by
        intro client known later sender serves
        rw [Option.toList_none, List.append_nil]
        exact serves.read size sender)
    rwa [Option.toList_none, List.map_nil, List.append_nil] at changed

/-- A step that changes no stream keeps every stream carried. -/
theorem Carried.aside (carried : Carried clients session todo) {changed : Session}
    (registry : changed.registry = session.registry) (tasks : changed.tasks = session.tasks)
    (routes : changed.routes = session.routes)
    (arriving : changed.buf ++ joined changed.incoming =
      encodeAll (if changed.gotSettings then todo else settingsFrame :: todo))
    (running : changed.result = none ∨ todo = []) : Carried clients changed todo := by
  have sids : changed.sids = session.sids := by rw [Session.sids, Session.sids, tasks]
  have untouched (sid : UInt32) : Untouched sid session todo changed todo :=
    ⟨rfl, by rw [registry], by rw [Session.routesOf, Session.routesOf, routes]⟩
  exact {
    arriving
    fit := carried.fit
    known := carried.known
    running
    distinct := by rw [sids]; exact carried.distinct
    routed := by rw [routes]; exact carried.routed
    unopened := by
      intro client known absent
      rw [sids] at absent
      exact (carried.unopened client known absent).kept (untouched _)
    opened := by
      intro index task there
      rw [tasks] at there
      obtain ⟨client, known, later, before⟩ := carried.opened index task there
      exact ⟨client, known, later, before.kept (untouched _)⟩ }

/-- What has not been handled: the settings until they are, then the frames of the
streams. -/
theorem pending_cases (carried : Carried clients session todo) :
    (session.gotSettings = true ∧ todo = [] ∧ session.buf = [] ∧ session.incoming = []) ∨
      ∃ frame rest, frame.fits ∧
        session.buf ++ joined session.incoming = encodeAll (frame :: rest) ∧
        ((session.gotSettings = false ∧ frame = settingsFrame ∧ rest = todo) ∨
          (session.gotSettings = true ∧ todo = frame :: rest)) := by
  have arriving := carried.arriving
  cases got : session.gotSettings with
  | false =>
    rw [got] at arriving
    exact .inr ⟨settingsFrame, todo, settings_fits, arriving, .inl ⟨rfl, rfl, rfl⟩⟩
  | true =>
    rw [got, if_pos rfl] at arriving
    cases todo with
    | nil =>
      obtain ⟨buffered, reads⟩ := List.append_eq_nil_iff.mp arriving
      refine .inl ⟨rfl, rfl, buffered, ?_⟩
      cases incoming : session.incoming with
      | nil => rfl
      | cons octets incoming =>
        rw [incoming, joined, List.map_cons, List.flatten_cons] at reads
        exact absurd (List.append_eq_nil_iff.mp reads).1 octets.property.1
    | cons frame rest =>
      exact .inr ⟨frame, rest, carried.fit frame List.mem_cons_self, arriving,
        .inr ⟨rfl, rfl⟩⟩

/-- The connection ends only when all frames have been handled. -/
theorem step_close (carried : Carried clients session todo) :
    Carried clients (step session .close) todo := by
  rw [step, Session.close]
  split
  · exact carried
  · obtain ⟨got, rfl, buffered, reads⟩ | ⟨frame, rest, fits, arriving, -⟩ := pending_cases carried
    · have none_there : tryDecode [] = .needMore := rfl
      have arriving := carried.arriving
      rw [buffered, reads] at arriving
      simp only [buffered, reads, none_there]
      rw [if_pos List.isEmpty_nil]
      exact carried.aside rfl rfl rfl arriving (.inr rfl)
    · obtain ⟨waits, more⟩ | ⟨consumed, taken, -⟩ :=
        try_decode_stream frame fits rest session.buf (joined session.incoming) arriving
      · cases incoming : session.incoming with
        | nil => exact absurd (by rw [incoming]; rfl) more
        | cons octets incoming =>
          simp only [waits]
          exact carried
      · simp only [taken]
        exact carried

end Steps

section Loop

variable {clients : List ClientStream} {session : Session} {frame : Frame} {rest : List Frame}

/-- The opening frame of a stream adds its task. -/
theorem handle_syn (sid : UInt32) (got : session.gotSettings = true) :
    session.handle true (.new cmdSyn sid) =
      { session with
        registry := Function.update session.registry sid (some session.tasks.length)
        tasks := session.tasks ++ [⟨.new sid, .addressing []⟩] } := by
  simp [Session.handle, Frame.new, got, cmdWaste, cmdSettings, cmdSyn]

/-- A frame of a stream that has no task opens it. -/
theorem Carried.syn (carried : Carried clients session (frame :: rest)) (consumed : Nat)
    (got : session.gotSettings = true) (running : session.result = none)
    (arriving : session.buf.drop consumed ++ joined session.incoming = encodeAll rest)
    {client : ClientStream} (known : client ∈ clients) (own : frame.sid = client.sid)
    (absent : client.sid ∉ session.sids) :
    Carried clients (Session.handle { session with buf := session.buf.drop consumed } true frame)
      rest := by
  have unopened := carried.unopened client known absent
  have coming := unopened.coming
  rw [frames_of_own own, frames_of_messages, List.cons.injEq] at coming
  obtain ⟨rfl, later⟩ := coming
  have distinct : (session.sids ++ [client.sid]).Nodup :=
    List.Nodup.append carried.distinct (List.nodup_singleton _)
      (List.disjoint_singleton.mpr absent)
  have sids : (session.tasks ++ [StreamTask.mk (.new client.sid) (.addressing [])]).map
      (fun task => task.stream.sid) = session.sids ++ [client.sid] := by
    rw [List.map_append]
    rfl
  rw [handle_syn client.sid (by exact got)]
  have untouched (sid : UInt32) (foreign : sid ≠ client.sid) :
      Untouched sid session (.new cmdSyn client.sid :: rest)
        { session with
          buf := session.buf.drop consumed
          registry := Function.update session.registry client.sid (some session.tasks.length)
          tasks := session.tasks ++ [⟨.new client.sid, .addressing []⟩] } rest :=
    ⟨(frames_of_other (Ne.symm foreign)).symm, Function.update_of_ne foreign _ _, rfl⟩
  exact {
    arriving := by simpa only [got, if_true] using arriving
    fit := fun other member => carried.fit other (List.mem_cons_of_mem _ member)
    known := fun other member => carried.known other (List.mem_cons_of_mem _ member)
    running := .inl running
    distinct := by rw [Session.sids, sids]; exact distinct
    routed := carried.routed
    unopened := by
      intro other among missing
      rw [Session.sids, sids, List.mem_append, List.mem_singleton, not_or] at missing
      exact (carried.unopened other among missing.1).kept (untouched _ missing.2)
    opened := by
      intro index task there
      rcases append_cases there with old | ⟨rfl, rfl⟩
      · obtain ⟨other, among, further, before⟩ := carried.opened index task old
        have foreign : other.sid ≠ client.sid := by
          rintro same
          apply absent
          rw [← same, ← before.own]
          exact List.mem_map.mpr ⟨task, List.mem_of_getElem? old, rfl⟩
        exact ⟨other, among, further, before.kept (untouched _ foreign)⟩
      · refine ⟨client, known, messagesOf client, rfl, later, ?_, ?_⟩
        · rw [if_neg (by simp [messagesOf])]
          exact Function.update_self _ _ _
        · have waiting : Serves client ⟨.new client.sid, .addressing []⟩ (messagesOf client)
              (session.routesOf client.sid) := by
            rw [unopened.unrouted]
            exact .waiting _ rfl rfl
          exact waiting }

/-- A message of a registered stream goes into the queue of its task. -/
theorem send_to_registered {sid : UInt32} {index : Nat} {task : StreamTask} (msg : StreamMsg)
    (registered : session.registry sid = some index)
    (there : session.tasks[index]? = some task) :
    session.sendTo sid msg =
      { session with tasks := session.tasks.set index (task.send msg) } := by
  have same : session.tasks.modify index (·.send msg) =
      session.tasks.set index (task.send msg) := by
    apply List.ext_getElem?
    intro place
    by_cases here : index = place
    · subst here
      rw [List.getElem?_modify_eq, there,
        List.getElem?_set_self (List.getElem?_eq_some_iff.mp there).1]
      rfl
    · rw [List.getElem?_modify_ne _ _ here, List.getElem?_set_ne here]
  simp only [Session.sendTo, registered, same]

/-- The frame of a message that is to come: it is sent, and the last one ends the
registration. -/
theorem handle_message (session : Session) {sid : UInt32} {index : Nat} {task : StreamTask}
    {msg : StreamMsg} {later : List StreamMsg}
    (kind : (∃ data, msg = .data data ∧ data ≠ [] ∧ later ≠ []) ∨ (msg = .eof ∧ later = []))
    (registered : session.registry sid = some index)
    (there : session.tasks[index]? = some task) :
    session.handle true (frameOf sid msg) =
      { session with
        tasks := session.tasks.set index (task.send msg)
        registry := Function.update session.registry sid
          (if later = [] then none else some index) } := by
  obtain ⟨data, rfl, nonempty, more⟩ | ⟨rfl, rfl⟩ := kind
  · have kept : Function.update session.registry sid (some index) = session.registry := by
      rw [← registered, Function.update_eq_self]
    rw [if_neg more, kept, ← send_to_registered _ registered there]
    simp [Session.handle, frameOf, nonempty, cmdWaste, cmdSettings, cmdSyn, cmdPsh]
  · simp only [Session.handle, frameOf, finFrame, Frame.new, send_to_registered _ registered there]
    rfl

/-- A frame of a stream that has a task puts a message into its queue. -/
theorem Carried.message (carried : Carried clients session (frame :: rest)) (consumed : Nat)
    (got : session.gotSettings = true) (running : session.result = none)
    (arriving : session.buf.drop consumed ++ joined session.incoming = encodeAll rest)
    {index : Nat} {task : StreamTask} (there : session.tasks[index]? = some task)
    (own : frame.sid = task.stream.sid) :
    Carried clients (Session.handle { session with buf := session.buf.drop consumed } true frame)
      rest := by
  obtain ⟨client, known, later, opened⟩ := carried.opened index task there
  have coming := opened.coming
  rw [frames_of_own (own.trans opened.own)] at coming
  cases later with
  | nil => simp at coming
  | cons msg later =>
    rw [List.map_cons, List.cons.injEq] at coming
    obtain ⟨rfl, left⟩ := coming
    have registered : session.registry client.sid = some index := by
      rw [opened.registered, if_neg (List.cons_ne_nil _ _)]
    rw [handle_message { session with buf := session.buf.drop consumed } opened.serves.coming
      registered there]
    apply carried.replace there (send_sid task msg)
    case among => exact known
    case ahead => exact later
    · rfl
    · intro sid foreign
      refine ⟨(frames_of_other ?_).symm, ?_, rfl⟩
      · rw [own]
        exact Ne.symm foreign
      · rw [opened.own] at foreign
        exact Function.update_of_ne foreign _ _
    · simpa only [got, if_true] using arriving
    · exact fun _ member => List.mem_cons_of_mem _ member
    · exact .inl running
    · exact fun _ called => .inl called
    · refine ⟨(send_sid task msg).trans opened.own, left, ?_, opened.serves.send⟩
      exact Function.update_self _ _ _

/-- The settings frame only marks that the settings came; no stream is touched. -/
theorem handle_settings :
    session.handle true settingsFrame = { session with gotSettings := true } := by
  simp [Session.handle, settingsFrame, cmdWaste, cmdSettings]

/-- A round of the loop keeps every stream carried, with the frames that are left. -/
theorem step_loop (todo : List Frame) (carried : Carried clients session todo) :
    ∃ left, Carried clients (step session .loop) left := by
  rw [step, Session.readLoop]
  split
  · exact ⟨todo, carried⟩
  · rename_i returned
    have running : session.result = none := by simpa using returned
    obtain ⟨got, rfl, buffered, reads⟩ | ⟨frame, rest, fits, arriving, kind⟩ :=
      pending_cases carried
    · have none_there : tryDecode [] = .needMore := rfl
      simp only [buffered, reads, none_there]
      exact ⟨[], carried⟩
    · obtain ⟨waits, more⟩ | ⟨consumed, taken, left⟩ :=
        try_decode_stream frame fits rest session.buf (joined session.incoming) arriving
      · simp only [waits]
        cases incoming : session.incoming with
        | nil => exact absurd (by rw [incoming]; rfl) more
        | cons octets incoming =>
          refine ⟨todo, carried.aside rfl rfl rfl ?_ (.inl running)⟩
          rw [← carried.arriving, incoming, List.append_assoc]
          rfl
      · simp only [taken]
        obtain ⟨got, rfl, rfl⟩ | ⟨got, rfl⟩ := kind
        · rw [handle_settings]
          exact ⟨rest, carried.aside rfl rfl rfl left (.inl running)⟩
        · refine ⟨rest, ?_⟩
          obtain ⟨client, known, own⟩ := carried.known frame List.mem_cons_self
          by_cases present : client.sid ∈ session.sids
          · obtain ⟨task, among, owner⟩ := List.mem_map.mp present
            obtain ⟨index, there⟩ := List.mem_iff_getElem?.mp among
            exact carried.message consumed got running left there (own.symm.trans owner.symm)
          · exact carried.syn consumed got running left known own.symm present

/-- Every step keeps every stream carried. -/
theorem step_carried (named : ∀ client ∈ clients, client.target.named) (event : Event)
    (carried : ∃ todo, Carried clients session todo) :
    ∃ todo, Carried clients (step session event) todo := by
  obtain ⟨todo, carried⟩ := carried
  cases event with
  | loop => exact step_loop todo carried
  | close => exact ⟨todo, step_close carried⟩
  | task index => exact ⟨todo, step_task named carried index⟩
  | read index size => exact ⟨todo, step_read carried index size⟩

end Loop

section Outcome

/-- Streams of a client that are sent at the same time: their numbers differ, their
targets can be sent, and their frames are interleaved. -/
structure Sent (clients : List ClientStream) (frames : List Frame) : Prop where
  distinct : (clients.map ClientStream.sid).Nodup
  named : ∀ client ∈ clients, client.target.named
  interleaved : Interleaving (clients.map ClientStream.frames) frames

/-- A cutting of what the client sends into reads. -/
def CutInto (frames : List Frame) (reads : List Read) : Prop :=
  joined reads = encodeAll (settingsFrame :: frames)

variable {clients : List ClientStream} {frames : List Frame}

/-- An interleaving has the frames of every stream in their order. -/
theorem Sent.own (sent : Sent clients frames) {client : ClientStream} (known : client ∈ clients) :
    framesOf client.sid frames = client.frames := by
  obtain ⟨place, there⟩ := List.mem_iff_getElem?.mp known
  apply sent.interleaved.filter _ place
  · rw [List.getElem?_map, there]
    rfl
  · intro frame member
    exact decide_eq_true (frames_sid client frame member)
  · intro index other apart found frame member
    rw [List.getElem?_map, Option.map_eq_some_iff] at found
    obtain ⟨foreign, atIndex, rfl⟩ := found
    intro same
    apply apart
    apply place_of_key ClientStream.sid sent.distinct there atIndex
    rw [← frames_sid foreign frame member, of_decide_eq_true same]

/-- At the start every stream is carried. -/
theorem start_carried (sent : Sent clients frames) {reads : List Read}
    (cut : CutInto frames reads) : Carried clients (.start reads) frames where
  arriving := cut
  fit := by
    intro frame member
    obtain ⟨list, among, inside⟩ := sent.interleaved.mem member
    obtain ⟨client, known, rfl⟩ := List.mem_map.mp among
    exact frames_fit client (sent.named client known) frame inside
  known := by
    intro frame member
    obtain ⟨list, among, inside⟩ := sent.interleaved.mem member
    obtain ⟨client, known, rfl⟩ := List.mem_map.mp among
    exact ⟨client, known, (frames_sid client frame inside).symm⟩
  running := .inl rfl
  distinct := List.nodup_nil
  routed := by
    intro route called
    simp [Session.start] at called
  unopened client known _ := ⟨sent.own known, rfl, rfl⟩
  opened := by
    intro index task there
    simp [Session.start] at there

/-- What a stream has led to so far: nothing, or one call of the route with its target and
a reader that has read part of what was written. The reader has seen the end only after
all of it, when the stream is closed. -/
def SoFar (client : ClientStream) (session : Session) : Prop :=
  (session.routesOf client.sid = [] ∧ session.readersOf client.sid = []) ∨
    ∃ consumed ended, session.routesOf client.sid = [client.target] ∧
      session.readersOf client.sid = [(consumed, ended)] ∧ consumed <+: client.written ∧
      (ended = true → consumed = client.written ∧ session.registry client.sid = none)

/-- A stream was delivered: one call of the route with its target, and a reader that has
read exactly what was written and has seen the end. -/
def Delivered (client : ClientStream) (session : Session) : Prop :=
  session.routesOf client.sid = [client.target] ∧
    session.readersOf client.sid = [(client.written, true)]

/-- Nothing moves any more, though the connection may stay. -/
def Settled (session : Session) : Prop :=
  session.readLoop = session ∧ (∀ index, step session (.task index) = session) ∧
    ∀ index size, step session (.read index size) = session

section Readers

variable {session : Session} {todo : List Frame} {client : ClientStream}

/-- The readers of a stream are those of its task. -/
theorem readers_of_task (carried : Carried clients session todo) {task : StreamTask}
    (member : task ∈ session.tasks) :
    session.readersOf task.stream.sid = task.reader?.toList := by
  have only := filter_of_key (fun task : StreamTask => task.stream.sid) carried.distinct member
  rw [Session.readersOf, only]
  cases reader : task.reader? <;> simp [reader]

/-- A stream without a task has no readers. -/
theorem readers_of_absent {sid : UInt32} (absent : sid ∉ session.sids) :
    session.readersOf sid = [] := by
  have none_there : session.tasks.filter (fun task => task.stream.sid = sid) = [] := by
    rw [List.filter_eq_nil_iff]
    intro task member same
    exact absent (List.mem_map.mpr ⟨task, member, of_decide_eq_true same⟩)
  rw [Session.readersOf, none_there, List.filterMap_nil]

/-- A stream that has a task is served by it. -/
theorem Carried.host (carried : Carried clients session todo)
    (distinct : (clients.map ClientStream.sid).Nodup) (known : client ∈ clients)
    (present : client.sid ∈ session.sids) :
    ∃ index task later, session.tasks[index]? = some task ∧
      Opened client session todo index task later := by
  obtain ⟨task, member, owner⟩ := List.mem_map.mp present
  obtain ⟨index, there⟩ := List.mem_iff_getElem?.mp member
  obtain ⟨other, among, later, opened⟩ := carried.opened index task there
  have same : other = client :=
    List.inj_on_of_nodup_map distinct among known (opened.own.symm.trans owner)
  subst same
  exact ⟨index, task, later, there, opened⟩

/-- Each client stream of a carried session has led to what its frames allow so far. -/
theorem carried_so_far (carried : Carried clients session todo)
    (distinct : (clients.map ClientStream.sid).Nodup) (known : client ∈ clients) :
    SoFar client session := by
  by_cases present : client.sid ∈ session.sids
  · obtain ⟨index, task, later, there, own, -, registered, serves⟩ :=
      carried.host distinct known present
    have readers := readers_of_task carried (List.mem_of_getElem? there)
    rw [own] at readers
    unfold SoFar
    rw [readers]
    generalize ahead : task.stream.rx ++ later = messages at serves
    generalize called : session.routesOf client.sid = routes at serves
    cases serves with
    | waiting stream fresh more => exact .inl ⟨rfl, rfl⟩
    | addressed stream fresh more => exact .inl ⟨rfl, rfl⟩
    | flowing stream pushedBack consumed chunks returned more useful nonempty exact =>
      refine .inr ⟨consumed, false, rfl, rfl, ?_, by simp⟩
      exact ⟨_, by rw [← exact, List.append_assoc]⟩
    | ended stream pushedBack ended returned last fresh =>
      refine .inr ⟨client.written, ended, rfl, rfl, List.prefix_refl _, fun _ => ⟨rfl, ?_⟩⟩
      rw [registered, if_pos (List.append_eq_nil_iff.mp ahead).2]
  · have unrouted := (carried.unopened client known present).unrouted
    exact .inl ⟨unrouted, readers_of_absent present⟩

/-- Handling a frame leaves the octets that were not taken. -/
theorem handle_buf (isServer : Bool) (frame : Frame) :
    (session.handle isServer frame).buf = session.buf := by
  have sent (sid : UInt32) (msg : StreamMsg) : (session.sendTo sid msg).buf = session.buf := by
    unfold Session.sendTo
    split <;> rfl
  unfold Session.handle
  repeat' split
  all_goals first | rfl | exact sent _ _

/-- When the loop does not move, all frames have been handled. -/
theorem settled_loop (carried : Carried clients session todo)
    (settled : session.readLoop = session) : todo = [] := by
  rcases carried.running with running | finished
  · obtain ⟨-, finished, -, -⟩ | ⟨frame, rest, fits, arriving, -⟩ := pending_cases carried
    · exact finished
    · exfalso
      obtain ⟨waits, more⟩ | ⟨consumed, taken, -⟩ :=
        try_decode_stream frame fits rest session.buf (joined session.incoming) arriving
      · cases incoming : session.incoming with
        | nil => exact more (by rw [incoming]; rfl)
        | cons octets incoming =>
          simp only [Session.readLoop, running, waits, incoming, Option.isSome_none,
            Bool.false_eq_true, if_false] at settled
          have kept := congrArg Session.buf settled
          exact octets.property.1 (List.append_right_eq_self.mp kept)
      · simp only [Session.readLoop, running, taken, Option.isSome_none, Bool.false_eq_true,
          if_false] at settled
        have kept := congrArg (fun session => session.buf.length) settled
        obtain ⟨size, there⟩ := try_decode_size taken
        simp only [handle_buf, List.length_drop, headerSize] at kept size
        omega
  · exact finished

/-- When nothing moves any more, the stream was opened and its reader has everything. -/
theorem settled_delivered (carried : Carried clients session todo)
    (distinct : (clients.map ClientStream.sid).Nodup) (known : client ∈ clients)
    (named : client.target.named) (settled : Settled session) : Delivered client session := by
  obtain ⟨loop, rounds, reads⟩ := settled
  have finished := settled_loop carried loop
  subst finished
  have present : client.sid ∈ session.sids := by
    by_contra absent
    have coming := (carried.unopened client known absent).coming
    rw [frames_of_messages] at coming
    simp [framesOf] at coming
  obtain ⟨index, task, later, there, own, coming, -, serves⟩ :=
    carried.host distinct known present
  have nothing : later = [] := List.map_eq_nil_iff.mp coming.symm
  rw [nothing, List.append_nil] at serves
  have unchanged (after : StreamTask)
      (kept : session.tasks.set index after = session.tasks) : after = task := by
    have inside := (List.getElem?_eq_some_iff.mp there).1
    have same := congrArg (·[index]?) kept
    simp only [List.getElem?_set_self inside, there] at same
    exact Option.some.inj same
  have round := rounds index
  rw [step_task_some there] at round
  have read := reads index 1
  rw [step_read_some there] at read
  obtain ⟨routes, reader⟩ := serves.settled named
    (unchanged _ (congrArg Session.tasks round)) (unchanged _ (congrArg Session.tasks read))
  refine ⟨routes, ?_⟩
  rw [← own, readers_of_task carried (List.mem_of_getElem? there), reader]
  rfl

end Readers

/-- What a session has done with the streams of a client: each has led to its own calls
and readers, no other number has any, and at rest all are delivered. -/
structure Multiplexed (clients : List ClientStream) (session : Session) : Prop where
  soFar : ∀ client ∈ clients, SoFar client session
  foreign : ∀ sid ∉ clients.map ClientStream.sid,
    session.routesOf sid = [] ∧ session.readersOf sid = []
  delivered : Settled session → ∀ client ∈ clients, Delivered client session

/-- The invariant of the carried session gives its promises, stream by stream. -/
theorem carried_multiplexed (sent : Sent clients frames) {session : Session} {todo : List Frame}
    (carried : Carried clients session todo) : Multiplexed clients session where
  soFar _ known := carried_so_far carried sent.distinct known
  foreign := by
    intro sid unknown
    constructor
    · rw [Session.routesOf, List.map_eq_nil_iff, List.filter_eq_nil_iff]
      intro route called same
      obtain ⟨client, known, own⟩ := carried.routed route called
      exact unknown (List.mem_map.mpr ⟨client, known, own.trans (of_decide_eq_true same)⟩)
    · apply readers_of_absent
      intro present
      obtain ⟨task, member, owner⟩ := List.mem_map.mp present
      obtain ⟨index, there⟩ := List.mem_iff_getElem?.mp member
      obtain ⟨client, known, later, opened⟩ := carried.opened index task there
      exact unknown (List.mem_map.mpr ⟨client, known, opened.own.symm.trans owner⟩)
  delivered settled client known :=
    settled_delivered carried sent.distinct known (sent.named client known) settled

/-- For every interleaving of the streams and every cutting into reads, in every state of
every run: the route was called at most once for each stream, with its target, and its
reader has read part of what was written to it and nothing else. Every run can be
continued until nothing moves, and then every stream was routed once, was read exactly
and has ended. -/
theorem streams_delivered (clients : List ClientStream) (frames : List Frame)
    (reads : List Read) (sent : Sent clients frames) (cut : CutInto frames reads)
    (events : List Event) :
    Multiplexed clients (run step (.start reads) events) ∧
      ∃ more, Settled (run step (.start reads) (events ++ more)) := by
  obtain ⟨todo, carried⟩ : ∃ todo, Carried clients (run step (.start reads) events) todo :=
    @run_kept _ _ step (.start reads) (fun session => ∃ todo, Carried clients session todo)
      ⟨frames, start_carried sent cut⟩
      (fun _ event carried => step_carried sent.named event carried) events
  refine ⟨carried_multiplexed sent carried, ?_⟩
  obtain ⟨more, settled⟩ :=
    run_settles sessionWeight step_lighter (run step (.start reads) events)
  refine ⟨more, ?_⟩
  rw [run_append]
  exact ⟨settled .loop, fun index => settled (.task index),
    fun index size => settled (.read index size)⟩

end Outcome

section TwoStreams

/-- A stream to a domain with two octets written, and one to an address with none. -/
def twoClients : List ClientStream :=
  [⟨1, .domain "a" 443, [[0x68, 0x69]]⟩, ⟨2, .tcp ⟨.v4 ⟨[192, 0, 2, 1], rfl⟩, 80⟩, []⟩]

def twoFrames : List Frame :=
  [.new cmdSyn 1, .new cmdSyn 2, ⟨cmdPsh, 2, addressOf (.tcp ⟨.v4 ⟨[192, 0, 2, 1], rfl⟩, 80⟩)⟩,
    ⟨cmdPsh, 1, addressOf (.domain "a" 443)⟩, finFrame 2, ⟨cmdPsh, 1, [0x68, 0x69]⟩, finFrame 1]

/-- One octet is a chunk that a frame can carry. -/
theorem single_octet_read (octet : UInt8) : [octet] ≠ [] ∧ [octet].length ≤ maxPayload := by
  rw [List.length_singleton]
  exact ⟨List.cons_ne_nil _ _, by decide⟩

/-- Reads of one octet. -/
def octetwise (stream : Bytes) : List Read :=
  stream.map fun octet => ⟨[octet], single_octet_read octet⟩

/-- Octets written one by one join to the stream that they were taken from. -/
theorem joined_octetwise (stream : Bytes) : joined (octetwise stream) = stream := by
  induction stream with
  | nil => rfl
  | cons octet stream inductionHypothesis =>
    rw [octetwise, List.map_cons, joined, List.map_cons, List.flatten_cons, ← octetwise, ← joined,
      inductionHypothesis]
    rfl

/-- The frames of the two streams are interleaved as clients may send them. -/
theorem two_sent : Sent twoClients twoFrames where
  distinct := by decide
  named := by
    unfold twoClients
    decide
  interleaved := by
    have single : pieces maxPayload [(0x68 : UInt8), 0x69] = [[0x68, 0x69]] :=
      pieces_single _ _ (List.cons_ne_nil _ _) (by decide)
    simp only [twoClients, List.map_cons, List.map_nil, ClientStream.frames, writeFrames,
      List.flatMap_cons, List.flatMap_nil, single]
    exact .take 0 rfl (.take 1 rfl (.take 1 rfl (.take 0 rfl (.take 1 rfl (.take 0 rfl
      (.take 0 rfl (.done (by simp))))))))

/-- Both streams are delivered, one octet a read. -/
theorem two_streams_delivered :
    Sent twoClients twoFrames ∧
      CutInto twoFrames (octetwise (encodeAll (settingsFrame :: twoFrames))) ∧
      ∃ events, ∀ client ∈ twoClients, Delivered client
        (run step (.start (octetwise (encodeAll (settingsFrame :: twoFrames)))) events) := by
  have cut : CutInto twoFrames (octetwise (encodeAll (settingsFrame :: twoFrames))) :=
    joined_octetwise _
  obtain ⟨-, events, settled⟩ := streams_delivered twoClients twoFrames _ two_sent cut []
  exact ⟨two_sent, cut, events,
    (streams_delivered twoClients twoFrames _ two_sent cut events).1.delivered settled⟩

end TwoStreams

end OmniProxy.AnytlsDelivery
