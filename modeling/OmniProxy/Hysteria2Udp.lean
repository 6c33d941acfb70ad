import OmniProxy.GuardedRuns
import OmniProxy.ListUpdates
import OmniProxy.AddressDisplay
import OmniProxy.Hysteria2Wire
import OmniProxy.UdpFrames

/-!
# UDP sessions of a Hysteria2 connection

Every UDP session of a connection has its own number and two tasks. The writer
sends the packets of the session as datagrams. The reader takes datagrams from the
connection, which hands each to one caller, and passes on the messages of its own
session; it drops every other datagram it was handed. A run is any interleaving of
new sessions, arriving datagrams, steps of the tasks and of the holders of the
handles, and the end of the connection.

A message is due to a live session whose number it carries. The results say when a
run delivers all that is due. The numbers come from a counter that all connections
share. Resolving the address of a message to a socket address is a parameter.
-/

namespace OmniProxy.Hysteria2Udp

open ByteStrings Connections ProxyTargets AddressText UdpFrames AddressDisplay Hysteria2Wire
open ListUpdates
  GuardedRuns

/-- One session. The reader holds a packet while it waits to pass it on; the handle
may be dropped. The history of passed packets is kept beside the queue. -/
structure Session where
  sessionId : UInt32
  packetCounter : UInt16
  running : Bool
  sending : Option UdpPacket
  held : Bool
  queue : List UdpPacket
  passed : List UdpPacket

/-- A connection with its sessions, in the order in which they were opened. -/
structure State where
  sid : UInt32
  sessions : List Session
  incoming : List Bytes
  outgoing : List Bytes
  closed : Bool

/-- What can happen on a connection. -/
inductive Event where
  | connectUdp
  | connectElsewhere
  | arrive (dgram : Bytes)
  | write (index : Nat) (packet : UdpPacket)
  | readDatagram (index : Nat)
  | send (index : Nat)
  | receive (index : Nat)
  | dropHandle (index : Nat)
  | close

section Steps

variable (parseHostPort : String → Option SocketAddr)

/-- The packet of a message. -/
def packetOf (message : UdpMessage) : UdpPacket :=
  ⟨parseHostPort message.addr, .domain "" 0, message.data⟩

/-- The capacity of the channel of a handle. -/
def channelCapacity : Nat := 256

/-- The reader of a session waits for a datagram. -/
def Session.waiting (session : Session) : Bool := session.running && session.sending.isNone

/-- The reader of a session takes a datagram. -/
def Session.take (session : Session) (dgram : Bytes) : Session :=
  match UdpMessage.parse dgram with
  | .ok message =>
      if message.sessionId ≠ session.sessionId then session
      else if message.fragCount ≠ 1 then session
      else { session with sending := some (packetOf parseHostPort message) }
  | .error _ => session

/-- The reader of a session passes its packet on, or ends because the handle is
gone. It waits while the channel is full. -/
def Session.pass (session : Session) : Session :=
  match session.sending with
  | none => session
  | some packet =>
      if !session.held then { session with running := false, sending := none }
      else if session.queue.length < channelCapacity then
        { session with
          sending := none
          queue := session.queue ++ [packet]
          passed := session.passed ++ [packet] }
      else session

/-- A new session of the connection. -/
def State.connectUdp (state : State) : State :=
  { state with
    sid := state.sid + 1
    sessions := state.sessions ++ [⟨state.sid, 0, true, none, true, [], []⟩] }

/-- The writer of a session sends a packet. -/
def State.write (state : State) (index : Nat) (packet : UdpPacket) : State :=
  match state.sessions[index]? with
  | none => state
  | some session =>
      let packetCounter := session.packetCounter + 1
      let message : UdpMessage :=
        ⟨session.sessionId, packetCounter, 0, 1, displayTarget packet.target, packet.data⟩
      { state with
        sessions := state.sessions.modify index fun session => { session with packetCounter }
        outgoing := state.outgoing ++ [message.serialize] }

/-- The reader of a session is handed the next datagram. On a closed connection it is
handed those that had arrived before and then ends. -/
def State.readDatagram (state : State) (index : Nat) : State :=
  match state.sessions[index]? with
  | none => state
  | some session =>
      if !session.waiting then state
      else
        match state.incoming with
        | dgram :: incoming =>
            { state with
              incoming
              sessions := state.sessions.modify index (·.take parseHostPort dgram) }
        | [] =>
            if state.closed then
              { state with
                sessions := state.sessions.modify index fun session =>
                  { session with running := false } }
            else state

/-- One step of a connection. -/
def step (state : State) : Event → State
  | .connectUdp => state.connectUdp
  | .connectElsewhere => { state with sid := state.sid + 1 }
  | .arrive dgram => { state with incoming := state.incoming ++ [dgram] }
  | .write index packet => state.write index packet
  | .readDatagram index => state.readDatagram parseHostPort index
  | .send index => { state with sessions := state.sessions.modify index Session.pass }
  | .receive index =>
      { state with
        sessions := state.sessions.modify index fun session =>
          { session with queue := session.queue.tail } }
  | .dropHandle index =>
      { state with
        sessions := state.sessions.modify index fun session =>
          { session with held := false, queue := [] } }
  | .close => { state with closed := true }

end Steps

section Delivery

variable (parseHostPort : String → Option SocketAddr)

/-- A session with a number whose handle is held. -/
def Session.live (session : Session) (sessionId : UInt32) : Bool :=
  session.held && session.sessionId == sessionId

/-- The live session that a message read by a reader is for: the session of the
reader if it has the number, otherwise the first that does. -/
def State.owner (state : State) (reader : Nat) (sessionId : UInt32) : Option Nat :=
  if state.sessions[reader]?.any (·.live sessionId) then some reader
  else state.sessions.findIdx? (·.live sessionId)

/-- The well-formed unfragmented message that a step takes off the connection, with
the live session it is for. -/
def dueAt (state : State) : Event → Option (Nat × UdpPacket)
  | .readDatagram reader =>
      match state.sessions[reader]?, state.incoming with
      | some session, dgram :: _ =>
          if session.waiting then
            match UdpMessage.parse dgram with
            | .ok message =>
                if message.fragCount = 1 then
                  (state.owner reader message.sessionId).map fun index =>
                    (index, packetOf parseHostPort message)
                else none
            | .error _ => none
          else none
      | _, _ => none
  | _ => none

/-- A connection with the packets that were due to each session. -/
structure Ledger where
  state : State
  due : Nat → List UdpPacket

/-- A step with its entry in the ledger. -/
def Ledger.step (ledger : Ledger) (event : Event) : Ledger where
  state := Hysteria2Udp.step parseHostPort ledger.state event
  due index := ledger.due index ++
    ((dueAt parseHostPort ledger.state event).filter (·.1 = index)).toList.map Prod.snd

/-- A connection without sessions, at some value of the shared counter. -/
def Ledger.start (sid : UInt32) : Ledger := ⟨⟨sid, [], [], [], false⟩, fun _ => []⟩

/-- What was due to a session has been passed to its handle or is being passed, as
long as the handle is held. -/
def Accounted (due : List UdpPacket) (session : Session) : Prop :=
  session.held → due = session.passed ++ session.sending.toList

/-- Every live session was handed exactly what was due to it. -/
def Delivered (ledger : Ledger) : Prop :=
  ∀ index session, ledger.state.sessions[index]? = some session →
    Accounted (ledger.due index) session

/-- A step that takes a message for a live session off the connection is a step of
that session's own reader. -/
def OwnReader (ledger : Ledger) (event : Event) : Prop :=
  ∀ index packet, dueAt parseHostPort ledger.state event = some (index, packet) →
    event = .readDatagram index

/-- What is delivered, and nothing is due to sessions that do not exist yet. -/
structure Invariant (ledger : Ledger) : Prop where
  delivered : Delivered ledger
  beyond : ∀ index, ledger.state.sessions.length ≤ index → ledger.due index = []

/-- The circumstances in which a step takes a message that is due to a session. -/
theorem due_at_some (state : State) (event : Event) (index : Nat) (packet : UdpPacket)
    (taken : dueAt parseHostPort state event = some (index, packet)) :
    ∃ reader session dgram incoming message, event = .readDatagram reader ∧
      state.sessions[reader]? = some session ∧ session.waiting ∧
      state.incoming = dgram :: incoming ∧ UdpMessage.parse dgram = .ok message ∧
      message.fragCount = 1 ∧ state.owner reader message.sessionId = some index ∧
      packet = packetOf parseHostPort message := by
  cases event with
  | readDatagram reader =>
    simp only [dueAt] at taken
    split at taken
    · rename_i session dgram incoming found arrived
      split_ifs at taken with waits
      split at taken
      · rename_i message parsed
        split_ifs at taken with whole
        obtain ⟨owner, owned, same⟩ := Option.map_eq_some_iff.mp taken
        obtain ⟨rfl, rfl⟩ := Prod.mk.inj same
        exact ⟨reader, session, dgram, incoming, message, rfl, found, waits, arrived, parsed,
          whole, owned, rfl⟩
      · simp at taken
    · simp at taken
  | _ => simp [dueAt] at taken

/-- A step that takes nothing due leaves the ledger's entries. -/
theorem ledger_due_none (ledger : Ledger) (event : Event) (index : Nat)
    (idle : dueAt parseHostPort ledger.state event = none) :
    (ledger.step parseHostPort event).due index = ledger.due index := by
  simp [Ledger.step, idle]

/-- The owner of a message has its number and is live. -/
theorem owner_live (state : State) (reader index : Nat) (sessionId : UInt32)
    (owned : state.owner reader sessionId = some index) :
    ∃ session, state.sessions[index]? = some session ∧ session.live sessionId := by
  rw [State.owner] at owned
  split at owned
  · rename_i own
    obtain rfl := Option.some.inj owned
    cases present : state.sessions[reader]? with
    | none => simp [present] at own
    | some session => exact ⟨session, rfl, by simpa [present] using own⟩
  · obtain ⟨bound, found, -⟩ := List.findIdx?_eq_some_iff_getElem.mp owned
    exact ⟨_, List.getElem?_eq_getElem bound, found⟩

/-- The same sessions, each accounted for by whatever accounted for it before. -/
structure Keeps (sessions after : List Session) : Prop where
  length : after.length = sessions.length
  accounted : ∀ (index : Nat) (session : Session), after[index]? = some session →
    ∃ before, sessions[index]? = some before ∧
      ∀ due, Accounted due before → Accounted due session

/-- Sessions that are not touched are kept. -/
theorem Keeps.refl (sessions : List Session) : Keeps sessions sessions where
  length := rfl
  accounted _ session found := ⟨session, found, fun _ => id⟩

/-- Changing one session in a way that keeps it accounted for. -/
theorem Keeps.modify (sessions : List Session) (index : Nat) (change : Session → Session)
    (kept : ∀ due session, Accounted due session → Accounted due (change session)) :
    Keeps sessions (sessions.modify index change) where
  length := by simp
  accounted other session found := by
    obtain ⟨-, before, present, rfl⟩ | ⟨-, present⟩ := modify_cases found
    · exact ⟨before, present, fun due => kept due before⟩
    · exact ⟨session, present, fun _ => id⟩

/-- Passing a packet on moves it from the reader's hand to the history. -/
theorem pass_accounted (due : List UdpPacket) (session : Session)
    (accounted : Accounted due session) : Accounted due session.pass := by
  unfold Session.pass
  split
  · exact accounted
  · rename_i packet sending
    split_ifs with dropped room
    · intro held
      simp_all
    · intro held
      have before := accounted held
      rw [sending] at before
      simpa using before
    · exact accounted

/-- What a step can do to the sessions: open one, hand a datagram to a waiting
reader, or nothing that takes a message or changes an account. -/
theorem step_cases (state : State) (event : Event) :
    (event = .connectUdp ∧ dueAt parseHostPort state event = none ∧ ∃ session : Session,
      session.passed = [] ∧ session.sending = none ∧
        (step parseHostPort state event).sessions = state.sessions ++ [session]) ∨
    (dueAt parseHostPort state event = none ∧
      Keeps state.sessions (step parseHostPort state event).sessions) ∨
    (∃ reader session dgram incoming, event = .readDatagram reader ∧
      state.sessions[reader]? = some session ∧ session.waiting ∧
      state.incoming = dgram :: incoming ∧
      (step parseHostPort state event).sessions =
        state.sessions.modify reader (·.take parseHostPort dgram)) := by
  cases event with
  | connectUdp => exact .inl ⟨rfl, rfl, _, rfl, rfl, rfl⟩
  | connectElsewhere => exact .inr (.inl ⟨rfl, Keeps.refl _⟩)
  | arrive dgram => exact .inr (.inl ⟨rfl, Keeps.refl _⟩)
  | close => exact .inr (.inl ⟨rfl, Keeps.refl _⟩)
  | send index => exact .inr (.inl ⟨rfl, Keeps.modify _ index _ pass_accounted⟩)
  | receive index => exact .inr (.inl ⟨rfl, Keeps.modify _ index _ fun _ _ => id⟩)
  | dropHandle index =>
    refine .inr (.inl ⟨rfl, Keeps.modify _ index _ ?_⟩)
    intro due session accounted held
    simp at held
  | write index packet =>
    refine .inr (.inl ⟨rfl, ?_⟩)
    simp only [step, State.write]
    split
    · exact Keeps.refl _
    · exact Keeps.modify _ index _ fun _ _ => id
  | readDatagram reader =>
    right
    simp only [step, State.readDatagram, dueAt]
    cases found : state.sessions[reader]? with
    | none => exact .inl ⟨rfl, Keeps.refl _⟩
    | some session =>
      by_cases waits : session.waiting
      · cases arrived : state.incoming with
        | nil =>
          refine .inl ⟨rfl, ?_⟩
          simp only [waits, Bool.not_true, Bool.false_eq_true, if_false]
          split
          · exact Keeps.modify _ reader _ fun _ _ => id
          · exact Keeps.refl _
        | cons dgram incoming =>
          refine .inr ⟨reader, session, dgram, incoming, rfl, found, waits, rfl, ?_⟩
          simp only [waits, Bool.not_true, Bool.false_eq_true, if_false]
      · left
        cases arrived : state.incoming <;> simp [waits, Keeps.refl]

/-- A message that is due to the reader it is handed to carries the number of the
reader's session. -/
theorem due_own_number (state : State) (reader : Nat) (session : Session) (dgram : Bytes)
    (incoming : List Bytes) (message : UdpMessage) (packet : UdpPacket)
    (found : state.sessions[reader]? = some session) (arrived : state.incoming = dgram :: incoming)
    (parsed : UdpMessage.parse dgram = .ok message)
    (taken : dueAt parseHostPort state (.readDatagram reader) = some (reader, packet)) :
    message.sessionId = session.sessionId := by
  obtain ⟨_, other, dgram', incoming', message', same, -, -, arrived', parsed', -, owned, -⟩ :=
    due_at_some parseHostPort _ _ _ _ taken
  obtain rfl := Event.readDatagram.inj same
  obtain ⟨rfl, rfl⟩ : dgram = dgram' ∧ incoming = incoming' := by
    rw [arrived] at arrived'
    exact List.cons.inj arrived'
  obtain rfl : message = message' := by
    rw [parsed] at parsed'
    exact Except.ok.inj parsed'
  obtain ⟨owner, present, live⟩ := owner_live _ _ _ _ owned
  obtain rfl : session = owner := Option.some.inj (found.symm.trans present)
  exact (beq_iff_eq.mp ((Bool.and_eq_true _ _).mp live).2).symm

/-- A reader that is handed a message due to it, or nothing due to anyone, accounts
for what it was handed. -/
theorem take_accounted (ledger : Ledger) (reader : Nat) (session : Session) (dgram : Bytes)
    (incoming : List Bytes) (found : ledger.state.sessions[reader]? = some session)
    (waits : session.waiting) (arrived : ledger.state.incoming = dgram :: incoming)
    (own : OwnReader parseHostPort ledger (.readDatagram reader))
    (accounted : Accounted (ledger.due reader) session) :
    Accounted ((ledger.step parseHostPort (.readDatagram reader)).due reader)
      (session.take parseHostPort dgram) := by
  have free : session.sending = none := by
    simpa using ((Bool.and_eq_true _ _).mp waits).2
  have unchanged (idle : dueAt parseHostPort ledger.state (.readDatagram reader) = none) :
      Accounted ((ledger.step parseHostPort (.readDatagram reader)).due reader) session := by
    rwa [ledger_due_none parseHostPort ledger _ reader idle]
  unfold Session.take
  split
  · rename_i message parsed
    split_ifs with foreign fragment
    · apply unchanged
      by_contra taken
      obtain ⟨⟨index, packet⟩, taken⟩ := Option.ne_none_iff_exists'.mp taken
      obtain rfl := Event.readDatagram.inj (own index packet taken)
      exact foreign (due_own_number parseHostPort ledger.state reader session dgram incoming
        message packet found arrived parsed taken)
    · apply unchanged
      simp [dueAt, found, arrived, waits, parsed, fragment]
    · intro held
      have numbered : message.sessionId = session.sessionId := Decidable.not_not.mp foreign
      have whole : message.fragCount = 1 := Decidable.not_not.mp fragment
      have live : session.live message.sessionId = true := by
        rw [Session.live, show session.held = true from held, numbered, beq_self_eq_true]
        rfl
      have owned : ledger.state.owner reader message.sessionId = some reader := by
        rw [State.owner, found, Option.any_some, if_pos live]
      have taken : dueAt parseHostPort ledger.state (.readDatagram reader) =
          some (reader, packetOf parseHostPort message) := by
        simp only [dueAt, found, arrived, waits, parsed, if_true, whole, owned, Option.map_some]
      have before := accounted held
      rw [free] at before
      simp [Ledger.step, taken, before]
  · rename_i error refused
    apply unchanged
    simp [dueAt, found, arrived, waits, refused]

/-- A step that meets the condition keeps the invariant. -/
theorem step_invariant (ledger : Ledger) (event : Event) (invariant : Invariant ledger)
    (own : OwnReader parseHostPort ledger event) : Invariant (ledger.step parseHostPort event) := by
  obtain ⟨delivered, beyond⟩ := invariant
  rcases step_cases parseHostPort ledger.state event with
    ⟨-, idle, opened, passed, sending, sessions⟩ | ⟨idle, keeps⟩ |
      ⟨reader, session, dgram, incoming, rfl, found, waits, arrived, sessions⟩
  · constructor
    · intro index session found
      rw [ledger_due_none parseHostPort ledger event index idle]
      change (step parseHostPort ledger.state event).sessions[index]? = some session at found
      rw [sessions] at found
      rcases append_cases found with before | ⟨rfl, rfl⟩
      · exact delivered index session before
      · rw [beyond _ (Nat.le_refl _)]
        intro held
        rw [passed, sending]
        rfl
    · intro index outside
      change (step parseHostPort ledger.state event).sessions.length ≤ index at outside
      rw [sessions, List.length_append] at outside
      rw [ledger_due_none parseHostPort ledger event index idle]
      exact beyond index (by omega)
  · constructor
    · intro index session found
      rw [ledger_due_none parseHostPort ledger event index idle]
      obtain ⟨before, present, kept⟩ := keeps.accounted index session found
      exact kept _ (delivered index before present)
    · intro index outside
      change (step parseHostPort ledger.state event).sessions.length ≤ index at outside
      rw [keeps.length] at outside
      rw [ledger_due_none parseHostPort ledger event index idle]
      exact beyond index outside
  · have elsewhere (index : Nat) (other : index ≠ reader) :
        (ledger.step parseHostPort (.readDatagram reader)).due index = ledger.due index := by
      cases taken : dueAt parseHostPort ledger.state (.readDatagram reader) with
      | none => exact ledger_due_none parseHostPort ledger _ index taken
      | some entry =>
        obtain rfl := Event.readDatagram.inj (own entry.1 entry.2 taken)
        simp [Ledger.step, taken, other.symm]
    constructor
    · intro index current present
      change (step parseHostPort ledger.state (.readDatagram reader)).sessions[index]? =
        some current at present
      rw [sessions] at present
      obtain ⟨rfl, before, known, rfl⟩ | ⟨other, known⟩ := modify_cases present
      · obtain rfl : session = before := Option.some.inj (found.symm.trans known)
        exact take_accounted parseHostPort ledger index session dgram incoming found waits arrived
          own (delivered index session found)
      · rw [elsewhere index other]
        exact delivered index current known
    · intro index outside
      change (step parseHostPort ledger.state (.readDatagram reader)).sessions.length ≤ index
        at outside
      rw [sessions, List.length_modify] at outside
      have inside : reader < ledger.state.sessions.length :=
        (List.getElem?_eq_some_iff.mp found).1
      rw [elsewhere index (by omega)]
      exact beyond index outside

/-- A message handed to the reader of another session is lost to the live session it
was for. -/
theorem foreign_reader_loses (ledger : Ledger) (event : Event) (invariant : Invariant ledger)
    (foreign : ¬OwnReader parseHostPort ledger event) :
    ¬Delivered (ledger.step parseHostPort event) := by
  intro after
  simp only [OwnReader, not_forall] at foreign
  obtain ⟨index, packet, taken, other⟩ := foreign
  obtain ⟨reader, session, dgram, incoming, message, rfl, found, waits, arrived, parsed, whole,
    owned, rfl⟩ := due_at_some parseHostPort _ _ _ _ taken
  have apart : reader ≠ index := fun same => other (by rw [same])
  obtain ⟨owner, present, live⟩ := owner_live _ _ _ _ owned
  have held : owner.held = true := ((Bool.and_eq_true _ _).mp live).1
  have still : (step parseHostPort ledger.state (.readDatagram reader)).sessions[index]? =
      some owner := by
    simp only [step, State.readDatagram, found, arrived, waits, Bool.not_true,
      Bool.false_eq_true, if_false]
    rw [List.getElem?_modify, present, Option.map_eq_map, Option.map_some, if_neg apart]
  have before := invariant.delivered index owner present held
  have account := after index owner still held
  simp [Ledger.step, taken, before] at account

/-- Nothing is due before there are sessions. -/
theorem start_invariant (sid : UInt32) : Invariant (Ledger.start sid) := by
  constructor
  · intro index session found
    simp [Ledger.start] at found
  · intro index _
    rfl

/-- A run delivers to every live session all that was due to it, at every moment,
exactly when every message for a live session is handed to its own reader. -/
theorem delivered_iff_own_readers (sid : UInt32) (events : List Event) :
    Always (Ledger.step parseHostPort) (Ledger.start sid) Delivered events ↔
      EachStep (Ledger.step parseHostPort) (Ledger.start sid) (OwnReader parseHostPort) events :=
  always_iff_each_step (start_invariant sid) (step_invariant parseHostPort)
    (fun _ invariant => invariant.delivered) (foreign_reader_loses parseHostPort) events

/-- The event opens a session of the connection. -/
def Event.opens : Event → Bool
  | .connectUdp => true
  | _ => false

/-- There are no more sessions than were opened. -/
theorem sessions_opened (sid : UInt32) (events : List Event) :
    (run (Ledger.step parseHostPort) (Ledger.start sid) events).state.sessions.length ≤
      events.countP Event.opens := by
  induction events using List.reverseRecOn with
  | nil => exact Nat.le_refl 0
  | append_singleton events event inductionHypothesis =>
    rw [run_snoc, List.countP_append, List.countP_singleton]
    change (step parseHostPort _ event).sessions.length ≤ _
    rcases step_cases parseHostPort
        (run (Ledger.step parseHostPort) (Ledger.start sid) events).state event with
      ⟨rfl, -, _, -, -, sessions⟩ | ⟨-, keeps⟩ | ⟨_, _, _, _, rfl, -, -, -, sessions⟩
    · rw [sessions, List.length_append, List.length_singleton]
      simp only [Event.opens, if_true]
      omega
    · rw [keeps.length]
      omega
    · rw [sessions, List.length_modify]
      omega

/-- A connection that never has a second session delivers all that is due. -/
theorem single_session_delivered (sid : UInt32) (events : List Event)
    (single : events.countP Event.opens ≤ 1) :
    Always (Ledger.step parseHostPort) (Ledger.start sid) Delivered events := by
  have own : EachStep (Ledger.step parseHostPort) (Ledger.start sid)
      (OwnReader parseHostPort) events := by
    rintro before event after rfl index packet taken
    obtain ⟨reader, session, _, _, _, rfl, found, -, -, -, -, owned, -⟩ :=
      due_at_some parseHostPort _ _ _ _ taken
    obtain ⟨owner, present, -⟩ := owner_live _ _ _ _ owned
    have opened := sessions_opened parseHostPort sid before
    have reading := (List.getElem?_eq_some_iff.mp found).1
    have owning := (List.getElem?_eq_some_iff.mp present).1
    rw [List.countP_append] at single
    obtain rfl : reader = index := by omega
    rfl
  rintro before after rfl
  exact (run_invariant (start_invariant sid) (step_invariant parseHostPort) before
    (each_step_before own)).delivered

/-- Two sessions, the second of which is sent a message that the reader of the first
is handed. -/
def crossedEvents : List Event :=
  [.connectUdp, .connectUdp, .arrive (UdpMessage.mk 2 0 0 1 "1.1.1.1:53" [7]).serialize,
    .readDatagram 0]

/-- Resolving where only socket addresses resolve. -/
def literalHostPort (text : String) : Option SocketAddr :=
  match parseSocketAddr text with
  | .ok addr => some addr
  | .error _ => none

/-- The message is lost to the second session. -/
theorem crossed_message_lost :
    ¬Always (Ledger.step literalHostPort) (Ledger.start 1) Delivered crossedEvents := by
  let message := UdpMessage.mk 2 0 0 1 "1.1.1.1:53" [7]
  let earlier : List Event := [.connectUdp, .connectUdp, .arrive message.serialize]
  have parsed : UdpMessage.parse message.serialize = .ok message :=
    parse_serialize message (by decide) (by decide) (.inl (by decide))
  have invariant : Invariant (run (Ledger.step literalHostPort) (Ledger.start 1) earlier) := by
    apply run_invariant (start_invariant 1) (step_invariant literalHostPort)
    intro before event after split index packet taken
    obtain ⟨reader, _, _, _, _, rfl, -⟩ := due_at_some literalHostPort _ _ _ _ taken
    have member : Event.readDatagram reader ∈ earlier := by
      rw [split]
      simp
    simp [earlier] at member
  have foreign : ¬OwnReader literalHostPort
      (run (Ledger.step literalHostPort) (Ledger.start 1) earlier) (.readDatagram 0) := by
    intro own
    have taken : dueAt literalHostPort
        (run (Ledger.step literalHostPort) (Ledger.start 1) earlier).state (.readDatagram 0) =
        some (1, packetOf literalHostPort message) := by
      change (match UdpMessage.parse message.serialize with
        | .ok found => _
        | .error _ => _) = _
      rw [parsed]
      rfl
    have other := own 1 _ taken
    simp at other
  intro always
  have last := always crossedEvents [] (by simp)
  exact foreign_reader_loses literalHostPort _ _ invariant foreign last

end Delivery

end OmniProxy.Hysteria2Udp
