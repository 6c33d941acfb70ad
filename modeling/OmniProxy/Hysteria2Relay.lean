import OmniProxy.DatagramNets
import OmniProxy.Hysteria2Dispatcher

/-!
# UDP through a Hysteria2 connection

A client and the dispatcher of its server exchange datagrams over a net that may lose and
reorder them. Whatever happens, the packets that were written to a session are accounted for:
each was sent by the socket of the session, or is on its way, or was lost, or came when no
socket could be bound. What that socket received is accounted for in the same way, so no
packet is ever seen by another session or seen twice.
-/

namespace OmniProxy.Hysteria2Relay

open scoped List
open AddressDisplay AddressText ByteStrings DatagramNets GuardedRuns Hysteria2Dispatcher
open Hysteria2Udp Hysteria2Wire ListUpdates ProxyTargets UdpFrames WrittenAddresses

section Clients

/-- A connection with what was written to its sessions, and which reader was handed what. -/
structure Client where
  state : State
  written : Nat → List UdpPacket
  handed : List (Nat × Bytes)

def Client.start (sid : UInt32) : Client := ⟨⟨sid, [], [], [], false⟩, fun _ => [], []⟩

/-- The packet that an event writes, and to which session. -/
def writes (state : State) : Event → Option (Nat × UdpPacket)
  | .write index packet => if index < state.sessions.length then some (index, packet) else none
  | _ => none

/-- The datagram that an event takes off the connection, and for which reader. -/
def hands (state : State) : Event → Option (Nat × Bytes)
  | .readDatagram reader =>
      match state.sessions[reader]?, state.incoming with
      | some session, dgram :: _ => if session.waiting then some (reader, dgram) else none
      | _, _ => none
  | _ => none

variable (resolve : String → Option SocketAddr)

def Client.step (client : Client) (event : Event) : Client where
  state := Hysteria2Udp.step resolve client.state event
  written index := client.written index ++
    ((writes client.state event).filter (·.1 = index)).toList.map Prod.snd
  handed := client.handed ++ (hands client.state event).toList

/-- The session numbers of a connection. -/
def numbers (state : State) : List UInt32 := state.sessions.map Session.sessionId

/-- A change that keeps the number of each session keeps all numbers. -/
theorem modify_numbers (sessions : List Session) (index : Nat) (change : Session → Session)
    (same : ∀ session, (change session).sessionId = session.sessionId) :
    (sessions.modify index change).map Session.sessionId = sessions.map Session.sessionId := by
  apply List.ext_getElem?
  intro place
  rw [List.getElem?_map, List.getElem?_map, List.getElem?_modify]
  cases sessions[place]? with
  | none => rfl
  | some session => by_cases own : index = place <;> simp [own, same]

/-- A session that takes a datagram keeps its number. -/
theorem take_number (session : Session) (dgram : Bytes) :
    (session.take resolve dgram).sessionId = session.sessionId := by
  unfold Session.take
  repeat' split
  all_goals rfl

/-- A session that passes a packet on keeps its number. -/
theorem pass_number (session : Session) : session.pass.sessionId = session.sessionId := by
  unfold Session.pass
  repeat' split
  all_goals rfl

/-- Only a new session adds a number, and it is that of the counter. -/
theorem step_numbers (state : State) (event : Event) :
    numbers (Hysteria2Udp.step resolve state event) =
      numbers state ++ if event.opens then [state.sid] else [] := by
  have same (sessions : List UInt32) : sessions = sessions ++ if false then [state.sid] else [] :=
    (List.append_nil _).symm
  cases event with
  | connectUdp => simp [numbers, Hysteria2Udp.step, State.connectUdp, Event.opens]
  | write index packet =>
    simp only [numbers, Hysteria2Udp.step, State.write, Event.opens]
    split
    · exact same _
    · refine (modify_numbers _ _ _ ?_).trans (same _)
      exact fun _ => rfl
  | readDatagram reader =>
    simp only [numbers, Hysteria2Udp.step, State.readDatagram, Event.opens]
    split
    · exact same _
    · split
      · exact same _
      · split
        · exact (modify_numbers _ _ _ fun _ => take_number resolve _ _).trans (same _)
        · split
          · refine (modify_numbers _ _ _ ?_).trans (same _)
            exact fun _ => rfl
          · exact same _
  | send index => exact (modify_numbers _ _ _ pass_number).trans (same _)
  | receive index =>
    refine (modify_numbers _ _ _ ?_).trans (same _)
    exact fun _ => rfl
  | dropHandle index =>
    refine (modify_numbers _ _ _ ?_).trans (same _)
    exact fun _ => rfl
  | _ => exact same _

/-- The counter moves with every session that is opened, here or elsewhere. -/
def counts : Event → Bool
  | .connectUdp | .connectElsewhere => true
  | _ => false

/-- The counter moves by one with every session opened. -/
theorem step_counter (state : State) (event : Event) :
    (Hysteria2Udp.step resolve state event).sid = state.sid + if counts event then 1 else 0 := by
  cases event with
  | write index packet =>
    simp only [Hysteria2Udp.step, State.write, counts]
    split <;> exact (UInt32.add_zero _).symm
  | readDatagram reader =>
    simp only [Hysteria2Udp.step, State.readDatagram, counts]
    repeat' split
    all_goals exact (UInt32.add_zero _).symm
  | connectUdp => rfl
  | connectElsewhere => rfl
  | _ => exact (UInt32.add_zero _).symm

end Clients

section Sending

variable (resolve : String → Option SocketAddr)

/-- The address that a target stands for. -/
def destination : ProxyTarget → Option SocketAddr
  | .tcp addr => some addr
  | .domain host port => resolve (displayTarget (.domain host port))

/-- Where a packet goes, and what it carries. -/
def aim (packet : UdpPacket) : Option (SocketAddr × Bytes) :=
  (destination resolve packet.target).map fun target => (target, packet.data)

/-- The text of a target has a length that a message can carry. -/
def Carried (target : ProxyTarget) : Prop :=
  (displayTarget target).utf8ByteSize ≤ maxMessageLength ∧
    SurvivingLength (displayTarget target).utf8ByteSize

/-- A target is never written as an empty text. -/
theorem display_target_nonempty (target : ProxyTarget) :
    0 < (displayTarget target).utf8ByteSize := by
  cases target with
  | tcp addr => exact (display_socket_addr_short addr).1
  | domain host port =>
    rw [Nat.pos_iff_ne_zero, Ne, String.utf8ByteSize_eq_zero_iff]
    intro empty
    have none_left := congrArg String.toList empty
    simp [displayTarget] at none_left

/-- The message of a packet goes for its session where the packet goes. -/
theorem meant_message (literal : ∀ addr, resolve (displaySocketAddr addr) = some addr)
    (sid number : UInt32) (counter : UInt16) (packet : UdpPacket)
    (carried : Carried packet.target) :
    meant resolve number (UdpMessage.mk sid counter 0 1 (displayTarget packet.target)
      packet.data).serialize = if sid = number then aim resolve packet else none := by
  have parsed := parse_serialize
    (UdpMessage.mk sid counter 0 1 (displayTarget packet.target) packet.data)
    (display_target_nonempty packet.target) carried.1 carried.2
  have resolved : resolve (displayTarget packet.target) = destination resolve packet.target := by
    cases packet.target with
    | tcp addr => exact literal addr
    | domain host port => rfl
  simp only [meant, parsed, and_true, resolved]
  rfl

/-- What a connection keeps of what its sessions have sent. -/
structure Sends (client : Client) : Prop where
  own : ∀ (index : Nat) (session : Session), client.state.sessions[index]? = some session →
    client.state.outgoing.filterMap (meant resolve session.sessionId) =
      (client.written index).filterMap (aim resolve)
  foreign : ∀ sid, sid ∉ numbers client.state →
    client.state.outgoing.filterMap (meant resolve sid) = []
  beyond : ∀ index, client.state.sessions.length ≤ index → client.written index = []
  distinct : (numbers client.state).Nodup

/-- A fresh connection has no sessions, so nothing was sent. -/
theorem start_sends (sid : UInt32) : Sends resolve (.start sid) where
  own index session there := by simp [Client.start] at there
  foreign _ _ := rfl
  beyond _ _ := rfl
  distinct := List.nodup_nil

variable {resolve} {client : Client}

/-- A session has its number among the numbers. -/
theorem number_there (state : State) {index : Nat} {session : Session}
    (there : state.sessions[index]? = some session) :
    (numbers state)[index]? = some session.sessionId := by
  rw [numbers, List.getElem?_map, there]
  rfl

/-- The numbers of two sessions are different. -/
theorem Sends.apart (sends : Sends resolve client) {index other : Nat} {session found : Session}
    (there : client.state.sessions[index]? = some session)
    (also : client.state.sessions[other]? = some found)
    (same : session.sessionId = found.sessionId) : index = other := by
  have first := number_there _ there
  have second := number_there _ also
  rw [← same, ← first] at second
  exact (List.getElem?_inj (List.getElem?_eq_some_iff.mp first).1 sends.distinct).mp second.symm

/-- A session after a step that opens none was there before. -/
theorem session_before {event : Event} (still : event.opens = false) {index : Nat}
    {later : Session}
    (there : (Hysteria2Udp.step resolve client.state event).sessions[index]? = some later) :
    ∃ session, client.state.sessions[index]? = some session ∧
      later.sessionId = session.sessionId := by
  have place := number_there _ there
  rw [step_numbers, still] at place
  simp only [Bool.false_eq_true, if_false, List.append_nil, numbers, List.getElem?_map,
    Option.map_eq_some_iff] at place
  obtain ⟨session, before, number⟩ := place
  exact ⟨session, before, number.symm⟩

/-- Only a write to a session sends something. -/
theorem step_outgoing (state : State) (event : Event) (quiet : writes state event = none) :
    (Hysteria2Udp.step resolve state event).outgoing = state.outgoing := by
  cases event with
  | write index packet =>
    have past : ¬index < state.sessions.length := by
      simpa [writes] using quiet
    simp [Hysteria2Udp.step, State.write, List.getElem?_eq_none (Nat.not_lt.mp past)]
  | readDatagram reader =>
    simp only [Hysteria2Udp.step, State.readDatagram]
    repeat' split
    all_goals rfl
  | _ => rfl

/-- A session that is opened here stands behind the others, and none is taken away. -/
theorem step_length (state : State) (event : Event) :
    (Hysteria2Udp.step resolve state event).sessions.length =
      state.sessions.length + if event.opens then 1 else 0 := by
  have count := congrArg List.length (step_numbers resolve state event)
  simp only [numbers, List.length_map, List.length_append] at count
  rw [count]
  split <;> rfl

/-- The numbers of the sessions stay apart when a new one is fresh. -/
theorem step_distinct (sends : Sends resolve client) (event : Event)
    (fresh : event.opens = true → client.state.sid ∉ numbers client.state) :
    (numbers (client.step resolve event).state).Nodup := by
  change (numbers (Hysteria2Udp.step resolve client.state event)).Nodup
  rw [step_numbers]
  split
  · next opens =>
    rw [← List.concat_eq_append]
    exact sends.distinct.concat (fresh opens)
  · simpa using sends.distinct

/-- A number that no session has after a step, none had before it. -/
theorem absent_before {sid : UInt32} {event : Event}
    (absent : sid ∉ numbers (client.step resolve event).state) :
    sid ∉ numbers client.state := by
  change sid ∉ numbers (Hysteria2Udp.step resolve client.state event) at absent
  rw [step_numbers] at absent
  exact fun member => absent (List.mem_append_left _ member)

/-- Only a write to a session of the connection writes a packet. -/
theorem writes_there {state : State} {event : Event} {place : Nat} {packet : UdpPacket}
    (written : writes state event = some (place, packet)) :
    event = .write place packet ∧ place < state.sessions.length := by
  cases event with
  | write index other =>
    simp only [writes] at written
    split at written
    · next below =>
      obtain ⟨rfl, rfl⟩ := Prod.mk.inj (Option.some.inj written)
      exact ⟨rfl, below⟩
    · simp at written
  | _ => simp [writes] at written

/-- A step that writes nothing sends nothing. -/
theorem Sends.quiet (sends : Sends resolve client) {event : Event}
    (fresh : event.opens = true → client.state.sid ∉ numbers client.state)
    (written : writes client.state event = none) : Sends resolve (client.step resolve event) := by
  have length := @step_length resolve client.state event
  have same : (client.step resolve event).written = client.written := by
    funext index
    simp [Client.step, written]
  have outgoing : (client.step resolve event).state.outgoing = client.state.outgoing :=
    step_outgoing client.state event written
  refine ⟨?_, ?_, ?_, step_distinct sends event fresh⟩
  · intro index later there
    rw [same, outgoing]
    have place := number_there _ there
    change (numbers (Hysteria2Udp.step resolve client.state event))[index]? = _ at place
    rw [step_numbers] at place
    rcases opens : event.opens with _ | _
    · obtain ⟨session, before, number⟩ := session_before opens there
      rw [number]
      exact sends.own index session before
    · rw [opens, if_pos rfl] at place
      rcases append_cases place with known | ⟨last, number⟩
      · obtain ⟨session, before, number⟩ := Option.map_eq_some_iff.mp
          (List.getElem?_map .. ▸ known)
        rw [← number]
        exact sends.own index session before
      · rw [number, sends.foreign _ (fresh opens), sends.beyond index (by simp [last, numbers])]
        rfl
  · intro sid absent
    rw [outgoing]
    exact sends.foreign sid (absent_before absent)
  · intro index past
    rw [same]
    apply sends.beyond
    change (Hysteria2Udp.step resolve client.state event).sessions.length ≤ index at past
    omega

/-- A packet that a session writes is sent under its number. -/
theorem Sends.write (literal : ∀ addr, resolve (displaySocketAddr addr) = some addr)
    (sends : Sends resolve client) {place : Nat} {packet : UdpPacket}
    (written : writes client.state (.write place packet) = some (place, packet))
    (carried : Carried packet.target) :
    Sends resolve (client.step resolve (.write place packet)) := by
  have length := @step_length resolve client.state (.write place packet)
  have inside := (writes_there written).2
  have there := List.getElem?_eq_getElem inside
  generalize client.state.sessions[place] = sender at there
  have outgoing : (client.step resolve (.write place packet)).state.outgoing =
      client.state.outgoing ++ [(UdpMessage.mk sender.sessionId (sender.packetCounter + 1) 0 1
        (displayTarget packet.target) packet.data).serialize] := by
    simp [Client.step, Hysteria2Udp.step, State.write, there]
  have meant_by (sid : UInt32) := meant_message resolve literal sender.sessionId sid
    (sender.packetCounter + 1) packet carried
  refine ⟨?_, ?_, ?_, step_distinct sends _ (by simp [Event.opens])⟩
  · intro index later also
    obtain ⟨session, before, number⟩ := session_before rfl also
    rw [number, outgoing, List.filterMap_append, sends.own index session before]
    have adds : (client.step resolve (.write place packet)).written index =
        client.written index ++ if place = index then [packet] else [] := by
      simp only [Client.step, written]
      split <;> simp_all
    rw [adds, List.filterMap_append]
    congr 1
    rw [List.filterMap_cons, List.filterMap_nil, meant_by]
    by_cases own : place = index
    · subst own
      obtain rfl := Option.some.inj (there.symm.trans before)
      simp [List.filterMap_cons]
    · rw [if_neg own, if_neg fun equal => own (sends.apart there before equal)]
      rfl
  · intro sid absent
    have known : sender.sessionId ∈ numbers client.state :=
      List.mem_of_getElem? (number_there _ there)
    have unknown := absent_before absent
    rw [outgoing, List.filterMap_append, sends.foreign sid unknown, List.filterMap_cons,
      List.filterMap_nil, meant_by, if_neg]
    · rfl
    · rintro rfl
      exact unknown known
  · intro index past
    change (Hysteria2Udp.step resolve client.state _).sessions.length ≤ index at past
    have apart : place ≠ index := by omega
    have before := sends.beyond index (by omega)
    simp [Client.step, written, before, apart]

/-- A step keeps what is known about sending, if the number of a new session is new. -/
theorem step_sends (literal : ∀ addr, resolve (displaySocketAddr addr) = some addr)
    (sends : Sends resolve client) (event : Event)
    (fresh : event.opens = true → client.state.sid ∉ numbers client.state)
    (carried : ∀ index packet, event = .write index packet → Carried packet.target) :
    Sends resolve (client.step resolve event) := by
  rcases written : writes client.state event with _ | ⟨place, packet⟩
  · exact sends.quiet fresh written
  · obtain ⟨rfl, -⟩ := writes_there written
    exact sends.write literal written (carried place packet rfl)

end Sending

section Receiving

/-- What the reader of a session was handed. -/
def Client.handedTo (client : Client) (index : Nat) : List Bytes :=
  (client.handed.filter (·.1 = index)).map Prod.snd

/-- What the readers of other sessions were handed. -/
def Client.strayed (client : Client) (index : Nat) : List Bytes :=
  (client.handed.filter (·.1 ≠ index)).map Prod.snd

variable (resolve : String → Option SocketAddr)

/-- What a connection keeps of the datagrams that have arrived: they are handed out in order,
and a session gets what its own reader was handed for it. -/
structure Takes (client : Client) (arrived : List Bytes) : Prop where
  order : arrived = client.handed.map Prod.snd ++ client.state.incoming
  account : ∀ (index : Nat) (session : Session), client.state.sessions[index]? = some session →
    Accounted ((client.handedTo index).filterMap (answers resolve session.sessionId)) session
  inside : ∀ entry ∈ client.handed, entry.1 < client.state.sessions.length

/-- Before anything arrived nothing was handed out. -/
theorem start_takes (sid : UInt32) : Takes resolve (.start sid) [] where
  order := rfl
  account index session there := by simp [Client.start] at there
  inside entry member := by simp [Client.start] at member

variable {resolve} {client : Client} {arrived : List Bytes}

/-- A datagram is handed out only to a reader that waits, from the front of those that
arrived. -/
theorem hands_some {state : State} {event : Event} {reader : Nat} {dgram : Bytes}
    (handed : hands state event = some (reader, dgram)) :
    event = .readDatagram reader ∧ ∃ session incoming, state.sessions[reader]? = some session ∧
      session.waiting = true ∧ state.incoming = dgram :: incoming := by
  cases event with
  | readDatagram index =>
    simp only [hands] at handed
    split at handed
    · next session first incoming there front =>
      split at handed
      · next waits =>
        obtain ⟨rfl, rfl⟩ := Prod.mk.inj (Option.some.inj handed)
        exact ⟨rfl, session, incoming, there, waits, front⟩
      · simp at handed
    · simp at handed
  | _ => simp [hands] at handed

/-- A reader that waits holds what a datagram has for it, and nothing else. -/
theorem take_answers (session : Session) (dgram : Bytes) :
    session.take resolve dgram = { session with
      sending := (answers resolve session.sessionId dgram).or session.sending } := by
  unfold Session.take answers
  cases UdpMessage.parse dgram with
  | error error => rfl
  | ok message =>
    by_cases own : message.sessionId = session.sessionId <;>
      by_cases whole : message.fragCount = 1 <;> simp [own, whole]

/-- What an event brings to a connection. -/
def arriving : Event → List Bytes
  | .arrive dgram => [dgram]
  | _ => []

/-- A step that hands nothing leaves what has arrived, apart from an arrival. -/
theorem step_incoming (state : State) (event : Event) (quiet : hands state event = none) :
    (Hysteria2Udp.step resolve state event).incoming = state.incoming ++ arriving event := by
  cases event with
  | write index packet =>
    simp only [Hysteria2Udp.step, State.write, arriving, List.append_nil]
    split <;> rfl
  | readDatagram reader =>
    simp only [Hysteria2Udp.step, State.readDatagram, arriving, List.append_nil]
    split
    · rfl
    · next session there =>
      split
      · rfl
      · next waits =>
        split
        · next dgram incoming front =>
          simp [hands, there, front, by simpa using waits] at quiet
        · split <;> rfl
  | arrive dgram => rfl
  | _ => exact (List.append_nil _).symm

/-- What is handed out goes to sessions that exist. -/
theorem Takes.inside_step (takes : Takes resolve client arrived) (event : Event) :
    ∀ entry ∈ (client.step resolve event).handed,
      entry.1 < (client.step resolve event).state.sessions.length := by
  intro entry member
  have longer := @step_length resolve client.state event
  change entry.1 < (Hysteria2Udp.step resolve client.state event).sessions.length
  rcases List.mem_append.mp member with before | new
  · have below := takes.inside entry before
    omega
  · obtain ⟨-, session, incoming, there, -, -⟩ := hands_some (Option.mem_toList.mp new)
    have below := (List.getElem?_eq_some_iff.mp there).1
    omega

/-- A step that hands nothing out leaves every account as it was. -/
theorem Takes.quiet (takes : Takes resolve client arrived) {event : Event}
    (handed : hands client.state event = none) :
    Takes resolve (client.step resolve event) (arrived ++ arriving event) := by
  obtain ⟨order, account, inside⟩ := takes
  have same : (client.step resolve event).handed = client.handed := by
    simp [Client.step, handed]
  have toEach (index : Nat) :
      (client.step resolve event).handedTo index = client.handedTo index := by
    rw [Client.handedTo, same, Client.handedTo]
  refine ⟨?_, ?_, Takes.inside_step ⟨order, account, inside⟩ event⟩
  · change _ = _ ++ (Hysteria2Udp.step resolve client.state event).incoming
    rw [same, step_incoming client.state event handed, order, List.append_assoc]
  · intro index later there
    rw [toEach]
    have place := number_there _ there
    change (numbers (Hysteria2Udp.step resolve client.state event))[index]? = _ at place
    rw [step_numbers] at place
    change (Hysteria2Udp.step resolve client.state event).sessions[index]? = _ at there
    rcases step_cases resolve client.state event with
      ⟨-, -, session, passed, sending, sessions⟩ | ⟨-, keeps⟩ |
      ⟨reader, session, dgram, incoming, rfl, found, waits, front, -⟩
    · rw [sessions] at there
      rcases append_cases there with known | ⟨rfl, rfl⟩
      · have number := number_there _ known
        rw [List.getElem?_append_left (List.getElem?_eq_some_iff.mp number).1] at place
        exact account index later known
      · have nothing : client.handedTo client.state.sessions.length = [] := by
          simp only [Client.handedTo, List.map_eq_nil_iff, List.filter_eq_nil_iff,
            decide_eq_true_eq]
          exact fun entry member => Nat.ne_of_lt (inside entry member)
        intro _
        rw [nothing, passed, sending]
        rfl
    · obtain ⟨session, known, accounts⟩ := keeps.accounted index later there
      have number := number_there _ known
      rw [List.getElem?_append_left (List.getElem?_eq_some_iff.mp number).1, number] at place
      rw [← Option.some.inj place]
      exact accounts _ (account index session known)
    · simp [hands, found, front, waits] at handed

/-- A datagram that is handed out counts for its reader. -/
theorem Takes.hand (takes : Takes resolve client arrived) {reader : Nat} {dgram : Bytes}
    (handed : hands client.state (.readDatagram reader) = some (reader, dgram)) :
    Takes resolve (client.step resolve (.readDatagram reader))
      (arrived ++ arriving (.readDatagram reader)) := by
  obtain ⟨-, session, incoming, there, waits, front⟩ := hands_some handed
  have steps : (client.step resolve (.readDatagram reader)).state = { client.state with
      incoming
      sessions := client.state.sessions.modify reader (·.take resolve dgram) } := by
    simp [Client.step, Hysteria2Udp.step, State.readDatagram, there, waits, front]
  have adds : (client.step resolve (.readDatagram reader)).handed =
      client.handed ++ [(reader, dgram)] := by
    simp [Client.step, handed]
  refine ⟨?_, ?_, takes.inside_step _⟩
  · rw [steps, adds, takes.order, front]
    simp [arriving]
  · intro index later also
    rw [steps] at also
    have toEach : (client.step resolve (.readDatagram reader)).handedTo index =
        client.handedTo index ++ if reader = index then [dgram] else [] := by
      rw [Client.handedTo, adds, List.filter_append, List.map_append, Client.handedTo]
      by_cases own : reader = index <;> simp [own]
    rw [toEach]
    rcases modify_cases also with ⟨rfl, before, known, rfl⟩ | ⟨apart, known⟩
    · obtain rfl := Option.some.inj (there.symm.trans known)
      have idle : session.sending = none := by
        simpa [Session.waiting] using (Bool.and_eq_true_iff.mp waits).2
      intro held
      rw [take_answers] at held ⊢
      have accounted := takes.account _ session there held
      rw [idle, Option.toList_none, List.append_nil] at accounted
      rw [if_pos rfl, List.filterMap_append, accounted, idle, Option.or_none]
      cases meaning : answers resolve session.sessionId dgram <;> simp [meaning]
    · rw [if_neg (Ne.symm apart), List.append_nil]
      exact takes.account index later known

/-- A step keeps what is known about receiving. -/
theorem step_takes (takes : Takes resolve client arrived) (event : Event) :
    Takes resolve (client.step resolve event) (arrived ++ arriving event) := by
  rcases handed : hands client.state event with _ | ⟨reader, dgram⟩
  · exact takes.quiet handed
  · obtain ⟨rfl, -⟩ := hands_some handed
    exact takes.hand handed

end Receiving

section Links

/-- Both sides of a connection with the net between them. The datagrams for which no socket
could be bound, or which came after the dispatcher had ended, are kept beside it. -/
structure UdpLink where
  client : Client
  server : Dispatcher
  up : Net Bytes
  down : Net Bytes
  missed : List Bytes

def UdpLink.start (sid : UInt32) : UdpLink := ⟨.start sid, .start, .start, .start, []⟩

inductive LinkEvent where
  | acts (event : Event)
  | serves (event : ServerEvent)
  | reaches (index : Nat) (binds : Bool)
  | returns (index : Nat)
  | loses (index : Nat)
  | losesAnswer (index : Nat)

/-- What arrives is brought by the net alone. -/
def offline : Event → Bool
  | .arrive _ => false
  | _ => true

def undispatched : ServerEvent → Bool
  | .dispatch _ _ => false
  | _ => true

variable (resolve : String → Option SocketAddr)

def UdpLink.act (link : UdpLink) (event : Event) : UdpLink :=
  { link with
    client := link.client.step resolve event
    up := link.up.send ((link.client.step resolve event).state.outgoing.drop
      link.client.state.outgoing.length) }

def UdpLink.serve (link : UdpLink) (event : ServerEvent) : UdpLink :=
  { link with
    server := link.server.step resolve event
    down := link.down.send ((link.server.step resolve event).outgoing.drop
      link.server.outgoing.length) }

def UdpLink.step (link : UdpLink) : LinkEvent → UdpLink
  | .acts event => if offline event then link.act resolve event else link
  | .serves event => if undispatched event then link.serve resolve event else link
  | .reaches index binds =>
      match link.up.flying[index]? with
      | none => link
      | some dgram =>
          { link.serve resolve (.dispatch dgram binds) with
            up := link.up.arrive index
            missed := link.missed ++ if link.server.misses dgram binds then [dgram] else [] }
  | .returns index =>
      match link.down.flying[index]? with
      | none => link
      | some dgram => { link.act resolve (.arrive dgram) with down := link.down.arrive index }
  | .loses index => { link with up := link.up.lose index }
  | .losesAnswer index => { link with down := link.down.lose index }

/-- What holds of a link in every run. -/
structure Joined (link : UdpLink) : Prop where
  up : link.up.Balanced
  down : link.down.Balanced
  sent : link.up.sent = link.client.state.outgoing
  answered : link.down.sent = link.server.outgoing
  sends : Sends resolve link.client
  takes : Takes resolve link.client link.down.arrived
  numbered : Numbered link.server
  replied : Answered resolve link.server
  served : ∀ sid, (link.up.arrived.filterMap (meant resolve sid)).Perm
    (link.server.sentFor sid ++ link.missed.filterMap (meant resolve sid))

/-- A fresh link keeps the invariant on both sides. -/
theorem start_joined (sid : UInt32) : Joined resolve (.start sid) where
  up := start_balanced
  down := start_balanced
  sent := rfl
  answered := rfl
  sends := start_sends resolve sid
  takes := start_takes resolve sid
  numbered := start_numbered
  replied := start_answered resolve
  served _ := List.Perm.refl _

variable {resolve} {link : UdpLink}

/-- What the client has sent only grows. -/
theorem client_grows (state : State) (event : Event) :
    state.outgoing <+: (Hysteria2Udp.step resolve state event).outgoing := by
  have still (quiet : writes state event = none) :
      state.outgoing <+: (Hysteria2Udp.step resolve state event).outgoing := by
    simp only [step_outgoing state event quiet, List.prefix_rfl]
  cases event with
  | write index packet =>
    simp only [Hysteria2Udp.step, State.write]
    split
    · exact List.prefix_rfl
    · exact List.prefix_append ..
  | _ => exact still rfl

/-- What the server has sent only grows. -/
theorem server_grows (server : Dispatcher) (event : ServerEvent) :
    server.outgoing <+: (server.step resolve event).outgoing := by
  cases event with
  | dispatch dgram binds =>
    simp only [Dispatcher.step, dispatch_outgoing, List.prefix_rfl]
  | received sock sender data =>
    simp only [Dispatcher.step, Dispatcher.received]
    split
    · exact List.prefix_rfl
    · split
      · exact List.prefix_append ..
      · exact List.prefix_rfl
  | _ => exact List.prefix_rfl

/-- Whatever the client sends in a step is put on the way up. -/
theorem act_sent (sent : link.up.sent = link.client.state.outgoing) (event : Event) :
    (link.act resolve event).up.sent = (link.act resolve event).client.state.outgoing := by
  simp only [UdpLink.act, send_sent, sent]
  exact (List.prefix_iff_eq_append.mp (client_grows link.client.state event))

/-- Whatever the server answers in a step is put on the way down. -/
theorem serve_sent (answered : link.down.sent = link.server.outgoing) (event : ServerEvent) :
    (link.serve resolve event).down.sent = (link.serve resolve event).server.outgoing := by
  simp only [UdpLink.serve, send_sent, answered]
  exact (List.prefix_iff_eq_append.mp (server_grows link.server event))

/-- A datagram that reaches the dispatcher is sent for its session or missed. -/
theorem reaches_served (joined : Joined resolve link) (dgram : Bytes) (binds : Bool)
    (sid : UInt32) :
    ((link.up.arrived ++ [dgram]).filterMap (meant resolve sid)).Perm
      ((link.server.dispatch resolve dgram binds).sentFor sid ++
        (link.missed ++ if link.server.misses dgram binds then [dgram] else []).filterMap
          (meant resolve sid)) := by
  have served := joined.served sid
  rw [dispatch_sent_for resolve joined.numbered, List.filterMap_append, List.filterMap_append]
  have one : List.filterMap (meant resolve sid) [dgram] = (meant resolve sid dgram).toList := by
    cases meaning : meant resolve sid dgram <;> simp [meaning]
  by_cases missed : link.server.misses dgram binds = true
  · rw [if_pos missed, if_pos missed, Option.toList_none, List.append_nil, ← List.append_assoc]
    exact served.append_right _
  · rw [if_neg missed, if_neg missed, List.filterMap_nil, List.append_nil, one]
    calc link.up.arrived.filterMap (meant resolve sid) ++ (meant resolve sid dgram).toList
      _ ~ (link.server.sentFor sid ++ link.missed.filterMap (meant resolve sid)) ++
          (meant resolve sid dgram).toList := served.append_right _
      _ ~ link.server.sentFor sid ++ ((meant resolve sid dgram).toList ++
          link.missed.filterMap (meant resolve sid)) := by
          rw [List.append_assoc]
          exact List.perm_append_comm.append_left _
      _ = _ := (List.append_assoc ..).symm

/-- A step of a link keeps it joined, if the number of a new session is new. -/
theorem step_joined (literal : ∀ addr, resolve (displaySocketAddr addr) = some addr)
    (joined : Joined resolve link) (event : LinkEvent)
    (fresh : event = .acts .connectUdp →
      link.client.state.sid ∉ numbers link.client.state)
    (carried : ∀ index packet, event = .acts (.write index packet) → Carried packet.target) :
    Joined resolve (link.step resolve event) := by
  have acted (inner : Event) (new : inner.opens = true →
      link.client.state.sid ∉ numbers link.client.state)
      (written : ∀ index packet, inner = .write index packet → Carried packet.target) :
      Sends resolve (link.client.step resolve inner) :=
    step_sends literal joined.sends inner new written
  cases event with
  | acts inner =>
    simp only [UdpLink.step]
    split
    · next isOffline =>
      have takes := step_takes joined.takes inner
      have nothing : arriving inner = [] := by
        cases inner <;> first | rfl | simp [offline] at isOffline
      rw [nothing, List.append_nil] at takes
      refine ⟨send_balanced joined.up _, joined.down, act_sent joined.sent inner, joined.answered,
        acted inner ?_ ?_, takes, joined.numbered, joined.replied, joined.served⟩
      · intro opens
        apply fresh
        cases inner <;> first | rfl | simp [Event.opens] at opens
      · rintro index packet rfl
        exact carried index packet rfl
    · exact joined
  | serves inner =>
    simp only [UdpLink.step]
    split
    · next isUndispatched =>
      refine ⟨joined.up, send_balanced joined.down _, joined.sent,
        serve_sent joined.answered inner, joined.sends, joined.takes,
        step_numbered joined.numbered resolve inner,
        step_answered resolve literal joined.numbered joined.replied inner, fun sid => ?_⟩
      have same : (link.serve resolve inner).server.sentFor sid = link.server.sentFor sid := by
        apply step_sent_for
        rintro dgram binds rfl
        simp [undispatched] at isUndispatched
      rw [same]
      exact joined.served sid
    · exact joined
  | reaches index binds =>
    simp only [UdpLink.step]
    split
    · exact joined
    · next dgram flying =>
      refine ⟨arrive_balanced joined.up index, send_balanced joined.down _, joined.sent,
        serve_sent joined.answered _, joined.sends, joined.takes,
        step_numbered joined.numbered resolve (.dispatch dgram binds),
        step_answered resolve literal joined.numbered joined.replied (.dispatch dgram binds),
        fun sid => ?_⟩
      have served := reaches_served joined dgram binds sid
      simp only [Net.arrive, flying, Option.toList_some]
      exact served
  | returns index =>
    simp only [UdpLink.step]
    split
    · exact joined
    · next dgram flying =>
      have takes := step_takes joined.takes (.arrive dgram)
      refine ⟨send_balanced joined.up _, arrive_balanced joined.down index,
        act_sent joined.sent _, joined.answered, acted _ (by simp [Event.opens]) (by simp), ?_,
        joined.numbered, joined.replied, joined.served⟩
      simp only [Net.arrive, flying, Option.toList_some]
      exact takes
  | loses index =>
    exact ⟨lose_balanced joined.up index, joined.down, joined.sent, joined.answered, joined.sends,
      joined.takes, joined.numbered, joined.replied, joined.served⟩
  | losesAnswer index =>
    exact ⟨joined.up, lose_balanced joined.down index, joined.sent, joined.answered, joined.sends,
      joined.takes, joined.numbered, joined.replied, joined.served⟩

end Links

section Runs

variable (resolve : String → Option SocketAddr)

/-- Every run of a connection, from some value of the shared counter. -/
def linkRun (sid : UInt32) (events : List LinkEvent) : UdpLink :=
  run (UdpLink.step resolve) (.start sid) events

/-- The event opens a session, on this connection or another one. -/
def LinkEvent.counts : LinkEvent → Bool
  | .acts event => Hysteria2Relay.counts event
  | _ => false

/-- The packets of an event can be carried. -/
def LinkEvent.Carried : LinkEvent → Prop
  | .acts (.write _ packet) => Hysteria2Relay.Carried packet.target
  | _ => True

/-- The numbers are those of the counter since the start. -/
def Counted (sid : UInt32) (opened : Nat) (state : State) : Prop :=
  state.sid = sid + UInt32.ofNat opened ∧
    ∀ number ∈ numbers state, ∃ before < opened, number = sid + UInt32.ofNat before

/-- Before the counter has gone round its value is no session's number. -/
theorem counted_fresh {sid : UInt32} {opened : Nat} {state : State}
    (counted : Counted sid opened state) (few : opened < 2 ^ 32) :
    state.sid ∉ numbers state := by
  intro member
  obtain ⟨before, earlier, same⟩ := counted.2 _ member
  rw [counted.1] at same
  have equal := congrArg UInt32.toNat ((UInt32.add_right_inj sid).mp same)
  simp only [UInt32.toNat_ofNat'] at equal
  omega

variable {resolve}

/-- A step keeps every number among those that the counter has given. -/
theorem step_counted (resolve : String → Option SocketAddr) {sid : UInt32} {opened : Nat}
    {state : State} (counted : Counted sid opened state) (event : Event) :
    Counted sid (opened + if counts event then 1 else 0)
      (Hysteria2Udp.step resolve state event) := by
  obtain ⟨counter, older⟩ := counted
  constructor
  · rw [step_counter, counter]
    split
    · rw [UInt32.ofNat_add, UInt32.add_assoc]
      rfl
    · rw [Nat.add_zero, UInt32.add_zero]
  · intro number member
    rw [step_numbers] at member
    rcases List.mem_append.mp member with known | new
    · obtain ⟨before, earlier, same⟩ := older number known
      exact ⟨before, by omega, same⟩
    · split at new
      · next opens =>
        have counting : counts event = true := by
          cases event <;> first | rfl | simp [Event.opens] at opens
        rw [List.mem_singleton.mp new, counter, counting]
        exact ⟨opened, by simp, rfl⟩
      · simp at new

/-- A step of a link is one of its connection or leaves it as it is. -/
theorem link_counted {sid : UInt32} {opened : Nat} {link : UdpLink}
    (counted : Counted sid opened link.client.state) (event : LinkEvent) :
    Counted sid (opened + if event.counts then 1 else 0)
      (link.step resolve event).client.state := by
  cases event with
  | acts inner =>
    by_cases isOffline : offline inner = true
    · rw [UdpLink.step, if_pos isOffline]
      exact step_counted resolve counted inner
    · rw [UdpLink.step, if_neg isOffline]
      cases inner <;> first | exact counted | simp [offline] at isOffline
  | serves inner =>
    by_cases quiet : undispatched inner = true
    · rw [UdpLink.step, if_pos quiet]
      exact counted
    · rw [UdpLink.step, if_neg quiet]
      exact counted
  | reaches index binds =>
    cases flying : link.up.flying[index]? <;> simp only [UdpLink.step, flying] <;> exact counted
  | returns index =>
    cases flying : link.down.flying[index]? with
    | none =>
      simp only [UdpLink.step, flying]
      exact counted
    | some dgram =>
      simp only [UdpLink.step, flying]
      exact step_counted resolve counted (.arrive dgram)
  | loses index => exact counted
  | losesAnswer index => exact counted

/-- A link is joined after every run in which the numbers are not used up. -/
theorem run_joined (literal : ∀ addr, resolve (displaySocketAddr addr) = some addr) (sid : UInt32)
    (events : List LinkEvent) (carried : ∀ event ∈ events, LinkEvent.Carried event)
    (few : events.countP LinkEvent.counts ≤ 2 ^ 32) :
    Joined resolve (linkRun resolve sid events) ∧
      Counted sid (events.countP LinkEvent.counts)
        (linkRun resolve sid events).client.state := by
  induction events using List.reverseRecOn with
  | nil =>
    refine ⟨start_joined resolve sid, (UInt32.add_zero _).symm, ?_⟩
    intro number member
    simp [linkRun, run, UdpLink.start, Client.start, numbers] at member
  | append_singleton events event inductionHypothesis =>
    rw [List.countP_append, List.countP_singleton] at few
    obtain ⟨joined, counted⟩ := inductionHypothesis
      (fun other member => carried other (List.mem_append_left _ member)) (by omega)
    have own := carried event (by simp)
    rw [linkRun, run_snoc, List.countP_append, List.countP_singleton]
    refine ⟨step_joined literal joined event ?_ ?_, link_counted counted event⟩
    · rintro rfl
      apply counted_fresh counted
      simp only [LinkEvent.counts, counts, if_true] at few
      omega
    · rintro index packet rfl
      exact own

variable (resolve)

/-- What a link has kept of its promises. The packets written to a session are those that its
socket sent, those that are still on their way, and those that were lost or missed. What the
socket received is what the session got, what is on its way or waits, and what was lost or
handed to the reader of another session. Sessions have sockets and numbers of their own. -/
structure Relays (link : UdpLink) : Prop where
  sent : ∀ (index : Nat) (session : Session), link.client.state.sessions[index]? = some session →
    ((link.client.written index).filterMap (aim resolve)).Perm
      (link.server.sentFor session.sessionId ++
        (link.missed ++ (link.up.lost ++ link.up.flying)).filterMap
          (meant resolve session.sessionId))
  received : ∀ (index : Nat) (session : Session),
    link.client.state.sessions[index]? = some session → session.held = true →
    ((link.server.receivedFor session.sessionId).map packetFrom).Perm
      (session.passed ++ session.sending.toList ++
        (link.client.strayed index ++ link.client.state.incoming ++
          (link.down.lost ++ link.down.flying)).filterMap (answers resolve session.sessionId))
  sockets : ∀ sid other sock, link.server.sessions sid = some sock →
    link.server.sessions other = some sock → sid = other
  distinct : (numbers link.client.state).Nodup

variable {resolve}

/-- The invariant of the link gives its promises. -/
theorem Joined.relays {link : UdpLink} (joined : Joined resolve link) : Relays resolve link where
  sent := by
    intro index session there
    rw [← joined.sends.own index session there, ← joined.sent, List.filterMap_append,
      ← List.append_assoc]
    exact (meaning_balanced joined.up _).trans ((joined.served _).append_right _)
  received := by
    intro index session there held
    have account := joined.takes.account index session there held
    rw [← joined.replied, ← joined.answered, ← account, List.filterMap_append,
      ← List.append_assoc]
    refine (meaning_balanced joined.down _).trans (List.Perm.append_right _ ?_)
    have parts : (link.client.handed.map Prod.snd).Perm
        (link.client.handedTo index ++ link.client.strayed index) := by
      rw [Client.handedTo, Client.strayed, ← List.map_append]
      apply List.Perm.map
      simpa using (List.filter_append_perm (fun entry => decide (entry.1 = index))
        link.client.handed).symm
    have meaning := parts.filterMap (answers resolve session.sessionId)
    rw [List.filterMap_append] at meaning
    rw [joined.takes.order, List.filterMap_append, List.filterMap_append, ← List.append_assoc]
    exact meaning.append_right _
  sockets := by
    intro sid other sock one two
    obtain ⟨socket, there, own⟩ := joined.numbered.known sid sock one
    obtain ⟨found, also, same⟩ := joined.numbered.known other sock two
    obtain rfl := Option.some.inj (there.symm.trans also)
    exact own.symm.trans same
  distinct := joined.sends.distinct

/-- A packet goes out through a new socket, and the answer comes back. -/
def lookup : List LinkEvent :=
  [.acts .connectUdp, .acts (.write 0 ⟨none, .domain "127.0.0.1" 53, [1, 2]⟩), .reaches 0 true,
    .serves (.received 0 ⟨.v4 ⟨[127, 0, 0, 54], rfl⟩, 53⟩ [3]), .returns 0,
    .acts (.readDatagram 0), .acts (.send 0)]

example : ((linkRun literalHostPort 1 lookup).client.state.sessions.map Session.passed) =
    [[⟨some ⟨.v4 ⟨[127, 0, 0, 54], rfl⟩, 53⟩, .domain "" 0, [3]⟩]] := by
  decide +kernel

end Runs

end OmniProxy.Hysteria2Relay
