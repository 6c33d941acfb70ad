import OmniProxy.AddressDisplay
import OmniProxy.Hysteria2Udp
import OmniProxy.Utf8Text
import OmniProxy.WrittenAddresses
import Mathlib.Data.List.Perm.Basic

/-!
# The UDP dispatcher of a Hysteria2 server

A server keeps one socket for each session number that it has seen on a connection. A message
is sent from the socket of its number to the address that it names, and what that socket
receives goes back to the client under the same number. Messages that cannot be read, that
are fragments or whose address does not resolve are dropped; so is a first message when no
socket can be bound.
-/

namespace OmniProxy.Hysteria2Dispatcher

open AddressDisplay AddressText ByteStrings GuardedRuns Hysteria2Udp Hysteria2Wire ListUpdates
open ProxyTargets UdpFrames Utf8Text WrittenAddresses

section Dispatching

/-- A socket with the number that its task captured. The histories of what it sent and
received are kept beside it. -/
structure Socket where
  sid : UInt32
  receiving : Bool
  sent : List (SocketAddr × Bytes)
  received : List (SocketAddr × Bytes)

def Socket.send (socket : Socket) (target : SocketAddr) (data : Bytes) : Socket :=
  { socket with sent := socket.sent ++ [(target, data)] }

def Socket.receive (socket : Socket) (sender : SocketAddr) (data : Bytes) : Socket :=
  { socket with received := socket.received ++ [(sender, data)] }

def Socket.finish (socket : Socket) : Socket := { socket with receiving := false }

structure Dispatcher where
  running : Bool
  sessions : UInt32 → Option Nat
  sockets : List Socket
  outgoing : List Bytes

def Dispatcher.start : Dispatcher := ⟨true, fun _ => none, [], []⟩

variable (resolve : String → Option SocketAddr)

/-- A bound socket of a new session, with its task. -/
def Dispatcher.bind (dispatcher : Dispatcher) (sid : UInt32) : Dispatcher :=
  { dispatcher with
    sessions := Function.update dispatcher.sessions sid (some dispatcher.sockets.length)
    sockets := dispatcher.sockets ++ [⟨sid, true, [], []⟩] }

def Dispatcher.change (dispatcher : Dispatcher) (sock : Nat) (change : Socket → Socket) :
    Dispatcher :=
  { dispatcher with sockets := dispatcher.sockets.modify sock change }

/-- A message is sent to the first address that its text resolves to. -/
def Dispatcher.sendTo (dispatcher : Dispatcher) (sock : Nat) (msg : UdpMessage) : Dispatcher :=
  match resolve msg.addr with
  | none => dispatcher
  | some target => dispatcher.change sock (·.send target msg.data)

/-- One round of the dispatcher with a datagram, and whether a socket could be bound. -/
def Dispatcher.dispatch (dispatcher : Dispatcher) (dgram : Bytes) (binds : Bool) : Dispatcher :=
  if !dispatcher.running then dispatcher
  else
    match UdpMessage.parse dgram with
    | .error _ => dispatcher
    | .ok msg =>
        if msg.fragCount ≠ 1 then dispatcher
        else
          match dispatcher.sessions msg.sessionId with
          | some sock => dispatcher.sendTo resolve sock msg
          | none =>
              if binds then
                (dispatcher.bind msg.sessionId).sendTo resolve dispatcher.sockets.length msg
              else dispatcher

def receiveBuffer : Nat := 65535

/-- The message that answers for a socket. -/
def replyOf (sid : UInt32) (sender : SocketAddr) (data : Bytes) : UdpMessage :=
  ⟨sid, 0, 0, 1, displaySocketAddr sender, data⟩

/-- The task of a socket receives from a sender and answers. -/
def Dispatcher.received (dispatcher : Dispatcher) (sock : Nat) (sender : SocketAddr)
    (data : Bytes) : Dispatcher :=
  match dispatcher.sockets[sock]? with
  | none => dispatcher
  | some socket =>
      if socket.receiving then
        { dispatcher.change sock (·.receive sender (data.take receiveBuffer)) with
          outgoing := dispatcher.outgoing ++
            [(replyOf socket.sid sender (data.take receiveBuffer)).serialize] }
      else dispatcher

/-- The task of a socket ends with an error. -/
def Dispatcher.receiveFailed (dispatcher : Dispatcher) (sock : Nat) : Dispatcher :=
  dispatcher.change sock Socket.finish

inductive ServerEvent where
  | dispatch (dgram : Bytes) (binds : Bool)
  | closed
  | received (sock : Nat) (sender : SocketAddr) (data : Bytes)
  | receiveFailed (sock : Nat)

def Dispatcher.step (dispatcher : Dispatcher) : ServerEvent → Dispatcher
  | .dispatch dgram binds => dispatcher.dispatch resolve dgram binds
  | .closed => { dispatcher with running := false }
  | .received sock sender data => dispatcher.received sock sender data
  | .receiveFailed sock => dispatcher.receiveFailed sock

end Dispatching

section Meanings

variable (resolve : String → Option SocketAddr)

/-- Where a datagram of a session goes, and what it carries. -/
def meant (sid : UInt32) (dgram : Bytes) : Option (SocketAddr × Bytes) :=
  match UdpMessage.parse dgram with
  | .error _ => none
  | .ok msg =>
      if msg.sessionId = sid ∧ msg.fragCount = 1 then
        (resolve msg.addr).map fun target => (target, msg.data)
      else none

/-- The packet that a datagram has for the reader of a session. -/
def answers (sid : UInt32) (dgram : Bytes) : Option UdpPacket :=
  match UdpMessage.parse dgram with
  | .error _ => none
  | .ok msg =>
      if msg.sessionId = sid ∧ msg.fragCount = 1 then some (packetOf resolve msg) else none

/-- What a client gets of something that its socket received. -/
def packetFrom (received : SocketAddr × Bytes) : UdpPacket :=
  ⟨some received.1, .domain "" 0, received.2⟩

/-- The text of an address is never empty and short. -/
theorem display_socket_addr_short (addr : SocketAddr) :
    0 < (displaySocketAddr addr).utf8ByteSize ∧ (displaySocketAddr addr).utf8ByteSize < 64 := by
  obtain ⟨ip, port⟩ := addr
  have digits : (Nat.toDigits 10 port.toNat).length ≤ 5 := by
    have bound : port.toNat < 65536 := port.toNat_lt
    exact (Nat.length_toDigits_le_iff (by decide) (by decide)).mpr (by omega)
  have port_ascii : ∀ char ∈ Nat.toDigits 10 port.toNat, char.toNat < 128 := fun char member =>
    address_char_ascii char (digits_written 10 port.toNat (by decide) (by decide) char member)
  rw [← as_bytes_length]
  cases ip with
  | v4 ip =>
    obtain ⟨chars, short⟩ := display_ipv4_written ip
    rw [displaySocketAddr, as_bytes_ascii _ fun char member => by
      rcases List.mem_append.mp member with written | last
      · exact address_char_ascii char (chars char written)
      · rcases List.mem_cons.mp last with rfl | digit
        · decide
        · exact port_ascii char digit]
    simp only [List.length_map, List.length_append, List.length_cons]
    omega
  | v6 ip =>
    obtain ⟨chars, -, short⟩ := display_ipv6_written ip
    rw [displaySocketAddr, as_bytes_ascii _ fun char member => by
      rcases List.mem_append.mp member with front | last
      · rcases List.mem_cons.mp front with rfl | written
        · decide
        · exact address_char_ascii char (chars char written)
      · rcases List.mem_cons.mp last with rfl | behind
        · decide
        · rcases List.mem_cons.mp behind with rfl | digit
          · decide
          · exact port_ascii char digit]
    simp only [List.length_map, List.length_append, List.length_cons]
    omega

/-- An answer reaches the session of its socket, and names its sender. -/
theorem answers_reply (literal : ∀ addr, resolve (displaySocketAddr addr) = some addr)
    (sid number : UInt32) (sender : SocketAddr) (data : Bytes) :
    answers resolve number (replyOf sid sender data).serialize =
      if sid = number then some (packetFrom (sender, data)) else none := by
  obtain ⟨nonempty, short⟩ := display_socket_addr_short sender
  have parsed : UdpMessage.parse (replyOf sid sender data).serialize =
      .ok (replyOf sid sender data) :=
    parse_serialize _ nonempty (Nat.le_of_lt (Nat.lt_trans short (by decide))) (.inl short)
  simp only [answers, parsed]
  simp only [replyOf, and_true, packetOf, literal, packetFrom]

end Meanings

section Numbers

/-- Every number has at most one socket, which its session knows. -/
structure Numbered (dispatcher : Dispatcher) : Prop where
  known : ∀ sid sock, dispatcher.sessions sid = some sock →
    ∃ socket, dispatcher.sockets[sock]? = some socket ∧ socket.sid = sid
  own : ∀ (sock : Nat) (socket : Socket), dispatcher.sockets[sock]? = some socket →
    dispatcher.sessions socket.sid = some sock

/-- Before any datagram there are no sessions and no sockets. -/
theorem start_numbered : Numbered .start where
  known sid sock found := by simp [Dispatcher.start] at found
  own sock socket found := by simp [Dispatcher.start] at found

variable {dispatcher : Dispatcher}

/-- Changing what a socket has sent or received keeps the numbers. -/
theorem Numbered.change (numbered : Numbered dispatcher) (sock : Nat) (change : Socket → Socket)
    (same : ∀ socket, (change socket).sid = socket.sid) :
    Numbered (dispatcher.change sock change) where
  known sid other found := by
    obtain ⟨socket, there, number⟩ := numbered.known sid other found
    simp only [Dispatcher.change, List.getElem?_modify, there]
    refine ⟨_, rfl, ?_⟩
    split
    · exact (same socket).trans number
    · exact number
  own other socket found := by
    simp only [Dispatcher.change] at found ⊢
    rcases modify_cases found with ⟨-, before, there, rfl⟩ | ⟨-, there⟩
    · rw [same]
      exact numbered.own other before there
    · exact numbered.own other socket there

/-- Writing answers changes no socket. -/
theorem Numbered.answer (numbered : Numbered dispatcher) (outgoing : List Bytes) :
    Numbered { dispatcher with outgoing } := ⟨numbered.known, numbered.own⟩

/-- A socket that is bound belongs to the new session alone. -/
theorem Numbered.bind (numbered : Numbered dispatcher) {sid : UInt32}
    (new : dispatcher.sessions sid = none) : Numbered (dispatcher.bind sid) where
  known number sock found := by
    simp only [Dispatcher.bind] at found ⊢
    by_cases same : number = sid
    · subst same
      rw [Function.update_self] at found
      obtain rfl := Option.some.inj found
      exact ⟨_, List.getElem?_concat_length .., rfl⟩
    · rw [Function.update_of_ne same] at found
      obtain ⟨socket, there, own⟩ := numbered.known number sock found
      exact ⟨socket, (List.getElem?_append_left (List.getElem?_eq_some_iff.mp there).1).trans there,
        own⟩
  own sock socket found := by
    simp only [Dispatcher.bind] at found ⊢
    rcases append_cases found with there | ⟨rfl, rfl⟩
    · have known := numbered.own sock socket there
      rw [Function.update_of_ne fun same => by simp [same, new] at known]
      exact known
    · exact Function.update_self ..

/-- Sending from a socket keeps all sockets where they are. -/
theorem send_numbered (numbered : Numbered dispatcher) (resolve : String → Option SocketAddr)
    (sock : Nat) (msg : UdpMessage) : Numbered (dispatcher.sendTo resolve sock msg) := by
  unfold Dispatcher.sendTo
  split
  · exact numbered
  · exact numbered.change sock _ fun _ => rfl

/-- Every event keeps sessions and sockets in one-to-one relation. -/
theorem step_numbered (numbered : Numbered dispatcher) (resolve : String → Option SocketAddr)
    (event : ServerEvent) : Numbered (dispatcher.step resolve event) := by
  cases event with
  | dispatch dgram binds =>
    simp only [Dispatcher.step, Dispatcher.dispatch]
    split
    · exact numbered
    · split
      · exact numbered
      · next msg _ =>
        split
        · exact numbered
        · split
          · exact send_numbered numbered resolve _ msg
          · next new =>
            split
            · exact send_numbered (numbered.bind new) resolve _ msg
            · exact numbered
  | closed => exact ⟨numbered.known, numbered.own⟩
  | received sock sender data =>
    simp only [Dispatcher.step, Dispatcher.received]
    split
    · exact numbered
    · split
      · exact (numbered.change sock (·.receive sender (data.take receiveBuffer))
          fun _ => rfl).answer _
      · exact numbered
  | receiveFailed sock => exact numbered.change sock _ fun _ => rfl

end Numbers

section Histories

variable {dispatcher : Dispatcher} (resolve : String → Option SocketAddr)

def Dispatcher.socketOf (dispatcher : Dispatcher) (sid : UInt32) : Option Socket :=
  (dispatcher.sessions sid).bind (dispatcher.sockets[·]?)

/-- What was sent for a session. -/
def Dispatcher.sentFor (dispatcher : Dispatcher) (sid : UInt32) : List (SocketAddr × Bytes) :=
  ((dispatcher.socketOf sid).map Socket.sent).getD []

/-- What was received for a session. -/
def Dispatcher.receivedFor (dispatcher : Dispatcher) (sid : UInt32) : List (SocketAddr × Bytes) :=
  ((dispatcher.socketOf sid).map Socket.received).getD []

/-- A change of the socket of one session. -/
theorem socket_of_change (numbered : Numbered dispatcher) {number : UInt32} {sock : Nat}
    (known : dispatcher.sessions number = some sock) (change : Socket → Socket) (sid : UInt32) :
    (dispatcher.change sock change).socketOf sid =
      if sid = number then (dispatcher.socketOf sid).map change else dispatcher.socketOf sid := by
  simp only [Dispatcher.socketOf, Dispatcher.change]
  by_cases same : sid = number
  · subst same
    simp [known]
  · rw [if_neg same]
    cases found : dispatcher.sessions sid with
    | none => rfl
    | some other =>
      have apart : sock ≠ other := by
        rintro rfl
        obtain ⟨socket, there, own⟩ := numbered.known number sock known
        obtain ⟨again, also, own'⟩ := numbered.known sid sock found
        obtain rfl := Option.some.inj (there.symm.trans also)
        exact same (own'.symm.trans own)
      simp [apart]

/-- The new number has its own fresh socket, and the others keep theirs. -/
theorem socket_of_bind (numbered : Numbered dispatcher) (number sid : UInt32) :
    (dispatcher.bind number).socketOf sid =
      if sid = number then some ⟨number, true, [], []⟩ else dispatcher.socketOf sid := by
  simp only [Dispatcher.socketOf, Dispatcher.bind]
  split
  · next same =>
    rw [same, Function.update_self, Option.bind_some]
    exact List.getElem?_concat_length ..
  · next different =>
    rw [Function.update_of_ne different]
    cases found : dispatcher.sessions sid with
    | none => rfl
    | some sock =>
      obtain ⟨socket, there, -⟩ := numbered.known sid sock found
      rw [Option.bind_some, Option.bind_some]
      exact List.getElem?_append_left (List.getElem?_eq_some_iff.mp there).1

/-- What a message sends is added to the session that it names. -/
theorem send_sent_for (numbered : Numbered dispatcher) {msg : UdpMessage} {sock : Nat}
    (known : dispatcher.sessions msg.sessionId = some sock) (sid : UInt32) :
    (dispatcher.sendTo resolve sock msg).sentFor sid = dispatcher.sentFor sid ++
      (if msg.sessionId = sid then
        (resolve msg.addr).map fun target => (target, msg.data) else none).toList := by
  unfold Dispatcher.sendTo
  split
  · next unknown => simp [unknown]
  · next target found =>
    rw [Dispatcher.sentFor, socket_of_change numbered known, found]
    by_cases same : sid = msg.sessionId
    · obtain ⟨socket, there, -⟩ := numbered.known _ sock known
      rw [if_pos same, if_pos same.symm, Dispatcher.sentFor]
      subst same
      simp [Dispatcher.socketOf, known, there, Socket.send]
    · rw [if_neg same, if_neg (Ne.symm same)]
      simp [Dispatcher.sentFor]

/-- A message is missed when the dispatcher has ended or has no socket for it. -/
def Dispatcher.misses (dispatcher : Dispatcher) (dgram : Bytes) (binds : Bool) : Bool :=
  !dispatcher.running ||
    match UdpMessage.parse dgram with
    | .ok msg => (dispatcher.sessions msg.sessionId).isNone && !binds
    | .error _ => false

/-- A message that is not missed is sent for its session, and nothing for the others. -/
theorem dispatch_sent_for (numbered : Numbered dispatcher) (dgram : Bytes) (binds : Bool)
    (sid : UInt32) : (dispatcher.dispatch resolve dgram binds).sentFor sid =
      dispatcher.sentFor sid ++
        (if dispatcher.misses dgram binds then none else meant resolve sid dgram).toList := by
  unfold Dispatcher.dispatch Dispatcher.misses
  by_cases running : dispatcher.running = true
  · simp only [running, Bool.not_true, Bool.false_eq_true, if_false, Bool.false_or]
    split
    · next parsed => simp [meant, parsed]
    · next msg parsed =>
      simp only [meant, parsed]
      by_cases fragment : msg.fragCount = 1
      · rw [if_neg (by simp [fragment])]
        split
        · next sock known =>
          rw [send_sent_for resolve numbered known]
          simp [known, fragment]
        · next new =>
          split
          · next binds =>
            have known : (dispatcher.bind msg.sessionId).sessions msg.sessionId =
                some dispatcher.sockets.length := Function.update_self ..
            have empty : (dispatcher.bind msg.sessionId).sentFor sid = dispatcher.sentFor sid := by
              rw [Dispatcher.sentFor, socket_of_bind numbered, Dispatcher.sentFor]
              split
              · next same =>
                subst same
                simp [Dispatcher.socketOf, new]
              · rfl
            rw [send_sent_for resolve (numbered.bind new) known, empty]
            simp [binds, fragment]
          · next unbound => simp [new, unbound]
      · rw [if_pos (by simpa using fragment)]
        simp [fragment]
  · simp [running]

/-- The answers that were written are those of what was received. -/
def Answered (dispatcher : Dispatcher) : Prop :=
  ∀ sid, dispatcher.outgoing.filterMap (answers resolve sid) =
    (dispatcher.receivedFor sid).map packetFrom

/-- Before any datagram nothing was received and nothing answered. -/
theorem start_answered : Answered resolve .start := fun _ => rfl

/-- A change of a socket that keeps something keeps it for every session. -/
theorem change_keeps {View : Type} (view : Socket → View) (sock : Nat)
    (change : Socket → Socket) (same : ∀ socket, view (change socket) = view socket)
    (sid : UInt32) : ((dispatcher.change sock change).socketOf sid).map view =
      (dispatcher.socketOf sid).map view := by
  simp only [Dispatcher.socketOf, Dispatcher.change]
  cases dispatcher.sessions sid with
  | none => rfl
  | some other =>
    rw [Option.bind_some, Option.bind_some, List.getElem?_modify]
    cases dispatcher.sockets[other]? with
    | none => rfl
    | some socket => by_cases own : sock = other <;> simp [own, same]

/-- A change of a socket that sends nothing leaves what all sessions have sent. -/
theorem sent_for_change (sock : Nat) (change : Socket → Socket)
    (same : ∀ socket, (change socket).sent = socket.sent) (sid : UInt32) :
    (dispatcher.change sock change).sentFor sid = dispatcher.sentFor sid :=
  congrArg (Option.getD · []) (change_keeps Socket.sent sock change same sid)

/-- A change of a socket that receives nothing leaves what all sessions have received. -/
theorem received_for_change (sock : Nat) (change : Socket → Socket)
    (same : ∀ socket, (change socket).received = socket.received) (sid : UInt32) :
    (dispatcher.change sock change).receivedFor sid = dispatcher.receivedFor sid :=
  congrArg (Option.getD · []) (change_keeps Socket.received sock change same sid)

/-- Sending receives nothing. -/
theorem send_received_for (sock : Nat) (msg : UdpMessage) (sid : UInt32) :
    (dispatcher.sendTo resolve sock msg).receivedFor sid = dispatcher.receivedFor sid := by
  unfold Dispatcher.sendTo
  split
  · rfl
  · next target _ => exact received_for_change sock (·.send target msg.data) (fun _ => rfl) sid

/-- A message that is dispatched changes nothing of what was received. -/
theorem dispatch_received_for (numbered : Numbered dispatcher) (dgram : Bytes) (binds : Bool)
    (sid : UInt32) :
    (dispatcher.dispatch resolve dgram binds).receivedFor sid = dispatcher.receivedFor sid := by
  unfold Dispatcher.dispatch
  split
  · rfl
  · split
    · rfl
    · next msg _ =>
      split
      · rfl
      · split
        · exact send_received_for resolve _ msg sid
        · next new =>
          split
          · rw [send_received_for, Dispatcher.receivedFor, socket_of_bind numbered,
              Dispatcher.receivedFor]
            split
            · next same =>
              subst same
              simp [Dispatcher.socketOf, new]
            · rfl
          · rfl

/-- A datagram from the client writes no answer itself. -/
theorem dispatch_outgoing (dgram : Bytes) (binds : Bool) :
    (dispatcher.dispatch resolve dgram binds).outgoing = dispatcher.outgoing := by
  have send (other : Dispatcher) (sock : Nat) (msg : UdpMessage) :
      (other.sendTo resolve sock msg).outgoing = other.outgoing := by
    unfold Dispatcher.sendTo
    split <;> rfl
  unfold Dispatcher.dispatch
  split
  · rfl
  · split
    · rfl
    · split
      · rfl
      · split
        · exact send ..
        · split
          · exact send ..
          · rfl

/-- A socket that receives something answers with it. -/
theorem receive_answered (literal : ∀ addr, resolve (displaySocketAddr addr) = some addr)
    (numbered : Numbered dispatcher) (answered : Answered resolve dispatcher) (sock : Nat)
    (sender : SocketAddr) (data : Bytes) :
    Answered resolve (dispatcher.received sock sender data) := by
  intro sid
  unfold Dispatcher.received
  split
  · exact answered sid
  · next socket there =>
    split
    · have known := numbered.own sock socket there
      have changed : (dispatcher.change sock
          (·.receive sender (data.take receiveBuffer))).receivedFor sid =
          dispatcher.receivedFor sid ++
            (if socket.sid = sid then some (sender, data.take receiveBuffer) else none).toList := by
        rw [Dispatcher.receivedFor, socket_of_change numbered known]
        by_cases same : sid = socket.sid
        · rw [if_pos same, if_pos same.symm, Dispatcher.receivedFor]
          subst same
          simp [Dispatcher.socketOf, known, there, Socket.receive]
        · rw [if_neg same, if_neg (Ne.symm same)]
          exact (List.append_nil _).symm
      change _ = ((dispatcher.change sock
        (·.receive sender (data.take receiveBuffer))).receivedFor sid).map packetFrom
      rw [changed, List.filterMap_append, answered sid, List.map_append]
      by_cases same : socket.sid = sid <;> simp [answers_reply resolve literal, same]
    · exact answered sid

/-- Every step keeps that exactly what was received is answered. -/
theorem step_answered (literal : ∀ addr, resolve (displaySocketAddr addr) = some addr)
    (numbered : Numbered dispatcher) (answered : Answered resolve dispatcher)
    (event : ServerEvent) : Answered resolve (dispatcher.step resolve event) := by
  cases event with
  | dispatch dgram binds =>
    intro sid
    change (dispatcher.dispatch resolve dgram binds).outgoing.filterMap _ =
      ((dispatcher.dispatch resolve dgram binds).receivedFor sid).map _
    rw [dispatch_outgoing, dispatch_received_for resolve numbered]
    exact answered sid
  | closed => exact answered
  | received sock sender data =>
    exact receive_answered resolve literal numbered answered sock sender data
  | receiveFailed sock =>
    intro sid
    have kept : (dispatcher.change sock Socket.finish).receivedFor sid =
        dispatcher.receivedFor sid := received_for_change sock Socket.finish (fun _ => rfl) sid
    exact (answered sid).trans (congrArg (List.map packetFrom) kept.symm)

/-- Only messages that are dispatched send anything. -/
theorem step_sent_for (event : ServerEvent)
    (other : ∀ dgram binds, event ≠ .dispatch dgram binds) (sid : UInt32) :
    (dispatcher.step resolve event).sentFor sid = dispatcher.sentFor sid := by
  cases event with
  | dispatch dgram binds => exact absurd rfl (other dgram binds)
  | closed => rfl
  | received sock sender data =>
    simp only [Dispatcher.step, Dispatcher.received]
    split
    · rfl
    · split
      · change (dispatcher.change sock
          (·.receive sender (data.take receiveBuffer))).sentFor sid = _
        exact sent_for_change sock (·.receive sender (data.take receiveBuffer)) (fun _ => rfl) sid
      · rfl
  | receiveFailed sock => exact sent_for_change sock Socket.finish (fun _ => rfl) sid

end Histories

end OmniProxy.Hysteria2Dispatcher
