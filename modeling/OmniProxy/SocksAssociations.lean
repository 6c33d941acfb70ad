import OmniProxy.UdpPumps
import OmniProxy.GuardedRuns

/-!
# The end of a SOCKS association

The pump of a SOCKS5 client runs two tasks and reads from the control stream; when that
read returns the client has closed it, and the pump returns. The tasks are separate and
share the socket, the address of the peer and the channel.

Here each task is taken apart at the points where it waits, so that a run may let the
other task or the control stream come in between. Nothing in the tasks looks at the
control stream; the result says exactly which runs keep the association from going on
after its end.
-/

namespace OmniProxy.SocksAssociations

open ByteStrings ProxyTargets UdpFrames UdpPumps GuardedRuns

/-- The task that takes datagrams: it waits for one, has one and waits for the peer's
address, waits for the channel with its packet, or has ended. -/
inductive Receiver where
  | waiting
  | received (bytes : Bytes) (sender : SocketAddr)
  | sending (packet : UdpPacket)
  | ended

/-- The task that brings replies: it waits for one, has one and waits for the peer's
address, waits for the socket with its frame, or has ended. -/
inductive Replier where
  | waiting
  | taken (packet : UdpPacket)
  | sending (frame : Bytes) (dst : SocketAddr)
  | ended

structure Association where
  peer : Option SocketAddr
  receiver : Receiver
  replier : Replier
  attached : Bool
  toRemote : List UdpPacket
  toClient : List (Bytes × SocketAddr)

/-- What happens around the tasks, or that one of them goes on. -/
inductive Event where
  | datagram (bytes : Bytes) (sender : SocketAddr)
  | receiveFailed
  | readDatagram
  | channelTakes
  | channelClosed
  | reply (packet : UdpPacket)
  | remoteEnded
  | addressReply
  | socketSends
  | socketFails
  | controlRead

def Association.start : Association := ⟨none, .waiting, .waiting, true, [], []⟩

/-- The pump as it is seen when no task is in the middle of a round. -/
def Association.toPump (association : Association) : SocksPump where
  peer := association.peer
  receiving := match association.receiver with
    | .ended => false
    | _ => true
  replying := match association.replier with
    | .ended => false
    | _ => true
  attached := association.attached
  toRemote := association.toRemote
  toClient := association.toClient

/-- The receiving task between two rounds, from a pump. -/
def Receiver.idle (receiving : Bool) : Receiver := if receiving then .waiting else .ended

/-- The replying task between two rounds, from a pump. -/
def Replier.idle (replying : Bool) : Replier := if replying then .waiting else .ended

/-- A pump between two rounds of its tasks. -/
def Association.ofPump (pump : SocksPump) : Association :=
  ⟨pump.peer, .idle pump.receiving, .idle pump.replying, pump.attached, pump.toRemote,
    pump.toClient⟩

/-- Note the sender of a datagram as the peer and offer its packet, if it holds one. -/
def Association.readDatagram (association : Association) (bytes : Bytes) (sender : SocketAddr) :
    Association :=
  match parseUdpPacket bytes with
  | .ok (addr, data) => { association with
      peer := some sender
      receiver := .sending ⟨none, addr.toProxyTarget, data⟩ }
  | .error _ => { association with peer := some sender, receiver := .waiting }

/-- Make a frame of a reply and look up where it goes. -/
def Association.addressReply (association : Association) (packet : UdpPacket) : Association :=
  { association with
    replier := .sending (encodeUdpPacket (Socks5Addr.fromProxyTarget packet.target) packet.data)
      (association.toPump.replyAddr packet) }

def Association.step (association : Association) (event : Event) : Association :=
  match event, association.receiver, association.replier with
  | .datagram bytes sender, .waiting, _ => { association with receiver := .received bytes sender }
  | .receiveFailed, .waiting, _ => { association with receiver := .ended }
  | .readDatagram, .received bytes sender, _ => association.readDatagram bytes sender
  | .channelTakes, .sending packet, _ =>
      { association with receiver := .waiting, toRemote := association.toRemote ++ [packet] }
  | .channelClosed, .sending _, _ => { association with receiver := .ended }
  | .reply packet, _, .waiting => { association with replier := .taken packet }
  | .remoteEnded, _, .waiting => { association with replier := .ended }
  | .addressReply, _, .taken packet => association.addressReply packet
  | .socketSends, _, .sending frame dst =>
      { association with replier := .waiting, toClient := association.toClient ++ [(frame, dst)] }
  | .socketFails, _, .sending _ _ => { association with replier := .ended }
  | .controlRead, _, _ => { association with attached := false }
  | _, _, _ => association

/-- The packet that an event makes the receiving task hand over. -/
def Association.forwards (association : Association) : Event → List UdpPacket
  | .channelTakes => match association.receiver with
      | .sending packet => [packet]
      | _ => []
  | _ => []

/-- The frame that an event makes the replying task send. -/
def Association.answers (association : Association) : Event → List (Bytes × SocketAddr)
  | .socketSends => match association.replier with
      | .sending frame dst => [(frame, dst)]
      | _ => []
  | _ => []

/-- What a step does to the logs. -/
theorem step_logs (association : Association) (event : Event) :
    (association.step event).toRemote = association.toRemote ++ association.forwards event ∧
      (association.step event).toClient = association.toClient ++ association.answers event := by
  obtain ⟨peer, receiver, replier, attached, toRemote, toClient⟩ := association
  cases event with
  | datagram bytes sender =>
    cases receiver <;> simp [Association.step, Association.forwards, Association.answers]
  | receiveFailed =>
    cases receiver <;> simp [Association.step, Association.forwards, Association.answers]
  | readDatagram =>
    cases receiver with
    | received bytes sender =>
      cases parsed : parseUdpPacket bytes <;>
        simp [Association.step, Association.forwards, Association.answers,
          Association.readDatagram, parsed]
    | _ => simp [Association.step, Association.forwards, Association.answers]
  | channelTakes =>
    cases receiver <;> simp [Association.step, Association.forwards, Association.answers]
  | channelClosed =>
    cases receiver <;> simp [Association.step, Association.forwards, Association.answers]
  | reply packet =>
    cases replier <;> simp [Association.step, Association.forwards, Association.answers]
  | remoteEnded =>
    cases replier <;> simp [Association.step, Association.forwards, Association.answers]
  | addressReply =>
    cases replier <;>
      simp [Association.step, Association.forwards, Association.answers, Association.addressReply]
  | socketSends =>
    cases replier <;> simp [Association.step, Association.forwards, Association.answers]
  | socketFails =>
    cases replier <;> simp [Association.step, Association.forwards, Association.answers]
  | controlRead => simp [Association.step, Association.forwards, Association.answers]

section Rounds

/-- The steps of the tasks that an event of the pump takes when nothing comes in between. -/
def roundOf : SocksEvent → List Event
  | .datagram bytes sender taken =>
      [.datagram bytes sender, .readDatagram, if taken then .channelTakes else .channelClosed]
  | .receiveFailed => [.receiveFailed]
  | .reply packet sent =>
      [.reply packet, .addressReply, if sent then .socketSends else .socketFails]
  | .remoteEnded => [.remoteEnded]
  | .controlRead => [.controlRead]

/-- Rounds that nothing interrupts are the steps of the pump. -/
theorem uninterrupted_round (pump : SocksPump) (event : SocksEvent) :
    run Association.step (.ofPump pump) (roundOf event) = .ofPump (pump.step event) := by
  obtain ⟨peer, receiving, replying, attached, toRemote, toClient⟩ := pump
  cases event with
  | datagram bytes sender taken =>
    cases receiving with
    | false =>
      cases taken <;> simp [run, roundOf, Association.ofPump, Receiver.idle, Association.step,
        SocksPump.step]
    | true =>
      cases parsed : parseUdpPacket bytes <;> cases taken <;>
        simp [run, roundOf, Association.ofPump, Receiver.idle, Association.step, SocksPump.step,
          SocksPump.receive, Association.readDatagram, parsed]
  | receiveFailed =>
    cases receiving <;> simp [run, roundOf, Association.ofPump, Receiver.idle, Association.step,
      SocksPump.step]
  | reply packet sent =>
    cases replying with
    | false =>
      cases sent <;> simp [run, roundOf, Association.ofPump, Replier.idle, Association.step,
        SocksPump.step]
    | true =>
      cases sent <;> simp [run, roundOf, Association.ofPump, Replier.idle, Association.step,
        SocksPump.step, Association.addressReply, Association.toPump, SocksPump.replyAddr]
  | remoteEnded =>
    cases replying <;> simp [run, roundOf, Association.ofPump, Replier.idle, Association.step,
      SocksPump.step]
  | controlRead =>
    simp [run, roundOf, Association.ofPump, Association.step, SocksPump.step]

end Rounds

section Endings

/-- An event makes neither task finish a send. -/
def SendsNothing (association : Association) (event : Event) : Prop :=
  association.forwards event = [] ∧ association.answers event = []

/-- A run only adds to the logs. -/
theorem run_logs (start : Association) (events : List Event) :
    ∃ packets frames,
      (run Association.step start events).toRemote = start.toRemote ++ packets ∧
      (run Association.step start events).toClient = start.toClient ++ frames := by
  induction events generalizing start with
  | nil => exact ⟨[], [], by simp [run], by simp [run]⟩
  | cons event events inductionHypothesis =>
    obtain ⟨packets, frames, remote, client⟩ := inductionHypothesis (start.step event)
    obtain ⟨forwarded, answered⟩ := step_logs start event
    refine ⟨start.forwards event ++ packets, start.answers event ++ frames, ?_, ?_⟩
    · rw [← List.append_assoc, ← forwarded]
      exact remote
    · rw [← List.append_assoc, ← answered]
      exact client

/-- What a run adds to the logs is nothing exactly when no step of it finishes a send. -/
theorem logs_kept_iff (start : Association) (events : List Event) :
    ((run Association.step start events).toRemote = start.toRemote ∧
        (run Association.step start events).toClient = start.toClient) ↔
      EachStep Association.step start SendsNothing events := by
  induction events generalizing start with
  | nil => exact iff_of_true ⟨rfl, rfl⟩ each_step_nil
  | cons event events inductionHypothesis =>
    obtain ⟨forwarded, answered⟩ := step_logs start event
    obtain ⟨packets, frames, remote, client⟩ := run_logs (start.step event) events
    rw [each_step_cons, ← inductionHypothesis]
    change ((run _ (start.step event) events).toRemote = _ ∧
      (run _ (start.step event) events).toClient = _) ↔ _
    rw [remote, client, forwarded, answered, SendsNothing]
    simp only [List.append_assoc, List.append_right_eq_self, List.append_cancel_left_eq,
      List.append_eq_nil_iff]
    exact and_and_and_comm

/-- The logs from a point of a run on. -/
theorem logs_kept_after_iff (before events : List Event) :
    ((run Association.step .start (before ++ events)).toRemote =
          (run Association.step .start before).toRemote ∧
        (run Association.step .start (before ++ events)).toClient =
          (run Association.step .start before).toClient) ↔
      EachStep Association.step (run Association.step .start before) SendsNothing events := by
  rw [← logs_kept_iff, ← run_append]

/-- After the read on the control stream nothing is forwarded and no reply is sent. -/
def EndsWithControl (events : List Event) : Prop :=
  ∀ before after, events = before ++ .controlRead :: after →
    (run Association.step .start events).toRemote =
        (run Association.step .start (before ++ [.controlRead])).toRemote ∧
      (run Association.step .start events).toClient =
        (run Association.step .start (before ++ [.controlRead])).toClient

/-- The surroundings let a packet of the receiving task through: the channel takes the one that
the task holds, or that of a datagram which comes in and is read. -/
def LetsForward (receiver : Receiver) : List Event → Prop
  | [] => False
  | event :: rest =>
      match receiver, event with
      | .waiting, .datagram bytes sender => LetsForward (.received bytes sender) rest
      | .waiting, .receiveFailed => False
      | .received bytes _, .readDatagram =>
          match parseUdpPacket bytes with
          | .ok (addr, data) => LetsForward (.sending ⟨none, addr.toProxyTarget, data⟩) rest
          | .error _ => LetsForward .waiting rest
      | .sending _, .channelTakes => True
      | .sending _, .channelClosed => False
      | .ended, _ => False
      | _, _ => LetsForward receiver rest

/-- The surroundings let a frame of the replying task through: the socket takes the one that
the task holds, or that of a reply which comes in and is addressed. -/
def LetsAnswer (replier : Replier) : List Event → Prop
  | [] => False
  | event :: rest =>
      match replier, event with
      | .waiting, .reply packet => LetsAnswer (.taken packet) rest
      | .waiting, .remoteEnded => False
      | .taken _, .addressReply => ∃ frame dst, LetsAnswer (.sending frame dst) rest
      | .sending _ _, .socketSends => True
      | .sending _ _, .socketFails => False
      | .ended, _ => False
      | _, _ => LetsAnswer replier rest

/-- What the surroundings bring and take lets something through that the tasks hold, or that
comes to them later. -/
def LetsThrough (association : Association) (events : List Event) : Prop :=
  LetsForward association.receiver events ∨ LetsAnswer association.replier events

/-- A task that has ended lets nothing through. -/
theorem ended_lets_nothing (events : List Event) :
    ¬LetsForward .ended events ∧ ¬LetsAnswer .ended events := by
  cases events <;> exact ⟨id, id⟩

/-- A frame is let through or not whatever is in it. -/
theorem lets_answer_any (frame other : Bytes) (dst addr : SocketAddr) (events : List Event) :
    LetsAnswer (.sending frame dst) events → LetsAnswer (.sending other addr) events := by
  induction events with
  | nil => exact id
  | cons event events inductionHypothesis =>
    cases event <;> first | exact id | exact inductionHypothesis

/-- The receiving task gets something through in a step or later. -/
theorem lets_forward_cons (association : Association) (event : Event) (events : List Event) :
    LetsForward association.receiver (event :: events) ↔
      association.forwards event ≠ [] ∨
        LetsForward (association.step event).receiver events := by
  obtain ⟨peer, receiver, replier, attached, toRemote, toClient⟩ := association
  have ended := (ended_lets_nothing events).1
  cases event with
  | readDatagram =>
    cases receiver with
    | received bytes sender =>
      cases parsed : parseUdpPacket bytes <;>
        simp [LetsForward, Association.forwards, Association.step, Association.readDatagram, parsed]
    | _ => simp [LetsForward, Association.forwards, Association.step, ended]
  | _ =>
    cases receiver <;> simp [LetsForward, Association.forwards, Association.step, ended] <;>
      cases replier <;> simp [ended, Association.addressReply]

/-- And the replying task. -/
theorem lets_answer_cons (association : Association) (event : Event) (events : List Event) :
    LetsAnswer association.replier (event :: events) ↔
      association.answers event ≠ [] ∨
        LetsAnswer (association.step event).replier events := by
  obtain ⟨peer, receiver, replier, attached, toRemote, toClient⟩ := association
  have ended := (ended_lets_nothing events).2
  cases event with
  | addressReply =>
    cases replier with
    | taken packet =>
      simp only [LetsAnswer, Association.answers, Association.step, ne_eq, not_true_eq_false,
        false_or]
      exact ⟨fun ⟨frame, dst, lets⟩ => lets_answer_any frame _ dst _ events lets,
        fun lets => ⟨_, _, lets⟩⟩
    | _ => simp [LetsAnswer, Association.answers, Association.step, ended]
  | readDatagram =>
    cases receiver with
    | received bytes sender =>
      cases parsed : parseUdpPacket bytes <;> cases replier <;>
        simp [LetsAnswer, Association.answers, Association.step, Association.readDatagram, parsed,
          ended]
    | _ => cases replier <;> simp [LetsAnswer, Association.answers, Association.step, ended]
  | _ =>
    cases replier <;> simp [LetsAnswer, Association.answers, Association.step, ended] <;>
      cases receiver <;> simp [ended]

/-- The tasks finish no send exactly when the surroundings let nothing through. -/
theorem sends_nothing_iff (association : Association) (events : List Event) :
    EachStep Association.step association SendsNothing events ↔
      ¬LetsThrough association events := by
  induction events generalizing association with
  | nil => exact iff_of_true each_step_nil fun lets => lets.elim id id
  | cons event events inductionHypothesis =>
    rw [each_step_cons, inductionHypothesis]
    simp only [LetsThrough, lets_forward_cons, lets_answer_cons, SendsNothing, not_or, ne_eq,
      not_not]
    exact and_and_and_comm

/-- Exactly which runs end with their control stream: those in which the surroundings, from the
moment the read on it returns, let nothing through, neither of what the tasks hold then nor of
what comes to them later. -/
theorem ends_with_control_iff (events : List Event) :
    EndsWithControl events ↔ ∀ before after, events = before ++ .controlRead :: after →
      ¬LetsThrough (run Association.step .start before) after := by
  have split (before after : List Event) :
      before ++ Event.controlRead :: after = (before ++ [.controlRead]) ++ after := by simp
  have same (before : List Event) (after : List Event) :
      LetsThrough (run Association.step .start (before ++ [.controlRead])) after ↔
        LetsThrough (run Association.step .start before) after := by
    rw [run_snoc]
    rfl
  constructor
  · rintro ends before after rfl
    have kept := ends before after rfl
    rw [split, logs_kept_after_iff, sends_nothing_iff, same] at kept
    exact kept
  · rintro quiet before after rfl
    rw [split, logs_kept_after_iff, sends_nothing_iff, same]
    exact quiet before after rfl

section Examples

/-- Where a client sends from. -/
def clientAddr : SocketAddr := ⟨.v4 ⟨[192, 0, 2, 7], rfl⟩, 40000⟩

/-- A datagram with one octet for a target. -/
def siteDatagram : Bytes := encodeUdpPacket (Socks5Addr.fromProxyTarget siteTarget) [1]

/-- A datagram that arrives after the client closed the control stream is forwarded. -/
theorem forwarded_after_control :
    ¬EndsWithControl [.controlRead, .datagram siteDatagram clientAddr, .readDatagram,
      .channelTakes] := by
  intro ends
  have kept := (ends [] [.datagram siteDatagram clientAddr, .readDatagram, .channelTakes] rfl).1
  exact absurd kept (by decide)

end Examples

end Endings

end OmniProxy.SocksAssociations
