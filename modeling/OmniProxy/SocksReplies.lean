import OmniProxy.SocksAssociations

/-!
# Where the replies of a SOCKS association go

The task that takes datagrams notes the sender of every datagram as the peer, before it
looks whether the datagram holds a packet. The task that brings replies sends each to the
peer it finds. So a reply is due to the sender of the last datagram that held a packet, and
goes to the sender of the last datagram.

To compare the two, an association is watched: beside its state stand the last datagram that
was read, the sender of the last one that held a packet, and both as they were when the reply
at hand was given its address. The tasks see nothing of this.
-/

namespace OmniProxy.SocksReplies

open ByteStrings GuardedRuns ProxyTargets SocksAssociations UdpFrames UdpPumps

section Watching

/-- The octets hold a packet. -/
def Valid (bytes : Bytes) : Prop := (parseUdpPacket bytes).toOption.isSome

instance (bytes : Bytes) : Decidable (Valid bytes) :=
  inferInstanceAs (Decidable ((parseUdpPacket bytes).toOption.isSome = true))

/-- Where a reply is sent when the peer is the client: to it, and to the source of the reply
while there is none. -/
def dueAddr (client : Option SocketAddr) (packet : UdpPacket) : SocketAddr :=
  { Association.start with peer := client }.toPump.replyAddr packet

structure Watched where
  association : Association
  heard : Option (Bytes × SocketAddr)
  client : Option SocketAddr
  lookedUp : Option (Bytes × SocketAddr)
  due : Option SocketAddr

def Watched.start : Watched := ⟨.start, none, none, none, none⟩

/-- What is noted of a step beside the state after it. -/
def Watched.step (watched : Watched) (event : Event) : Watched :=
  let association := watched.association.step event
  match event, watched.association.receiver, watched.association.replier with
  | .readDatagram, .received bytes sender, _ =>
      { watched with
        association
        heard := some (bytes, sender)
        client := if Valid bytes then some sender else watched.client }
  | .addressReply, _, .taken packet =>
      { watched with
        association
        lookedUp := watched.heard
        due := some (dueAddr watched.client packet) }
  | _, _, _ => { watched with association }

/-- Watching changes nothing. -/
theorem watched_association (watched : Watched) (event : Event) :
    (watched.step event).association = watched.association.step event := by
  unfold Watched.step
  split <;> rfl

/-- A run that is watched is a run of the association. -/
theorem watched_run (watched : Watched) (events : List Event) :
    (run Watched.step watched events).association =
      run Association.step watched.association events := by
  induction events generalizing watched with
  | nil => rfl
  | cons event events inductionHypothesis =>
    have later := inductionHypothesis (watched.step event)
    rw [watched_association] at later
    exact later

end Watching

section Peers

/-- What the peer and the destination of the reply at hand have to do with what was read: the
destination is the due one exactly when the datagram it was taken from held a packet, or came
from there all the same. -/
structure Tracked (watched : Watched) : Prop where
  peer : watched.association.peer = watched.heard.map Prod.snd
  client : ∀ datagram ∈ watched.heard, Valid datagram.1 → watched.client = some datagram.2
  silent : watched.heard = none → watched.client = none
  sending : ∀ frame dst, watched.association.replier = .sending frame dst →
    (watched.due = some dst ↔
      ∀ datagram ∈ watched.lookedUp, Valid datagram.1 ∨ watched.due = some datagram.2)

/-- Before any datagram there is no peer and no destination due. -/
theorem tracked_start : Tracked .start := by
  refine ⟨rfl, ?_, fun _ => rfl, ?_⟩
  · rintro datagram ⟨⟩
  · intro frame dst holds
    cases holds

/-- The address that is looked up is the due one exactly under that condition. -/
theorem looked_up_iff {watched : Watched} (tracked : Tracked watched) (packet : UdpPacket) :
    some (dueAddr watched.client packet) =
        some (watched.association.toPump.replyAddr packet) ↔
      ∀ datagram ∈ watched.heard,
        Valid datagram.1 ∨ some (dueAddr watched.client packet) = some datagram.2 := by
  have found : watched.association.toPump.replyAddr packet =
      dueAddr (watched.heard.map Prod.snd) packet := by
    rw [← tracked.peer]
    rfl
  rw [found]
  cases heard : watched.heard with
  | none =>
    rw [tracked.silent heard]
    simp
  | some datagram =>
    have noted : dueAddr (some datagram.2) packet = datagram.2 := rfl
    simp only [Option.map_some, noted, Option.mem_def, Option.some.injEq, forall_eq']
    constructor
    · exact .inr
    · rintro (valid | same)
      · rw [tracked.client datagram heard valid, noted]
      · exact same

/-- Steps of an association other than noting a datagram or addressing a reply keep the peer,
and do not bring the replying task to a send. -/
theorem step_keeps (association : Association) (event : Event)
    (reading : ∀ bytes sender, event = .readDatagram →
      association.receiver ≠ .received bytes sender)
    (addressing : ∀ packet, event = .addressReply → association.replier ≠ .taken packet) :
    (association.step event).peer = association.peer ∧
      ∀ frame dst, (association.step event).replier = .sending frame dst →
        association.replier = .sending frame dst := by
  obtain ⟨peer, receiver, replier, attached, toRemote, toClient⟩ := association
  cases event with
  | readDatagram =>
    cases receiver with
    | received bytes sender => exact absurd rfl (reading bytes sender rfl)
    | _ => exact ⟨rfl, fun _ _ holds => holds⟩
  | addressReply =>
    cases replier with
    | taken packet => exact absurd rfl (addressing packet rfl)
    | _ => exact ⟨rfl, fun _ _ holds => holds⟩
  | datagram bytes sender => cases receiver <;> exact ⟨rfl, fun _ _ holds => holds⟩
  | receiveFailed => cases receiver <;> exact ⟨rfl, fun _ _ holds => holds⟩
  | channelTakes => cases receiver <;> exact ⟨rfl, fun _ _ holds => holds⟩
  | channelClosed => cases receiver <;> exact ⟨rfl, fun _ _ holds => holds⟩
  | reply packet => cases replier <;> simp [Association.step]
  | remoteEnded => cases replier <;> simp [Association.step]
  | socketSends => cases replier <;> simp [Association.step]
  | socketFails => cases replier <;> simp [Association.step]
  | controlRead => exact ⟨rfl, fun _ _ holds => holds⟩

/-- Every step keeps this. -/
theorem tracked_step (watched : Watched) (event : Event) (tracked : Tracked watched) :
    Tracked (watched.step event) := by
  unfold Watched.step
  split
  · next bytes sender received =>
    have noted : (watched.association.step .readDatagram).peer = some sender ∧
        (watched.association.step .readDatagram).replier = watched.association.replier := by
      simp only [Association.step, received, Association.readDatagram]
      split <;> exact ⟨rfl, rfl⟩
    refine ⟨noted.1, ?_, ?_, ?_⟩
    · rintro datagram ⟨⟩ valid
      exact if_pos valid
    · intro nothing
      cases nothing
    · intro frame dst holds
      exact tracked.sending frame dst (noted.2 ▸ holds)
  · next packet taken =>
    have addressed : (watched.association.step .addressReply).peer = watched.association.peer ∧
        (watched.association.step .addressReply).replier = .sending
          (encodeUdpPacket (Socks5Addr.fromProxyTarget packet.target) packet.data)
          (watched.association.toPump.replyAddr packet) := by
      simp [Association.step, taken, Association.addressReply]
    refine ⟨addressed.1.trans tracked.peer, tracked.client, tracked.silent, ?_⟩
    intro frame dst holds
    obtain ⟨rfl, rfl⟩ := Replier.sending.inj (addressed.2.symm.trans holds)
    exact looked_up_iff tracked packet
  · next reading addressing =>
    obtain ⟨peer, replier⟩ := step_keeps watched.association _ reading addressing
    exact ⟨peer.trans tracked.peer, tracked.client, tracked.silent,
      fun frame dst holds => tracked.sending frame dst (replier frame dst holds)⟩

end Peers

section Replies

/-- The socket sends the reply at hand. -/
def Sends (watched : Watched) (event : Event) (dst : SocketAddr) : Prop :=
  event = .socketSends ∧ ∃ frame, watched.association.replier = .sending frame dst

/-- A reply that is sent goes to the sender of the last datagram that held a packet when its
address was looked up, or to its own source when there was none. -/
def SentToClient (watched : Watched) (event : Event) : Prop :=
  ∀ dst, Sends watched event dst → watched.due = some dst

/-- When a reply is sent, the last datagram before its address was looked up held a packet, or
it came from where the reply is due. -/
def Undisturbed (watched : Watched) (event : Event) : Prop :=
  ∀ dst, Sends watched event dst →
    ∀ datagram ∈ watched.lookedUp, Valid datagram.1 ∨ watched.due = some datagram.2

/-- What is watched is a run of the association, and in exactly those runs every reply goes to the
client. -/
theorem replies_reach_client_iff (events : List Event) :
    (run Watched.step .start events).association = run Association.step .start events ∧
      (EachStep Watched.step .start SentToClient events ↔
        EachStep Watched.step .start Undisturbed events) := by
  refine ⟨watched_run .start events, ?_⟩
  have same (watched : Watched) (event : Event) (tracked : Tracked watched) :
      SentToClient watched event ↔ Undisturbed watched event := by
    apply forall_congr'
    intro dst
    apply imp_congr_right
    rintro ⟨-, frame, holds⟩
    exact tracked.sending frame dst holds
  exact each_step_congr tracked_start tracked_step same events

/-- Where somebody else sends from. -/
def strangerAddr : SocketAddr := ⟨.v4 ⟨[203, 0, 113, 9], rfl⟩, 5353⟩

/-- A datagram of a stranger that holds no packet comes between a request and its reply, and
the reply goes to the stranger. -/
theorem stranger_gets_reply :
    ¬EachStep Watched.step .start SentToClient
      [.datagram siteDatagram clientAddr, .readDatagram, .channelTakes,
        .datagram [0xFF] strangerAddr, .readDatagram, .reply ⟨none, siteTarget, [2]⟩,
        .addressReply, .socketSends] := by
  intro each
  have sent := each
    [.datagram siteDatagram clientAddr, .readDatagram, .channelTakes,
      .datagram [0xFF] strangerAddr, .readDatagram, .reply ⟨none, siteTarget, [2]⟩, .addressReply]
    .socketSends [] rfl strangerAddr ⟨rfl, _, rfl⟩
  exact absurd sent (by decide)

end Replies

end OmniProxy.SocksReplies
