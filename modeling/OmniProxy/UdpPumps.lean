import OmniProxy.UdpFrames
import OmniProxy.Routing
import OmniProxy.LoggedRuns

/-!
# Pumps of datagrams

A client that asks for datagrams gets a pump. The pump opens one channel, through
the connector tagged `direct` when there is one, and from then on runs two tasks:
one takes the client's datagrams and hands each to the channel, the other brings
replies back. The SOCKS5 pump reads a socket of its own; the Trojan and VLESS
pumps read frames from the client's stream.

A step of a pump is one event of its surroundings: a datagram or a read, one round
of the inner loop, a failure, a reply, the end of the channel or of the control
stream. A run is any list of events, so the two tasks interleave in any way. The
log of a pump is what it has handed to its channel. The router is not asked about
a datagram; the result says exactly which runs therefore keep to its rejections.

Scheduling and the bounded capacity of the channel are left out.
-/

namespace OmniProxy.UdpPumps

open ByteStrings CheckedLoops Connections ProxyTargets AddressText UdpFrames LoggedRuns
open RuntimeConfig Outbounds RouteRules Routing

/-- Open a channel through a connector; only some types can. -/
def connectUdp (network : OutboundConnector → Except IoError Unit)
    (connector : OutboundConnector) : Except IoError Unit :=
  if connector.supportsUdp then network connector
  else .error ⟨.unsupported, "outbound '" ++ connector.tag ++ "' does not support UDP"⟩

/-- Open the channel of a pump. -/
def openUdp {Regex : Type} (network : OutboundConnector → Except IoError Unit)
    (router : Router Regex) : Except IoError OutboundConnector := do
  let connector ← router.firstUdpConnector
  connectUdp network connector
  return connector

section Socks

/-- The pump of a SOCKS5 client. -/
structure SocksPump where
  peer : Option SocketAddr
  receiving : Bool
  replying : Bool
  attached : Bool
  toRemote : List UdpPacket
  toClient : List (Bytes × SocketAddr)
deriving DecidableEq

/-- An event of a SOCKS5 pump. A datagram comes with whether the channel takes its
packet, and a reply with whether the socket sends it. -/
inductive SocksEvent where
  | datagram (bytes : Bytes) (sender : SocketAddr) (taken : Bool)
  | receiveFailed
  | reply (packet : UdpPacket) (sent : Bool)
  | remoteEnded
  | controlRead

def SocksPump.start : SocksPump := ⟨none, true, true, true, [], []⟩

/-- Take a datagram. The sender becomes the peer whether or not it can be read. -/
def SocksPump.receive (pump : SocksPump) (bytes : Bytes) (sender : SocketAddr)
    (taken : Bool) : SocksPump :=
  let pump := { pump with peer := some sender }
  match parseUdpPacket bytes with
  | .error _ => pump
  | .ok (addr, data) =>
      if taken then
        { pump with toRemote := pump.toRemote ++ [⟨none, addr.toProxyTarget, data⟩] }
      else { pump with receiving := false }

/-- Where a reply goes: to the peer, else to where the packet came from. -/
def SocksPump.replyAddr (pump : SocksPump) (packet : UdpPacket) : SocketAddr :=
  let unspecified : SocketAddr := ⟨.v4 (zeroOctets 4), 0⟩
  let source := packet.source.getD (match packet.target with
    | .tcp addr => addr
    | .domain host port =>
        (parseSocketAddr (host ++ ":" ++ toString port)).toOption.getD unspecified)
  pump.peer.getD source

def SocksPump.step (pump : SocksPump) : SocksEvent → SocksPump
  | .datagram bytes sender taken =>
      if pump.receiving then pump.receive bytes sender taken else pump
  | .receiveFailed => { pump with receiving := false }
  | .reply packet sent =>
      if !pump.replying then pump
      else if sent then
        let frame := encodeUdpPacket (Socks5Addr.fromProxyTarget packet.target) packet.data
        { pump with toClient := pump.toClient ++ [(frame, pump.replyAddr packet)] }
      else { pump with replying := false }
  | .remoteEnded => { pump with replying := false }
  | .controlRead => { pump with attached := false }

/-- The packet a client presents to the pump at an event: the one its datagram holds. -/
def SocksPump.presented (_pump : SocksPump) : SocksEvent → Option UdpPacket
  | .datagram bytes _ _ =>
      ((parseUdpPacket bytes).toOption).map fun (addr, data) => ⟨none, addr.toProxyTarget, data⟩
  | _ => none

/-- The pump still reads its socket and its channel takes what it is given. -/
def SocksPump.takes (pump : SocksPump) : SocksEvent → Bool
  | .datagram _ _ taken => pump.receiving && taken
  | _ => false

/-- The packet that an event makes the pump hand over. -/
def SocksPump.hands (pump : SocksPump) (event : SocksEvent) : Option UdpPacket :=
  if pump.takes event then pump.presented event else none

/-- A step of the pump adds what the event hands over, and nothing else. -/
theorem socks_step_appends (pump : SocksPump) (event : SocksEvent) :
    (pump.step event).toRemote = pump.toRemote ++ (pump.hands event).toList := by
  cases event with
  | datagram bytes sender taken =>
    simp only [SocksPump.step, SocksPump.hands, SocksPump.takes, SocksPump.presented,
      SocksPump.receive]
    by_cases receiving : pump.receiving = true
    · cases parseUdpPacket bytes <;> cases taken <;> simp [receiving, Except.toOption]
    · simp [receiving]
  | reply packet sent =>
    simp only [SocksPump.step, SocksPump.hands, SocksPump.takes]
    cases pump.replying <;> cases sent <;> simp
  | receiveFailed => simp [SocksPump.step, SocksPump.hands, SocksPump.takes]
  | remoteEnded => simp [SocksPump.step, SocksPump.hands, SocksPump.takes]
  | controlRead => simp [SocksPump.step, SocksPump.hands, SocksPump.takes]

/-- The SOCKS5 pump with what it has handed over as its log. -/
def socksPump : LoggedMachine UdpPacket where
  State := SocksPump
  Event := SocksEvent
  start := .start
  step := SocksPump.step
  log := SocksPump.toRemote
  emits := SocksPump.hands
  startsEmpty := rfl
  appends := socks_step_appends

end Socks

section Streams

/-- How the frames of a stream are read and how replies are written. -/
structure FrameCodec where
  nextPacket : Decoder → Answer ProxyTarget × Decoder
  encode : UdpPacket → Bytes

def trojanCodec : FrameCodec where
  nextPacket decoder :=
    let (answer, decoder) := Trojan.nextPacket decoder
    (answer.map (·.map fun (addr, data) => (addr.toProxyTarget, data)), decoder)
  encode packet := Trojan.encode (Socks5Addr.fromProxyTarget packet.target) packet.data

def vlessCodec : FrameCodec where
  nextPacket := Vless.nextPacket
  encode packet := Vless.encode packet.target packet.data

/-- The reading task waits for octets, takes frames from what it has, or has ended. -/
inductive Phase where
  | reading
  | draining
  | ended
deriving DecidableEq

/-- The pump of a client with a stream of frames. -/
structure StreamPump where
  decoder : Decoder
  phase : Phase
  replying : Bool
  toRemote : List UdpPacket
  toClient : List Bytes
deriving DecidableEq

/-- An event of a stream pump. A read of no octets is the end of the stream; a
round of the inner loop comes with whether the channel takes its packet, and a
reply with whether it could be written. -/
inductive StreamEvent where
  | read (bytes : Bytes)
  | readFailed
  | next (taken : Bool)
  | reply (packet : UdpPacket) (sent : Bool)
  | remoteEnded

def StreamPump.start : StreamPump := ⟨.new, .reading, true, [], []⟩

variable (codec : FrameCodec)

/-- One round of the inner loop. -/
def StreamPump.drain (pump : StreamPump) (taken : Bool) : StreamPump :=
  match codec.nextPacket pump.decoder with
  | (none, decoder) => { pump with decoder, phase := .reading }
  | (some (.error _), decoder) => { pump with decoder, phase := .ended }
  | (some (.ok (target, data)), decoder) =>
      if taken then
        { pump with decoder, toRemote := pump.toRemote ++ [⟨none, target, data⟩] }
      else { pump with decoder, phase := .ended }

def StreamPump.step (pump : StreamPump) : StreamEvent → StreamPump
  | .read bytes =>
      if pump.phase ≠ .reading then pump
      else if bytes.isEmpty then
        { pump with decoder := pump.decoder.markEof, phase := .ended }
      else { pump with decoder := pump.decoder.feed bytes, phase := .draining }
  | .readFailed => if pump.phase ≠ .reading then pump else { pump with phase := .ended }
  | .next taken => if pump.phase ≠ .draining then pump else pump.drain codec taken
  | .reply packet sent =>
      if !pump.replying then pump
      else if sent then { pump with toClient := pump.toClient ++ [codec.encode packet] }
      else { pump with replying := false }
  | .remoteEnded => { pump with replying := false }

/-- The packet a client presents to the pump at a round of the inner loop: the next
frame of what has been read. -/
def StreamPump.presented (pump : StreamPump) : StreamEvent → Option UdpPacket
  | .next _ =>
      match (codec.nextPacket pump.decoder).1 with
      | some (.ok (target, data)) => some ⟨none, target, data⟩
      | _ => none
  | _ => none

/-- The pump is taking frames and its channel takes what it is given. -/
def StreamPump.takes (pump : StreamPump) : StreamEvent → Bool
  | .next taken => pump.phase == .draining && taken
  | _ => false

/-- The packet that an event makes the pump hand over. -/
def StreamPump.hands (pump : StreamPump) (event : StreamEvent) : Option UdpPacket :=
  if pump.takes event then pump.presented codec event else none

/-- A step of the pump adds what the event hands over, and nothing else. -/
theorem stream_step_appends (pump : StreamPump) (event : StreamEvent) :
    (pump.step codec event).toRemote = pump.toRemote ++ (pump.hands codec event).toList := by
  cases event with
  | next taken =>
    simp only [StreamPump.step, StreamPump.hands, StreamPump.takes, StreamPump.presented,
      StreamPump.drain]
    by_cases draining : pump.phase = .draining
    · rcases codec.nextPacket pump.decoder with ⟨_ | _ | _, decoder⟩ <;> cases taken <;>
        simp [draining]
    · simp [draining]
  | read bytes =>
    simp only [StreamPump.step, StreamPump.hands, StreamPump.takes]
    split
    · simp
    · split <;> simp
  | readFailed =>
    simp only [StreamPump.step, StreamPump.hands, StreamPump.takes]
    split <;> simp
  | reply packet sent =>
    simp only [StreamPump.step, StreamPump.hands, StreamPump.takes]
    cases pump.replying <;> cases sent <;> simp
  | remoteEnded => simp [StreamPump.step, StreamPump.hands, StreamPump.takes]

/-- A stream pump with what it has handed over as its log. -/
def streamPump : LoggedMachine UdpPacket where
  State := StreamPump
  Event := StreamEvent
  start := .start
  step := StreamPump.step codec
  log := StreamPump.toRemote
  emits := StreamPump.hands codec
  startsEmpty := rfl
  appends := stream_step_appends codec

end Streams

/-- The inbounds that pump datagrams. -/
inductive UdpInbound where
  | socks
  | trojan
  | vless

/-- The pump of an inbound. -/
def pumpOf : UdpInbound → LoggedMachine UdpPacket
  | .socks => socksPump
  | .trojan => streamPump trojanCodec
  | .vless => streamPump vlessCodec

/-- The packet a client presents to the pump of an inbound at an event. -/
def presented : (inbound : UdpInbound) → (pumpOf inbound).State → (pumpOf inbound).Event →
    Option UdpPacket
  | .socks => SocksPump.presented
  | .trojan => StreamPump.presented trojanCodec
  | .vless => StreamPump.presented vlessCodec

/-- The pump of an inbound takes what it is presented at an event. -/
def takes : (inbound : UdpInbound) → (pumpOf inbound).State → (pumpOf inbound).Event → Bool
  | .socks => SocksPump.takes
  | .trojan => StreamPump.takes
  | .vless => StreamPump.takes

/-- A pump hands over what it is presented and takes; nothing else decides. -/
theorem emits_iff (inbound : UdpInbound) (state : (pumpOf inbound).State)
    (event : (pumpOf inbound).Event) (packet : UdpPacket) :
    packet ∈ (pumpOf inbound).emits state event ↔
      takes inbound state event = true ∧ presented inbound state event = some packet := by
  cases inbound with
  | socks => exact Option.ite_none_right_eq_some
  | trojan => exact Option.ite_none_right_eq_some
  | vless => exact Option.ite_none_right_eq_some

/-- The router rejects a target for datagrams of an inbound: by its own action or
through the rejecting connector. -/
def Rejected {Regex : Type} (isMatch : Regex → String → Bool) (router : Router Regex)
    (inboundTag : String) (target : ProxyTarget) : Prop :=
  router.route isMatch target none inboundTag = .reject ∨
    router.route isMatch target none inboundTag = .proxy .reject

instance {Regex : Type} (isMatch : Regex → String → Bool) (router : Router Regex)
    (inboundTag : String) (target : ProxyTarget) :
    Decidable (Rejected isMatch router inboundTag target) :=
  inferInstanceAs (Decidable (_ ∨ _))

/-- What an inbound hands to its channel: it opens one with the router's first connector for UDP,
and then its pump runs. -/
def relayUdp {Regex : Type} (network : OutboundConnector → Except IoError Unit)
    (router : Router Regex) (inbound : UdpInbound) (events : List (pumpOf inbound).Event) :
    Except IoError (List UdpPacket) := do
  let _ ← openUdp network router
  return (pumpOf inbound).log ((pumpOf inbound).run events)

/-- What was handed over came from a run of the pump. -/
theorem relay_udp_log {Regex : Type} {network : OutboundConnector → Except IoError Unit}
    {router : Router Regex} {inbound : UdpInbound} {events : List (pumpOf inbound).Event}
    {handed : List UdpPacket} (relayed : relayUdp network router inbound events = .ok handed) :
    handed = (pumpOf inbound).log ((pumpOf inbound).run events) := by
  obtain ⟨connector, -, logged⟩ := (bind_ok_iff _ _ _).mp relayed
  exact (Except.ok.inj logged).symm

/-- Exactly which runs keep to the router's rejections. For every router, every inbound and tag
whose channel was opened and every run of the inbound's pump, no packet with a rejected target has
been handed to the channel exactly when at every step at which the pump takes what it is
presented, the presented packet has another target. -/
theorem rejections_kept_iff {Regex : Type} (isMatch : Regex → String → Bool)
    (router : Router Regex) (network : OutboundConnector → Except IoError Unit)
    (inbound : UdpInbound) (inboundTag : String) (events : List (pumpOf inbound).Event)
    (handed : List UdpPacket) (relayed : relayUdp network router inbound events = .ok handed) :
    (∀ packet ∈ handed, ¬Rejected isMatch router inboundTag packet.target) ↔
      ∀ before event after, events = before ++ event :: after →
        takes inbound ((pumpOf inbound).run before) event = true →
        ∀ packet, presented inbound ((pumpOf inbound).run before) event = some packet →
          ¬Rejected isMatch router inboundTag packet.target := by
  rw [relay_udp_log relayed, log_forall_iff (pumpOf inbound)
    (fun packet => ¬Rejected isMatch router inboundTag packet.target)]
  simp only [LoggedMachine.EachStep, emits_iff, and_imp]
  constructor
  · exact fun allowed before event after split taken packet =>
      allowed before event after split packet taken
  · exact fun allowed before event after split packet taken =>
      allowed before event after split taken packet

section Examples

/-- A configuration that connects directly and rejects one domain. -/
def blockingOutbounds : List OutboundSpecWire :=
  [⟨"direct", "direct", none, []⟩,
    ⟨"block-ads", "reject", none, [("domain_suffix", .array [.string "doubleclick.net"])]⟩]

/-- The router of that configuration. -/
def blockingRouter : Router literalRegex.Regex where
  entries := [fallbackEntry "direct", {
    rule := ⟨⟨[], ["doubleclick.net"], [], []⟩, ⟨[], []⟩, [], [], ⟨[], []⟩, [], true⟩
    action := .tag "block-ads"
    hijack := none }]
  connectors := (AList.insert "direct" .direct ∅).insert "reject" .reject
  defaultTag := none
  geo := ⟨fun _ _ => false, fun _ _ => false⟩

/-- A network on which every channel opens. -/
def openNetwork (_connector : OutboundConnector) : Except IoError Unit := .ok ()

/-- A target under the rejected domain, and one that is not. -/
def adsTarget : ProxyTarget := .domain "ads.doubleclick.net" 443

def siteTarget : ProxyTarget := .domain "example.org" 443

/-- A SOCKS5 datagram to a target that the channel takes. -/
def socksDatagram (target : ProxyTarget) : SocksEvent :=
  .datagram (encodeUdpPacket (Socks5Addr.fromProxyTarget target) [1])
    ⟨.v4 ⟨[127, 0, 0, 1], rfl⟩, 40000⟩ true

/-- What the pump is presented by such a datagram to an accepted target. -/
theorem site_presented (pump : SocksPump) :
    pump.presented (socksDatagram siteTarget) = some ⟨none, siteTarget, [1]⟩ := by
  have parsed : parseUdpPacket (encodeUdpPacket (Socks5Addr.fromProxyTarget siteTarget) [1]) =
      .ok (Socks5Addr.fromProxyTarget siteTarget, [1]) := by decide
  simp [SocksPump.presented, socksDatagram, parsed, Except.toOption]

/-- A run whose only packet has another target keeps to the rejections. -/
theorem rejections_kept_example :
    relayUdp openNetwork blockingRouter .socks [socksDatagram siteTarget] =
        .ok [⟨none, siteTarget, [1]⟩] ∧
      ∀ packet ∈ [UdpPacket.mk none siteTarget [1]],
        ¬Rejected literalRegex.isMatch blockingRouter "in" packet.target := by
  have relayed : relayUdp openNetwork blockingRouter .socks [socksDatagram siteTarget] =
      .ok [⟨none, siteTarget, [1]⟩] := by
    rfl
  refine ⟨relayed, (rejections_kept_iff literalRegex.isMatch blockingRouter openNetwork .socks "in"
    [socksDatagram siteTarget] _ relayed).mpr ?_⟩
  intro before event after split _ packet shown
  have member : event ∈ before ++ event :: after :=
    List.mem_append_right before List.mem_cons_self
  rw [← split] at member
  obtain rfl := List.mem_singleton.mp member
  have same : some packet = some ⟨none, siteTarget, [1]⟩ :=
    shown.symm.trans (site_presented (socksPump.run before))
  obtain rfl := Option.some.inj same
  change ¬Rejected literalRegex.isMatch blockingRouter "in" siteTarget
  decide

/-- All three inbounds hand on a packet to a rejected domain. -/
theorem rejected_packet_handed_on :
    CoreRuntime.initialize plainEnvironment (outboundsOnly blockingOutbounds) =
        .ok ⟨[], blockingRouter, none⟩ ∧
      openUdp openNetwork blockingRouter = .ok .direct ∧
      Rejected literalRegex.isMatch blockingRouter "in" adsTarget ∧
      socksPump.log (socksPump.run [socksDatagram adsTarget]) = [⟨none, adsTarget, [1]⟩] ∧
      (streamPump trojanCodec).log ((streamPump trojanCodec).run
        [.read (Trojan.encode (Socks5Addr.fromProxyTarget adsTarget) [1]), .next true]) =
          [⟨none, adsTarget, [1]⟩] ∧
      (streamPump vlessCodec).log ((streamPump vlessCodec).run
        [.read (Vless.encode adsTarget [1] ++ [0, 0]), .next true]) =
          [⟨none, adsTarget, [1, 0, 0]⟩] :=
  ⟨rfl, rfl, by decide, by decide, by decide, by decide⟩

end Examples

end OmniProxy.UdpPumps
