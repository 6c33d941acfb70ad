import OmniProxy.PacketFlows
import OmniProxy.TrojanInbound
import OmniProxy.UdpFrameStreams
import OmniProxy.UdpPumps

/-!
# Datagrams between a Trojan client and its server

A Trojan client asks for datagrams with a head of its own and then runs two tasks: one
writes the packets of its handle as frames, the other reads frames and hands their packets
to the handle. The server answers with the pump of a Trojan inbound. A step of a session is
a step of either side or of the stream between them, so the four tasks interleave in any
way, octets arrive in any pieces, and writes, reads and handovers fail at any time.

Each direction of a session is a flow of packets; the result says what the flows guarantee
in every run of a session.

Scheduling and the bounded capacity of the channels are left out.
-/

namespace OmniProxy.TrojanUdpRelay

open ByteStrings Connections Digests GuardedRuns IncrementalDecoding PacketFlows ProxyTargets
open TrojanHeads TrojanInbound UdpFrameStreams UdpFrames UdpPumps Utf8Text

section Model

/-- The hash of a password in hexadecimal digits. -/
def passwordHash (sha224 : Bytes → Octets 28) (password : String) : String :=
  hexEncode (sha224 (asBytes password)).toList

structure TrojanOutboundConfig where
  server : String
  serverPort : UInt16
  password : String

def TrojanOutboundConfig.hash (sha224 : Bytes → Octets 28) (cfg : TrojanOutboundConfig) : String :=
  passwordHash sha224 cfg.password

/-- Ask for datagrams: the client writes a head and keeps a decoder for the answers. -/
def UdpRelayClient.start (sha224 : Bytes → Octets 28) (cfg : TrojanOutboundConfig) :
    Io Decoder := do
  writeAll (encodeRequestHead cmdUdpAssociate (.domain "0.0.0.0" 0) (cfg.hash sha224))
  return Decoder.new

/-- The two tasks of a client with a handle: what the handle has queued and was promised to be
sent, and the reading of frames. The handle is held until it is dropped. -/
structure BridgeUdp where
  rxOut : List UdpPacket
  accepted : List UdpPacket
  held : Bool
  sending : Bool
  decoder : Decoder
  phase : Phase
  eof : Bool
  received : List UdpPacket

def BridgeUdp.start : BridgeUdp := ⟨[], [], true, true, .new, .draining, false, []⟩

/-- Send a packet through the handle; it is refused when the sending task has gone. -/
def BridgeUdp.push (bridge : BridgeUdp) (packet : UdpPacket) : BridgeUdp :=
  if bridge.held && bridge.sending then
    { bridge with rxOut := bridge.rxOut ++ [packet], accepted := bridge.accepted ++ [packet] }
  else bridge

/-- One round of receiving: a packet goes to the handle, which takes it or has gone. Without a
packet the task reads on, unless the stream has ended. -/
def BridgeUdp.recvFrom (bridge : BridgeUdp) (taken : Bool) : BridgeUdp :=
  match Trojan.nextPacket bridge.decoder with
  | (some (.ok (addr, data)), decoder) =>
      if taken then
        { bridge with decoder, received := bridge.received ++ [⟨none, addr.toProxyTarget, data⟩] }
      else { bridge with decoder, phase := .ended }
  | (some (.error _), decoder) => { bridge with decoder, phase := .ended }
  | (none, decoder) =>
      if bridge.eof then { bridge with decoder, phase := .ended }
      else { bridge with decoder, phase := .reading }

/-- A client, its server, and the octets on their way between them. -/
structure Session where
  client : BridgeUdp
  server : StreamPump
  up : Bytes
  down : Bytes
  upBroken : Bool
  downBroken : Bool
  answered : List UdpPacket

/-- A step of one of the four tasks, of the handle, of the server's channel, or of the stream. -/
inductive Event where
  | push (packet : UdpPacket)
  | release
  | sendRound
  | sendFails (count : Nat)
  | upArrives (count : Nat)
  | upEnds
  | upFails
  | serverNext (taken : Bool)
  | reply (packet : UdpPacket)
  | replyFails (packet : UdpPacket) (count : Nat)
  | remoteEnded
  | downArrives (count : Nat)
  | downEnds
  | downFails
  | clientNext (taken : Bool)

def Session.start : Session := ⟨.start, .start, [], [], false, false, []⟩

/-- The room of a read. -/
def readRoom : Nat := 65536

/-- The client sends the first packet of its handle, or leaves when the handle was dropped. -/
def Session.sendRound (session : Session) : Session :=
  if session.client.sending then
    match session.client.rxOut with
    | [] =>
        if session.client.held then session
        else { session with client := { session.client with sending := false } }
    | packet :: rxOut =>
        { session with
          client := { session.client with rxOut }
          up := session.up ++ trojanCodec.encode packet }
  else session

/-- The write of the first packet fails after some octets, and the client sends no more. -/
def Session.sendFails (session : Session) (count : Nat) : Session :=
  if session.client.sending then
    match session.client.rxOut with
    | [] => session
    | packet :: _ =>
        { session with
          client := { session.client with rxOut := [], sending := false }
          up := session.up ++ (trojanCodec.encode packet).take count
          upBroken := true }
  else session

/-- The server writes the frame of a reply, or some octets of it. -/
def Session.reply (session : Session) (packet : UdpPacket) (sent : Bool) (octets : Bytes) :
    Session :=
  if session.server.replying then
    { session with
      server := session.server.step trojanCodec (.reply packet sent)
      down := session.down ++ octets
      downBroken := session.downBroken || !sent
      answered := session.answered ++ [packet] }
  else session

def Session.step (session : Session) : Event → Session
  | .push packet => { session with client := session.client.push packet }
  | .release => { session with client := { session.client with held := false } }
  | .sendRound => session.sendRound
  | .sendFails count => session.sendFails count
  | .upArrives count =>
      let piece := session.up.take (min count readRoom)
      if session.server.phase = .reading ∧ piece ≠ [] then
        { session with
          server := session.server.step trojanCodec (.read piece)
          up := session.up.drop (min count readRoom) }
      else session
  | .upEnds => { session with server := session.server.step trojanCodec (.read []) }
  | .upFails => { session with server := session.server.step trojanCodec .readFailed }
  | .serverNext taken =>
      { session with server := session.server.step trojanCodec (.next taken) }
  | .reply packet => session.reply packet true (trojanCodec.encode packet)
  | .replyFails packet count => session.reply packet false ((trojanCodec.encode packet).take count)
  | .remoteEnded => { session with server := session.server.step trojanCodec .remoteEnded }
  | .downArrives count =>
      let piece := session.down.take (min count readRoom)
      if session.client.phase = .reading ∧ piece ≠ [] then
        { session with
          client := { session.client with
            decoder := session.client.decoder.feed piece, phase := .draining }
          down := session.down.drop (min count readRoom) }
      else session
  | .downEnds =>
      if session.client.phase = .reading then
        { session with client := { session.client with eof := true, phase := .draining } }
      else session
  | .downFails =>
      if session.client.phase = .reading then
        { session with client := { session.client with phase := .ended } }
      else session
  | .clientNext taken =>
      if session.client.phase = .draining then
        { session with client := session.client.recvFrom taken }
      else session

/-- The session after a list of events. -/
def sessionRun (events : List Event) : Session := run Session.step Session.start events

end Model

section Frames

/-- A packet that can be told from its frame: its target has a name or an address that can be
written, and its data has a length that can. -/
def Usable (packet : UdpPacket) : Prop := packet.target.named ∧ packet.data.length ≤ 65535

instance (packet : UdpPacket) : Decidable (Usable packet) :=
  inferInstanceAs (Decidable (_ ∧ _))

/-- The packet that an answer holds. -/
def answered : Except IoError (ProxyTarget × Bytes) → Option UdpPacket
  | .ok (target, data) => some ⟨none, target, data⟩
  | .error _ => none

/-- The frames of Trojan. A packet arrives without its source. -/
def trojanFraming : Framing UdpPacket UdpPacket UInt8 (Except IoError (ProxyTarget × Bytes)) where
  collector := collector trojanCodec.nextPacket
  holding := holding
  encode := trojanCodec.encode
  opens := answered
  seen packet := { packet with source := none }

/-- A decoder without an answer keeps what it holds. -/
theorem next_packet_waits (decoder : Decoder) (absent : (Trojan.nextPacket decoder).1 = none) :
    (Trojan.nextPacket decoder).2 = decoder := by
  unfold Trojan.nextPacket at absent ⊢
  split
  · rfl
  · split
    · split <;> rfl
    · rfl
    · next started taken _ _ _ found =>
      rw [if_neg started, found] at absent
      cases absent

/-- A decoder stays as open as it is. -/
theorem next_packet_eof (decoder : Decoder) : (Trojan.nextPacket decoder).2.eof = decoder.eof := by
  unfold Trojan.nextPacket
  split
  · rfl
  · split
    · split <;> rfl
    · rfl
    · rfl

/-- What the decoder answers, with its address as a target. -/
theorem codec_next_ok {decoder after : Decoder} {addr : Socks5Addr} {data : Bytes}
    (found : Trojan.nextPacket decoder = (some (.ok (addr, data)), after)) :
    trojanCodec.nextPacket decoder = (some (.ok (addr.toProxyTarget, data)), after) := by
  simp only [trojanCodec, found]
  rfl

/-- An error of the decoder is the codec's error. -/
theorem codec_next_error {decoder after : Decoder} {error : IoError}
    (found : Trojan.nextPacket decoder = (some (.error error), after)) :
    trojanCodec.nextPacket decoder = (some (.error error), after) := by
  simp only [trojanCodec, found]
  rfl

/-- Where the decoder has no packet, the codec has none. -/
theorem codec_next_none {decoder after : Decoder}
    (found : Trojan.nextPacket decoder = (none, after)) :
    trojanCodec.nextPacket decoder = (none, after) := by
  simp only [trojanCodec, found]
  rfl

/-- The decoder takes the frames of usable packets. -/
theorem trojan_decodes : Decodes trojanFraming Usable where
  held := collector_holding trojanCodec.nextPacket
  takes := by
    refine ⟨fun packet => .ok (packet.target, packet.data), fun packet => rfl,
      fun items usable => ?_⟩
    have single (packet : UdpPacket) (member : packet ∈ items) :
        Takes (collector Trojan.nextPacket) holding
          (fun packet => Trojan.encode packet.1 packet.2) Except.ok
          [(Socks5Addr.fromProxyTarget packet.target, packet.data)] := by
      refine trojan_takes _ fun other only => ?_
      rw [List.mem_singleton.mp only]
      dsimp only
      rw [to_from_proxy_target]
      exact usable packet member
    refine ⟨fun packet member => ?_, fun packet member rest => ?_,
      fun packet member carried missing framed lacking => ?_, rfl⟩
    · exact (single packet member).nonempty _ List.mem_cons_self
    · have found := (single packet member).whole _ List.mem_cons_self rest
      change Trojan.nextPacket (holding (trojanCodec.encode packet ++ rest)) = _ at found
      have taken := codec_next_ok found
      rw [to_from_proxy_target] at taken
      exact taken
    · have waits := (single packet member).part _ List.mem_cons_self carried missing framed lacking
      exact codec_next_none waits

end Frames

section Flows

def stageOf : Phase → Stage
  | .reading => .reading
  | .draining => .draining
  | .ended => .ended

/-- The packets on their way from the client's handle to the server's channel. -/
def Session.upFlow (session : Session) :
    Flow UdpPacket UdpPacket UInt8 trojanFraming.collector.State where
  accepted := session.client.accepted
  queue := session.client.rxOut
  sending := session.client.sending
  broken := session.upBroken
  wire := session.up
  state := holding session.server.decoder.buf
  stage := stageOf session.server.phase
  received := session.server.toRemote

/-- The packets on their way from the server's channel to the client's handle. A reply is written
when it is taken from the channel. A client whose stream has ended reads no more. -/
def Session.downFlow (session : Session) :
    Flow UdpPacket UdpPacket UInt8 trojanFraming.collector.State where
  accepted := session.answered
  queue := []
  sending := session.server.replying
  broken := session.downBroken
  wire := session.down
  state := session.client.decoder
  stage := if session.client.eof then .ended else stageOf session.client.phase
  received := session.client.received

/-- The decoder of a server is told of the end only when its task ends; a client that waits or
was told of the end has no packet left; and one that sends no more has nothing queued. -/
structure Settled (session : Session) : Prop where
  open_ : session.server.phase ≠ .ended → session.server.decoder.eof = false
  quiet : session.client.phase = .reading ∨ session.client.eof = true →
    session.client.phase ≠ .ended → (Trojan.nextPacket session.client.decoder).1 = none
  ended : session.client.eof = true → session.client.phase ≠ .reading
  stopped : session.client.sending = false → session.client.rxOut = []

/-- A fresh session is settled: nothing has arrived. -/
theorem start_settled : Settled Session.start :=
  ⟨fun _ => rfl, fun _ _ => rfl, fun told => (by cases told), fun gone => (by cases gone)⟩

/-- A step of the server keeps its decoder open until its task ends. -/
theorem server_open (pump : StreamPump) (event : StreamEvent)
    (open_ : pump.phase ≠ .ended → pump.decoder.eof = false)
    (there : (pump.step trojanCodec event).phase ≠ .ended) :
    (pump.step trojanCodec event).decoder.eof = false := by
  cases event with
  | read bytes =>
    simp only [StreamPump.step] at there ⊢
    split
    · next other =>
      rw [if_pos other] at there
      exact open_ there
    · next reading =>
      rw [if_neg reading] at there
      split
      · next empty =>
        rw [if_pos empty] at there
        exact absurd rfl there
      · exact open_ (by rw [not_not.mp reading]; decide)
  | readFailed =>
    simp only [StreamPump.step] at there ⊢
    split
    · next other =>
      rw [if_pos other] at there
      exact open_ there
    · next reading =>
      rw [if_neg reading] at there
      exact absurd rfl there
  | next taken =>
    simp only [StreamPump.step] at there ⊢
    split
    · next other =>
      rw [if_pos other] at there
      exact open_ there
    · next draining =>
      have before := open_ (by rw [not_not.mp draining]; decide)
      have kept := (next_packet_eof pump.decoder).trans before
      change (trojanCodec.nextPacket pump.decoder).2.eof = false at kept
      rw [if_neg draining] at there
      simp only [StreamPump.drain] at there ⊢
      split at there <;> rename_i found <;> rw [found] at kept
      · exact kept
      · exact absurd rfl there
      · split at there
        · rw [if_pos ‹_›]
          exact kept
        · exact absurd rfl there
  | reply packet sent =>
    simp only [StreamPump.step] at there ⊢
    split
    · next gone =>
      rw [if_pos gone] at there
      exact open_ there
    · next replying =>
      rw [if_neg replying] at there
      split
      · next whole =>
        rw [if_pos whole] at there
        exact open_ there
      · next failed =>
        rw [if_neg failed] at there
        exact open_ there
  | remoteEnded => exact open_ there

/-- A round of receiving leaves a client that waits, or was told of the end, without a packet. -/
theorem recv_from_settled (client : BridgeUdp) (taken : Bool) (draining : client.phase = .draining)
    (quiet : client.eof = true → (Trojan.nextPacket client.decoder).1 = none) :
    ((client.recvFrom taken).phase = .reading → client.eof = false ∧
      (Trojan.nextPacket (client.recvFrom taken).decoder).1 = none) ∧
    ((client.recvFrom taken).eof = client.eof) ∧
    (client.eof = true → (client.recvFrom taken).phase = .ended) := by
  rcases found : Trojan.nextPacket client.decoder with ⟨_ | ⟨error | ⟨addr, data⟩⟩, after⟩
  · have same := next_packet_waits client.decoder (by rw [found])
    rw [found] at same
    dsimp only at same
    subst same
    cases told : client.eof with
    | false =>
      have ran : client.recvFrom taken = { client with phase := .reading } := by
        simp only [BridgeUdp.recvFrom, found, told, Bool.false_eq_true, if_false]
      rw [ran]
      exact ⟨fun _ => ⟨rfl, by rw [found]⟩, told, fun other => (by cases other)⟩
    | true =>
      have ran : client.recvFrom taken = { client with phase := .ended } := by
        simp only [BridgeUdp.recvFrom, found, told, if_true]
      rw [ran]
      exact ⟨fun reading => (by cases reading), told, fun _ => rfl⟩
  · have ran : client.recvFrom taken = { client with decoder := after, phase := .ended } := by
      simp only [BridgeUdp.recvFrom, found]
    rw [ran]
    exact ⟨fun reading => (by cases reading), rfl, fun _ => rfl⟩
  · simp only [BridgeUdp.recvFrom, found]
    cases taken with
    | false => exact ⟨fun reading => (by cases reading), rfl, fun _ => rfl⟩
    | true =>
      refine ⟨fun reading => ?_, rfl, fun told => ?_⟩
      · exact absurd (draining.symm.trans reading) (by decide)
      · have nothing := quiet told
        rw [found] at nothing
        cases nothing

/-- A round of receiving leaves what the client sends. -/
theorem recv_from_keeps (client : BridgeUdp) (taken : Bool) :
    (client.recvFrom taken).accepted = client.accepted ∧
      (client.recvFrom taken).rxOut = client.rxOut ∧
      (client.recvFrom taken).sending = client.sending := by
  simp only [BridgeUdp.recvFrom]
  repeat' split
  all_goals exact ⟨rfl, rfl, rfl⟩

/-- Every step keeps a session settled. -/
theorem step_settled (session : Session) (event : Event) (settled : Settled session) :
    Settled (session.step event) := by
  have served (event : StreamEvent) :
      Settled { session with server := session.server.step trojanCodec event } :=
    ⟨server_open session.server event settled.open_, settled.quiet, settled.ended, settled.stopped⟩
  cases event with
  | push packet =>
    simp only [Session.step, BridgeUdp.push]
    split
    · next usable =>
      refine ⟨settled.open_, settled.quiet, settled.ended, fun gone => ?_⟩
      rw [(Bool.and_eq_true_iff.mp usable).2] at gone
      cases gone
    · exact settled
  | release => exact ⟨settled.open_, settled.quiet, settled.ended, settled.stopped⟩
  | sendRound =>
    simp only [Session.step, Session.sendRound]
    split
    · next sending =>
      split
      · next drained =>
        split
        · exact settled
        · exact ⟨settled.open_, settled.quiet, settled.ended, fun _ => drained⟩
      · refine ⟨settled.open_, settled.quiet, settled.ended, fun gone => ?_⟩
        rw [sending] at gone
        cases gone
    · exact settled
  | sendFails count =>
    simp only [Session.step, Session.sendFails]
    split
    · split
      · exact settled
      · exact ⟨settled.open_, settled.quiet, settled.ended, fun _ => rfl⟩
    · exact settled
  | upArrives count =>
    simp only [Session.step]
    split
    · have after := served (.read (session.up.take (min count readRoom)))
      exact ⟨after.open_, after.quiet, after.ended, after.stopped⟩
    · exact settled
  | upEnds => exact served (.read [])
  | upFails => exact served .readFailed
  | serverNext taken => exact served (.next taken)
  | reply packet =>
    simp only [Session.step, Session.reply]
    split
    · have after := served (.reply packet true)
      exact ⟨after.open_, after.quiet, after.ended, after.stopped⟩
    · exact settled
  | replyFails packet count =>
    simp only [Session.step, Session.reply]
    split
    · have after := served (.reply packet false)
      exact ⟨after.open_, after.quiet, after.ended, after.stopped⟩
    · exact settled
  | remoteEnded => exact served .remoteEnded
  | downArrives count =>
    simp only [Session.step]
    split
    · next waiting =>
      refine ⟨settled.open_, fun told => ?_, fun told => absurd waiting.1 (settled.ended told),
        settled.stopped⟩
      rcases told with reading | told
      · cases reading
      · exact absurd waiting.1 (settled.ended told)
    · exact settled
  | downEnds =>
    simp only [Session.step]
    split
    · next reading =>
      exact ⟨settled.open_, fun _ _ => settled.quiet (.inl reading) (by rw [reading]; decide),
        fun _ still => (by cases still), settled.stopped⟩
    · exact settled
  | downFails =>
    simp only [Session.step]
    split
    · exact ⟨settled.open_, fun _ there => absurd rfl there, fun _ still => (by cases still),
        settled.stopped⟩
    · exact settled
  | clientNext taken =>
    simp only [Session.step]
    split
    · next draining =>
      obtain ⟨quiet, same, last⟩ := recv_from_settled session.client taken draining fun told =>
        settled.quiet (.inr told) (by rw [draining]; decide)
      obtain ⟨-, rxOut, sending⟩ := recv_from_keeps session.client taken
      refine ⟨settled.open_, fun told there => ?_, fun told reading => ?_, fun gone => ?_⟩
      · rcases told with reading | told
        · exact (quiet reading).2
        · exact absurd (last (same.symm.trans told)) there
      · have open_ := (quiet reading).1
        rw [same.symm.trans told] at open_
        cases open_
      · exact rxOut.trans (settled.stopped (sending.symm.trans gone))
    · exact settled

/-- Every run leaves the session settled. -/
theorem run_settled (events : List Event) : Settled (sessionRun events) :=
  run_kept start_settled step_settled events

/-- Asking the decoder of a server is a question of the flow to it. -/
theorem drain_asks (session : Session) (taken : Bool) (settled : Settled session)
    (draining : session.server.phase = .draining) :
    Session.upFlow { session with server := session.server.drain trojanCodec taken } =
      session.upFlow.ask trojanFraming taken := by
  have open_ := settled.open_ (by rw [draining]; decide)
  have whole : holding session.server.decoder.buf = session.server.decoder := by
    rw [holding, ← open_]
  have kept := (next_packet_eof session.server.decoder).trans open_
  change (trojanCodec.nextPacket session.server.decoder).2.eof = false at kept
  have asked : trojanFraming.collector.next session.upFlow.state =
      trojanCodec.nextPacket session.server.decoder := congrArg trojanCodec.nextPacket whole
  rcases found : trojanCodec.nextPacket session.server.decoder with
    ⟨_ | ⟨error | ⟨target, data⟩⟩, after⟩
  all_goals
    rw [found] at asked kept
    have same : holding after.buf = after := by rw [holding, ← kept]
  · simp only [Flow.ask, asked, StreamPump.drain, found]
    simp only [Session.upFlow, stageOf, same]
  · have opened : trojanFraming.opens (.error error) = none := rfl
    simp only [Flow.ask, asked, StreamPump.drain, found, opened]
    simp only [Session.upFlow, stageOf, same]
  · have opened : trojanFraming.opens (.ok (target, data)) = some ⟨none, target, data⟩ := rfl
    simp only [Flow.ask, asked, StreamPump.drain, found, opened]
    cases taken with
    | false => simp only [Session.upFlow, stageOf, same, Bool.false_eq_true, if_false]
    | true => simp only [Session.upFlow, stageOf, same, if_true]

/-- A round of receiving is a question of the flow to the client. -/
theorem recv_from_asks (session : Session) (taken : Bool) (open_ : session.client.eof = false) :
    Session.downFlow { session with client := session.client.recvFrom taken } =
      session.downFlow.ask trojanFraming taken := by
  rcases found : Trojan.nextPacket session.client.decoder with
    ⟨_ | ⟨error | ⟨addr, data⟩⟩, after⟩
  · have asked : trojanFraming.collector.next session.downFlow.state = (none, after) :=
      codec_next_none found
    simp only [Flow.ask, asked, BridgeUdp.recvFrom, found, open_, Bool.false_eq_true, if_false]
    simp only [Session.downFlow, open_, Bool.false_eq_true, if_false, stageOf]
  · have asked : trojanFraming.collector.next session.downFlow.state =
        (some (.error error), after) := codec_next_error found
    have opened : trojanFraming.opens (.error error) = none := rfl
    simp only [Flow.ask, asked, BridgeUdp.recvFrom, found, opened]
    simp only [Session.downFlow, open_, Bool.false_eq_true, if_false, stageOf]
  · have asked : trojanFraming.collector.next session.downFlow.state =
        (some (.ok (addr.toProxyTarget, data)), after) := codec_next_ok found
    have opened : trojanFraming.opens (.ok (addr.toProxyTarget, data)) =
        some ⟨none, addr.toProxyTarget, data⟩ := rfl
    simp only [Flow.ask, asked, BridgeUdp.recvFrom, found, opened]
    cases taken with
    | false => simp only [Session.downFlow, open_, Bool.false_eq_true, if_false, stageOf]
    | true => simp only [Session.downFlow, open_, if_true, Bool.false_eq_true, if_false]

/-- One step of a flow follows, or none. -/
def Follows (flow after : Flow UdpPacket UdpPacket UInt8 trojanFraming.collector.State) : Prop :=
  ∃ more, after = run (Flow.step trojanFraming) flow more

/-- A flow that does not move follows itself. -/
theorem follows_none (flow : Flow UdpPacket UdpPacket UInt8 trojanFraming.collector.State) :
    Follows flow flow := ⟨[], rfl⟩

/-- A flow that makes one step follows. -/
theorem follows_step {flow after : Flow UdpPacket UdpPacket UInt8 trojanFraming.collector.State}
    (event : FlowEvent UdpPacket) (moved : after = flow.step trojanFraming event) :
    Follows flow after := ⟨[event], moved⟩

/-- A read of the server that its flow shows as the receiver leaving. -/
theorem server_leaves (session : Session) (event : StreamEvent)
    (leaves : session.server.phase = .reading →
      (session.server.step trojanCodec event).phase = .ended ∧
        (session.server.step trojanCodec event).decoder.buf = session.server.decoder.buf ∧
        (session.server.step trojanCodec event).toRemote = session.server.toRemote)
    (idle : session.server.phase ≠ .reading →
      session.server.step trojanCodec event = session.server) :
    Follows session.upFlow
      (Session.upFlow { session with server := session.server.step trojanCodec event }) := by
  by_cases reading : session.server.phase = .reading
  · obtain ⟨phase, buf, remote⟩ := leaves reading
    refine follows_step .leave ?_
    simp only [Session.upFlow, Flow.step, phase, buf, remote, stageOf]
  · rw [idle reading]
    exact follows_none _

/-- The client writes a packet. -/
theorem send_round_sends (session : Session) (settled : Settled session)
    (queued : session.client.rxOut ≠ []) :
    (session.step .sendRound).upFlow = session.upFlow.step trojanFraming .send := by
  have sending : session.client.sending = true := by
    by_contra gone
    exact queued (settled.stopped (by simpa using gone))
  cases waiting : session.client.rxOut with
  | nil => exact absurd waiting queued
  | cons packet rxOut =>
    simp only [Session.step, Session.sendRound, sending, if_true, waiting]
    simp only [Session.upFlow, Flow.step, waiting, sending]
    rfl

/-- Octets arrive at the server. -/
theorem up_arrives (session : Session) (count : Nat) :
    (session.step (.upArrives count)).upFlow =
      session.upFlow.step trojanFraming (.arrive (min count readRoom)) := by
  by_cases waiting : session.server.phase = .reading ∧ session.up.take (min count readRoom) ≠ []
  · have shown : session.upFlow.stage = .reading ∧
        session.upFlow.wire.take (min count readRoom) ≠ [] :=
      ⟨congrArg stageOf waiting.1, waiting.2⟩
    rw [Flow.step, if_pos shown]
    simp only [Session.step]
    rw [if_pos waiting]
    simp only [Session.upFlow, StreamPump.step, waiting.1, ne_eq, not_true_eq_false, if_false,
      List.isEmpty_iff, waiting.2]
    rfl
  · have hidden : ¬(session.upFlow.stage = .reading ∧
        session.upFlow.wire.take (min count readRoom) ≠ []) := by
      rintro ⟨stage, piece⟩
      refine waiting ⟨?_, piece⟩
      cases phase : session.server.phase <;> simp [Session.upFlow, phase, stageOf] at stage ⊢
    rw [Flow.step, if_neg hidden]
    simp only [Session.step]
    rw [if_neg waiting]

/-- The server asks its decoder. -/
theorem server_asks (session : Session) (taken : Bool) (settled : Settled session) :
    (session.step (.serverNext taken)).upFlow =
      session.upFlow.step trojanFraming (.next taken) := by
  by_cases draining : session.server.phase = .draining
  · have shown : session.upFlow.stage = .draining := congrArg stageOf draining
    have stepped : session.server.step trojanCodec (.next taken) =
        session.server.drain trojanCodec taken := if_neg (not_not.mpr draining)
    rw [Flow.step, if_pos shown, ← drain_asks session taken settled draining]
    simp only [Session.step, stepped]
  · have stepped : session.server.step trojanCodec (.next taken) = session.server :=
      if_pos draining
    have hidden : session.upFlow.stage ≠ .draining := by
      cases phase : session.server.phase <;> simp [Session.upFlow, phase, stageOf] at draining ⊢
    rw [Flow.step, if_neg hidden]
    simp only [Session.step, stepped]

/-- Octets arrive at the client. -/
theorem down_arrives (session : Session) (count : Nat) (settled : Settled session) :
    (session.step (.downArrives count)).downFlow =
      session.downFlow.step trojanFraming (.arrive (min count readRoom)) := by
  by_cases waiting : session.client.phase = .reading ∧ session.down.take (min count readRoom) ≠ []
  · have open_ : session.client.eof = false := by
      by_contra told
      exact settled.ended (by simpa using told) waiting.1
    have shown : session.downFlow.stage = .reading ∧
        session.downFlow.wire.take (min count readRoom) ≠ [] := by
      refine ⟨?_, waiting.2⟩
      simp only [Session.downFlow, open_, Bool.false_eq_true, if_false, waiting.1, stageOf]
    rw [Flow.step, if_pos shown]
    simp only [Session.step]
    rw [if_pos waiting]
    simp only [Session.downFlow, open_, Bool.false_eq_true, if_false, stageOf]
    rfl
  · have hidden : ¬(session.downFlow.stage = .reading ∧
        session.downFlow.wire.take (min count readRoom) ≠ []) := by
      rintro ⟨stage, piece⟩
      refine waiting ⟨?_, piece⟩
      cases told : session.client.eof <;> cases phase : session.client.phase <;>
        simp [Session.downFlow, told, phase, stageOf] at stage ⊢
    rw [Flow.step, if_neg hidden]
    simp only [Session.step]
    rw [if_neg waiting]

/-- The client asks its decoder. One that was told of the end finds nothing. -/
theorem client_asks (session : Session) (taken : Bool) (settled : Settled session) :
    (session.step (.clientNext taken)).downFlow =
      session.downFlow.step trojanFraming (.next taken) := by
  by_cases draining : session.client.phase = .draining
  · simp only [Session.step]
    rw [if_pos draining]
    cases told : session.client.eof with
    | false =>
      have shown : session.downFlow.stage = .draining := by
        simp only [Session.downFlow, told, Bool.false_eq_true, if_false, draining, stageOf]
      rw [Flow.step, if_pos shown]
      exact recv_from_asks session taken told
    | true =>
      have nothing := settled.quiet (.inr told) (by rw [draining]; decide)
      have same := next_packet_waits session.client.decoder nothing
      have found : Trojan.nextPacket session.client.decoder = (.none, session.client.decoder) :=
        Prod.ext nothing same
      have ran : session.client.recvFrom taken = { session.client with phase := .ended } := by
        simp only [BridgeUdp.recvFrom, found, told, if_true]
      have hidden : session.downFlow.stage ≠ .draining := by
        simp [Session.downFlow, told]
      rw [Flow.step, if_neg hidden]
      simp only [ran, Session.downFlow, told, if_true]
  · have hidden : session.downFlow.stage ≠ .draining := by
      cases told : session.client.eof <;> cases phase : session.client.phase <;>
        simp [Session.downFlow, told, phase, stageOf] at draining ⊢
    rw [Flow.step, if_neg hidden]
    simp only [Session.step]
    rw [if_neg draining]

/-- A step of a session is followed by the flow to the server. -/
theorem up_step (session : Session) (event : Event) (settled : Settled session) :
    Follows session.upFlow (session.step event).upFlow := by
  cases event with
  | push packet =>
    simp only [Session.step, BridgeUdp.push]
    split
    · next usable =>
      obtain ⟨-, sending⟩ := Bool.and_eq_true_iff.mp usable
      refine follows_step (.accept packet) ?_
      simp only [Session.upFlow, Flow.step, sending, if_true]
    · exact follows_none _
  | release => exact follows_none _
  | sendRound =>
    by_cases queued : session.client.rxOut = []
    · simp only [Session.step, Session.sendRound, queued]
      split
      · split
        · exact follows_none _
        · refine follows_step .stop ?_
          simp only [Session.upFlow, Flow.step, queued, List.isEmpty_nil, if_true]
      · exact follows_none _
    · exact follows_step .send (send_round_sends session settled queued)
  | sendFails count =>
    simp only [Session.step, Session.sendFails]
    split
    · split
      · exact follows_none _
      · next packet rxOut queued =>
        refine follows_step (.breakOff count) ?_
        simp only [Session.upFlow, Flow.step, queued]
        rfl
    · exact follows_none _
  | upArrives count => exact follows_step _ (up_arrives session count)
  | upEnds =>
    refine server_leaves session (.read []) (fun reading => ?_) fun other => if_pos other
    simp [StreamPump.step, reading, Decoder.markEof]
  | upFails =>
    refine server_leaves session .readFailed (fun reading => ?_) fun other => if_pos other
    simp [StreamPump.step, reading]
  | serverNext taken => exact follows_step _ (server_asks session taken settled)
  | reply packet =>
    simp only [Session.step, Session.reply]
    split
    · next replying =>
      simp only [StreamPump.step, replying, Bool.not_true, Bool.false_eq_true, if_false, if_true]
      exact follows_none _
    · exact follows_none _
  | replyFails packet count =>
    simp only [Session.step, Session.reply]
    split
    · next replying =>
      simp only [StreamPump.step, replying, Bool.not_true, Bool.false_eq_true, if_false]
      exact follows_none _
    · exact follows_none _
  | remoteEnded => exact follows_none _
  | downArrives count =>
    simp only [Session.step]
    split <;> exact follows_none _
  | downEnds =>
    simp only [Session.step]
    split <;> exact follows_none _
  | downFails =>
    simp only [Session.step]
    split <;> exact follows_none _
  | clientNext taken =>
    simp only [Session.step]
    split
    · obtain ⟨accepted, rxOut, sending⟩ := recv_from_keeps session.client taken
      refine ⟨[], ?_⟩
      simp only [Session.upFlow, accepted, rxOut, sending]
      rfl
    · exact follows_none _

/-- A step of a session is followed by the flow to the client. -/
theorem down_step (session : Session) (event : Event) (settled : Settled session) :
    Follows session.downFlow (session.step event).downFlow := by
  cases event with
  | push packet =>
    simp only [Session.step, BridgeUdp.push]
    split <;> exact follows_none _
  | release => exact follows_none _
  | sendRound =>
    simp only [Session.step, Session.sendRound]
    repeat' split
    all_goals exact follows_none _
  | sendFails count =>
    simp only [Session.step, Session.sendFails]
    repeat' split
    all_goals exact follows_none _
  | upArrives count =>
    simp only [Session.step]
    split
    · next waiting =>
      simp only [StreamPump.step, waiting.1, ne_eq, not_true_eq_false, if_false,
        List.isEmpty_iff, waiting.2]
      exact follows_none _
    · exact follows_none _
  | upEnds =>
    simp only [Session.step, StreamPump.step, List.isEmpty_nil, if_true]
    split <;> exact follows_none _
  | upFails =>
    simp only [Session.step, StreamPump.step]
    split <;> exact follows_none _
  | serverNext taken =>
    simp only [Session.step, StreamPump.step, StreamPump.drain]
    repeat' split
    all_goals exact follows_none _
  | reply packet =>
    simp only [Session.step, Session.reply]
    split
    · next replying =>
      refine ⟨[.accept packet, .send], ?_⟩
      simp only [run, List.foldl_cons, List.foldl_nil, Flow.step, Session.downFlow, replying,
        if_true, StreamPump.step, Bool.not_true, Bool.or_false, Bool.false_eq_true, if_false,
        List.nil_append]
      rfl
    · exact follows_none _
  | replyFails packet count =>
    simp only [Session.step, Session.reply]
    split
    · next replying =>
      refine ⟨[.accept packet, .breakOff count], ?_⟩
      simp only [run, List.foldl_cons, List.foldl_nil, Flow.step, Session.downFlow, replying,
        if_true, StreamPump.step, Bool.not_true, Bool.not_false, Bool.or_true,
        Bool.false_eq_true, if_false, List.nil_append]
      rfl
    · exact follows_none _
  | remoteEnded =>
    refine follows_step .stop ?_
    simp only [Session.step, StreamPump.step, Flow.step, Session.downFlow, List.isEmpty_nil,
      if_true]
    rfl
  | downArrives count => exact follows_step _ (down_arrives session count settled)
  | downEnds =>
    simp only [Session.step]
    split
    · refine follows_step .leave ?_
      simp only [Session.downFlow, Flow.step, if_true]
    · exact follows_none _
  | downFails =>
    simp only [Session.step]
    split
    · refine follows_step .leave ?_
      simp only [Session.downFlow, Flow.step, stageOf, ite_self]
    · exact follows_none _
  | clientNext taken => exact follows_step _ (client_asks session taken settled)

/-- Every run of a session is followed by runs of both its flows. -/
theorem run_follows (events : List Event) :
    (∃ flowEvents, (sessionRun events).upFlow = flowRun trojanFraming .reading flowEvents) ∧
      ∃ flowEvents, (sessionRun events).downFlow = flowRun trojanFraming .draining flowEvents := by
  induction events using List.reverseRecOn with
  | nil => exact ⟨⟨[], rfl⟩, ⟨[], rfl⟩⟩
  | append_singleton events event inductionHypothesis =>
    obtain ⟨⟨up, upFlow⟩, ⟨down, downFlow⟩⟩ := inductionHypothesis
    have settled := run_settled events
    rw [sessionRun, run_snoc]
    obtain ⟨upMore, upMoved⟩ := up_step _ event settled
    obtain ⟨downMore, downMoved⟩ := down_step _ event settled
    refine ⟨⟨up ++ upMore, ?_⟩, ⟨down ++ downMore, ?_⟩⟩
    · rw [flowRun, run_append, ← flowRun, ← upFlow]
      exact upMoved
    · rw [flowRun, run_append, ← flowRun, ← downFlow]
      exact downMoved

end Flows

section Handshakes

/-- Every digit that is written is a digit that is read. -/
theorem hex_encode_digit (value : Nat) :
    (hexDigit ("0123456789abcdef".toList.getD value '0')).isSome := by
  by_cases small : value < 16
  · have each : ∀ value < 16, (hexDigit ("0123456789abcdef".toList.getD value '0')).isSome := by
      decide
    exact each value small
  · rw [List.getD_eq_default _ _ (Nat.not_lt.mp small)]
    decide

/-- Octets are encoded as hexadecimal digits, two for each. -/
theorem hex_encode_digits (octets : Bytes) :
    (∀ char ∈ (hexEncode octets).toList, (hexDigit char).isSome) ∧
      (asBytes (hexEncode octets)).length = 2 * octets.length := by
  have digits : ∀ char ∈ (hexEncode octets).toList, (hexDigit char).isSome := by
    intro char member
    simp only [hexEncode, String.toList_ofList, List.mem_flatMap, List.mem_cons,
      List.not_mem_nil, or_false] at member
    obtain ⟨octet, -, rfl | rfl⟩ := member
    · exact hex_encode_digit _
    · exact hex_encode_digit _
  refine ⟨digits, ?_⟩
  have spelled := as_bytes_ascii (hexEncode octets).toList fun char member =>
    hex_digit_ascii char (digits char member)
  rw [String.ofList_toList] at spelled
  rw [spelled, List.length_map, hexEncode, String.toList_ofList, List.length_flatMap]
  simp [Nat.mul_comm]

/-- The head of a client that asks for datagrams is taken by a server with the same password,
and what follows it is left. -/
theorem head_accepted (sha224 : Bytes → Octets 28) (cfg : TrojanOutboundConfig) :
    ∃ head, (UdpRelayClient.start sha224 cfg).run ⟨[], []⟩ = .ok Decoder.new ⟨[], head⟩ ∧
      ∀ rest written, (handshake ⟨passwordHash sha224 cfg.password⟩).run ⟨head ++ rest, written⟩ =
        .ok .udpAssociate ⟨rest, written⟩ := by
  obtain ⟨hex, width⟩ := hex_encode_digits (sha224 (asBytes cfg.password)).toList
  rw [List.Vector.toList_length] at width
  refine ⟨encodeRequestHead cmdUdpAssociate (.domain "0.0.0.0" 0) (cfg.hash sha224), rfl,
    fun rest written => ?_⟩
  rw [handshake_iff ⟨passwordHash sha224 cfg.password⟩ hex]
  refine ⟨cmdUdpAssociate, .domain "0.0.0.0" 0, ?_, rfl, rfl⟩
  obtain ⟨atyp, body, encoded, tagged, -⟩ :=
    encode_into_split (asBytes (cfg.hash sha224) ++ lineEnd ++ [cmdUdpAssociate])
      (.domain "0.0.0.0" 0)
  have denotes : Denotes (atyp :: body) (.domain "0.0.0.0" 0) :=
    ⟨atyp, body, _, rfl, tagged (by decide), to_from_proxy_target _⟩
  rw [encodeRequestHead, encoded]
  exact .made (asBytes (cfg.hash sha224)) (atyp :: body) width rfl denotes

end Handshakes

section Sessions

/-- The steps that the tasks of both sides and the stream take by themselves. -/
inductive Event.Internal : Event → Prop
  | sendRound : Internal .sendRound
  | upArrives (count : Nat) : Internal (.upArrives count)
  | serverNext : Internal (.serverNext true)
  | downArrives (count : Nat) : Internal (.downArrives count)
  | clientNext : Internal (.clientNext true)

/-- What the flow to the server can do by itself, the session can. -/
theorem up_lift {Good : Flow UdpPacket UdpPacket UInt8 trojanFraming.collector.State → Prop}
    {session : Session} (settled : Settled session)
    (leads : Leads (Flow.step trojanFraming) FlowEvent.Internal Good session.upFlow) :
    Leads Session.step Event.Internal (fun other => Good other.upFlow) session := by
  refine leads_lift Session.upFlow (fun other event sound allowed => ?_) settled leads
  cases allowed with
  | send =>
    by_cases queued : other.client.rxOut = []
    · left
      simp only [Flow.step, Session.upFlow, queued]
    · exact .inr ⟨.sendRound, .sendRound, step_settled other _ sound,
        send_round_sends other sound queued⟩
  | arrive =>
    exact .inr ⟨.upArrives 1, .upArrives 1, step_settled other _ sound, up_arrives other 1⟩
  | next =>
    exact .inr ⟨.serverNext true, .serverNext, step_settled other _ sound,
      server_asks other true sound⟩

/-- What the flow to the client can do by itself, the session can. -/
theorem down_lift {Good : Flow UdpPacket UdpPacket UInt8 trojanFraming.collector.State → Prop}
    {session : Session} (settled : Settled session)
    (leads : Leads (Flow.step trojanFraming) FlowEvent.Internal Good session.downFlow) :
    Leads Session.step Event.Internal (fun other => Good other.downFlow) session := by
  refine leads_lift Session.downFlow (fun other event sound allowed => ?_) settled leads
  cases allowed with
  | send => exact .inl rfl
  | arrive =>
    exact .inr ⟨.downArrives 1, .downArrives 1, step_settled other _ sound,
      down_arrives other 1 sound⟩
  | next =>
    exact .inr ⟨.clientNext true, .clientNext, step_settled other _ sound,
      client_asks other true sound⟩

/-- What a session has kept of its promises: in both directions what is received is a front of
what was accepted, nothing else is found, a receiver that waits while nothing is queued or on
the wire has received everything, and everything accepted can still be received unless a write
failed or the receiver has left. -/
structure Relays (session : Session) : Prop where
  up : Conveyed trojanFraming session.upFlow
  down : Conveyed trojanFraming session.downFlow
  upCompletes : session.upBroken = false → session.server.phase ≠ .ended →
    Leads Session.step Event.Internal (fun other =>
      other.server.toRemote = session.client.accepted.map trojanFraming.seen) session
  downCompletes : session.downBroken = false → session.client.phase ≠ .ended →
    session.client.eof = false →
    Leads Session.step Event.Internal (fun other =>
      other.client.received = session.answered.map trojanFraming.seen) session

/-- A server with the password of a client takes its head and leaves what follows, and then every
run of their session relays the packets that can be told from their frames. -/
theorem trojan_udp_session_relays (sha224 : Bytes → Octets 28) (cfg : TrojanOutboundConfig)
    (events : List Event) (sent : ∀ packet ∈ (sessionRun events).client.accepted, Usable packet)
    (replied : ∀ packet ∈ (sessionRun events).answered, Usable packet) :
    (∃ head, (UdpRelayClient.start sha224 cfg).run ⟨[], []⟩ = .ok Decoder.new ⟨[], head⟩ ∧
      ∀ rest written, (handshake ⟨passwordHash sha224 cfg.password⟩).run ⟨head ++ rest, written⟩ =
        .ok .udpAssociate ⟨rest, written⟩) ∧
    Relays (sessionRun events) := by
  refine ⟨head_accepted sha224 cfg, ?_⟩
  obtain ⟨⟨up, upFlow⟩, ⟨down, downFlow⟩⟩ := run_follows events
  have settled := run_settled events
  have upUsable : ∀ packet ∈ (flowRun trojanFraming .reading up).accepted, Usable packet := by
    rw [← upFlow]
    exact sent
  have downUsable : ∀ packet ∈ (flowRun trojanFraming .draining down).accepted, Usable packet := by
    rw [← downFlow]
    exact replied
  refine ⟨?_, ?_, fun whole there => ?_, fun whole there open_ => ?_⟩
  · rw [upFlow]
    exact run_conveyed trojan_decodes .reading up upUsable
  · rw [downFlow]
    exact run_conveyed trojan_decodes .draining down downUsable
  · have leads := run_leads trojan_decodes .reading up upUsable
    rw [← upFlow] at leads
    refine up_lift settled (leads whole ?_)
    cases phase : (sessionRun events).server.phase with
    | ended => exact absurd phase there
    | reading => simp [Session.upFlow, phase, stageOf]
    | draining => simp [Session.upFlow, phase, stageOf]
  · have leads := run_leads trojan_decodes .draining down downUsable
    rw [← downFlow] at leads
    refine down_lift settled (leads whole ?_)
    cases phase : (sessionRun events).client.phase with
    | ended => exact absurd phase there
    | reading => simp [Session.downFlow, open_, phase, stageOf]
    | draining => simp [Session.downFlow, open_, phase, stageOf]

/-- A question and its answer, with the frame of the question in two pieces. -/
def exchange : List Event :=
  [.push ⟨none, .domain "a" 53, [7]⟩, .sendRound, .upArrives 3, .serverNext true, .upArrives 65536,
    .serverNext true, .reply ⟨none, .tcp ⟨.v4 ⟨[127, 0, 0, 53], rfl⟩, 53⟩, [8]⟩, .clientNext true,
    .downArrives 65536, .clientNext true]

example : (sessionRun exchange).server.toRemote = [⟨none, .domain "a" 53, [7]⟩] := by
  decide +kernel

/-- The sample exchange opens its session with the head that the server accepts, and relays.
-/
theorem trojan_udp_session_relays_exchange :
    (∃ head, (UdpRelayClient.start (fun _ => zeroOctets 28) ⟨"server", 443, "secret"⟩).run
        ⟨[], []⟩ = .ok Decoder.new ⟨[], head⟩ ∧
      ∀ rest written, (handshake ⟨passwordHash (fun _ => zeroOctets 28) "secret"⟩).run
        ⟨head ++ rest, written⟩ = .ok .udpAssociate ⟨rest, written⟩) ∧
    Relays (sessionRun exchange) :=
  trojan_udp_session_relays (fun _ => zeroOctets 28) ⟨"server", 443, "secret"⟩ exchange
    (by decide +kernel) (by decide +kernel)

end Sessions

end OmniProxy.TrojanUdpRelay
