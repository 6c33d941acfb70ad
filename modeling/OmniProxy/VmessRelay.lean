import OmniProxy.DuplexRelays
import OmniProxy.VmessDuplex
import OmniProxy.VmessHandshake

/-!
# The relay between two VMess duplexes

The chunk reader is a fed reader: each of its exact reads takes a front of the input, and the
only outcome of a refill that more input can change is that the input ran dry. Its writer
carries every slice and marks the end. So the duplexes that both sides build after the
handshake relay exactly, in both directions.
-/

namespace OmniProxy.VmessRelay

open ByteStrings BufferedReads Connections CryptoPrimitives Digests DuplexRelays EStateM
open FedReaders FramedStreams ProxyTargets VmessChunks VmessCommand VmessHandshake VmessHeader

variable (crypto : Primitives)

section Feeding

/-- More input for a reader. -/
def feed (reader : ChunkReader) (more : Bytes) : ChunkReader :=
  { reader with inner := reader.inner ++ more }

/-- More input changes how a body is decoded only if the input ran dry. -/
theorem fill_body_kept (reader : ChunkReader) (payloadCt paddingLen : Nat) (more : Bytes) :
    Kept feed earlyEof more (reader.fillBody crypto payloadCt paddingLen)
      ((feed reader more).fillBody crypto payloadCt paddingLen) := by
  cases payload : splitExact payloadCt reader.inner with
  | none =>
    simp only [ChunkReader.fillBody, payload]
    exact .inl rfl
  | some found =>
    obtain ⟨buf, rest⟩ := found
    have payloadFed : splitExact payloadCt (feed reader more).inner = some (buf, rest ++ more) :=
      split_exact_feed more payload
    cases padded : splitExact paddingLen rest with
    | none =>
      simp only [ChunkReader.fillBody, payload, padded]
      exact .inl rfl
    | some found =>
      obtain ⟨filler, last⟩ := found
      have paddedFed : splitExact paddingLen (rest ++ more) = some (filler, last ++ more) :=
        split_exact_feed more padded
      simp only [ChunkReader.fillBody, payload, padded, payloadFed, paddedFed]
      simp only [feed]
      cases unprotect crypto reader.security reader.keys reader.counter buf with
      | none => exact .inr ⟨_, rfl⟩
      | some plain => rfl

/-- More input changes how a chunk is decoded only if the input ran dry. -/
theorem fill_chunk_kept (reader : ChunkReader) (more : Bytes) :
    Kept feed earlyEof more (reader.fillChunk crypto) ((feed reader more).fillChunk crypto) := by
  obtain ⟨inner, keys, security, masking, padding, sizeParser, counter, pending, ppos, eof⟩ :=
    reader
  simp only [feed]
  generalize draw : drawPadding padding sizeParser = drawn
  obtain ⟨paddingLen, parser⟩ := drawn
  cases sized : splitExact 2 inner with
  | none =>
    simp only [ChunkReader.fillChunk, draw, sized]
    exact .inl rfl
  | some found =>
    obtain ⟨maskedSize, rest⟩ := found
    have sizedFed := split_exact_feed more sized
    generalize unmasked : unmaskSize masking parser (maskedSize.getD 0 0)
      (maskedSize.getD 1 0) = unmaskedSize
    obtain ⟨decodedSize, after⟩ := unmaskedSize
    simp only [ChunkReader.fillChunk, draw, sized, sizedFed, unmasked]
    by_cases last : decodedSize.toNat = security.overhead + paddingLen
    · rw [if_pos last, if_pos last]
      rfl
    · rw [if_neg last, if_neg last]
      by_cases short : decodedSize.toNat < security.overhead + paddingLen
      · rw [if_pos short, if_pos short]
        exact .inr ⟨_, rfl⟩
      · rw [if_neg short, if_neg short]
        exact fill_body_kept crypto _ _ _ more

/-- No further input changes nothing. -/
theorem feed_nothing (reader : ChunkReader) : feed reader [] = reader := by
  rw [feed, List.append_nil]

/-- Input in two parts is the input of both. -/
theorem feed_again (reader : ChunkReader) (first second : Bytes) :
    feed (feed reader first) second = feed reader (first ++ second) := by
  simp only [feed, List.append_assoc]

/-- Without input a reader runs dry. -/
theorem fill_chunk_dry (reader : ChunkReader) (empty : reader.inner = []) :
    ∃ after, reader.fillChunk crypto = .error earlyEof after := by
  simp only [ChunkReader.fillChunk, empty]
  exact ⟨_, rfl⟩

/-- The chunk reader as a fed reader. -/
def chunkFed : FedSource ChunkReader IoError where
  toSource := chunkSource crypto
  feed := feed
  dry := earlyEof
  feed_nil := feed_nothing
  feed_append := feed_again
  unread_feed _ _ := rfl
  ended_feed _ _ := rfl
  advance_feed _ _ _ := rfl
  fill_kept := fill_chunk_kept crypto

/-- The chunk stream with its fed reader. -/
def chunkFedFraming : FedFraming ChunkReader ChunkWriter IoError where
  source := chunkFed crypto
  framing := chunkFraming crypto
  same := rfl
  input_feed _ _ := rfl
  aligned_feed _ _ _ aligned :=
    ⟨aligned.keys, aligned.security, aligned.masking, aligned.padding, aligned.sizeParser,
      aligned.counter⟩
  fill_dry := fill_chunk_dry crypto

end Feeding

section Duplexes

variable (random : Nat → Octets 64)

/-- The writer carries every slice and marks the end of the stream. -/
theorem chunk_writing :
    Writing (chunkFedFraming crypto) (ChunkWriter.writeChunk crypto random) true := by
  refine ⟨fun slice writer last nonempty =>
    write_chunk_carries crypto random last slice writer nonempty, fun writer => ?_⟩
  obtain ⟨frame, after, written, sent, expects⟩ := write_end_expects crypto random writer
  refine ⟨frame, after, ?_, sent, ?_⟩
  · simpa [ChunkWriter.writeChunk, pieces, emitAll] using written
  · have onward := expects []
    rw [List.append_nil] at onward
    exact onward

/-- The write half of a duplex with a chunk writer. -/
def duplexOf (half : WriteHalf ChunkWriter) : VmessDuplex.ChannelDuplex :=
  ⟨half.queue, half.writer, half.pumping, half.held, half.accepted⟩

/-- The writer after a write is the same in both models of the pump. -/
theorem after_write_same (result : Result IoError ChunkWriter Unit) :
    DuplexRelays.afterWrite result = VmessDuplex.afterWrite result := by
  cases result <;> rfl

/-- Leaving the loop of the write pump is that of the duplex over a VMess stream. -/
theorem finish_duplex (relay : Relay ChunkReader ChunkWriter IoError) :
    duplexOf (relay.finish (chunkFedFraming crypto) (ChunkWriter.writeChunk crypto random)).sender =
      (duplexOf relay.sender).finish crypto random := by
  simp only [Relay.finish, after_write_same]
  rfl

/-- So is a round of the write pump. -/
theorem write_round_duplex (relay : Relay ChunkReader ChunkWriter IoError) :
    duplexOf (relay.writeRound (chunkFedFraming crypto)
      (ChunkWriter.writeChunk crypto random)).sender =
      (duplexOf relay.sender).pumpRound crypto random := by
  obtain ⟨⟨queue, writer, pumping, held, accepted⟩, wire, broken, closed, receiver, delivered,
    errors⟩ := relay
  cases pumping with
  | false => rfl
  | true =>
    cases queue with
    | nil =>
      cases held with
      | true => rfl
      | false => exact finish_duplex crypto random _
    | cons slice queue =>
      by_cases empty : slice = []
      · subst empty
        rfl
      · simp only [Relay.writeRound, duplexOf, VmessDuplex.ChannelDuplex.pumpRound, if_true,
          List.isEmpty_iff, empty, if_false]
        cases writer.writeChunk crypto random slice with
        | ok _ after => rfl
        | error error after => exact finish_duplex crypto random _

/-- What a step of a relay is for the duplex that sends. -/
def senderEvent : Event → Option VmessDuplex.Event
  | .pollWrite buf => some (.pollWrite buf)
  | .dropSender => some .dropDuplex
  | .writeRound => some .pumpRound
  | _ => none

/-- A step of a relay moves its sender as its event moves the duplex, if no write fails. -/
theorem step_duplex (relay : Relay ChunkReader ChunkWriter IoError) (event : Event)
    (accepting : ∀ count, event ≠ .writeFails count) :
    duplexOf (relay.step (chunkFedFraming crypto) (ChunkWriter.writeChunk crypto random)
      event).sender =
      (senderEvent event).elim (duplexOf relay.sender)
        ((duplexOf relay.sender).step crypto random) := by
  cases event with
  | pollWrite buf =>
    obtain ⟨⟨queue, writer, pumping, held, accepted⟩, wire, broken, closed, receiver, delivered,
      errors⟩ := relay
    cases held <;> cases pumping <;> rfl
  | dropSender => rfl
  | writeRound => exact write_round_duplex crypto random relay
  | writeFails count => exact absurd rfl (accepting count)
  | arrive count =>
    simp only [Relay.step]
    split <;> rfl
  | close => rfl
  | readRound =>
    obtain ⟨-, -, same, -⟩ := @read_round_keeps _ _ _ (chunkFedFraming crypto) _ relay
    exact congrArg duplexOf same
  | pollRead size =>
    simp only [Relay.step, Relay.pollRead]
    split <;> rfl
  | dropReceiver => rfl

/-- The sending duplex of a relay whose writes do not fail runs as the duplex over a VMess
stream, whose underlay accepts every write. -/
theorem sender_runs_as_duplex (writer : ChunkWriter) (reader : ChunkReader) (events : List Event)
    (accepting : ∀ event ∈ events, ∀ count, event ≠ .writeFails count) :
    duplexOf (relayRun (chunkFedFraming crypto) (ChunkWriter.writeChunk crypto random) writer
      reader events).sender =
      VmessDuplex.duplexRun crypto random writer (events.filterMap senderEvent) := by
  induction events using List.reverseRecOn with
  | nil => rfl
  | append_singleton events event inductionHypothesis =>
    have before := inductionHypothesis fun other member =>
      accepting other (List.mem_append_left _ member)
    rw [relayRun, GuardedRuns.run_snoc, step_duplex crypto random _ event
      (accepting event (List.mem_append_right _ (.head _))), List.filterMap_append,
      VmessDuplex.duplexRun, GuardedRuns.run_append, ← VmessDuplex.duplexRun, ← before]
    cases moved : senderEvent event with
    | none => simp [moved, GuardedRuns.run]
    | some other => simp [moved, GuardedRuns.run]

/-- A writer and a reader that were made for each other stand at the same place. -/
theorem new_at_writer (keys : ChunkKeys) (security : ChunkSecurity) (masking padding : Bool) :
    AtWriter (chunkFedFraming crypto) (ChunkWriter.new keys security masking padding)
      (ChunkReader.new [] keys security masking padding) :=
  ⟨new_aligned [] keys security masking padding, rfl, rfl⟩

/-- After the handshake of a client with a configured user, the duplexes of both sides relay
exactly, from the client to the server and from the server to the client. The handshake is read
from octets that end with it; what follows arrives at the duplexes. -/
theorem vmess_session_relays (users : List (Octets 16)) (uuid : Octets 16) (draws : ClientDraws)
    (cfg : VmessOutboundConfig) (sec : UInt8) (target : ProxyTarget) (serverNow : Int64)
    (configured : uuid ∈ users) (identified : parseUuid cfg.uuid = some uuid)
    (known : securityByte cfg.security = .ok sec) (fits : target.fits)
    (close : (serverNow.toInt - draws.now.toInt).natAbs ≤ 120) :
    ∃ header response accepted reader writer,
      (handshake crypto serverNow ⟨users⟩).run ⟨header, []⟩ = .ok accepted ⟨[], response⟩ ∧
      (connectTcp crypto draws cfg target).run ⟨response, []⟩ =
        .ok (reader, writer) ⟨[], header⟩ ∧
      accepted.target = target ∧
      RelaysExactly (chunkFedFraming crypto) (ChunkWriter.writeChunk crypto random) true writer
        accepted.reader ∧
      RelaysExactly (chunkFedFraming crypto) (ChunkWriter.writeChunk crypto random) true
        accepted.writer reader := by
  obtain ⟨header, response, accepted, sealed, ran, reads, sameTarget, reader, writer⟩ :=
    handshake_accepts crypto serverNow draws.now users (cmdKey uuid) draws.requestIv
      draws.requestKey draws.responseV clientOptions sec target draws.randPart draws.nonce8
      (clientSecurity sec) [] (List.ne_nil_of_mem configured) fits close (by decide) (by decide)
      (security_agrees cfg.security sec known)
  have connected := reads [] header
  rw [List.append_nil] at ran connected
  refine ⟨header, response, accepted,
    ChunkReader.new [] (respChunkKeys crypto draws.requestKey draws.requestIv)
      (clientSecurity sec) (clientOptions &&& optChunkMasking ≠ 0)
      (clientOptions &&& optGlobalPadding ≠ 0),
    ChunkWriter.new ⟨draws.requestKey, draws.requestIv⟩ (clientSecurity sec)
      (clientOptions &&& optChunkMasking ≠ 0) (clientOptions &&& optGlobalPadding ≠ 0),
    ran, ?_, sameTarget, ?_, ?_⟩
  · simp [connectTcp, EStateM.run_bind, identified, known, sealed, connected]
  · rw [reader]
    exact relays_exactly (chunk_writing crypto random) (new_at_writer crypto _ _ _ _) rfl
  · rw [writer]
    exact relays_exactly (chunk_writing crypto random) (new_at_writer crypto _ _ _ _) rfl

/-- A session of the only user of a server. -/
theorem vmess_session_relays_user :
    ∃ header response accepted reader writer,
      (handshake standard 1700000060 ⟨[⟨[0xb8, 0x31, 0x38, 0x1d, 0x63, 0x24, 0x4d, 0x53, 0xad, 0x4f,
        0x8c, 0xda, 0x48, 0xb3, 0x08, 0x11], rfl⟩]⟩).run ⟨header, []⟩ =
        .ok accepted ⟨[], response⟩ ∧
      (connectTcp standard
        ⟨zeroOctets 16, zeroOctets 16, 7, 1700000000, zeroOctets 4, zeroOctets 8⟩
        ⟨⟨"127.0.0.1", 10086⟩, "b831381d-6324-4d53-ad4f-8cda48b30811", "auto"⟩
          (.domain "example.org" 443)).run ⟨response, []⟩ = .ok (reader, writer) ⟨[], header⟩ ∧
      accepted.target = .domain "example.org" 443 ∧
      RelaysExactly (chunkFedFraming standard) (ChunkWriter.writeChunk standard
        fun _ => zeroOctets 64) true writer accepted.reader ∧
      RelaysExactly (chunkFedFraming standard) (ChunkWriter.writeChunk standard
        fun _ => zeroOctets 64) true accepted.writer reader :=
  vmess_session_relays standard (fun _ => zeroOctets 64) _ _ _ _ VmessCommand.secAes128Gcm
    (.domain "example.org" 443) 1700000060 List.mem_cons_self (by decide) (by decide) (by decide)
    (by decide)

end Duplexes

end OmniProxy.VmessRelay
