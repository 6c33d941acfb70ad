import OmniProxy.DuplexRelays
import OmniProxy.ShadowsocksDuplex

/-!
# The relay between two Shadowsocks duplexes

The chunk reader is a fed reader, and its writer carries every slice. Writing the empty slice
writes nothing, so the stream has no mark of its end: the duplexes of both sides relay exactly,
but a receiver learns of the end only by the error of an input that ran dry.
-/

namespace OmniProxy.ShadowsocksRelay

open ByteStrings BufferedReads Connections CryptoPrimitives DuplexRelays EStateM FedReaders
  FramedStreams ProxyTargets ShadowsocksStream

variable (crypto : Primitives)

section Feeding

/-- More input for a reader. -/
def feed (reader : AeadStreamReader) (more : Bytes) : AeadStreamReader :=
  { reader with inner := reader.inner ++ more }

/-- More input changes how a payload is opened only if the input ran dry. -/
theorem fill_body_kept (reader : AeadStreamReader) (len : Nat) (more : Bytes) :
    Kept feed closedMidChunk more (reader.fillBody crypto len)
      ((feed reader more).fillBody crypto len) := by
  obtain ⟨inner, cipher, nonce, rbuf, rpos, eof⟩ := reader
  simp only [feed]
  cases boxed : splitExact (len + 16) inner with
  | none =>
    simp only [AeadStreamReader.fillBody, boxed]
    exact .inl rfl
  | some found =>
    obtain ⟨box, rest⟩ := found
    simp only [AeadStreamReader.fillBody, boxed, split_exact_feed more boxed]
    cases cipher.openBox crypto nonce box with
    | none => exact .inr ⟨_, rfl⟩
    | some body => rfl

/-- More input changes how a chunk is opened only if the input ran dry. -/
theorem fill_chunk_kept (reader : AeadStreamReader) (more : Bytes) :
    Kept feed closedMidChunk more (reader.fillChunk crypto)
      ((feed reader more).fillChunk crypto) := by
  obtain ⟨inner, cipher, nonce, rbuf, rpos, eof⟩ := reader
  simp only [feed]
  cases sized : splitExact (2 + 16) inner with
  | none =>
    simp only [AeadStreamReader.fillChunk, sized]
    exact .inl rfl
  | some found =>
    obtain ⟨hdr, rest⟩ := found
    simp only [AeadStreamReader.fillChunk, sized, split_exact_feed more sized]
    cases cipher.openBox crypto nonce hdr with
    | none => exact .inr ⟨_, rfl⟩
    | some lenPlain =>
      dsimp only
      by_cases large : maxPayload < (ofBigEndian16 (lenPlain.getD 0 0) (lenPlain.getD 1 0)).toNat
      · rw [if_pos large, if_pos large]
        exact .inr ⟨_, rfl⟩
      · rw [if_neg large, if_neg large]
        exact fill_body_kept crypto _ _ more

/-- No further input changes nothing. -/
theorem feed_nothing (reader : AeadStreamReader) : feed reader [] = reader := by
  rw [feed, List.append_nil]

/-- Input in two parts is the input of both. -/
theorem feed_again (reader : AeadStreamReader) (first second : Bytes) :
    feed (feed reader first) second = feed reader (first ++ second) := by
  simp only [feed, List.append_assoc]

/-- Without input a reader runs dry. -/
theorem fill_chunk_dry (reader : AeadStreamReader) (empty : reader.inner = []) :
    ∃ after, reader.fillChunk crypto = .error closedMidChunk after := by
  simp only [AeadStreamReader.fillChunk, empty]
  exact ⟨_, rfl⟩

/-- The chunk reader as a fed reader. -/
def streamFed : FedSource AeadStreamReader IoError where
  toSource := streamSource crypto
  feed := feed
  dry := closedMidChunk
  feed_nil := feed_nothing
  feed_append := feed_again
  unread_feed _ _ := rfl
  ended_feed _ _ := rfl
  advance_feed _ _ _ := rfl
  fill_kept := fill_chunk_kept crypto

/-- The chunk stream with its fed reader. -/
def streamFedFraming : FedFraming AeadStreamReader AeadStreamWriter IoError where
  source := streamFed crypto
  framing := streamFraming crypto
  same := rfl
  input_feed _ _ := rfl
  aligned_feed _ _ _ aligned := aligned
  fill_dry := fill_chunk_dry crypto

end Feeding

section Duplexes

/-- The writer carries every slice; the empty one writes nothing. -/
theorem stream_writing :
    Writing (streamFedFraming crypto) (AeadStreamWriter.writeChunk crypto) false := by
  refine ⟨fun slice writer last _ => write_chunk_carries_until crypto last slice writer,
    fun writer => ?_⟩
  refine ⟨[], writer, ShadowsocksDuplex.write_chunk_empty crypto writer, ?_, ?_⟩
  · exact (List.append_nil _).symm
  · exact at_writer_expects (streamFedFraming crypto) writer

/-- With the same method and password, and once the server has read the target at the front of
the client's stream, the duplexes of both sides relay exactly, from the client to the server and
from the server to the client; neither direction has a mark of its end. -/
theorem shadowsocks_session_relays (random : (count : Nat) → Octets count) (out : SsOutboundConfig)
    (inbound : SsInboundConfig) (method : Method) (target : ProxyTarget)
    (outMethod : Method.parse out.method = some method)
    (inMethod : Method.parse inbound.method = some method)
    (samePassword : inbound.password = out.password) (named : target.named) :
    ∃ clientReader clientWriter accepted serverWriter serverReader,
      connectTcp crypto random [] out target = .ok (clientReader, clientWriter) ∧
      acceptTcp clientWriter.inner inbound = .ok (accepted, serverWriter) ∧
      accepted.readTarget crypto = .ok target serverReader ∧
      RelaysExactly (streamFedFraming crypto) (AeadStreamWriter.writeChunk crypto) false
        clientWriter serverReader ∧
      RelaysExactly (streamFedFraming crypto) (AeadStreamWriter.writeChunk crypto) false
        serverWriter clientReader := by
  have short : (addressOf target).length ≤ maxPayload :=
    Nat.le_trans (encode_into_length target named) (by decide)
  have nonempty : addressOf target ≠ [] := encode_into_nonempty _
  generalize saltBytes : (random method.saltLen).toList = salt
  have saltWidth : salt.length = method.saltLen := by rw [← saltBytes, List.Vector.toList_length]
  generalize ciphered : connectionCipher method out.password salt = cipher
  obtain ⟨frame, connected, address, sent, decoded⟩ := write_piece_decoded crypto
    (AeadStreamWriter.new salt cipher (zeroOctets 12)) (addressOf target) nonempty short
  have stream : connected.inner = salt ++ frame := sent
  obtain ⟨next, filled, aligned, input, unread, still⟩ := decoded
    (AeadStreamReader.new frame cipher (zeroOctets 12)) [] ⟨rfl, rfl⟩ (List.append_nil _).symm rfl
  have connects := connect_exact crypto random [] out method target connected outMethod short
    (by rw [saltBytes, ciphered]; exact address)
  have accepts : acceptTcp connected.inner inbound =
      .ok (AeadStreamReader.new frame cipher (zeroOctets 12),
        AeadStreamWriter.new [] cipher (zeroOctets 12)) := by
    simp only [acceptTcp, parsedMethod, inMethod, stream, split_exact_append _ salt _ saltWidth,
      samePassword, ciphered]
  have targeted := read_target_exact crypto _ next target named (by simp [AeadStreamReader.new]) rfl
    filled unread
  rw [saltBytes, ciphered] at connects
  refine ⟨_, connected, _, _, _, connects, accepts, targeted, ?_, ?_⟩
  · refine relays_exactly (stream_writing crypto) ⟨aligned, input, still⟩ ?_
    change next.rbuf.drop (next.rpos + (addressOf target).length) = []
    rw [← List.drop_drop, show next.rbuf.drop next.rpos = addressOf target from unread,
      List.drop_length]
  · exact relays_exactly (stream_writing crypto) ⟨⟨rfl, rfl⟩, rfl, rfl⟩ rfl

/-- A session of a client and a server that spell one method differently. -/
theorem shadowsocks_session_relays_chacha :
    ∃ clientReader clientWriter accepted serverWriter serverReader,
      connectTcp standard (fun count => zeroOctets count) []
        ⟨"127.0.0.1", 8388, "CHACHA20-POLY1305", "secret"⟩ (.domain "example.org" 443) =
          .ok (clientReader, clientWriter) ∧
      acceptTcp clientWriter.inner ⟨"chacha20-ietf-poly1305", "secret"⟩ =
        .ok (accepted, serverWriter) ∧
      accepted.readTarget standard = .ok (.domain "example.org" 443) serverReader ∧
      RelaysExactly (streamFedFraming standard) (AeadStreamWriter.writeChunk standard) false
        clientWriter serverReader ∧
      RelaysExactly (streamFedFraming standard) (AeadStreamWriter.writeChunk standard) false
        serverWriter clientReader :=
  shadowsocks_session_relays standard (fun count => zeroOctets count) _ _ .chaCha20IetfPoly1305 _
    (by decide) (by decide) rfl (by decide)

end Duplexes

end OmniProxy.ShadowsocksRelay
