import OmniProxy.ShadowsocksDuplex

/-!
# The target of a Shadowsocks stream and its chunks

A stream starts with the SOCKS5 form of the target, and the sender decides how the
octets are cut into chunks. The reader decodes the target from what one chunk brings:
it refills its buffer once, if that is empty, and does not go on to a second chunk. A
first chunk that ends inside the address is therefore refused as malformed, while the
reads after a decoded target go through any number of chunks.
-/

namespace OmniProxy.ShadowsocksTargets

open ByteStrings BufferedReads CarryCounters CryptoPrimitives EStateM FramedStreams ProxyTargets
  ShadowsocksDuplex ShadowsocksStream

variable (crypto : Primitives)

/-- The pieces of a plaintext that a sender makes into chunks. -/
structure CutInto (plaintext : Bytes) (chunks : List Bytes) : Prop where
  whole : chunks.flatten = plaintext
  nonempty : ∀ chunk ∈ chunks, chunk ≠ []
  fits : ∀ chunk ∈ chunks, chunk.length ≤ maxPayload

/-- The reads after the target deliver exactly these octets: nonempty pieces of them in
order, and an error only when all of them were handed out. -/
def DeliversExactly (reader : AeadStreamReader) (rest : Bytes) : Prop :=
  ∀ sizes : List Nat, (∀ size ∈ sizes, 0 < size) →
    (∃ first later outs last, readMany (streamSource crypto) first reader = (outs, none, last) ∧
      DeliversUntilDry rest sizes first later outs) ∧
    (rest.length < sizes.length →
      ∃ outs last, readMany (streamSource crypto) sizes reader =
        (outs, some closedMidChunk, last) ∧ outs.flatten = rest)

/-- The reader returns the address as its target and delivers the rest after it. -/
def FindsTarget (reader : AeadStreamReader) (addr : Socks5Addr) (rest : Bytes) : Prop :=
  ∃ after, reader.readTarget crypto = .ok addr.toProxyTarget after ∧
    DeliversExactly crypto after rest

/-- What a reader will hand out before its input ends is delivered exactly. -/
theorem delivers_of_feeds (reader : AeadStreamReader) (rest : Bytes)
    (feeds : Feeds (streamSource crypto) Unmarked reader rest) :
    DeliversExactly crypto reader rest :=
  fun sizes room => ⟨read_many_until_dry feeds sizes room,
    read_many_refused closedMidChunk (fun last size => unmarked_refuses crypto last size) feeds
      sizes room⟩

/-- Chunks of a stream are carried in order. -/
theorem chunks_carried (chunks : List Bytes) (writer : AeadStreamWriter)
    (nonempty : ∀ chunk ∈ chunks, chunk ≠ []) (fits : ∀ chunk ∈ chunks, chunk.length ≤ maxPayload) :
    Carries (streamFraming crypto) Unmarked (emitAll (AeadStreamWriter.writePiece crypto) chunks)
      chunks.flatten writer :=
  carries_items (streamFraming crypto) Unmarked (AeadStreamWriter.writePiece crypto) chunks writer
    fun chunk member writer => carries_of_decoded _ _ (nonempty chunk member)
      (write_piece_decoded crypto writer chunk (nonempty chunk member) (fits chunk member))

/-- A fresh reader of a chunked stream fills its buffer with the first chunk. Once that
is handed out, the other chunks are still to come. -/
theorem first_chunk_filled (cipher : SsAead) (nonce : Octets 12) (first : Bytes)
    (others : List Bytes) (writer : AeadStreamWriter)
    (nonempty : ∀ chunk ∈ first :: others, chunk ≠ [])
    (fits : ∀ chunk ∈ first :: others, chunk.length ≤ maxPayload)
    (sent : emitAll (AeadStreamWriter.writePiece crypto) (first :: others)
      (.new [] cipher nonce) = .ok () writer) :
    ∃ next, (AeadStreamReader.new writer.inner cipher nonce).fillChunk crypto = .ok () next ∧
      next.rbuf.drop next.rpos = first ∧
      Feeds (streamSource crypto) Unmarked
        ((streamSource crypto).advance next first.length) others.flatten := by
  obtain ⟨frame, middle, written, sentFirst, decodes⟩ := write_piece_decoded crypto
    (.new [] cipher nonce) first (nonempty first List.mem_cons_self)
    (fits first List.mem_cons_self)
  have carried := chunks_carried crypto others middle
    (fun chunk member => nonempty chunk (List.mem_cons_of_mem _ member))
    (fun chunk member => fits chunk (List.mem_cons_of_mem _ member))
  obtain ⟨frames, after, writtenRest, sentRest, expects⟩ := carried_expected (streamFraming crypto)
    Unmarked carried fun _ dry running => ⟨dry, running⟩
  simp only [emitAll, written, writtenRest] at sent
  obtain ⟨-, rfl⟩ := Result.ok.inj sent
  have stream : after.inner = frame ++ frames := by
    rw [show after.inner = middle.inner ++ frames from sentRest,
      show middle.inner = frame from sentFirst]
  obtain ⟨next, filled, aligned, input, unread, running⟩ :=
    decodes (.new after.inner cipher nonce) frames ⟨rfl, rfl⟩ stream rfl
  refine ⟨next, filled, unread, ?_⟩
  refine expects _ aligned input ?_ running
  show next.rbuf.drop (next.rpos + first.length) = []
  rw [← List.drop_drop, show next.rbuf.drop next.rpos = first from unread, List.drop_length]

/-- A fresh reader decodes its target from the chunk it was filled with. -/
theorem read_target_filled (reader next : AeadStreamReader) (empty : reader.rbuf = [])
    (running : reader.eof = false) (filled : reader.fillChunk crypto = .ok () next) :
    reader.readTarget crypto =
      match Socks5Addr.decode (next.rbuf.drop next.rpos) with
      | .error message => .error (invalidData message) next
      | .ok (addr, used) => .ok addr.toProxyTarget ((streamSource crypto).advance next used) := by
  have exhausted : reader.rbuf.length ≤ reader.rpos := by simp [empty]
  simp only [AeadStreamReader.readTarget, exhausted, running, and_self, if_true, filled]
  rfl

/-- An encoded address is read back whole, whatever follows it. -/
theorem decode_encoded (addr : Socks5Addr) (named : addr.toProxyTarget.named) (rest : Bytes) :
    Socks5Addr.decode (addr.encodeInto [] ++ rest) = .ok (addr, (addr.encodeInto []).length) := by
  have decoded := decode_encode_target addr.toProxyTarget named rest
  rwa [from_to_proxy_target] at decoded

/-- Exactly when a chunked stream gives its target and then its data: the first chunk
holds the whole address. A shorter one is a part of the address, which is never read as
an address; with a longer one the rest of the chunk comes before the other chunks. -/
theorem finds_target_iff (cipher : SsAead) (nonce : Octets 12) (addr : Socks5Addr)
    (rest : Bytes) (chunks : List Bytes) (writer : AeadStreamWriter)
    (named : addr.toProxyTarget.named) (cut : CutInto (addr.encodeInto [] ++ rest) chunks)
    (sent : emitAll (AeadStreamWriter.writePiece crypto) chunks (.new [] cipher nonce) =
      .ok () writer) :
    FindsTarget crypto (.new writer.inner cipher nonce) addr rest ↔
      (addr.encodeInto []).length ≤ (chunks.headD []).length := by
  obtain ⟨whole, nonempty, fits⟩ := cut
  cases chunks with
  | nil => exact absurd (List.append_eq_nil_iff.mp whole.symm).1 (encode_into_nonempty addr)
  | cons first others =>
    rw [List.flatten_cons] at whole
    obtain ⟨next, filled, unread, later⟩ :=
      first_chunk_filled crypto cipher nonce first others writer nonempty fits sent
    have read := read_target_filled crypto _ next rfl rfl filled
    rw [unread] at read
    rw [FindsTarget, read, List.headD_cons]
    have front : addr.encodeInto [] <+: first ++ others.flatten := ⟨rest, whole.symm⟩
    constructor
    · rintro ⟨after, found, -⟩
      by_contra short
      obtain ⟨missing, framed⟩ :=
        List.prefix_of_prefix_length_le (List.prefix_append first others.flatten) front (by omega)
      obtain ⟨error, refused⟩ := decode_part addr.toProxyTarget named first missing
        (by rw [from_to_proxy_target, framed]) (by rintro rfl; simp [← framed] at short)
      simp [refused] at found
    · intro long
      obtain ⟨tail, rfl⟩ :=
        List.prefix_of_prefix_length_le front (List.prefix_append first others.flatten) long
      have remaining : rest = tail ++ others.flatten := by
        rw [List.append_assoc] at whole
        exact (List.append_cancel_left whole).symm
      rw [decode_encoded addr named tail]
      refine ⟨_, rfl, delivers_of_feeds crypto _ _ ?_⟩
      have buffered : (streamSource crypto).unread next = addr.encodeInto [] ++ tail := unread
      rw [← buffered] at later
      have feeds := feeds_advance next others.flatten (addr.encodeInto []).length
        (by rw [buffered]; exact long) later
      rwa [buffered, List.drop_left, ← remaining] at feeds

/-- The condition at a target that shares its only chunk with two octets of data. -/
theorem finds_target_one_chunk :
    ∃ writer,
      (Socks5Addr.domain "example.org" 443).toProxyTarget.named ∧
      CutInto ((Socks5Addr.domain "example.org" 443).encodeInto [] ++ [0x68, 0x69])
        [(Socks5Addr.domain "example.org" 443).encodeInto [] ++ [0x68, 0x69]] ∧
      emitAll (AeadStreamWriter.writePiece standard)
          [(Socks5Addr.domain "example.org" 443).encodeInto [] ++ [0x68, 0x69]]
          (.new [] ⟨.aes128Gcm, zeroOctets 16⟩ (zeroOctets 12)) = .ok () writer ∧
      (FindsTarget standard (.new writer.inner ⟨.aes128Gcm, zeroOctets 16⟩ (zeroOctets 12))
          (.domain "example.org" 443) [0x68, 0x69] ↔
        ((Socks5Addr.domain "example.org" 443).encodeInto []).length ≤
          ([(Socks5Addr.domain "example.org" 443).encodeInto [] ++ [0x68, 0x69]].headD
            []).length) := by
  have named : (Socks5Addr.domain "example.org" 443).toProxyTarget.named := by decide
  have cut : CutInto ((Socks5Addr.domain "example.org" 443).encodeInto [] ++ [0x68, 0x69])
      [(Socks5Addr.domain "example.org" 443).encodeInto [] ++ [0x68, 0x69]] :=
    ⟨by simp, by simp, by decide⟩
  obtain ⟨frames, writer, sent, -⟩ := chunks_carried standard
    [(Socks5Addr.domain "example.org" 443).encodeInto [] ++ [0x68, 0x69]]
    (.new [] ⟨.aes128Gcm, zeroOctets 16⟩ (zeroOctets 12)) cut.nonempty cut.fits
  exact ⟨writer, named, cut, sent, finds_target_iff standard ⟨.aes128Gcm, zeroOctets 16⟩
    (zeroOctets 12) (.domain "example.org" 443) [0x68, 0x69] _ writer named cut sent⟩

/-- An IPv4 target whose type octet has a chunk of its own is refused: the reader meets
one octet where it expects an address. -/
theorem split_target_refused :
    ∃ writer after,
      (Socks5Addr.v4 (zeroOctets 4) 443).toProxyTarget.named ∧
      CutInto ((Socks5Addr.v4 (zeroOctets 4) 443).encodeInto [] ++ [])
        [[0x01], [0, 0, 0, 0, 0x01, 0xbb]] ∧
      emitAll (AeadStreamWriter.writePiece standard) [[0x01], [0, 0, 0, 0, 0x01, 0xbb]]
          (.new [] ⟨.aes128Gcm, zeroOctets 16⟩ (zeroOctets 12)) = .ok () writer ∧
      (AeadStreamReader.new writer.inner ⟨.aes128Gcm, zeroOctets 16⟩ (zeroOctets 12)).readTarget
          standard = .error (invalidData "socks5: empty address buffer") after ∧
      ¬FindsTarget standard (.new writer.inner ⟨.aes128Gcm, zeroOctets 16⟩ (zeroOctets 12))
        (.v4 (zeroOctets 4) 443) [] := by
  have cut : CutInto ((Socks5Addr.v4 (zeroOctets 4) 443).encodeInto [] ++ [])
      [[0x01], [0, 0, 0, 0, 0x01, 0xbb]] := ⟨by decide, by decide, by decide⟩
  obtain ⟨frames, writer, sent, -⟩ := chunks_carried standard [[0x01], [0, 0, 0, 0, 0x01, 0xbb]]
    (.new [] ⟨.aes128Gcm, zeroOctets 16⟩ (zeroOctets 12)) cut.nonempty cut.fits
  obtain ⟨next, filled, unread, -⟩ := first_chunk_filled standard _ _ _ _ writer cut.nonempty
    cut.fits sent
  have read := read_target_filled standard _ next rfl rfl filled
  rw [unread] at read
  refine ⟨writer, next, trivial, cut, sent, read, ?_⟩
  rintro ⟨after, found, -⟩
  rw [read] at found
  cases found

end OmniProxy.ShadowsocksTargets
