import OmniProxy.ShadowsocksStream

/-!
# The duplex over a Shadowsocks stream

A duplex hands its slices to a pump. The pump writes every slice that is not empty
until a write fails, then writes the empty slice and drops the writer. An empty slice
has no chunks, so nothing marks the end on the wire: the written octets stop after the
last chunk.

Nothing of this closes the underlay: the shutdown of a duplex does nothing, and the pump
drops only its half. Here the underlay is closed behind the pump, as for a connection that
is torn down. A reader knows two ends. A chunk of length zero ends the stream; an underlay
that runs out is an error, before a chunk as well as inside one. The result is that the
peer of a duplex always meets the second one after it has received all the data.
-/

namespace OmniProxy.ShadowsocksDuplex

open ByteStrings BufferedReads Connections CryptoPrimitives EStateM FramedStreams
  ShadowsocksStream

variable (crypto : Primitives)

/-- The state in which a write leaves its writer, whatever its result. -/
def afterWrite : Result IoError AeadStreamWriter Unit → AeadStreamWriter
  | .ok _ writer => writer
  | .error _ writer => writer

/-- The write pump of a duplex: the slices in order, then the empty slice, whose
result is ignored. -/
def ssDuplexWritePump : List Bytes → AeadStreamWriter → AeadStreamWriter
  | [], writer => afterWrite (writer.writeChunk crypto [])
  | slice :: slices, writer =>
      if slice.isEmpty then ssDuplexWritePump slices writer
      else
        match writer.writeChunk crypto slice with
        | .ok _ writer => ssDuplexWritePump slices writer
        | .error _ writer => afterWrite (writer.writeChunk crypto [])

/-- The reader's input has run out and no chunk has ended the stream. -/
def Unmarked (reader : AeadStreamReader) : Prop := reader.inner = [] ∧ reader.eof = false

/-- An empty slice writes nothing. -/
theorem write_chunk_empty (writer : AeadStreamWriter) :
    writer.writeChunk crypto [] = .ok () writer := by
  simp [AeadStreamWriter.writeChunk, emitAll]

/-- The pump writes the slices and nothing else. -/
theorem write_pump_exact (slices : List Bytes) (writer after : AeadStreamWriter)
    (written : emitAll (AeadStreamWriter.writeChunk crypto) slices writer = .ok () after) :
    ssDuplexWritePump crypto slices writer = after := by
  induction slices generalizing writer with
  | nil =>
    obtain ⟨-, rfl⟩ := Result.ok.inj written
    rw [ssDuplexWritePump, write_chunk_empty, afterWrite]
  | cons slice slices inductionHypothesis =>
    simp only [emitAll] at written
    by_cases empty : slice = []
    · subst empty
      simp only [write_chunk_empty] at written
      rw [ssDuplexWritePump, if_pos List.isEmpty_nil]
      exact inductionHypothesis writer written
    · rw [ssDuplexWritePump, if_neg (by simpa using empty)]
      cases step : writer.writeChunk crypto slice with
      | error error failed => simp [step] at written
      | ok value next =>
        simp only [step] at written
        exact inductionHypothesis next written

/-- Without an end marker, a reader whose input has run out refuses to read. -/
theorem unmarked_refuses (reader : AeadStreamReader) (size : Nat)
    (empty : (streamSource crypto).unread reader = []) (unmarked : Unmarked reader) :
    ∃ after, readData (streamSource crypto) size reader = .error closedMidChunk after := by
  obtain ⟨dry, running⟩ := unmarked
  have short : splitExact (2 + 16) reader.inner = none := by
    rw [dry]
    rfl
  have refused : reader.fillChunk crypto = .error closedMidChunk { reader with inner := [] } := by
    simp only [AeadStreamReader.fillChunk, short]
  exact ⟨_, read_data_refused size reader _ closedMidChunk empty running refused⟩

/-- The peer of a duplex: a reader with the cipher and nonce that the duplex's writer had,
over what the pump has written. The underlay is closed behind that, which is what the
scenario adds to the duplex: without it the peer waits for more. -/
def peer (cipher : SsAead) (nonce : Octets 12) (slices : List Bytes) : AeadStreamReader :=
  .new (ssDuplexWritePump crypto slices (.new [] cipher nonce)).inner cipher nonce

/-- The peer hands out the slices and then has neither input nor an end marker. -/
theorem peer_feeds (cipher : SsAead) (nonce : Octets 12) (slices : List Bytes) :
    Feeds (streamSource crypto) Unmarked (peer crypto cipher nonce slices) slices.flatten := by
  obtain ⟨frames, after, written, sent, expects⟩ := carried_expected (streamFraming crypto)
    Unmarked (write_chunks_carries_until crypto Unmarked slices (.new [] cipher nonce))
    fun _ dry running => ⟨dry, running⟩
  have stream : (ssDuplexWritePump crypto slices (.new [] cipher nonce)).inner = frames := by
    rw [write_pump_exact crypto slices _ after written]
    exact sent
  exact expects (peer crypto cipher nonce slices) ⟨rfl, rfl⟩ stream rfl rfl

/-- A clean end: for any sequence of nonempty buffers the data is delivered and the
reads after it report the end, never an error. -/
def CleanEnd (cipher : SsAead) (nonce : Octets 12) (slices : List Bytes) : Prop :=
  ∀ sizes : List Nat, (∀ size ∈ sizes, 0 < size) →
    ∃ outs last, readMany (streamSource crypto) sizes (peer crypto cipher nonce slices) =
        (outs, none, last) ∧ DeliversThenEnds slices.flatten sizes outs

/-- No duplex ends cleanly. Whatever the slices are, the peer receives all of them
and its next read is an error, although the underlay ended between two chunks. -/
theorem end_always_reported_as_error (cipher : SsAead) (nonce : Octets 12)
    (slices : List Bytes) :
    ¬CleanEnd crypto cipher nonce slices ∧
      ∀ sizes : List Nat, (∀ size ∈ sizes, 0 < size) → slices.flatten.length < sizes.length →
        ∃ outs last, readMany (streamSource crypto) sizes (peer crypto cipher nonce slices) =
            (outs, some closedMidChunk, last) ∧ outs.flatten = slices.flatten := by
  have refused := fun sizes room more =>
    read_many_refused closedMidChunk (fun reader size => unmarked_refuses crypto reader size)
      (peer_feeds crypto cipher nonce slices) sizes room more
  refine ⟨?_, refused⟩
  intro clean
  let sizes := List.replicate (slices.flatten.length + 1) 1
  have room : ∀ size ∈ sizes, 0 < size := by
    intro size member
    rw [List.eq_of_mem_replicate member]
    exact Nat.one_pos
  obtain ⟨outs, last, read, -⟩ := clean sizes room
  obtain ⟨others, other, failed, -⟩ := refused sizes room (by simp [sizes])
  simp [read] at failed

/-- After one slice of two octets, the third one-octet read of the peer fails. -/
theorem end_of_two_octets_fails :
    ¬CleanEnd standard ⟨.aes128Gcm, zeroOctets 16⟩ (zeroOctets 12) [[0x68, 0x69]] := by
  intro clean
  obtain ⟨outs, last, read, -⟩ := clean [1, 1, 1] (by decide)
  obtain ⟨others, other, failed, -⟩ := read_many_refused closedMidChunk
    (fun reader size => unmarked_refuses standard reader size)
    (peer_feeds standard ⟨.aes128Gcm, zeroOctets 16⟩ (zeroOctets 12) [[0x68, 0x69]])
    [1, 1, 1] (by decide) (by decide)
  simp [read] at failed

end OmniProxy.ShadowsocksDuplex
