import OmniProxy.GuardedRuns
import OmniProxy.VmessChunks

/-!
# The duplex over a VMess stream

A duplex hands its slices to a pump through a channel. The pump writes every slice that
is not empty as chunks, and once the channel is closed it writes the chunk that ends the
stream. Shutting the duplex down does nothing to the channel; it is closed when the
duplex is dropped.

A run is any order of the calls on the duplex and the rounds of the pump. The underlay
accepts every write.
-/

namespace OmniProxy.VmessDuplex

open ByteStrings BufferedReads Connections CryptoPrimitives EStateM FramedStreams
open GuardedRuns VmessChunks

/-- A duplex with its write pump: what the channel holds, the pump's writer, whether the
pump is still in its loop, whether the duplex is held, and what has been accepted. -/
structure ChannelDuplex where
  queue : List Bytes
  writer : ChunkWriter
  pumping : Bool
  held : Bool
  accepted : List Bytes

/-- A call on the duplex, its end, or a round of the pump. -/
inductive Event where
  | pollWrite (buf : Bytes)
  | pollShutdown
  | dropDuplex
  | pumpRound

/-- A duplex that was just built around a writer. -/
def vmessDuplex (w : ChunkWriter) : ChannelDuplex := ⟨[], w, true, true, []⟩

variable (crypto : Primitives) (random : Nat → Octets 64)

/-- The state in which a write leaves its writer, whatever its result. -/
def afterWrite : Result IoError ChunkWriter Unit → ChunkWriter
  | .ok _ writer => writer
  | .error _ writer => writer

/-- The pump leaves its loop: it writes the empty slice and ignores the result. -/
def ChannelDuplex.finish (duplex : ChannelDuplex) : ChannelDuplex :=
  { duplex with
    queue := []
    pumping := false
    writer := afterWrite (duplex.writer.writeChunk crypto random []) }

/-- A round of the pump: it takes the first slice of the channel, or learns that the
channel is closed, or waits. -/
def ChannelDuplex.pumpRound (duplex : ChannelDuplex) : ChannelDuplex :=
  if duplex.pumping then
    match duplex.queue with
    | [] => if duplex.held then duplex else duplex.finish crypto random
    | slice :: queue =>
        if slice.isEmpty then { duplex with queue }
        else
          match duplex.writer.writeChunk crypto random slice with
          | .ok _ writer => { duplex with queue, writer }
          | .error _ writer => ChannelDuplex.finish crypto random { duplex with queue, writer }
  else duplex

/-- Hand a slice to the channel; it is refused when the pump has gone. -/
def ChannelDuplex.pollWrite (duplex : ChannelDuplex) (buf : Bytes) : ChannelDuplex :=
  if duplex.held && duplex.pumping then
    { duplex with queue := duplex.queue ++ [buf], accepted := duplex.accepted ++ [buf] }
  else duplex

/-- Shutting down succeeds and changes nothing. -/
def ChannelDuplex.pollShutdown (duplex : ChannelDuplex) : ChannelDuplex := duplex

def ChannelDuplex.step (duplex : ChannelDuplex) : Event → ChannelDuplex
  | .pollWrite buf => duplex.pollWrite buf
  | .pollShutdown => duplex.pollShutdown
  | .dropDuplex => { duplex with held := false }
  | .pumpRound => duplex.pumpRound crypto random

/-- The slices that the pump writes. -/
def slicesOf (slices : List Bytes) : List Bytes := slices.filter (!·.isEmpty)

/-- Leaving out empty slices leaves out no octet. -/
theorem slices_flatten (slices : List Bytes) : (slicesOf slices).flatten = slices.flatten := by
  induction slices with
  | nil => rfl
  | cons slice slices inductionHypothesis =>
    cases slice with
    | nil => simpa [slicesOf] using inductionHypothesis
    | cons octet rest => simpa [slicesOf] using inductionHypothesis

/-- Every slice that the pump writes has octets. -/
theorem slices_nonempty (slices : List Bytes) : ∀ slice ∈ slicesOf slices, slice ≠ [] := by
  intro slice member
  simpa using (List.mem_filter.mp member).2

/-- A nonempty slice is always written. -/
theorem write_succeeds (writer : ChunkWriter) (slice : Bytes) (nonempty : slice ≠ []) :
    ∃ after, writer.writeChunk crypto random slice = .ok () after := by
  obtain ⟨frames, after, written, -⟩ :=
    write_chunk_carries crypto random (fun _ => True) slice writer nonempty
  exact ⟨after, written⟩

/-- The chunk that ends the stream is always written. -/
theorem end_succeeds (writer : ChunkWriter) :
    ∃ after, writer.writeChunk crypto random [] = .ok () after := by
  obtain ⟨frame, after, written, -⟩ := write_end_expects crypto random writer
  exact ⟨after, by simpa [ChunkWriter.writeChunk, pieces, emitAll] using written⟩

/-- What the pump has done with what was accepted: it has written the front of it, and has
left its loop only after the duplex was dropped and everything was written with the end of
the stream. -/
structure Pumped (w : ChunkWriter) (duplex : ChannelDuplex) (done : List Bytes) : Prop where
  accepted : duplex.accepted = done ++ duplex.queue
  running : duplex.pumping = true →
    emitAll (ChunkWriter.writeChunk crypto random) (slicesOf done) w = .ok () duplex.writer
  finished : duplex.pumping = false → duplex.held = false ∧ duplex.queue = [] ∧
    emitAll (ChunkWriter.writeChunk crypto random) (slicesOf done ++ [[]]) w =
      .ok () duplex.writer

/-- A round of the pump moves the first slice of the channel to what is done. -/
theorem pump_round_pumped (w : ChunkWriter) (duplex : ChannelDuplex) (done : List Bytes)
    (pumped : Pumped crypto random w duplex done) :
    ∃ more, Pumped crypto random w (duplex.pumpRound crypto random) more := by
  obtain ⟨queue, writer, pumping, held, accepted⟩ := duplex
  obtain ⟨split, running, finished⟩ := pumped
  cases pumping with
  | false => exact ⟨done, split, running, finished⟩
  | true =>
    have written := running rfl
    cases queue with
    | nil =>
      cases held with
      | true => exact ⟨done, split, running, finished⟩
      | false =>
        obtain ⟨after, ended⟩ := end_succeeds crypto random writer
        refine ⟨done, split, by simp [ChannelDuplex.pumpRound, ChannelDuplex.finish],
          fun _ => ⟨rfl, rfl, ?_⟩⟩
        rw [emit_all_append _ _ [[]] w writer written]
        simp [emitAll, ended, ChannelDuplex.pumpRound, ChannelDuplex.finish, afterWrite]
    | cons slice queue =>
      refine ⟨done ++ [slice], ?_⟩
      by_cases empty : slice = []
      · subst empty
        refine ⟨?_, fun _ => ?_, by simp [ChannelDuplex.pumpRound]⟩
        · simpa [ChannelDuplex.pumpRound] using split
        · simpa [slicesOf, ChannelDuplex.pumpRound] using written
      · obtain ⟨after, wrote⟩ := write_succeeds crypto random writer slice empty
        refine ⟨?_, fun _ => ?_, ?_⟩
        · simpa [ChannelDuplex.pumpRound, empty, wrote] using split
        · have last : slicesOf (done ++ [slice]) = slicesOf done ++ [slice] := by
            simp [slicesOf, empty]
          rw [last, emit_all_append _ _ [slice] w writer written]
          simp [emitAll, wrote, ChannelDuplex.pumpRound, empty]
        · simp [ChannelDuplex.pumpRound, empty, wrote]

/-- Every step keeps the account of the pump. -/
theorem step_pumped (w : ChunkWriter) (duplex : ChannelDuplex) (event : Event)
    (pumped : ∃ done, Pumped crypto random w duplex done) :
    ∃ done, Pumped crypto random w (duplex.step crypto random event) done := by
  obtain ⟨done, pumped⟩ := pumped
  cases event with
  | pollWrite buf =>
    refine ⟨done, ?_⟩
    simp only [ChannelDuplex.step, ChannelDuplex.pollWrite]
    split
    · next open_ =>
      obtain ⟨-, pumping⟩ := Bool.and_eq_true_iff.mp open_
      refine ⟨?_, pumped.running, ?_⟩
      · rw [pumped.accepted, List.append_assoc]
      · simp [pumping]
    · exact pumped
  | pollShutdown => exact ⟨done, pumped⟩
  | dropDuplex =>
    refine ⟨done, pumped.accepted, pumped.running, fun ended => ?_⟩
    obtain ⟨-, rest⟩ := pumped.finished ended
    exact ⟨rfl, rest⟩
  | pumpRound => exact pump_round_pumped crypto random w duplex done pumped

/-- A run of a duplex that was built around a writer. -/
abbrev duplexRun (w : ChunkWriter) (events : List Event) : ChannelDuplex :=
  GuardedRuns.run (ChannelDuplex.step crypto random) (vmessDuplex w) events

/-- After every run the pump has written the front of what was accepted. -/
theorem run_pumped (w : ChunkWriter) (events : List Event) :
    ∃ done, Pumped crypto random w (duplexRun crypto random w events) done :=
  run_kept ⟨[], rfl, fun _ => rfl, by simp [vmessDuplex]⟩
    (fun duplex event pumped => step_pumped crypto random w duplex event pumped) events

/-- Only dropping a duplex lets go of it. -/
theorem step_held_iff (duplex : ChannelDuplex) (event : Event) :
    (duplex.step crypto random event).held = true ↔ duplex.held = true ∧ event ≠ .dropDuplex := by
  cases event with
  | pollWrite buf =>
    simp only [ChannelDuplex.step, ChannelDuplex.pollWrite]
    split <;> simp
  | pollShutdown => simp [ChannelDuplex.step, ChannelDuplex.pollShutdown]
  | dropDuplex => simp [ChannelDuplex.step]
  | pumpRound =>
    have kept : (duplex.pumpRound crypto random).held = duplex.held := by
      simp only [ChannelDuplex.pumpRound, ChannelDuplex.finish]
      split
      · split
        · split <;> rfl
        · split
          · rfl
          · split <;> rfl
      · rfl
    simp [ChannelDuplex.step, kept]

/-- A duplex is held until it is dropped. -/
theorem held_iff (w : ChunkWriter) (events : List Event) :
    (duplexRun crypto random w events).held = false ↔ .dropDuplex ∈ events := by
  rw [Bool.eq_false_iff]
  induction events using List.reverseRecOn with
  | nil => simp [GuardedRuns.run, vmessDuplex]
  | append_singleton events event inductionHypothesis =>
    rw [duplexRun, run_snoc, Ne, step_held_iff, not_and_or, ← Ne, inductionHypothesis,
      List.mem_append, List.mem_singleton, not_not, eq_comm (a := event)]

/-- The pump has taken everything from the channel and waits for more, or has ended. -/
def Drained (duplex : ChannelDuplex) : Prop :=
  duplex.queue = [] ∧ (duplex.pumping = true → duplex.held = true)

/-- A reader of the peer that expects what the writer writes next, over what has been
written since. -/
structure PeerOf (w : ChunkWriter) (duplex : ChannelDuplex) (reader : ChunkReader) : Prop where
  aligned : Aligned reader w
  arrived : w.inner ++ reader.inner = duplex.writer.inner
  empty : (chunkSource crypto).unread reader = []
  running : reader.eof = false

/-- The peer reads all that was accepted and then the end, whatever the sizes of its
buffers are. -/
def ReadsToTheEnd (w : ChunkWriter) (duplex : ChannelDuplex) : Prop :=
  ∀ reader, PeerOf crypto w duplex reader → ∀ sizes : List Nat, (∀ size ∈ sizes, 0 < size) →
    ∃ outs last, readMany (chunkSource crypto) sizes reader = (outs, none, last) ∧
      DeliversThenEnds duplex.accepted.flatten sizes outs

/-- Once the end of the stream is written, the peer reads to the end. -/
theorem finished_reads_to_the_end (w : ChunkWriter) (duplex : ChannelDuplex)
    (done : List Bytes) (pumped : Pumped crypto random w duplex done)
    (ended : duplex.pumping = false) : ReadsToTheEnd crypto w duplex := by
  obtain ⟨-, drained, written⟩ := pumped.finished ended
  obtain ⟨frames, after, wrote, sent, expects⟩ :=
    write_chunks_expects crypto random (slicesOf done) w (slices_nonempty done)
  obtain ⟨-, rfl⟩ := Result.ok.inj (wrote.symm.trans written)
  intro reader peer sizes room
  have input : reader.inner = frames :=
    List.append_cancel_left (peer.arrived.trans sent)
  have feeds := expects reader peer.aligned input peer.empty peer.running
  rw [slices_flatten] at feeds
  have all : duplex.accepted = done := by rw [pumped.accepted, drained, List.append_nil]
  rw [all]
  exact read_many_delivers feeds sizes room

/-- The reader's input has run out and no chunk has ended the stream. -/
def Unmarked (reader : ChunkReader) : Prop := reader.inner = [] ∧ reader.eof = false

/-- Without an end marker, a reader whose input has run out reads nothing more. -/
theorem unmarked_refuses (reader : ChunkReader) (size : Nat)
    (empty : (chunkSource crypto).unread reader = []) (unmarked : Unmarked reader) :
    ∃ after, readData (chunkSource crypto) size reader = .error earlyEof after := by
  obtain ⟨dry, running⟩ := unmarked
  have refused : ∃ after, reader.fillChunk crypto = .error earlyEof after := by
    simp only [ChunkReader.fillChunk, dry]
    exact ⟨_, rfl⟩
  obtain ⟨after, refused⟩ := refused
  exact ⟨after, read_data_refused size reader after earlyEof empty running refused⟩

/-- While the pump is in its loop, what it has written has no end. -/
theorem running_never_ends (w : ChunkWriter) (duplex : ChannelDuplex) (done : List Bytes)
    (pumped : Pumped crypto random w duplex done) (running : duplex.pumping = true) :
    ¬ReadsToTheEnd crypto w duplex := by
  have carried := carries_items (chunkFraming crypto) Unmarked
    (ChunkWriter.writeChunk crypto random) (slicesOf done) w fun slice member writer =>
      write_chunk_carries crypto random Unmarked slice writer (slices_nonempty done slice member)
  obtain ⟨frames, after, wrote, sent, expects⟩ := carried_expected (chunkFraming crypto) Unmarked
    carried fun _ dry running => ⟨dry, running⟩
  obtain ⟨-, rfl⟩ := Result.ok.inj (wrote.symm.trans (pumped.running running))
  let reader : ChunkReader :=
    ⟨frames, w.keys, w.security, w.masking, w.padding, w.sizeParser, w.counter, [], 0, false⟩
  have peer : PeerOf crypto w duplex reader :=
    ⟨⟨rfl, rfl, rfl, rfl, rfl, rfl⟩, Eq.symm sent, rfl, rfl⟩
  have feeds := expects reader peer.aligned rfl rfl rfl
  intro reads
  let sizes := List.replicate ((slicesOf done).flatten.length + 1) 1
  have room : ∀ size ∈ sizes, 0 < size := by
    intro size member
    rw [List.eq_of_mem_replicate member]
    exact Nat.one_pos
  obtain ⟨outs, last, read, -⟩ := reads reader peer sizes room
  obtain ⟨others, other, failed, -⟩ := read_many_refused earlyEof
    (fun reader size => unmarked_refuses crypto reader size) feeds sizes room (by simp [sizes])
  simp [read] at failed

/-- A half-close reaches the peer: in every state of the run after a shutdown in which
the pump has drained the channel, the peer reads all that was accepted and the end. -/
def HalfCloses (w : ChunkWriter) (events : List Event) : Prop :=
  ∀ before after, events = before ++ after → .pollShutdown ∈ before →
    Drained (duplexRun crypto random w before) →
    ReadsToTheEnd crypto w (duplexRun crypto random w before)

/-- Exactly when a half-close reaches the peer: when the duplex has been dropped by the
time the pump has drained the channel. -/
theorem half_closes_iff (w : ChunkWriter) (events : List Event) :
    HalfCloses crypto random w events ↔
      ∀ before after, events = before ++ after → .pollShutdown ∈ before →
        Drained (duplexRun crypto random w before) → .dropDuplex ∈ before := by
  unfold HalfCloses
  refine forall₂_congr fun before after => forall₃_congr fun _ _ drained => ?_
  obtain ⟨done, pumped⟩ := run_pumped crypto random w before
  rw [← held_iff crypto random w before]
  constructor
  · intro reads
    by_contra held
    cases pumping : (duplexRun crypto random w before).pumping with
    | true => exact running_never_ends crypto random w _ done pumped pumping reads
    | false => exact held (pumped.finished pumping).1
  · intro dropped
    apply finished_reads_to_the_end crypto random w _ done pumped
    by_contra pumping
    have held := drained.2 (by simpa using pumping)
    rw [dropped] at held
    exact Bool.false_ne_true held

section Examples

/-- A writer that has written nothing. -/
def freshWriter : ChunkWriter := .new ⟨zeroOctets 16, zeroOctets 16⟩ .none false false

/-- A slice is written, the duplex is shut down and the pump takes the slice. -/
def halfClosedRun : List Event := [.pollWrite [1, 2], .pollShutdown, .pumpRound]

/-- The pump has taken the slice and waits for another. -/
theorem half_closed_drained : Drained (duplexRun crypto random freshWriter halfClosedRun) := by
  obtain ⟨after, wrote⟩ := write_succeeds crypto random freshWriter [1, 2] (by simp)
  simp [Drained, duplexRun, GuardedRuns.run, halfClosedRun, vmessDuplex, ChannelDuplex.step,
    ChannelDuplex.pollWrite, ChannelDuplex.pollShutdown, ChannelDuplex.pumpRound, wrote]

/-- The peer does not learn of the half-close while the duplex is held. -/
theorem half_close_unnoticed :
    ¬HalfCloses standard (fun _ => zeroOctets 64) freshWriter halfClosedRun := by
  intro closes
  have reads := closes halfClosedRun [] (List.append_nil _).symm (by simp [halfClosedRun])
    (half_closed_drained standard fun _ => zeroOctets 64)
  obtain ⟨done, pumped⟩ := run_pumped standard (fun _ => zeroOctets 64) freshWriter halfClosedRun
  have held := (held_iff standard (fun _ => zeroOctets 64) freshWriter halfClosedRun).not.mpr
    (by simp [halfClosedRun])
  have pumping : (duplexRun standard (fun _ => zeroOctets 64) freshWriter
      halfClosedRun).pumping = true := by
    by_contra ended
    exact held (pumped.finished (by simpa using ended)).1
  exact running_never_ends standard (fun _ => zeroOctets 64) freshWriter _ done pumped pumping
    reads

end Examples

end OmniProxy.VmessDuplex
