import OmniProxy.FramedStreams

/-!
# Readers whose input arrives while they read

A fed reader is a buffered reader that can be given more input. Whatever it decodes at the
front of its input does not depend on what stands behind: a refill that succeeds does the same
with more input, and so does one that refuses what it has read. The only outcome that more
input can change is that the input ran dry.

A read that succeeds on what has arrived is therefore the read of the whole stream, and a read
that runs dry can be tried again when more has arrived. `Feeds` is kept when the octets of
further frames are fed.

Nothing here refers to a particular program.
-/

namespace OmniProxy.FedReaders

open ByteStrings BufferedReads Connections EStateM FramedStreams

variable {σ ω ε : Type}

/-- An exact read that finds enough octets finds the same ones when more follow. -/
theorem split_exact_feed {count : Nat} {incoming front rest : Bytes} (more : Bytes)
    (split : splitExact count incoming = some (front, rest)) :
    splitExact count (incoming ++ more) = some (front, rest ++ more) := by
  obtain ⟨width, rfl⟩ := split_exact_some count incoming front rest split
  rw [List.append_assoc]
  exact split_exact_append count front _ width

/-- A result that more input does not change, unless the input ran dry. -/
def Kept (feed : σ → Bytes → σ) (dry : ε) (more : Bytes) : Result ε σ Unit → Result ε σ Unit → Prop
  | .ok _ after, fed => fed = .ok () (feed after more)
  | .error error _, fed => error = dry ∨ ∃ other, fed = .error error other

/-- A buffered reader that can be given more input. -/
structure FedSource (σ ε : Type) extends Source σ ε where
  /-- Append octets to the input. -/
  feed : σ → Bytes → σ
  /-- The error of an input that has run out. -/
  dry : ε
  feed_nil : ∀ state, feed state [] = state
  feed_append : ∀ state first second, feed (feed state first) second = feed state (first ++ second)
  unread_feed : ∀ state more, unread (feed state more) = unread state
  ended_feed : ∀ state more, ended (feed state more) = ended state
  advance_feed : ∀ state more count,
    advance (feed state more) count = feed (advance state count) more
  fill_kept : ∀ state more, Kept feed dry more (fill state) (fill (feed state more))

section Reading

variable {source : FedSource σ ε}

/-- A refill that succeeds does the same with more input. -/
theorem FedSource.fill_feed (state after : σ) (more : Bytes)
    (filled : source.fill state = .ok () after) :
    source.fill (source.feed state more) = .ok () (source.feed after more) := by
  have kept := source.fill_kept state more
  rwa [filled] at kept

/-- A refill that refuses what it has read refuses it with more input. -/
theorem FedSource.refused_feed (state after : σ) (error : ε) (more : Bytes)
    (refused : source.fill state = .error error after) (wet : error ≠ source.dry) :
    ∃ other, source.fill (source.feed state more) = .error error other := by
  have kept := source.fill_kept state more
  rw [refused] at kept
  exact kept.resolve_left wet

/-- A read that succeeds is not changed by more input. Refills recurse as the read does. -/
theorem read_data_feed (size : Nat) (state after : σ) (out more : Bytes)
    (read : readData source.toSource size state = .ok out after) :
    readData source.toSource size (source.feed state more) = .ok out (source.feed after more) := by
  induction state using readData.induct source.toSource with
  | case1 state buffered =>
    have nonempty : source.unread state ≠ [] := List.length_pos_iff.mp buffered
    rw [read_data_buffered size state nonempty] at read
    obtain ⟨rfl, rfl⟩ := Result.ok.inj read
    rw [read_data_buffered _ _ (by rw [source.unread_feed]; exact nonempty), source.unread_feed,
      source.advance_feed]
  | case2 state buffered finished =>
    have empty : source.unread state = [] := by simpa using buffered
    rw [read_data_ended size state empty finished] at read
    obtain ⟨rfl, rfl⟩ := Result.ok.inj read
    exact read_data_ended _ _ (by rw [source.unread_feed, empty])
      (by rw [source.ended_feed, finished])
  | case3 state buffered running done next filled inductionHypothesis =>
    have empty : source.unread state = [] := by simpa using buffered
    have open_ : source.ended state = false := by simpa using running
    rw [read_data_filled size state next empty open_ filled] at read
    rw [read_data_filled size _ _ (by rw [source.unread_feed, empty])
      (by rw [source.ended_feed, open_]) (source.fill_feed state next more filled)]
    exact inductionHypothesis read
  | case4 state buffered running error next refused =>
    have empty : source.unread state = [] := by simpa using buffered
    have open_ : source.ended state = false := by simpa using running
    rw [read_data_refused size state next error empty open_ refused] at read
    cases read

/-- A read that refuses what has arrived refuses it with more input as well. -/
theorem read_data_refused_feed (size : Nat) (state after : σ) (error : ε) (more : Bytes)
    (read : readData source.toSource size state = .error error after) (wet : error ≠ source.dry) :
    ∃ other, readData source.toSource size (source.feed state more) = .error error other := by
  induction state using readData.induct source.toSource with
  | case1 state buffered =>
    rw [read_data_buffered size state (List.length_pos_iff.mp buffered)] at read
    cases read
  | case2 state buffered finished =>
    rw [read_data_ended size state (by simpa using buffered) finished] at read
    cases read
  | case3 state buffered running done next filled inductionHypothesis =>
    have empty : source.unread state = [] := by simpa using buffered
    have open_ : source.ended state = false := by simpa using running
    rw [read_data_filled size state next empty open_ filled] at read
    rw [read_data_filled size _ _ (by rw [source.unread_feed, empty])
      (by rw [source.ended_feed, open_]) (source.fill_feed state next more filled)]
    exact inductionHypothesis read
  | case4 state buffered running refusal next refused =>
    have empty : source.unread state = [] := by simpa using buffered
    have open_ : source.ended state = false := by simpa using running
    rw [read_data_refused size state next refusal empty open_ refused] at read
    obtain ⟨rfl, -⟩ := Result.error.inj read
    obtain ⟨other, again⟩ := source.refused_feed state next refusal more refused wet
    exact ⟨other, read_data_refused size _ other refusal (by rw [source.unread_feed, empty])
      (by rw [source.ended_feed, open_]) again⟩

/-- When every state in which the octets run out hands out more once it is fed, the octets of
both come one after the other. The induction is on how the first ones are handed out. -/
theorem feeds_feed {final later : σ → Prop} {state : σ} {data extra more : Bytes}
    (feeds : Feeds source.toSource final state data)
    (onward : ∀ last, source.unread last = [] → final last →
      Feeds source.toSource later (source.feed last more) extra) :
    Feeds source.toSource later (source.feed state more) (data ++ extra) := by
  induction feeds with
  | @done state empty reached => exact onward state empty reached
  | @filled state after data empty running filled rest inductionHypothesis =>
    refine Feeds.filled ?_ ?_ (source.fill_feed state after more filled) inductionHypothesis
    · rw [source.unread_feed, empty]
    · rw [source.ended_feed, running]
  | @buffered state data nonempty rest inductionHypothesis =>
    rw [List.append_assoc, ← source.unread_feed state more]
    refine Feeds.buffered (by rw [source.unread_feed]; exact nonempty) ?_
    rw [source.unread_feed, source.advance_feed]
    exact inductionHypothesis

end Reading

section Framed

/-- A framing whose reader is fed. -/
structure FedFraming (σ ω ε : Type) where
  source : FedSource σ ε
  framing : Framing σ ω ε
  same : framing.source = source.toSource
  input_feed : ∀ reader more,
    framing.input (source.feed reader more) = framing.input reader ++ more
  aligned_feed : ∀ reader writer more,
    framing.aligned reader writer → framing.aligned (source.feed reader more) writer
  /-- A running reader without input runs dry. -/
  fill_dry : ∀ reader, framing.input reader = [] →
    ∃ after, source.fill reader = .error source.dry after

variable (framed : FedFraming σ ω ε)

/-- The reader is where the writer is: it expects the frame that is written next. -/
structure AtWriter (writer : ω) (reader : σ) : Prop where
  aligned : framed.framing.aligned reader writer
  drained : framed.framing.input reader = []
  running : framed.source.ended reader = false

/-- The reader has seen the end of the stream. -/
def SeenEnd (reader : σ) : Prop := framed.source.ended reader = true

/-- Frames that any aligned reader expects as some data are read after what is read already. -/
theorem feeds_written {later : σ → Prop} {writer : ω} {reader : σ} {data frames extra : Bytes}
    (feeds : Feeds framed.source.toSource (AtWriter framed writer) reader data)
    (expects : Expects framed.framing later frames extra writer) :
    Feeds framed.source.toSource later (framed.source.feed reader frames) (data ++ extra) := by
  apply feeds_feed feeds
  intro last empty reached
  have onward := expects (framed.source.feed last frames)
    (framed.aligned_feed last writer frames reached.aligned)
  rw [framed.input_feed, reached.drained, List.nil_append, framed.same, framed.source.unread_feed,
    framed.source.ended_feed] at onward
  exact onward rfl empty reached.running

/-- Where the writer is, nothing more is expected. -/
theorem at_writer_expects (writer : ω) :
    Expects framed.framing (AtWriter framed writer) [] [] writer := by
  intro reader aligned drained empty running
  rw [framed.same] at running empty ⊢
  exact Feeds.done empty ⟨aligned, drained, running⟩

/-- A write that carries its data moves the reader to where the writer is after it. -/
theorem carries_at_writer {write : ω → Result ε ω Unit} {data : Bytes} {writer : ω}
    (carried : ∀ last, Carries framed.framing last write data writer) :
    ∃ frames after, write writer = .ok () after ∧
      framed.framing.sent after = framed.framing.sent writer ++ frames ∧
      Expects framed.framing (AtWriter framed after) frames data writer := by
  obtain ⟨frames, after, written, sent, -⟩ := carried (fun _ => True)
  obtain ⟨others, other, again, sentAgain, onward⟩ := carried (AtWriter framed after)
  obtain ⟨-, rfl⟩ := Result.ok.inj (again.symm.trans written)
  have expects := onward [] [] (at_writer_expects framed other)
  rw [List.append_nil, List.append_nil] at expects
  exact ⟨others, other, again, sentAgain, expects⟩

/-- A reader that stands where the writer is runs dry. -/
theorem at_writer_dry {writer : ω} {reader : σ} (size : Nat)
    (empty : framed.source.unread reader = []) (reached : AtWriter framed writer reader) :
    ∃ after, readData framed.source.toSource size reader = .error framed.source.dry after := by
  obtain ⟨after, refused⟩ := framed.fill_dry reader reached.drained
  exact ⟨after, read_data_refused size reader after _ empty reached.running refused⟩

end Framed

end OmniProxy.FedReaders
