import OmniProxy.BufferedReads

/-!
# Writers and readers in lock step

A framed stream has a writer that appends frames to what it has sent and a
reader that decodes them one at a time. Both sides keep a state, such as a
counter, that must agree; a reader whose state agrees with the writer's is
aligned with it. Suppose every frame is decoded by each aligned reader that has
it at the front of its input, and that both sides are aligned again afterwards.
Then a whole sequence of writes is delivered in order.

`Carries` is this property of one write action and the data it carries. It holds
of a sequence when it holds of its parts, so a protocol only shows it for a
single frame. How a stream ends is left to the protocol.

Nothing here refers to a particular program.
-/

namespace OmniProxy.FramedStreams

open ByteStrings BufferedReads EStateM

/-- Run a fallible step on each item in order, stopping at the first failure. -/
def emitAll {ω ε α : Type} (emit : ω → α → Result ε ω Unit) : List α → ω → Result ε ω Unit
  | [], writer => .ok () writer
  | item :: rest, writer =>
      match emit writer item with
      | .ok _ after => emitAll emit rest after
      | .error error after => .error error after

/-- A reader and a writer of one stream. Handing out octets changes neither the
reader's input nor its alignment. -/
structure Framing (σ ω ε : Type) where
  source : Source σ ε
  /-- Octets the reader has not decoded. -/
  input : σ → Bytes
  /-- Octets the writer has sent. -/
  sent : ω → Bytes
  aligned : σ → ω → Prop
  input_advance : ∀ reader count, input (source.advance reader count) = input reader
  ended_advance : ∀ reader count, source.ended (source.advance reader count) = source.ended reader
  aligned_advance : ∀ reader writer count,
    aligned reader writer → aligned (source.advance reader count) writer

variable {σ ω ε : Type} (framing : Framing σ ω ε) (final : σ → Prop)

/-- Every aligned reader with an empty buffer and this input hands out the data. -/
def Expects (stream data : Bytes) (writer : ω) : Prop :=
  ∀ reader, framing.aligned reader writer → framing.input reader = stream →
    framing.source.unread reader = [] → framing.source.ended reader = false →
    Feeds framing.source final reader data

/-- The write succeeds, and what it sends in front of a stream is expected as its
data in front of the stream's data. -/
def Carries (write : ω → Result ε ω Unit) (data : Bytes) (writer : ω) : Prop :=
  ∃ frames after, write writer = .ok () after ∧
    framing.sent after = framing.sent writer ++ frames ∧
    ∀ stream rest, Expects framing final stream rest after →
      Expects framing final (frames ++ stream) (data ++ rest) writer

/-- A frame is decoded by every aligned reader that meets it, and the writer and
the reader are aligned after it. -/
def DecodedAs (write : ω → Result ε ω Unit) (piece : Bytes) (writer : ω) : Prop :=
  ∃ frame after, write writer = .ok () after ∧
    framing.sent after = framing.sent writer ++ frame ∧
    ∀ reader rest, framing.aligned reader writer → framing.input reader = frame ++ rest →
      framing.source.ended reader = false →
      ∃ next, framing.source.fill reader = .ok () next ∧ framing.aligned next after ∧
        framing.input next = rest ∧ framing.source.unread next = piece ∧
        framing.source.ended next = false

/-- A decoded frame carries its piece: the reader refills, hands the piece out
and is aligned with the writer that goes on. -/
theorem carries_of_decoded {write : ω → Result ε ω Unit} {piece : Bytes} {writer : ω}
    (nonempty : piece ≠ []) (decoded : DecodedAs framing write piece writer) :
    Carries framing final write piece writer := by
  obtain ⟨frame, after, written, sent, decodes⟩ := decoded
  refine ⟨frame, after, written, sent, ?_⟩
  intro stream rest onward reader aligned front empty running
  obtain ⟨next, filled, realigned, input, unread, still⟩ :=
    decodes reader stream aligned front running
  refine Feeds.filled empty running filled ?_
  rw [← unread]
  refine Feeds.buffered (by rw [unread]; exact nonempty) ?_
  refine onward _ (framing.aligned_advance _ _ _ realigned) ?_ ?_ ?_
  · rw [framing.input_advance, input]
  · rw [framing.source.unread_advance, List.drop_length]
  · rw [framing.ended_advance, still]

/-- Writing nothing carries nothing. -/
theorem carries_nothing (writer : ω) :
    Carries framing final (fun writer => .ok () writer) [] writer :=
  ⟨[], writer, rfl, by simp, fun stream rest onward => by simpa using onward⟩

/-- A sequence of writes carries the data of its items in order. -/
theorem carries_all {α : Type} (emit : ω → α → Result ε ω Unit) (payload : α → Bytes)
    (items : List α) (writer : ω)
    (each : ∀ item ∈ items, ∀ writer,
      Carries framing final (fun writer => emit writer item) (payload item) writer) :
    Carries framing final (emitAll emit items) (items.flatMap payload) writer := by
  induction items generalizing writer with
  | nil => exact carries_nothing framing final writer
  | cons item items inductionHypothesis =>
    obtain ⟨frame, middle, written, sent, first⟩ := each item List.mem_cons_self writer
    obtain ⟨frames, after, writtenRest, sentRest, others⟩ := inductionHypothesis middle
      fun other member => each other (List.mem_cons_of_mem _ member)
    refine ⟨frame ++ frames, after, ?_, ?_, ?_⟩
    · simp only [emitAll, written, writtenRest]
    · rw [sentRest, sent, List.append_assoc]
    · intro stream rest onward
      rw [List.append_assoc, List.flatMap_cons, List.append_assoc]
      exact first _ _ (others stream rest onward)

/-- A sequence of writes that carry what they write carries all of it. -/
theorem carries_items (emit : ω → Bytes → Result ε ω Unit) (items : List Bytes) (writer : ω)
    (each : ∀ item ∈ items, ∀ writer,
      Carries framing final (fun writer => emit writer item) item writer) :
    Carries framing final (emitAll emit items) items.flatten writer := by
  have carried := carries_all framing final emit id items writer each
  rwa [List.flatMap_id] at carried

/-- A sequence of writes of nonempty, bounded pieces of a string carries the string. -/
theorem carries_pieces (emit : ω → Bytes → Result ε ω Unit) (size : Nat) (data : Bytes) (writer : ω)
    (positive : 0 < size)
    (each : ∀ piece writer, piece ≠ [] → piece.length ≤ size →
      Carries framing final (fun writer => emit writer piece) piece writer) :
    Carries framing final (emitAll emit (pieces size data)) data writer := by
  have carried := carries_items framing final emit (pieces size data) writer
    fun piece member writer =>
      each piece writer (pieces_bounded size data positive piece member).1
        (pieces_bounded size data positive piece member).2
  rwa [pieces_flatten size data positive] at carried

/-- What a write sends as all of a stream is expected as its data, if a running reader
without input has come to the end. -/
theorem carried_expected {write : ω → Result ε ω Unit} {data : Bytes} {writer : ω}
    (carried : Carries framing final write data writer)
    (dry : ∀ reader, framing.input reader = [] → framing.source.ended reader = false →
      final reader) :
    ∃ frames after, write writer = .ok () after ∧
      framing.sent after = framing.sent writer ++ frames ∧
      Expects framing final frames data writer := by
  obtain ⟨frames, after, written, sent, onward⟩ := carried
  have nothing : Expects framing final [] [] after :=
    fun reader _ input empty running => Feeds.done empty (dry reader input running)
  have expects := onward [] [] nothing
  rw [List.append_nil, List.append_nil] at expects
  exact ⟨frames, after, written, sent, expects⟩

/-- Sequences of writes continue one another. -/
theorem emit_all_append {α : Type} (emit : ω → α → Result ε ω Unit) (before later : List α)
    (writer middle : ω) (first : emitAll emit before writer = .ok () middle) :
    emitAll emit (before ++ later) writer = emitAll emit later middle := by
  induction before generalizing writer with
  | nil =>
    obtain ⟨-, rfl⟩ := Result.ok.inj first
    rfl
  | cons item before inductionHypothesis =>
    simp only [emitAll, List.cons_append] at first ⊢
    cases written : emit writer item with
    | error error after => simp [written] at first
    | ok value after =>
      simp only [written] at first
      exact inductionHypothesis after first

end OmniProxy.FramedStreams
