import OmniProxy.Connections

/-!
# Readers that refill a buffer

A buffered reader holds octets that were decoded but not yet handed out, knows
whether its stream has ended, and can refill its buffer from a shrinking input.
Reading hands out a prefix of the buffer, reports the end by an empty result,
or refills and tries again. Every refill consumes input, so reading terminates.

`Feeds` describes the octets a state will hand out before it reaches a given
final condition. A sequence of nonempty read buffers then receives exactly those
octets in order: the results before the end are nonempty prefixes, and nothing
else is delivered. The end itself is left to the caller, since some streams are
closed by a marker and others only run dry.

Nothing here refers to a particular program.
-/

namespace OmniProxy.BufferedReads

open ByteStrings EStateM

universe u

/-- The parts of a reader that its read loop uses, with the laws that make the
loop meaningful: handing out octets only shortens the buffer, and a refill
consumes input. -/
structure Source (σ ε : Type) where
  /-- Octets decoded and not yet handed out. -/
  unread : σ → Bytes
  /-- Mark octets of the buffer as handed out. -/
  advance : σ → Nat → σ
  /-- Whether the end of the stream has been seen. -/
  ended : σ → Bool
  /-- Replace an exhausted buffer. -/
  fill : σ → Result ε σ Unit
  /-- Input not yet decoded. -/
  inputLeft : σ → Nat
  unread_advance : ∀ state count, unread (advance state count) = (unread state).drop count
  advance_zero : ∀ state, advance state 0 = state
  advance_add : ∀ state first second,
    advance (advance state first) second = advance state (first + second)
  fill_consumes : ∀ state after, fill state = .ok () after → inputLeft after < inputLeft state

variable {σ ε : Type} (source : Source σ ε)

/-- Hand out at most `size` octets, refilling an exhausted buffer first. -/
def readData (size : Nat) (state : σ) : Result ε σ Bytes :=
  if 0 < (source.unread state).length then
    .ok ((source.unread state).take size)
      (source.advance state (min size (source.unread state).length))
  else if source.ended state then .ok [] state
  else
    match _filled : source.fill state with
    | .ok _ after => readData size after
    | .error error after => .error error after
termination_by source.inputLeft state
decreasing_by exact source.fill_consumes state after _filled

/-- Successive reads with the given buffer sizes, stopping at the first error. -/
def readMany : List Nat → σ → List Bytes × Option ε × σ
  | [], state => ([], none, state)
  | size :: sizes, state =>
      match readData source size state with
      | .ok out after =>
          let (outs, error, last) := readMany sizes after
          (out :: outs, error, last)
      | .error error after => ([], some error, after)

/-- The octets a state hands out until `final` holds of it with an empty buffer.
A buffered piece comes before what a refill brings. -/
inductive Feeds (final : σ → Prop) : σ → Bytes → Prop where
  | done {state : σ} (empty : source.unread state = []) (reached : final state) :
      Feeds final state []
  | filled {state after : σ} {data : Bytes} (empty : source.unread state = [])
      (running : source.ended state = false) (filled : source.fill state = .ok () after)
      (rest : Feeds final after data) : Feeds final state data
  | buffered {state : σ} {data : Bytes} (nonempty : source.unread state ≠ [])
      (rest : Feeds final (source.advance state (source.unread state).length) data) :
      Feeds final state (source.unread state ++ data)

/-- What a sequence of reads of a finite, marked stream returns: nonempty pieces
that follow the data, then empty results once all of it was handed out. -/
structure DeliversThenEnds (data : Bytes) (sizes : List Nat) (outs : List Bytes) : Prop where
  bounded : List.Forall₂ (fun out size => out.length ≤ size) outs sizes
  shape : ∃ chunks zeros, outs = chunks ++ List.replicate zeros [] ∧
    (∀ chunk ∈ chunks, chunk ≠ []) ∧ chunks.flatten <+: data ∧
    (zeros ≠ 0 → chunks.flatten = data)

/-- What a sequence of reads of a stream that only runs dry returns: the first
reads return nonempty pieces that follow the data, and a further read comes only
after all of it was handed out. -/
structure DeliversUntilDry (data : Bytes) (sizes first later : List Nat) (outs : List Bytes) :
    Prop where
  split : sizes = first ++ later
  bounded : List.Forall₂ (fun out size => out.length ≤ size) outs first
  nonempty : ∀ out ∈ outs, out ≠ []
  following : outs.flatten <+: data
  complete : later ≠ [] → outs.flatten = data

variable {source}

/-- A buffer in hand answers a read without touching the input. -/
theorem read_data_buffered (size : Nat) (state : σ) (nonempty : source.unread state ≠ []) :
    readData source size state =
      .ok ((source.unread state).take size)
        (source.advance state (min size (source.unread state).length)) := by
  rw [readData]
  simp [List.length_pos_iff.mpr nonempty]

/-- An exhausted, ended reader reports the end again and again. -/
theorem read_data_ended (size : Nat) (state : σ) (empty : source.unread state = [])
    (finished : source.ended state = true) : readData source size state = .ok [] state := by
  rw [readData]
  simp [empty, finished]

/-- An exhausted, running reader reads as its refilled state does. -/
theorem read_data_filled (size : Nat) (state after : σ) (empty : source.unread state = [])
    (running : source.ended state = false) (filled : source.fill state = .ok () after) :
    readData source size state = readData source size after := by
  rw [readData]
  simp only [empty, List.length_nil, Nat.lt_irrefl, ↓reduceIte, running, Bool.false_eq_true]
  split
  · rename_i found
    have same : _ = after := Result.ok.inj (found.symm.trans filled) |>.2
    rw [same]
  · rename_i found
    simp [filled] at found

/-- An exhausted, running reader that cannot be refilled reports why. -/
theorem read_data_refused (size : Nat) (state after : σ) (error : ε)
    (empty : source.unread state = []) (running : source.ended state = false)
    (refused : source.fill state = .error error after) :
    readData source size state = .error error after := by
  rw [readData]
  simp only [empty, List.length_nil, Nat.lt_irrefl, ↓reduceIte, running, Bool.false_eq_true]
  split
  · rename_i found
    simp [refused] at found
  · rename_i found
    obtain ⟨sameError, sameState⟩ := Result.error.inj (found.symm.trans refused)
    rw [sameError, sameState]

/-- Handing out part of the buffer leaves the rest of the same octets to come. -/
theorem feeds_advance {final : σ → Prop} (state : σ) (rest : Bytes) (count : Nat)
    (short : count ≤ (source.unread state).length)
    (later : Feeds source final (source.advance state (source.unread state).length) rest) :
    Feeds source final (source.advance state count) ((source.unread state).drop count ++ rest) := by
  have remaining := source.unread_advance state count
  by_cases exhausted : count = (source.unread state).length
  · simpa [exhausted] using later
  · have nonempty : source.unread (source.advance state count) ≠ [] := by
      rw [remaining]
      intro vanished
      have length := congrArg List.length vanished
      simp only [List.length_drop, List.length_nil] at length
      omega
    have whole : count + (source.unread (source.advance state count)).length =
        (source.unread state).length := by
      rw [remaining, List.length_drop]
      omega
    rw [← remaining]
    refine Feeds.buffered nonempty ?_
    rw [source.advance_add, whole]
    exact later

/-- A read with room for at least one octet hands out a nonempty prefix of what
is still to come, or the state has already reached the final condition. Refills
recurse on the derivation; a buffered piece answers at once. -/
theorem read_data_feeds {final : σ → Prop} {state : σ} {data : Bytes}
    (feeds : Feeds source final state data) (size : Nat) (room : 0 < size) :
    (∃ out after rest, readData source size state = .ok out after ∧ out ≠ [] ∧
      out.length ≤ size ∧ data = out ++ rest ∧ Feeds source final after rest) ∨
    (∃ last, data = [] ∧ source.unread last = [] ∧ final last ∧
      readData source size state = readData source size last) := by
  induction feeds with
  | @done state empty reached => exact Or.inr ⟨state, rfl, empty, reached, rfl⟩
  | @filled state after data empty running filled rest inductionHypothesis =>
    rw [read_data_filled size state after empty running filled]
    exact inductionHypothesis
  | @buffered state data nonempty rest inductionHypothesis =>
    left
    have positive : 0 < (source.unread state).length := List.length_pos_iff.mpr nonempty
    refine ⟨(source.unread state).take size, _, (source.unread state).drop size ++ data,
      read_data_buffered size state nonempty, ?_, by simp, ?_, ?_⟩
    · intro vanished
      have length := congrArg List.length vanished
      simp only [List.length_take, List.length_nil] at length
      omega
    · rw [← List.append_assoc, List.take_append_drop]
    · have sameDrop : (source.unread state).drop size =
          (source.unread state).drop (min size (source.unread state).length) := by
        rcases Nat.le_total size (source.unread state).length with short | long
        · rw [Nat.min_eq_left short]
        · rw [Nat.min_eq_right long, List.drop_of_length_le long, List.drop_length]
      rw [sameDrop]
      exact feeds_advance state data _ (Nat.min_le_right _ _) rest

/-- A nonempty amount still to come makes the next read succeed. -/
theorem read_data_progress {final : σ → Prop} {state : σ} {data : Bytes}
    (feeds : Feeds source final state data) (size : Nat) (room : 0 < size) (nonempty : data ≠ []) :
    ∃ out after rest, readData source size state = .ok out after ∧ out ≠ [] ∧
      out.length ≤ size ∧ data = out ++ rest ∧ Feeds source final after rest := by
  rcases read_data_feeds feeds size room with found | ⟨_, nothing, _⟩
  · exact found
  · exact absurd nothing nonempty

/-- The reads of a stream, up to the point where its octets run out. The reads
that meet data return nonempty pieces of it in order; the remaining reads start
with nothing left to hand out. -/
theorem read_many_feeds {final : σ → Prop} {state : σ} {data : Bytes}
    (feeds : Feeds source final state data) (sizes : List Nat)
    (room : ∀ size ∈ sizes, 0 < size) :
    ∃ before later outs after rest, sizes = before ++ later ∧
      readMany source before state = (outs, none, after) ∧
      (∀ out ∈ outs, out ≠ []) ∧ List.Forall₂ (fun out size => out.length ≤ size) outs before ∧
      data = outs.flatten ++ rest ∧ Feeds source final after rest ∧ (later ≠ [] → rest = []) := by
  induction sizes generalizing state data with
  | nil => exact ⟨[], [], [], state, data, rfl, rfl, by simp, .nil, by simp, feeds, by simp⟩
  | cons size sizes inductionHypothesis =>
    by_cases nothing : data = []
    · exact ⟨[], size :: sizes, [], state, data, rfl, rfl, by simp, .nil, by simp, feeds,
        fun _ => nothing⟩
    · obtain ⟨out, after, rest, read, nonempty, short, split, onward⟩ :=
        read_data_progress feeds size (room size List.mem_cons_self) nothing
      obtain ⟨before, later, outs, last, remainder, sizesSplit, many, nonempties, bounds,
          restSplit, lastFeeds, finished⟩ :=
        inductionHypothesis onward fun other member => room other (List.mem_cons_of_mem _ member)
      refine ⟨size :: before, later, out :: outs, last, remainder, by simp [sizesSplit], ?_, ?_,
        .cons short bounds, ?_, lastFeeds, finished⟩
      · simp [readMany, read, many]
      · intro piece member
        rcases List.mem_cons.mp member with rfl | member
        · exact nonempty
        · exact nonempties piece member
      · rw [split, restSplit, List.flatten_cons, List.append_assoc]

/-- Reads continue where an earlier sequence of successful reads stopped. -/
theorem read_many_append (before later : List Nat) (state after : σ) (outs : List Bytes)
    (first : readMany source before state = (outs, none, after)) :
    readMany source (before ++ later) state =
      (outs ++ (readMany source later after).1, (readMany source later after).2) := by
  induction before generalizing state outs with
  | nil =>
    obtain ⟨rfl, sameState⟩ := Prod.mk.inj first
    obtain ⟨-, rfl⟩ := Prod.mk.inj sameState
    rfl
  | cons size sizes inductionHypothesis =>
    simp only [readMany] at first
    cases read : readData source size state with
    | error error failed => simp [read] at first
    | ok out next =>
      simp only [read] at first
      obtain ⟨sameOuts, sameEnd⟩ := Prod.mk.inj first
      obtain ⟨clean, sameState⟩ := Prod.mk.inj sameEnd
      have rest : readMany source sizes next = ((readMany source sizes next).1, none, after) := by
        rw [← clean, ← sameState]
      simp only [List.cons_append, readMany, read, inductionHypothesis next _ rest, ← sameOuts]

/-- A marked stream with nothing left reports the end from now on. -/
theorem feeds_nothing {state : σ} {data : Bytes}
    (feeds : Feeds source (fun last => source.ended last = true) state data)
    (nothing : data = []) :
    ∃ last, (∀ size, readData source size state = .ok [] last) ∧
      (∀ size, readData source size last = .ok [] last) := by
  induction feeds with
  | @done state empty reached =>
    have finished := fun size => read_data_ended size state empty reached
    exact ⟨state, finished, finished⟩
  | @filled state after data empty running filled rest inductionHypothesis =>
    obtain ⟨last, now, again⟩ := inductionHypothesis nothing
    exact ⟨last, fun size =>
      (read_data_filled size state after empty running filled).trans (now size), again⟩
  | @buffered state data nonempty rest inductionHypothesis =>
    exact absurd (List.append_eq_nil_iff.mp nothing).1 nonempty

/-- Once a stream's octets are out and every further read reports the end, the
remaining results are all empty. -/
theorem read_many_ended (sizes : List Nat) (state last : σ)
    (ends : ∀ size, readData source size state = .ok [] last)
    (stays : ∀ size, readData source size last = .ok [] last) :
    ∃ after, readMany source sizes state = (List.replicate sizes.length [], none, after) := by
  induction sizes generalizing state with
  | nil => exact ⟨state, rfl⟩
  | cons size sizes inductionHypothesis =>
    obtain ⟨after, rest⟩ := inductionHypothesis last stays
    exact ⟨after, by simp [readMany, ends, rest, List.replicate_succ]⟩

/-- A stream closed by an end marker is read completely and without an error:
every sequence of nonempty buffers receives the octets in order and then empty
results only. -/
theorem read_many_delivers {state : σ} {data : Bytes}
    (feeds : Feeds source (fun last => source.ended last = true) state data) (sizes : List Nat)
    (room : ∀ size ∈ sizes, 0 < size) :
    ∃ outs after, readMany source sizes state = (outs, none, after) ∧
      DeliversThenEnds data sizes outs := by
  obtain ⟨before, later, chunks, middle, rest, sizesSplit, first, nonempties, bounds, split,
      onward, finished⟩ := read_many_feeds feeds sizes room
  by_cases more : later = []
  · refine ⟨chunks, middle, by simpa [sizesSplit, more] using first, ?_, ?_⟩
    · simpa [sizesSplit, more] using bounds
    · exact ⟨chunks, 0, by simp, nonempties, ⟨rest, split.symm⟩, by simp⟩
  · have nothing : rest = [] := finished more
    obtain ⟨last, now, again⟩ := feeds_nothing onward nothing
    obtain ⟨after, tail⟩ := read_many_ended later middle last now again
    have whole := read_many_append before later state middle chunks first
    rw [tail, ← sizesSplit] at whole
    refine ⟨_, _, whole, ?_, chunks, later.length, rfl, nonempties, ⟨rest, split.symm⟩, ?_⟩
    · rw [sizesSplit]
      refine List.rel_append bounds ?_
      exact List.forall₂_iff_get.mpr ⟨by simp, by simp⟩
    · intro _
      rw [split, nothing, List.append_nil]

/-- A stream without an end marker is read without an error until its octets run
out. -/
theorem read_many_until_dry {final : σ → Prop} {state : σ} {data : Bytes}
    (feeds : Feeds source final state data) (sizes : List Nat)
    (room : ∀ size ∈ sizes, 0 < size) :
    ∃ first later outs last, readMany source first state = (outs, none, last) ∧
      DeliversUntilDry data sizes first later outs := by
  obtain ⟨first, later, outs, last, rest, sizesSplit, read, nonempty, bounded, split, -,
    finished⟩ := read_many_feeds feeds sizes room
  refine ⟨first, later, outs, last, read, sizesSplit, bounded, nonempty, ⟨rest, split.symm⟩, ?_⟩
  intro more
  rw [split, finished more, List.append_nil]

/-- A stream whose final state refuses every read is read completely, and the next
read reports the refusal: more reads than octets always meet it. -/
theorem read_many_refused {final : σ → Prop} {state : σ} {data : Bytes} (error : ε)
    (refuses : ∀ last size, source.unread last = [] → final last →
      ∃ after, readData source size last = .error error after)
    (feeds : Feeds source final state data) (sizes : List Nat) (room : ∀ size ∈ sizes, 0 < size)
    (more : data.length < sizes.length) :
    ∃ outs last, readMany source sizes state = (outs, some error, last) ∧
      outs.flatten = data := by
  induction sizes generalizing state data with
  | nil => simp at more
  | cons size sizes inductionHypothesis =>
    rcases read_data_feeds feeds size (room size List.mem_cons_self) with
      ⟨out, after, rest, read, nonempty, -, rfl, onward⟩ | ⟨last, rfl, empty, reached, same⟩
    · have positive : 0 < out.length := List.length_pos_iff.mpr nonempty
      have fewer : rest.length < sizes.length := by
        simp only [List.length_append, List.length_cons] at more
        omega
      obtain ⟨outs, last, many, delivered⟩ := inductionHypothesis onward
        (fun other member => room other (List.mem_cons_of_mem _ member)) fewer
      refine ⟨out :: outs, last, ?_, ?_⟩
      · simp only [readMany, read, many]
      · rw [List.flatten_cons, delivered]
    · obtain ⟨after, refused⟩ := refuses last size empty reached
      exact ⟨[], after, by simp only [readMany, same, refused], rfl⟩

/-- Nonempty pieces have at least as many octets as there are pieces. -/
theorem flatten_length_of_nonempty (outs : List Bytes) (each : ∀ out ∈ outs, out ≠ []) :
    outs.length ≤ outs.flatten.length := by
  induction outs with
  | nil => simp
  | cons out rest inductionHypothesis =>
    have one : 0 < out.length := List.length_pos_iff.mpr (each out List.mem_cons_self)
    have others := inductionHypothesis fun other member =>
      each other (List.mem_cons_of_mem _ member)
    simp only [List.length_cons, List.flatten_cons, List.length_append]
    omega

/-- As many reads as there are octets always suffice to receive all of them. -/
theorem delivers_complete {data : Bytes} {sizes : List Nat} {outs : List Bytes}
    (delivered : DeliversThenEnds data sizes outs) (enough : data.length ≤ sizes.length) :
    outs.flatten = data := by
  obtain ⟨chunks, zeros, rfl, nonempty, following, complete⟩ := delivered.shape
  have count := delivered.bounded.length_eq
  by_cases zero : zeros = 0
  · subst zero
    have handed := flatten_length_of_nonempty chunks nonempty
    simp only [List.replicate_zero, List.append_nil] at count ⊢
    exact following.eq_of_length_le (by omega)
  · simpa using complete zero

/-- As many reads as there are octets receive all of them before the stream runs dry. -/
theorem until_dry_complete {data : Bytes} {sizes first later : List Nat} {outs : List Bytes}
    (delivered : DeliversUntilDry data sizes first later outs)
    (enough : data.length ≤ sizes.length) : outs.flatten = data := by
  by_cases more : later = []
  · have count := delivered.bounded.length_eq
    have handed := flatten_length_of_nonempty outs delivered.nonempty
    rw [delivered.split, more, List.append_nil] at enough
    exact delivered.following.eq_of_length_le (by omega)
  · exact delivered.complete more

end OmniProxy.BufferedReads
