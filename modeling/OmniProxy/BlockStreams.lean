import Mathlib.Data.Vector.Basic
import Mathlib.Data.List.FinRange

/-!
# Elements gathered into blocks and taken out of blocks

A gatherer receives elements one at a time, holds those of the block being
filled, and applies its step to every block that becomes full. Whatever pieces
the elements arrive in, the chaining value is the fold of the step over the whole
blocks of all the elements, and what is held is the part behind the last of
them. A loop that copies as many elements as fit is this gatherer, run several
elements at a time.

A source gives out one element at a time. When the element it gives at every
position is that of a fixed stream, a request for several is answered by the
next part of the stream, and consecutive parts make up one part.

Nothing here refers to a particular program.
-/

namespace OmniProxy.BlockStreams

variable {Element Chain : Type} {size : Nat}

section Blocks

/-- The whole blocks of a list, in order; a last part shorter than a block is in
none of them. -/
def blocksOf (size : Nat) (data : List Element) : List (List.Vector Element size) :=
  (List.finRange (data.length / size)).map fun index =>
    ⟨(data.drop (index.val * size)).take size, by
      have whole : (index.val + 1) * size ≤ data.length :=
        Nat.le_trans (Nat.mul_le_mul_right size index.isLt) (Nat.div_mul_le_self _ _)
      rw [Nat.succ_mul] at whole
      rw [List.length_take, List.length_drop]
      omega⟩

/-- What a list has behind its whole blocks. -/
def remainder (size : Nat) (data : List Element) : List Element :=
  data.drop (data.length / size * size)

/-- Consecutive slices of one size make up the beginning of a list. -/
theorem slices_flatten (data : List Element) (count : Nat) :
    ((List.range count).map fun index => (data.drop (index * size)).take size).flatten =
      data.take (count * size) := by
  induction count with
  | zero => simp
  | succ count inductionHypothesis =>
    rw [List.range_succ, List.map_append, List.flatten_append, inductionHypothesis, Nat.succ_mul,
      List.take_add]
    simp

/-- The whole blocks and the remainder are the list. -/
theorem blocks_remainder (data : List Element) :
    ((blocksOf size data).map List.Vector.toList).flatten ++ remainder size data = data := by
  have slices : (blocksOf size data).map List.Vector.toList =
      (List.range (data.length / size)).map fun index => (data.drop (index * size)).take size := by
    rw [← List.map_coe_finRange_eq_range, List.map_map, blocksOf]
    exact List.map_map
  rw [slices, slices_flatten, remainder, List.take_append_drop]

/-- The remainder of a list has the remainder of its length. -/
theorem remainder_length (data : List Element) :
    (remainder size data).length = data.length % size := by
  rw [remainder, List.length_drop, Nat.mod_eq_sub_div_mul]

end Blocks

section Gathering

/-- A chaining value and the elements of the block being filled. That block is
never full between two elements. -/
@[ext] structure Gatherer (Element Chain : Type) (size : Nat) where
  chain : Chain
  held : List Element
  unfilled : held.length < size

/-- A gatherer that holds nothing. -/
def fresh (positive : 0 < size) (chain : Chain) : Gatherer Element Chain size :=
  ⟨chain, [], positive⟩

variable (step : Chain → List.Vector Element size → Chain)

/-- Receive one element; a block that it completes is consumed. -/
def gather (gatherer : Gatherer Element Chain size) (element : Element) :
    Gatherer Element Chain size :=
  if full : (gatherer.held ++ [element]).length = size then
    ⟨step gatherer.chain ⟨gatherer.held ++ [element], full⟩, [],
      Nat.zero_lt_of_lt gatherer.unfilled⟩
  else
    ⟨gatherer.chain, gatherer.held ++ [element], by
      have unfilled := gatherer.unfilled
      rw [List.length_append, List.length_singleton] at full ⊢
      omega⟩

/-- Elements that leave the block unfilled are held. -/
theorem gather_short (elements : List Element) (gatherer : Gatherer Element Chain size)
    (short : (gatherer.held ++ elements).length < size) :
    elements.foldl (gather step) gatherer = ⟨gatherer.chain, gatherer.held ++ elements, short⟩ := by
  induction elements generalizing gatherer with
  | nil => ext1 <;> simp
  | cons element elements inductionHypothesis =>
    have room : (gatherer.held ++ [element]).length ≠ size := by
      simp only [List.length_append, List.length_cons, List.length_nil] at short ⊢
      omega
    have kept : gather step gatherer element =
        ⟨gatherer.chain, gatherer.held ++ [element], by
          simp only [List.length_append, List.length_cons, List.length_nil] at short ⊢
          omega⟩ := dif_neg room
    rw [List.foldl_cons, kept, inductionHypothesis _ (by simpa using short)]
    ext1
    · rfl
    · simp

/-- Elements that complete the block are consumed with it. The last of them is
the one that fills the block. -/
theorem gather_full (elements : List Element) (gatherer : Gatherer Element Chain size)
    (full : (gatherer.held ++ elements).length = size) :
    elements.foldl (gather step) gatherer =
      fresh (Nat.zero_lt_of_lt gatherer.unfilled)
        (step gatherer.chain ⟨gatherer.held ++ elements, full⟩) := by
  have unfilled := gatherer.unfilled
  rcases List.eq_nil_or_concat' elements with empty | ⟨earlier, last, split⟩
  · rw [empty, List.append_nil] at full
    omega
  · subst split
    have short : (gatherer.held ++ earlier).length < size := by
      simp only [List.length_append, List.length_cons, List.length_nil] at full ⊢
      omega
    have complete : ((gatherer.held ++ earlier) ++ [last]).length = size := by simpa using full
    rw [List.foldl_append, gather_short step earlier gatherer short]
    have consumed : gather step ⟨gatherer.chain, gatherer.held ++ earlier, short⟩ last =
        ⟨step gatherer.chain ⟨(gatherer.held ++ earlier) ++ [last], complete⟩, [],
          Nat.zero_lt_of_lt unfilled⟩ := dif_pos complete
    rw [List.foldl_cons, List.foldl_nil, consumed]
    simp only [fresh, List.append_assoc]

/-- Whole blocks are consumed one after the other. -/
theorem gather_blocks (positive : 0 < size) (blocks : List (List.Vector Element size))
    (chain : Chain) :
    (blocks.map List.Vector.toList).flatten.foldl (gather step) (fresh positive chain) =
      fresh positive (blocks.foldl step chain) := by
  induction blocks generalizing chain with
  | nil => rfl
  | cons block blocks inductionHypothesis =>
    rw [List.map_cons, List.flatten_cons, List.foldl_append,
      gather_full step block.toList (fresh positive chain) (by simp [fresh])]
    exact inductionHypothesis (step chain block)

/-- A fresh gatherer that received some elements folded its step through their
whole blocks and holds their remainder. -/
theorem gather_exact (positive : 0 < size) (data : List Element) (chain : Chain) :
    (data.foldl (gather step) (fresh positive chain)).chain =
        (blocksOf size data).foldl step chain ∧
      (data.foldl (gather step) (fresh positive chain)).held = remainder size data := by
  have short : (remainder size data).length < size := by
    rw [remainder_length]
    exact Nat.mod_lt _ positive
  have received : data.foldl (gather step) (fresh positive chain) =
      ⟨(blocksOf size data).foldl step chain, remainder size data, short⟩ := by
    conv_lhs => rw [← @blocks_remainder _ size data]
    rw [List.foldl_append, gather_blocks, gather_short step _ _ (by simpa [fresh] using short)]
    simp only [fresh, List.nil_append]
  rw [received]
  exact ⟨rfl, rfl⟩

end Gathering

section Sources

variable {State : Type} (next : State → Element × State)

/-- Take a number of elements from a source. -/
def taken : Nat → State → List Element × State
  | 0, state => ([], state)
  | count + 1, state =>
      let (element, after) := next state
      let (elements, last) := taken count after
      (element :: elements, last)

/-- The elements of a stream from one position on. -/
def streamed (stream : Nat → Element) (position count : Nat) : List Element :=
  (List.range' position count).map stream

/-- Consecutive parts of a stream are one part. -/
theorem streamed_append (stream : Nat → Element) (position first second : Nat) :
    streamed stream position first ++ streamed stream (position + first) second =
      streamed stream position (first + second) := by
  rw [streamed, streamed, streamed, ← List.map_append, List.range'_append_1]

/-- A stream gives as many elements as are asked for. -/
@[simp] theorem streamed_length (stream : Nat → Element) (position count : Nat) :
    (streamed stream position count).length = count := by
  simp [streamed]

variable (stream : Nat → Element) (At : Nat → State → Prop)
  (follows : ∀ position state, At position state →
    (next state).1 = stream position ∧ At (position + 1) (next state).2)
include follows

/-- A source at a position of its stream gives the elements that follow there. -/
theorem taken_streamed (count position : Nat) (state : State) (reached : At position state) :
    (taken next count state).1 = streamed stream position count ∧
      At (position + count) (taken next count state).2 := by
  induction count generalizing position state with
  | zero => exact ⟨rfl, reached⟩
  | succ count inductionHypothesis =>
    obtain ⟨first, advanced⟩ := follows position state reached
    obtain ⟨rest, last⟩ := inductionHypothesis (position + 1) (next state).2 advanced
    have moved : position + 1 + count = position + (count + 1) := by omega
    refine ⟨?_, moved ▸ last⟩
    simp only [taken, rest, first, streamed, List.range'_succ, List.map_cons]

end Sources

section Calls

/-- The sum of the lengths that several calls have. -/
def requested (counts : List Nat) : Nat := counts.foldr (· + ·) 0

/-- Asking for nothing asks for no elements. -/
@[simp] theorem requested_nil : requested [] = 0 := rfl

/-- The amounts asked for add up. -/
@[simp] theorem requested_cons (count : Nat) (counts : List Nat) :
    requested (count :: counts) = count + requested counts := rfl

variable {State Input Output : Type}

/-- The outputs of successive calls and the state after the last of them. -/
def inCalls (call : State → Input → Output × State) : List Input → State → List Output × State
  | [], state => ([], state)
  | input :: inputs, state =>
      let (output, after) := call state input
      let (outputs, last) := inCalls call inputs after
      (output :: outputs, last)

end Calls

end OmniProxy.BlockStreams
