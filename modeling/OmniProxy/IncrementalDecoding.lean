import Mathlib.Data.List.Basic

/-!
# Decoders fed by pieces

A collector holds the octets that have arrived and are not used yet. It is fed a
piece at a time, and after every piece it is asked for items until it has none.
Where the pieces were cut has no meaning: what matters is which items have arrived
whole.

A collector that takes a whole frame from the front and waits for the rest of an
incomplete one hands out every item after the piece that completes it, for every
cutting of the frames. In the other direction, what a collector can answer on the
first octets of a stream decides what its first answer can be, for every cutting.

Nothing here refers to a particular program.
-/

namespace OmniProxy.IncrementalDecoding

/-- A decoder with its own state, fed octets and asked for items. The octets it
holds bound how often it can be asked in vain. -/
structure Collector (Octet Answer : Type) where
  State : Type
  feed : State → List Octet → State
  next : State → Option Answer × State
  held : State → Nat

variable {Octet Answer Item : Type}

/-- Ask for items until there is none. The result is missing when the given number
of questions did not suffice. -/
def Collector.drain (collector : Collector Octet Answer) :
    Nat → collector.State → Option (List Answer × collector.State)
  | 0, _ => none
  | fuel + 1, state =>
      match collector.next state with
      | (none, after) => some ([], after)
      | (some answer, after) =>
          (collector.drain fuel after).map fun (answers, final) => (answer :: answers, final)

/-- Feed the pieces in order and drain after each. The answers are grouped by the
piece they follow. -/
def Collector.decode (collector : Collector Octet Answer) :
    List (List Octet) → collector.State → Option (List (List Answer) × collector.State)
  | [], state => some ([], state)
  | piece :: pieces, state =>
      let fed := collector.feed state piece
      match collector.drain (collector.held fed + 1) fed with
      | none => none
      | some (answers, after) =>
          (collector.decode pieces after).map fun (later, final) => (answers :: later, final)

/-- The items whose frames are complete when so many octets have arrived. -/
def arrived (width : Item → Nat) : List Item → Nat → List Item
  | [], _ => []
  | item :: items, count =>
      if width item ≤ count then item :: arrived width items (count - width item) else []

/-- The answers follow the pieces, and after each piece all the items that are
complete by then have been handed out, in order, and nothing else. -/
structure Prompt (width : Item → Nat) (answer : Item → Answer) (items : List Item)
    (pieces : List (List Octet)) (answers : List (List Answer)) : Prop where
  grouped : answers.length = pieces.length
  after : ∀ count, (answers.take count).flatten =
    (arrived width items (pieces.take count).flatten.length).map answer

/-- The state of a collector is given by the octets it holds. -/
structure Holding (collector : Collector Octet Answer)
    (holding : List Octet → collector.State) : Prop where
  fed : ∀ carried piece, collector.feed (holding carried) piece = holding (carried ++ piece)
  counted : ∀ carried, collector.held (holding carried) = carried.length

/-- Of a frame and what follows it some has arrived: not yet all of the frame, or the
frame and some of what follows. -/
theorem front_arrives {carried later front rest : List Octet}
    (stream : carried ++ later = front ++ rest) :
    (∃ missing, carried ++ missing = front ∧ missing ≠ []) ∨
      ∃ more, carried = front ++ more ∧ more ++ later = rest := by
  rcases List.append_eq_append_iff.mp stream with ⟨missing, framed, rest⟩ | ⟨more, longer, rest⟩
  · by_cases whole : missing = []
    · subst whole
      exact .inr ⟨[], by simpa using framed.symm, by simpa using rest⟩
    · exact .inl ⟨missing, framed.symm, whole⟩
  · exact .inr ⟨more, longer, rest.symm⟩

/-- With all octets of the frames there, all items have arrived. -/
theorem arrived_all (encode : Item → List Octet) (items : List Item) :
    arrived (fun item => (encode item).length) items (items.map encode).flatten.length = items := by
  induction items with
  | nil => rfl
  | cons item items inductionHypothesis =>
    rw [arrived, if_pos (by simp), List.map_cons, List.flatten_cons, List.length_append,
      Nat.add_sub_cancel_left, inductionHypothesis]

section Frames

variable (collector : Collector Octet Answer) (holding : List Octet → collector.State)
  (encode : Item → List Octet) (answer : Item → Answer)

/-- The octets carried are too few for the first of the frames, or there is none. -/
def Incomplete (carried : List Octet) : List Item → Prop
  | [] => carried = []
  | item :: _ => carried.length < (encode item).length

/-- The frames of the items can be taken one at a time: a whole frame in front is
answered and removed, and part of a frame is kept. -/
structure Takes (items : List Item) : Prop where
  nonempty : ∀ item ∈ items, encode item ≠ []
  whole : ∀ item ∈ items, ∀ rest,
    collector.next (holding (encode item ++ rest)) = (some (answer item), holding rest)
  part : ∀ item ∈ items, ∀ carried missing, carried ++ missing = encode item → missing ≠ [] →
    collector.next (holding carried) = (none, holding carried)
  idle : collector.next (holding []) = (none, holding [])

variable {collector holding encode answer}

/-- Without its first item the rest can be taken in the same way. -/
theorem Takes.tail {item : Item} {items : List Item}
    (takes : Takes collector holding encode answer (item :: items)) :
    Takes collector holding encode answer items where
  nonempty later member := takes.nonempty later (List.mem_cons_of_mem item member)
  whole later member := takes.whole later (List.mem_cons_of_mem item member)
  part later member := takes.part later (List.mem_cons_of_mem item member)
  idle := takes.idle

/-- Draining takes the items whose frames are complete. What is carried afterwards
begins the frames of the others. -/
theorem drain_takes (items : List Item) (carried later : List Octet) (fuel : Nat)
    (takes : Takes collector holding encode answer items)
    (stream : carried ++ later = (items.map encode).flatten) (enough : carried.length < fuel) :
    ∃ done todo left, items = done ++ todo ∧ carried = (done.map encode).flatten ++ left ∧
      Incomplete encode left todo ∧
      collector.drain fuel (holding carried) = some (done.map answer, holding left) := by
  obtain ⟨fuel, rfl⟩ : ∃ less, fuel = less + 1 := ⟨fuel - 1, by omega⟩
  induction items generalizing carried fuel with
  | nil =>
    obtain ⟨rfl, rfl⟩ : carried = [] ∧ later = [] := by simpa using stream
    exact ⟨[], [], [], rfl, rfl, rfl, by simp [Collector.drain, takes.idle]⟩
  | cons item items inductionHypothesis =>
    rw [List.map_cons, List.flatten_cons] at stream
    obtain ⟨missing, framed, lacking⟩ | ⟨more, rfl, remaining⟩ := front_arrives stream
    · have waits := takes.part item List.mem_cons_self carried missing framed lacking
      have short : carried.length < (encode item).length := by
        have positive := List.length_pos_of_ne_nil lacking
        rw [← framed, List.length_append]
        omega
      exact ⟨[], item :: items, carried, rfl, rfl, short, by simp [Collector.drain, waits]⟩
    · have positive : 0 < (encode item).length :=
        List.length_pos_of_ne_nil (takes.nonempty item List.mem_cons_self)
      rw [List.length_append] at enough
      obtain ⟨fuel, rfl⟩ : ∃ less, fuel = less + 1 := ⟨fuel - 1, by omega⟩
      obtain ⟨done, todo, left, split, kept, incomplete, drained⟩ :=
        inductionHypothesis more takes.tail remaining fuel (by omega)
      have taken := takes.whole item List.mem_cons_self more
      refine ⟨item :: done, todo, left, by rw [split, List.cons_append], ?_, incomplete, ?_⟩
      · rw [kept, List.map_cons, List.flatten_cons, List.append_assoc]
      · rw [Collector.drain, taken]
        simp only [drained, Option.map_some, List.map_cons]

/-- The items done have arrived, and as long as the next frame is incomplete no
other has. -/
theorem arrived_append (done todo : List Item) (count : Nat) :
    arrived (fun item => (encode item).length) (done ++ todo)
        ((done.map encode).flatten.length + count) =
      done ++ arrived (fun item => (encode item).length) todo count := by
  induction done with
  | nil => simp
  | cons item done inductionHypothesis =>
    have width : ((item :: done).map encode).flatten.length + count - (encode item).length =
        (done.map encode).flatten.length + count := by
      rw [List.map_cons, List.flatten_cons, List.length_append]
      omega
    rw [List.cons_append, arrived, if_pos (by simp; omega), width, inductionHypothesis,
      List.cons_append]

/-- While the frame in front is incomplete no item has arrived. -/
theorem arrived_incomplete (items : List Item) (carried : List Octet)
    (incomplete : Incomplete encode carried items) :
    arrived (fun item => (encode item).length) items carried.length = [] := by
  cases items with
  | nil => rfl
  | cons item items => rw [arrived, if_neg (Nat.not_le.mpr incomplete)]

/-- Every item is handed out after the piece that completes its frame, however the
frames are cut into pieces, and at the end nothing is held. The induction is on the
pieces; between them the collector carries the start of the next frame. -/
theorem decode_prompt (holds : Holding collector holding) (items : List Item)
    (pieces : List (List Octet)) (carried : List Octet)
    (takes : Takes collector holding encode answer items)
    (incomplete : Incomplete encode carried items)
    (stream : carried ++ pieces.flatten = (items.map encode).flatten) :
    ∃ answers, collector.decode pieces (holding carried) = some (answers, holding []) ∧
      answers.length = pieces.length ∧
      ∀ count, (answers.take count).flatten =
        (arrived (fun item => (encode item).length) items
          (carried.length + (pieces.take count).flatten.length)).map answer := by
  induction pieces generalizing carried items with
  | nil =>
    cases items with
    | nil =>
      obtain rfl : carried = [] := incomplete
      exact ⟨[], rfl, rfl, by simp [arrived]⟩
    | cons item items =>
      have width := congrArg List.length stream
      simp only [Incomplete] at incomplete
      simp only [List.flatten_nil, List.append_nil, List.map_cons, List.flatten_cons,
        List.length_append] at width
      omega
  | cons piece pieces inductionHypothesis =>
    rw [List.flatten_cons, ← List.append_assoc] at stream
    obtain ⟨done, todo, left, rfl, kept, unfinished, drained⟩ :=
      drain_takes items (carried ++ piece) pieces.flatten ((carried ++ piece).length + 1) takes
        stream (by omega)
    have rest : left ++ pieces.flatten = (todo.map encode).flatten := by
      rw [kept, List.append_assoc, List.map_append, List.flatten_append] at stream
      exact List.append_cancel_left stream
    have later : Takes collector holding encode answer todo :=
      ⟨fun item member => takes.nonempty item (List.mem_append_right done member),
        fun item member => takes.whole item (List.mem_append_right done member),
        fun item member => takes.part item (List.mem_append_right done member), takes.idle⟩
    obtain ⟨answers, decoded, grouped, prompt⟩ :=
      inductionHypothesis todo left later unfinished rest
    refine ⟨done.map answer :: answers, ?_, by simp [grouped], ?_⟩
    · simp only [Collector.decode, holds.fed, holds.counted, drained, decoded, Option.map_some]
    · intro count
      cases count with
      | zero =>
        have before := arrived_incomplete (done ++ todo) carried incomplete
        simp [before]
      | succ count =>
        have width : carried.length + ((piece :: pieces).take (count + 1)).flatten.length =
            (done.map encode).flatten.length +
              (left.length + (pieces.take count).flatten.length) := by
          have octets := congrArg List.length kept
          simp only [List.length_append] at octets
          simp only [List.take_succ_cons, List.flatten_cons, List.length_append]
          omega
        rw [List.take_succ_cons, List.flatten_cons, prompt count, width, arrived_append,
          List.map_append]

/-- From an empty collector, every cutting of the frames is decoded promptly. -/
theorem decode_frames (holds : Holding collector holding) (items : List Item)
    (pieces : List (List Octet)) (takes : Takes collector holding encode answer items)
    (stream : pieces.flatten = (items.map encode).flatten) :
    ∃ answers, collector.decode pieces (holding []) = some (answers, holding []) ∧
      Prompt (fun item => (encode item).length) answer items pieces answers := by
  have incomplete : Incomplete encode [] items := by
    cases items with
    | nil => rfl
    | cons item items =>
      exact List.length_pos_of_ne_nil (takes.nonempty item List.mem_cons_self)
  obtain ⟨answers, decoded, grouped, prompt⟩ :=
    decode_prompt holds items pieces [] takes incomplete stream
  exact ⟨answers, decoded, grouped, by simpa using prompt⟩

end Frames

section FirstAnswers

variable {collector : Collector Octet Answer} {holding : List Octet → collector.State}

/-- The first answer of a run has every property that each answer on the first
octets of the stream has, provided a collector without an answer keeps what it
holds. -/
theorem first_answer (holds : Holding collector holding) (Possible : Answer → Prop)
    (stream : List Octet)
    (possible : ∀ carried later, carried ++ later = stream →
      collector.next (holding carried) = (none, holding carried) ∨
        ∃ answer after, collector.next (holding carried) = (some answer, after) ∧ Possible answer)
    (pieces : List (List Octet)) (carried : List Octet) (answers : List (List Answer))
    (final : collector.State) (cut : carried ++ pieces.flatten = stream)
    (decoded : collector.decode pieces (holding carried) = some (answers, final)) :
    ∀ answer, answers.flatten.head? = some answer → Possible answer := by
  induction pieces generalizing carried answers with
  | nil =>
    obtain ⟨rfl, -⟩ := Prod.mk.inj (Option.some.inj decoded)
    simp
  | cons piece pieces inductionHypothesis =>
    rw [List.flatten_cons, ← List.append_assoc] at cut
    rw [Collector.decode, holds.fed, holds.counted] at decoded
    rcases possible (carried ++ piece) pieces.flatten cut with
      waits | ⟨answer, after, answered, allowed⟩
    · simp only [Collector.drain, waits] at decoded
      obtain ⟨⟨later, ended⟩, decodedLater, same⟩ := Option.map_eq_some_iff.mp decoded
      obtain ⟨rfl, rfl⟩ := Prod.mk.inj same
      simpa using inductionHypothesis (carried ++ piece) later cut decodedLater
    · simp only [Collector.drain, answered] at decoded
      split at decoded
      · simp at decoded
      · rename_i drained ended fetched
        obtain ⟨⟨more, rest⟩, -, same⟩ := Option.map_eq_some_iff.mp fetched
        obtain ⟨rfl, rfl⟩ := Prod.mk.inj same
        obtain ⟨⟨later, last⟩, -, same⟩ := Option.map_eq_some_iff.mp decoded
        obtain ⟨rfl, rfl⟩ := Prod.mk.inj same
        intro first isFirst
        obtain rfl : answer = first := by simpa using isFirst
        exact allowed

end FirstAnswers

end OmniProxy.IncrementalDecoding
