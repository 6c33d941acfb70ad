import OmniProxy.ByteStrings

/-!
# Readers that poll a source of chunks

A source answers a poll with a chunk, with its end or with an error, or it is not ready. A
reader hands a chunk out as far as the buffer of a read goes and keeps the rest for the next
reads. It polls the source only when nothing is left over, and each poll completes the read
that caused it.

So the octets come out in order and all of them before the end, which enough reads reach. But
a chunk without octets completes a read with none, as the end does: the reader reads as a
stream for every buffer exactly when no such chunk comes before the end. Where such a chunk
only ever stands behind all the others it does no harm: no read completes with no octets
before the last chunk is delivered.

Nothing here refers to a particular program.
-/

namespace OmniProxy.PolledReaders

open ByteStrings

variable {Item Error State : Type}

section Reading

/-- The result of a poll. -/
inductive Poll (α : Type) where
  | ready (value : α)
  | pending
deriving DecidableEq

/-- What a source answers to a poll: an item or an error, or that it has ended. -/
abbrev Answer (Error Item : Type) := Poll (Option (Except Error Item))

/-- A source that has answered everything is not ready. -/
def pollNext : List (Answer Error Item) → Answer Error Item × List (Answer Error Item)
  | [] => (.pending, [])
  | answer :: answers => (answer, answers)

/-- A reader with what is left over, whether it has seen the end, and the answers of its
source that are still to come. -/
structure Reader (Error : Type) where
  leftover : Bytes
  ended : Bool
  answers : List (Answer Error Bytes)

/-- Read into a buffer of some size. A reader may remember that it has seen the end. -/
def pollRead (remembers : Bool) (size : Nat) (reader : Reader Error) :
    Poll (Except Error Bytes) × Reader Error :=
  if reader.leftover ≠ [] then
    (.ready (.ok (reader.leftover.take size)),
      { reader with leftover := reader.leftover.drop size })
  else if reader.ended then (.ready (.ok []), reader)
  else
    match pollNext reader.answers with
    | (.ready (some (.ok chunk)), answers) =>
        (.ready (.ok (chunk.take size)),
          { reader with leftover := chunk.drop size, answers := answers })
    | (.ready (some (.error error)), answers) =>
        (.ready (.error error), { reader with answers := answers })
    | (.ready none, answers) =>
        (.ready (.ok []), { reader with ended := remembers, answers := answers })
    | (.pending, answers) => (.pending, { reader with answers := answers })

end Reading

section Runs

variable (poll : Nat → State → Poll (Except Error Bytes) × State)

/-- The octets that a completed read has given. -/
def given : Poll (Except Error Bytes) → Bytes
  | .ready (.ok octets) => octets
  | _ => []

/-- Reads with buffers of some sizes: the octets given and the state after them. -/
def readAll : List Nat → State → Bytes × State
  | [], state => ([], state)
  | size :: sizes, state =>
      let (completion, after) := poll size state
      let (later, last) := readAll sizes after
      (given completion ++ later, last)

/-- The octets of all chunks, also behind the end. -/
def received : List (Answer Error Bytes) → Bytes
  | [] => []
  | .ready (some (.ok chunk)) :: answers => chunk ++ received answers
  | .ready (some (.error _)) :: answers => received answers
  | .ready none :: answers => received answers
  | .pending :: answers => received answers

/-- The octets of all chunks in front of the end. -/
def payload : List (Answer Error Bytes) → Bytes
  | [] => []
  | .ready none :: _ => []
  | .ready (some (.ok chunk)) :: answers => chunk ++ payload answers
  | .ready (some (.error _)) :: answers => payload answers
  | .pending :: answers => payload answers

variable (left : State → List (Answer Error Bytes)) (start : State)

/-- The end is among the answers that the source has given. -/
def PastEnd (state : State) : Prop :=
  ∃ taken, left start = taken ++ left state ∧ .ready none ∈ taken

/-- For all buffers that are not empty: until the end the octets of the chunks are given in
order, a read completes with no octets exactly when it reaches the end, all octets have been
given then, and after enough reads it is reached. -/
structure ReadsAsStream : Prop where
  ordered : ∀ sizes, (∀ size ∈ sizes, 0 < size) →
    ¬PastEnd left start (readAll poll sizes start).2 →
    (readAll poll sizes start).1 <+: payload (left start)
  ends : ∀ sizes size, (∀ size ∈ sizes, 0 < size) → 0 < size →
    ¬PastEnd left start (readAll poll sizes start).2 →
    ((poll size (readAll poll sizes start).2).1 = .ready (.ok []) ↔
      PastEnd left start (poll size (readAll poll sizes start).2).2)
  complete : ∀ sizes size, (∀ size ∈ sizes, 0 < size) → 0 < size →
    ¬PastEnd left start (readAll poll sizes start).2 →
    PastEnd left start (poll size (readAll poll sizes start).2).2 →
    (readAll poll sizes start).1 = payload (left start)
  reaches : .ready none ∈ left start → ∃ enough, ∀ sizes, (∀ size ∈ sizes, 0 < size) →
    enough ≤ sizes.length → PastEnd left start (readAll poll sizes start).2

/-- No chunk in front of the end is empty. -/
def NoBlank (answers : List (Answer Error Bytes)) : Prop :=
  ∀ before after, answers = before ++ .ready (some (.ok [])) :: after → .ready none ∈ before

/-- No chunk comes before the end. -/
def NoChunk (answers : List (Answer Error Bytes)) : Prop :=
  ∀ before chunk after, answers = before ++ .ready (some (.ok chunk)) :: after →
    .ready none ∈ before

/-- An empty chunk in front of the end is the last chunk. -/
def BlankLast (answers : List (Answer Error Bytes)) : Prop :=
  ∀ before after, answers = before ++ .ready (some (.ok [])) :: after →
    .ready none ∈ before ∨ NoChunk after

/-- Every chunk in front of the end is among the answers that the source has given. -/
def ChunksTaken (state : State) : Prop :=
  ∃ taken, left start = taken ++ left state ∧ (.ready none ∈ taken ∨ NoChunk (left state))

/-- For all buffers that are not empty: until the end the octets of the chunks are given in
order, a read completes with no octets only when the last chunk has been taken and all octets
have been given, as does the one that reaches the end, and after enough reads it is reached. -/
structure ReadsToEnd : Prop where
  ordered : ∀ sizes, (∀ size ∈ sizes, 0 < size) →
    ¬PastEnd left start (readAll poll sizes start).2 →
    (readAll poll sizes start).1 <+: payload (left start)
  delivered : ∀ sizes size, (∀ size ∈ sizes, 0 < size) → 0 < size →
    ¬PastEnd left start (readAll poll sizes start).2 →
    (poll size (readAll poll sizes start).2).1 = .ready (.ok []) →
    (readAll poll sizes start).1 = payload (left start) ∧
      ChunksTaken left start (poll size (readAll poll sizes start).2).2
  complete : ∀ sizes size, (∀ size ∈ sizes, 0 < size) → 0 < size →
    ¬PastEnd left start (readAll poll sizes start).2 →
    PastEnd left start (poll size (readAll poll sizes start).2).2 →
    (poll size (readAll poll sizes start).2).1 = .ready (.ok []) ∧
      (readAll poll sizes start).1 = payload (left start)
  reaches : .ready none ∈ left start → ∃ enough, ∀ sizes, (∀ size ∈ sizes, 0 < size) →
    enough ≤ sizes.length → PastEnd left start (readAll poll sizes start).2

end Runs

section Following

variable {remembers : Bool} {script : List (Answer Error Bytes)}

/-- Behind answers without an end the payload goes on. -/
theorem payload_append (taken rest : List (Answer Error Bytes)) (running : .ready none ∉ taken) :
    payload (taken ++ rest) = payload taken ++ payload rest := by
  induction taken with
  | nil => rfl
  | cons answer taken inductionHypothesis =>
    have later := inductionHypothesis fun member => running (.tail _ member)
    rcases answer with (_ | (error | chunk)) | _
    · exact absurd (.head _) running
    · exact later
    · exact (congrArg (chunk ++ ·) later).trans (List.append_assoc _ _ _).symm
    · exact later

/-- What was received before comes in front. -/
theorem received_append (front rest : List (Answer Error Bytes)) :
    received (front ++ rest) = received front ++ received rest := by
  induction front with
  | nil => rfl
  | cons answer front inductionHypothesis =>
    rcases answer with (_ | (error | chunk)) | _
    · exact inductionHypothesis
    · exact inductionHypothesis
    · exact (congrArg (chunk ++ ·) inductionHypothesis).trans (List.append_assoc _ _ _).symm
    · exact inductionHypothesis

/-- The reader has not come to the end: what it has given and what is left over are the chunks
that the source has given. -/
structure Follows (script : List (Answer Error Bytes)) (out : Bytes) (reader : Reader Error) :
    Prop where
  running : reader.ended = false
  taken : ∃ taken, script = taken ++ reader.answers ∧ .ready none ∉ taken ∧
    out ++ reader.leftover = payload taken

/-- What is given, what is left over and what is to come are all chunks in front of the end. -/
theorem Follows.whole {out : Bytes} {reader : Reader Error} (follows : Follows script out reader) :
    payload script = out ++ (reader.leftover ++ payload reader.answers) := by
  obtain ⟨taken, split, before, followed⟩ := follows.taken
  rw [split, payload_append taken _ before, ← followed, List.append_assoc]

/-- One more answer that is not the end has been taken. -/
theorem follows_answer {taken later : List (Answer Error Bytes)} {answer : Answer Error Bytes}
    {out leftover : Bytes} (split : script = taken ++ answer :: later)
    (running : .ready none ∉ taken) (other : answer ≠ .ready none)
    (given : out ++ leftover = payload taken ++ payload [answer]) :
    Follows script out ⟨leftover, false, later⟩ := by
  refine ⟨rfl, taken ++ [answer], by rw [split]; simp, ?_, ?_⟩
  · intro member
    rcases List.mem_append.mp member with before | last
    · exact running before
    · exact other (List.mem_singleton.mp last).symm
  · rw [given, payload_append taken _ running]

/-- A read either reaches the end with nothing left over, or it follows the chunks; then it
completes with no octets only on an empty chunk, with nothing left over. The cases are those of
the source. -/
theorem poll_follows {out : Bytes} {reader : Reader Error} (follows : Follows script out reader)
    {size : Nat} (room : 0 < size) :
    (∃ later, reader.leftover = [] ∧ reader.answers = .ready none :: later ∧
      pollRead remembers size reader = (.ready (.ok []), ⟨[], remembers, later⟩)) ∨
    Follows script (out ++ given (pollRead remembers size reader).1)
        (pollRead remembers size reader).2 ∧
      ((pollRead remembers size reader).1 = .ready (.ok []) → reader.leftover = [] ∧
        ∃ later, reader.answers = .ready (some (.ok [])) :: later ∧
          (pollRead remembers size reader).2.answers = later) := by
  obtain ⟨leftover, ended, answers⟩ := reader
  obtain ⟨running, taken, split, before, followed⟩ := follows
  dsimp only at running split followed
  subst running
  by_cases empty : leftover = []
  · subst empty
    rw [List.append_nil] at followed
    rw [pollRead, if_neg (not_not.mpr rfl), if_neg Bool.false_ne_true]
    rcases answers with _ | ⟨(_ | (error | chunk)) | _, later⟩
    · refine .inr ⟨⟨rfl, taken, split, before, ?_⟩, fun completed => by cases completed⟩
      dsimp only [pollNext, given]
      rw [List.append_nil, List.append_nil, followed]
    · exact .inl ⟨later, rfl, rfl, rfl⟩
    · refine .inr ⟨follows_answer split before (by simp) ?_, fun completed => by cases completed⟩
      dsimp only [pollNext, given]
      rw [List.append_nil, followed]
      rfl
    · refine .inr ⟨follows_answer split before (by simp) ?_, fun completed => ?_⟩
      · dsimp only [pollNext, given]
        rw [List.append_assoc, List.take_append_drop, followed, payload, payload, List.append_nil]
      · have bare : chunk.take size = [] := Except.ok.inj (Poll.ready.inj completed)
        rcases List.take_eq_nil_iff.mp bare with zero | rfl
        · omega
        · exact ⟨rfl, later, rfl, rfl⟩
    · refine .inr ⟨follows_answer split before (by simp) ?_, fun completed => by cases completed⟩
      dsimp only [pollNext, given]
      rw [List.append_nil, followed]
      rfl
  · rw [pollRead, if_pos empty]
    refine .inr ⟨⟨rfl, taken, split, before, ?_⟩, fun completed => ?_⟩
    · dsimp only [given]
      rw [List.append_assoc, List.take_append_drop, followed]
    · have bare : leftover.take size = [] := Except.ok.inj (Poll.ready.inj completed)
      rcases List.take_eq_nil_iff.mp bare with zero | nothing
      · omega
      · exact absurd nothing empty

/-- The end of a reader that has been fresh is among the answers. -/
abbrev PastEndOf (script : List (Answer Error Bytes)) (reader : Reader Error) : Prop :=
  PastEnd Reader.answers ⟨[], false, script⟩ reader

/-- What has been past the end stays past it: a read takes answers from the front. -/
theorem past_end_stays {reader : Reader Error} (past : PastEndOf script reader) (size : Nat) :
    PastEndOf script (pollRead remembers size reader).2 := by
  obtain ⟨taken, split, ended⟩ := past
  obtain ⟨front, shorter⟩ :
      ∃ front, reader.answers = front ++ (pollRead remembers size reader).2.answers := by
    rw [pollRead]
    by_cases empty : reader.leftover = []
    · rw [if_neg (not_not.mpr empty)]
      by_cases done : reader.ended = true
      · rw [if_pos done]
        exact ⟨[], rfl⟩
      · rw [if_neg done]
        rcases reader.answers with _ | ⟨(_ | (error | chunk)) | _, later⟩
        · exact ⟨[], rfl⟩
        · exact ⟨[_], rfl⟩
        · exact ⟨[_], rfl⟩
        · exact ⟨[_], rfl⟩
        · exact ⟨[_], rfl⟩
    · rw [if_pos empty]
      exact ⟨[], rfl⟩
  refine ⟨taken ++ front, ?_, List.mem_append_left _ ended⟩
  rw [split, shorter, List.append_assoc]

/-- A read that takes the end is past it. -/
theorem past_after {out : Bytes} {reader : Reader Error} (follows : Follows script out reader)
    {later : List (Answer Error Bytes)} (next : reader.answers = .ready none :: later) {size : Nat}
    (polled : pollRead remembers size reader = (.ready (.ok []), ⟨[], remembers, later⟩)) :
    PastEndOf script (pollRead remembers size reader).2 := by
  obtain ⟨taken, split, -, -⟩ := follows.taken
  refine ⟨taken ++ [.ready none], ?_, List.mem_append_right _ (.head _)⟩
  rw [polled, split, next]
  simp

/-- After any reads the reader is past the end, or it follows the chunks. The induction is on
the reads. -/
theorem reads_follow (sizes : List Nat) (room : ∀ size ∈ sizes, 0 < size) (out : Bytes)
    (reader : Reader Error) (follows : PastEndOf script reader ∨ Follows script out reader) :
    PastEndOf script (readAll (pollRead remembers) sizes reader).2 ∨
      Follows script (out ++ (readAll (pollRead remembers) sizes reader).1)
        (readAll (pollRead remembers) sizes reader).2 := by
  induction sizes generalizing out reader with
  | nil =>
    rw [readAll, List.append_nil]
    exact follows
  | cons size sizes inductionHypothesis =>
    rw [readAll]
    dsimp only
    rw [← List.append_assoc]
    refine inductionHypothesis (fun later member => room later (.tail _ member)) _ _ ?_
    rcases follows with past | follows
    · exact .inl (past_end_stays past size)
    · obtain ⟨later, nothing, next, polled⟩ | ⟨more, -⟩ :=
        poll_follows follows (room size (.head _))
      · exact .inl (past_after follows next polled)
      · exact .inr more

/-- Reads with buffers that are large enough take one answer each. -/
theorem reads_take (remembers : Bool) (before rest : List (Answer Error Bytes))
    (running : .ready none ∉ before) :
    ∃ sizes, (∀ size ∈ sizes, 0 < size) ∧
      (readAll (pollRead remembers) sizes ⟨[], false, before ++ rest⟩).2 = ⟨[], false, rest⟩ := by
  induction before with
  | nil => exact ⟨[], fun _ member => absurd member (List.not_mem_nil), rfl⟩
  | cons answer before inductionHypothesis =>
    obtain ⟨sizes, room, reads⟩ := inductionHypothesis fun member => running (.tail _ member)
    have positive (size : Nat) : ∀ other ∈ (size + 1) :: sizes, 0 < other := by
      intro other member
      rcases List.mem_cons.mp member with rfl | later
      · exact Nat.succ_pos size
      · exact room other later
    rcases answer with (_ | (error | chunk)) | _
    · exact absurd (.head _) running
    · exact ⟨1 :: sizes, positive 0, reads⟩
    · refine ⟨(chunk.length + 1) :: sizes, positive chunk.length, ?_⟩
      have all : chunk.drop (chunk.length + 1) = [] := List.drop_eq_nil_of_le (Nat.le_succ _)
      rw [readAll]
      dsimp only [pollRead, List.cons_append, pollNext]
      rw [if_neg (not_not.mpr rfl), if_neg Bool.false_ne_true, all]
      exact reads
    · exact ⟨1 :: sizes, positive 0, reads⟩

/-- Before the end the source has not answered with it. -/
theorem not_past_end {taken rest : List (Answer Error Bytes)} (split : script = taken ++ rest)
    (running : .ready none ∉ taken) (leftover : Bytes) (ended : Bool) :
    ¬PastEndOf script ⟨leftover, ended, rest⟩ := by
  rintro ⟨others, again, reached⟩
  have same : script = others ++ rest := again
  rw [split] at same
  rw [← List.append_cancel_right same] at reached
  exact running reached

/-- A reader that still follows its answers has not passed the end. -/
theorem Follows.not_past {out : Bytes} {reader : Reader Error}
    (follows : Follows script out reader) : ¬PastEndOf script reader := by
  obtain ⟨taken, split, before, -⟩ := follows.taken
  exact not_past_end split before _ _

/-- The reads that a reader is good for: one for each octet and one for each answer. -/
def readsLeft (reader : Reader Error) : Nat :=
  reader.leftover.length + (received reader.answers).length + reader.answers.length

/-- A read uses one of them up, while there are any. -/
theorem poll_reads_left {reader : Reader Error} (running : reader.ended = false)
    (several : 0 < readsLeft reader) {size : Nat} (room : 0 < size) :
    readsLeft (pollRead remembers size reader).2 < readsLeft reader := by
  obtain ⟨leftover, ended, answers⟩ := reader
  dsimp only at running
  subst running
  by_cases empty : leftover = []
  · subst empty
    rw [pollRead, if_neg (not_not.mpr rfl), if_neg Bool.false_ne_true]
    rcases answers with _ | ⟨(_ | (error | chunk)) | _, later⟩
    · exact absurd several (Nat.lt_irrefl 0)
    · exact Nat.lt_succ_self _
    · exact Nat.lt_succ_self _
    · simp only [readsLeft, pollNext, received, List.length_append, List.length_drop,
        List.length_cons, List.length_nil]
      omega
    · exact Nat.lt_succ_self _
  · have positive := List.length_pos_of_ne_nil empty
    rw [pollRead, if_pos empty]
    simp only [readsLeft, List.length_drop]
    omega

/-- So enough reads come past the end, if there is one. The induction is on the reads. -/
theorem reads_reach (ending : .ready none ∈ script) (sizes : List Nat)
    (room : ∀ size ∈ sizes, 0 < size) (out : Bytes) (reader : Reader Error)
    (follows : PastEndOf script reader ∨
      Follows script out reader ∧ readsLeft reader ≤ sizes.length) :
    PastEndOf script (readAll (pollRead remembers) sizes reader).2 := by
  have waiting (out : Bytes) (reader : Reader Error) (follows : Follows script out reader) :
      0 < readsLeft reader := by
    obtain ⟨taken, split, before, -⟩ := follows.taken
    rw [split] at ending
    have later := (List.mem_append.mp ending).resolve_left before
    have positive := List.length_pos_of_mem later
    rw [readsLeft]
    omega
  induction sizes generalizing out reader with
  | nil =>
    rcases follows with past | ⟨follows, enough⟩
    · exact past
    · have positive := waiting out reader follows
      exact absurd enough (Nat.not_le.mpr positive)
  | cons size sizes inductionHypothesis =>
    rw [readAll]
    dsimp only
    refine inductionHypothesis (fun other member => room other (.tail _ member))
      (out ++ given (pollRead remembers size reader).1) _ ?_
    rcases follows with past | ⟨follows, enough⟩
    · exact .inl (past_end_stays past size)
    · have fewer := @poll_reads_left _ remembers reader follows.running
        (waiting out reader follows) size (room size (.head _))
      rw [List.length_cons] at enough
      obtain ⟨later, nothing, next, polled⟩ | ⟨more, -⟩ :=
        poll_follows follows (room size (.head _))
      · exact .inl (past_after follows next polled)
      · exact .inr ⟨more, by omega⟩

/-- Without a chunk before the end there is no payload. -/
theorem no_chunk_payload {answers : List (Answer Error Bytes)} (noChunk : NoChunk answers) :
    payload answers = [] := by
  induction answers with
  | nil => rfl
  | cons answer answers inductionHypothesis =>
    have later (running : answer ≠ .ready none) : payload answers = [] := by
      refine inductionHypothesis fun before chunk after split => ?_
      have among := noChunk (answer :: before) chunk after (by rw [split]; rfl)
      exact (List.mem_cons.mp among).resolve_left (Ne.symm running)
    rcases answer with (_ | (error | chunk)) | _
    · rfl
    · exact later (by simp)
    · exact absurd (noChunk [] chunk answers rfl) List.not_mem_nil
    · exact later (by simp)

/-- A reader reads to the end exactly when only the last chunk in front of it may be empty. -/
theorem reads_to_end_iff (remembers : Bool) (script : List (Answer Error Bytes)) :
    ReadsToEnd (pollRead remembers) Reader.answers ⟨[], false, script⟩ ↔ BlankLast script := by
  constructor
  · rintro ⟨-, delivered, -, -⟩ before after split
    by_contra unmet
    rw [not_or] at unmet
    obtain ⟨sizes, room, reads⟩ := reads_take remembers before
      (.ready (some (.ok [])) :: after) unmet.1
    rw [← split] at reads
    have blank := delivered sizes 1 room Nat.one_pos
    rw [reads] at blank
    obtain ⟨-, taken, again, last⟩ := blank (not_past_end split unmet.1 _ _) rfl
    have longer : script = (before ++ [.ready (some (.ok []))]) ++ after := by
      rw [split]
      simp
    have same : (before ++ [.ready (some (.ok []))]) ++ after = taken ++ after :=
      longer.symm.trans again
    rw [← List.append_cancel_right same] at last
    rcases last with ended | noChunk
    · rcases List.mem_append.mp ended with inside | other
      · exact unmet.1 inside
      · simp at other
    · exact unmet.2 noChunk
  · intro blankLast
    have fresh : Follows script [] ⟨[], false, script⟩ :=
      ⟨rfl, [], rfl, List.not_mem_nil, rfl⟩
    have follow (sizes : List Nat) (room : ∀ size ∈ sizes, 0 < size) :=
      (@reads_follow _ remembers _ sizes room [] _ (.inr fresh)).resolve_left
    constructor
    · intro sizes room running
      exact ⟨_, (follow sizes room running).whole.symm⟩
    · intro sizes size room positive running completed
      have follows := follow sizes room running
      have whole := follows.whole
      obtain ⟨taken, split, before, -⟩ := follows.taken
      obtain ⟨later, nothing, next, polled⟩ | ⟨-, blank⟩ :=
        @poll_follows _ remembers _ _ _ follows size positive
      · rw [nothing, next, List.nil_append, List.nil_append, payload, List.append_nil] at whole
        refine ⟨whole.symm, taken ++ [.ready none], ?_, .inl (by simp)⟩
        rw [polled]
        exact split.trans (by rw [next]; simp)
      · obtain ⟨nothing, later, next, after⟩ := blank completed
        rw [next] at split
        have noChunk := (blankLast taken later split).resolve_left before
        rw [nothing, next, payload, no_chunk_payload noChunk] at whole
        refine ⟨by simpa using whole.symm, taken ++ [.ready (some (.ok []))], ?_, .inr ?_⟩
        · rw [after]
          exact split.trans (by simp)
        · rw [after]
          exact noChunk
    · intro sizes size room positive running past
      have follows := follow sizes room running
      obtain ⟨later, nothing, next, polled⟩ | ⟨more, -⟩ :=
        @poll_follows _ remembers _ _ _ follows size positive
      · have whole := follows.whole
        rw [nothing, next, List.nil_append, List.nil_append, payload, List.append_nil] at whole
        exact ⟨by rw [polled], whole.symm⟩
      · exact absurd past more.not_past
    · intro ending
      refine ⟨readsLeft ⟨[], false, script⟩, fun sizes room enough => ?_⟩
      exact reads_reach ending sizes room [] _ (.inr ⟨fresh, enough⟩)

/-- A reader reads as a stream exactly when no empty chunk comes before the end. -/
theorem reads_as_stream_iff (remembers : Bool) (script : List (Answer Error Bytes)) :
    ReadsAsStream (pollRead remembers) Reader.answers ⟨[], false, script⟩ ↔ NoBlank script := by
  constructor
  · rintro ⟨-, ends, -, -⟩ before after split
    by_contra running
    obtain ⟨sizes, room, reads⟩ := reads_take remembers before
      (.ready (some (.ok [])) :: after) running
    rw [← split] at reads
    have blank := ends sizes 1 room Nat.one_pos
    rw [reads] at blank
    have past := (blank (not_past_end split running _ _)).mp rfl
    have longer : script = (before ++ [.ready (some (.ok []))]) ++ after := by
      rw [split]
      simp
    refine not_past_end longer ?_ [] false past
    simpa using running
  · intro noBlank
    have fresh : Follows script [] ⟨[], false, script⟩ :=
      ⟨rfl, [], rfl, List.not_mem_nil, rfl⟩
    have follow (sizes : List Nat) (room : ∀ size ∈ sizes, 0 < size) :=
      (@reads_follow _ remembers _ sizes room [] _ (.inr fresh)).resolve_left
    constructor
    · intro sizes room running
      exact ⟨_, (follow sizes room running).whole.symm⟩
    · intro sizes size room positive running
      have follows := follow sizes room running
      obtain ⟨taken, split, before, -⟩ := follows.taken
      obtain ⟨later, -, next, polled⟩ | ⟨more, blank⟩ :=
        @poll_follows _ remembers _ _ _ follows size positive
      · exact iff_of_true (by rw [polled]) (past_after follows next polled)
      · refine iff_of_false (fun completed => ?_) more.not_past
        obtain ⟨-, later, next, -⟩ := blank completed
        rw [next] at split
        exact before (noBlank taken later split)
    · intro sizes size room positive running past
      have follows := follow sizes room running
      obtain ⟨later, nothing, next, -⟩ | ⟨more, -⟩ :=
        @poll_follows _ remembers _ _ _ follows size positive
      · have whole := follows.whole
        rw [nothing, next, List.nil_append, List.nil_append, payload, List.append_nil] at whole
        exact whole.symm
      · exact absurd past more.not_past
    · intro ending
      refine ⟨readsLeft ⟨[], false, script⟩, fun sizes room enough => ?_⟩
      exact reads_reach ending sizes room [] _ (.inr ⟨fresh, enough⟩)

end Following

/-- The answers of another source, read as chunks, have no blank in front of the end. -/
theorem no_blank_map_iff {Delivered : Type} (chunkOf : Delivered → Answer Error Bytes)
    (delivered : List Delivered) :
    NoBlank (delivered.map chunkOf) ↔
      ∀ before item after, delivered = before ++ item :: after →
        chunkOf item = .ready (some (.ok [])) → ∃ last ∈ before, chunkOf last = .ready none := by
  constructor
  · rintro noBlank before item after rfl blank
    refine List.mem_map.mp (noBlank (before.map chunkOf) (after.map chunkOf) ?_)
    rw [List.map_append, List.map_cons, blank]
  · intro noBlank before after split
    obtain ⟨front, rest, rfl, rfl, others⟩ := List.map_eq_append_iff.mp split
    obtain ⟨item, back, rfl, blank, rfl⟩ := List.map_eq_cons_iff.mp others
    exact List.mem_map.mpr (noBlank front item back rfl blank)

/-- A read gives as much as there is when it has room for more. -/
theorem take_capped (octets : Bytes) (remaining : Nat) :
    octets.take (min remaining octets.length) = octets.take remaining := by
  rw [← List.take_take, List.take_length]

/-- Dropping more octets than there are drops them all. -/
theorem drop_capped (octets : Bytes) (remaining : Nat) :
    octets.drop (min remaining octets.length) = octets.drop remaining := by
  rcases Nat.le_total remaining octets.length with short | long
  · rw [Nat.min_eq_left short]
  · rw [Nat.min_eq_right long, List.drop_length, List.drop_eq_nil_of_le long]

section Views

variable {poll : Nat → State → Poll (Except Error Bytes) × State} {view : State → Reader Error}
  {remembers : Bool}

/-- A state is read as the reader that it is seen as. -/
def ReadAs (remembers : Bool) (poll : Nat → State → Poll (Except Error Bytes) × State)
    (view : State → Reader Error) : Prop :=
  ∀ size state,
    pollRead remembers size (view state) = ((poll size state).1, view (poll size state).2)

/-- A run of reads is seen as the run of reads on what the state is seen as. -/
theorem read_all_view (seen : ReadAs remembers poll view) (sizes : List Nat) (state : State) :
    readAll (pollRead remembers) sizes (view state) =
      ((readAll poll sizes state).1, view (readAll poll sizes state).2) := by
  induction sizes generalizing state with
  | nil => rfl
  | cons size sizes inductionHypothesis =>
    rw [readAll, seen, readAll]
    dsimp only
    rw [inductionHypothesis]

/-- Being past the end is seen in the views. -/
theorem past_end_view (start state : State) :
    PastEnd Reader.answers (view start) (view state) ↔
      PastEnd (fun other => (view other).answers) start state := Iff.rfl

/-- And so are the chunks that were taken. -/
theorem chunks_taken_view (start state : State) :
    ChunksTaken Reader.answers (view start) (view state) ↔
      ChunksTaken (fun other => (view other).answers) start state := Iff.rfl

/-- A fresh state is seen as a fresh reader of its answers. -/
theorem view_fresh {start : State}
    (fresh : (view start).leftover = [] ∧ (view start).ended = false) :
    view start = ⟨[], false, (view start).answers⟩ := by
  obtain ⟨nothing, running⟩ := fresh
  rw [← nothing, ← running]

/-- So it reads as a stream exactly when no empty chunk comes before the end. -/
theorem view_reads_as_stream_iff (seen : ReadAs remembers poll view) {start : State}
    (fresh : (view start).leftover = [] ∧ (view start).ended = false) :
    ReadsAsStream poll (fun state => (view state).answers) start ↔
      NoBlank (view start).answers := by
  have sees (sizes : List Nat) := read_all_view seen sizes start
  have polled (size : Nat) (state : State) := seen size state
  rw [← reads_as_stream_iff remembers, ← view_fresh fresh]
  constructor
  · rintro ⟨ordered, ends, complete, reaches⟩
    constructor <;> simpa only [sees, polled, past_end_view]
  · rintro ⟨ordered, ends, complete, reaches⟩
    simp only [sees, polled, past_end_view] at ordered ends complete reaches
    exact ⟨ordered, ends, complete, reaches⟩

/-- And it reads to the end exactly when only the last chunk in front of it may be empty. -/
theorem view_reads_to_end_iff (seen : ReadAs remembers poll view) {start : State}
    (fresh : (view start).leftover = [] ∧ (view start).ended = false) :
    ReadsToEnd poll (fun state => (view state).answers) start ↔
      BlankLast (view start).answers := by
  have sees (sizes : List Nat) := read_all_view seen sizes start
  have polled (size : Nat) (state : State) := seen size state
  rw [← reads_to_end_iff remembers, ← view_fresh fresh]
  constructor
  · rintro ⟨ordered, delivered, complete, reaches⟩
    constructor <;> simpa only [sees, polled, past_end_view, chunks_taken_view]
  · rintro ⟨ordered, delivered, complete, reaches⟩
    simp only [sees, polled, past_end_view, chunks_taken_view] at ordered delivered complete reaches
    exact ⟨ordered, delivered, complete, reaches⟩

end Views

end OmniProxy.PolledReaders
