import OmniProxy.GuardedRuns
import OmniProxy.PolledReaders

/-!
# Links that carry chunks to a polled reader

A sender hands chunks to a link and finishes. The link hands them to the source of a reader
in order, whole or cut into several, then its end, or it breaks and gives an error and the end
instead. Reads may come between all of these, with buffers of any size.

What has been read is a front of what was sent. When no chunk was empty, a read that has room
completes with no octets only at the end, and then everything was read unless the link broke;
and as long as it does not break, everything sent can still be read.

Nothing here refers to a particular program.
-/

namespace OmniProxy.ChunkLinks

open ByteStrings GuardedRuns PolledReaders

variable {Error : Type}

section Ends

/-- The two ends of a connection. -/
inductive Party where
  | client
  | server
deriving DecidableEq

def Party.peer : Party → Party
  | .client => .server
  | .server => .client

/-- The peer of the peer is the party itself. -/
@[simp] theorem peer_peer (party : Party) : party.peer.peer = party := by
  cases party <;> rfl

/-- No party is its own peer. -/
theorem peer_apart (party : Party) : party.peer ≠ party := by
  cases party <;> decide

/-- A party is one of the two. -/
theorem party_cases (party other : Party) : other = party ∨ other = party.peer := by
  cases party <;> cases other <;> simp [Party.peer]

end Ends

section Links

/-- A link with the history of what was sent, and what has been read. -/
structure ChunkLink (Error : Type) where
  sent : List Bytes
  finished : Bool
  wire : List Bytes
  closed : Bool
  broken : Bool
  reader : Reader Error
  returned : Bytes

def ChunkLink.start : ChunkLink Error := ⟨[], false, [], false, false, ⟨[], false, []⟩, []⟩

/-- How a source ends: it says so at once, or gives an empty chunk in front. -/
inductive Ending where
  | plain
  | blank
deriving DecidableEq

def Ending.answer : Ending → Answer Error Bytes
  | .plain => .ready none
  | .blank => .ready (some (.ok []))

inductive LinkEvent (Error : Type) where
  | send (chunk : Bytes)
  | finish
  | cut (place : Nat)
  | arrive
  | breaks (error : Option Error)
  | read (size : Nat)

/-- The first chunk in two, when both parts of it have octets. -/
def cutFirst (place : Nat) : List Bytes → List Bytes
  | [] => []
  | chunk :: chunks =>
      if 0 < place ∧ place < chunk.length then chunk.take place :: chunk.drop place :: chunks
      else chunk :: chunks

/-- The source of the reader has one more answer. -/
def ChunkLink.answer (link : ChunkLink Error) (answer : Answer Error Bytes) : ChunkLink Error :=
  { link with reader := { link.reader with answers := link.reader.answers ++ [answer] } }

/-- The next chunk or the end arrives. A source that has ended says so again. -/
def ChunkLink.arrive (ending : Ending) (link : ChunkLink Error) : ChunkLink Error :=
  if link.closed then link.answer (.ready none)
  else
    match link.wire with
    | chunk :: wire => { link.answer (.ready (some (.ok chunk))) with wire }
    | [] =>
        if link.finished then { link.answer ending.answer with closed := true } else link

/-- The link breaks, and the source gives an error when there is one. -/
def ChunkLink.breaks (link : ChunkLink Error) (error : Option Error) : ChunkLink Error :=
  let link := { link with closed := true, broken := true }
  match error with
  | some error => link.answer (.ready (some (.error error)))
  | none => link.answer (.ready none)

def ChunkLink.read (remembers : Bool) (link : ChunkLink Error) (size : Nat) : ChunkLink Error :=
  { link with
    reader := (pollRead remembers size link.reader).2
    returned := link.returned ++ given (pollRead remembers size link.reader).1 }

def ChunkLink.step (remembers : Bool) (ending : Ending) (link : ChunkLink Error) :
    LinkEvent Error → ChunkLink Error
  | .send chunk =>
      if link.finished then link
      else { link with sent := link.sent ++ [chunk], wire := link.wire ++ [chunk] }
  | .finish => { link with finished := true }
  | .cut place => { link with wire := cutFirst place link.wire }
  | .arrive => link.arrive ending
  | .breaks error => link.breaks error
  | .read size => link.read remembers size

/-- Chunks that are sent have octets. -/
def LinkEvent.Proper : LinkEvent Error → Prop
  | .send chunk => chunk ≠ []
  | _ => True

end Links

section Keeping

/-- The answer has no octets. -/
def Blank (answer : Answer Error Bytes) : Prop := received [answer] = []

/-- The answers of a source: chunks that are not empty, and once the link is closed others that
have no octets behind them. -/
structure Answers (closed broken : Bool) (answers : List (Answer Error Bytes)) : Prop where
  shape : ∃ (chunks : List Bytes) (back : List (Answer Error Bytes)),
    answers = chunks.map (fun chunk => .ready (some (.ok chunk))) ++ back ∧
      (∀ chunk ∈ chunks, chunk ≠ []) ∧ (∀ answer ∈ back, Blank answer) ∧
      (back ≠ [] → closed = true)
  errors : ∀ error, .ready (some (.error error)) ∈ answers → broken = true

/-- What a link keeps in every run. -/
structure Kept (link : ChunkLink Error) : Prop where
  exact : link.sent.flatten = link.returned ++
    (link.reader.leftover ++ (received link.reader.answers ++ link.wire.flatten))
  filled : ∀ chunk ∈ link.wire, chunk ≠ []
  answers : Answers link.closed link.broken link.reader.answers
  ended : link.reader.ended = true → link.closed = true ∧ link.reader.leftover = [] ∧
    received link.reader.answers = []
  complete : link.closed = true → link.broken = false → link.wire = [] ∧ link.finished = true

/-- A fresh link has sent nothing and read nothing. -/
theorem start_kept : Kept (.start : ChunkLink Error) where
  exact := rfl
  filled _ member := absurd member List.not_mem_nil
  answers := ⟨⟨[], [], rfl, fun _ member => absurd member List.not_mem_nil,
    fun _ member => absurd member List.not_mem_nil, fun something => absurd rfl something⟩,
    fun _ member => absurd member List.not_mem_nil⟩
  ended running := absurd running Bool.false_ne_true
  complete running := absurd running Bool.false_ne_true

/-- Answers without octets have given nothing to the reader. -/
theorem received_blank {back : List (Answer Error Bytes)} (blank : ∀ answer ∈ back, Blank answer) :
    received back = [] := by
  induction back with
  | nil => rfl
  | cons answer back inductionHypothesis =>
    have later := inductionHypothesis fun other member => blank other (.tail _ member)
    rw [← List.singleton_append, received_append, blank answer (.head _), later]
    rfl

/-- The answer at the end has no octets and is no error. -/
theorem ending_blank (ending : Ending) : Blank (ending.answer : Answer Error Bytes) := by
  cases ending <;> rfl

/-- The end of a stream is never an error. -/
theorem ending_whole (ending : Ending) (error : Error) :
    ending.answer ≠ .ready (some (.error error)) := by
  cases ending <;> simp [Ending.answer]

variable {closed broken : Bool} {answers : List (Answer Error Bytes)}

/-- One more chunk while the link is open. -/
theorem Answers.chunk (kept : Answers false broken answers) {chunk : Bytes}
    (nonempty : chunk ≠ []) : Answers false broken (answers ++ [.ready (.some (.ok chunk))]) := by
  obtain ⟨⟨chunks, back, rfl, filled, blank, open_⟩, errors⟩ := kept
  obtain rfl : back = [] := by
    by_contra more
    exact absurd (open_ more) Bool.false_ne_true
  refine ⟨⟨chunks ++ [chunk], [], by simp, ?_, blank, open_⟩, ?_⟩
  · intro other member
    rcases List.mem_append.mp member with before | last
    · exact filled other before
    · rwa [List.mem_singleton.mp last]
  · intro error member
    rcases List.mem_append.mp member with before | last
    · exact errors error before
    · simp at last

/-- One more answer that is no chunk, when the link is closed from then on. -/
theorem Answers.other (kept : Answers closed broken answers) {answer : Answer Error Bytes}
    (blank : Blank answer) (after : Bool) (grows : broken = true → after = true)
    (error : ∀ found, answer = .ready (some (.error found)) → after = true) :
    Answers true after (answers ++ [answer]) := by
  obtain ⟨⟨chunks, back, rfl, filled, others, -⟩, errors⟩ := kept
  refine ⟨⟨chunks, back ++ [answer], by simp, filled, ?_, fun _ => rfl⟩, ?_⟩
  · intro other member
    rcases List.mem_append.mp member with before | last
    · exact others other before
    · rwa [List.mem_singleton.mp last]
  · intro found member
    rcases List.mem_append.mp member with before | last
    · exact grows (errors found before)
    · exact error found (List.mem_singleton.mp last).symm

/-- Without the first answer. -/
theorem Answers.tail {answer : Answer Error Bytes}
    (kept : Answers closed broken (answer :: answers)) : Answers closed broken answers := by
  obtain ⟨⟨chunks, back, split, filled, blank, ending⟩, errors⟩ := kept
  refine ⟨?_, fun error member => errors error (.tail _ member)⟩
  cases chunks with
  | nil =>
    refine ⟨[], answers, rfl, filled, fun other member => blank other ?_, fun _ => ?_⟩
    · rw [List.map_nil, List.nil_append] at split
      rw [← split]
      exact .tail _ member
    · apply ending
      rintro rfl
      simp at split
  | cons chunk chunks =>
    obtain ⟨-, rfl⟩ := List.cons.inj split
    exact ⟨chunks, back, rfl, fun other member => filled other (.tail _ member), blank, ending⟩

/-- An answer without octets stands at the back, and there are none behind it. -/
theorem Answers.behind {answer : Answer Error Bytes}
    (kept : Answers closed broken (answer :: answers)) (blank : Blank answer) :
    closed = true ∧ received answers = [] := by
  obtain ⟨⟨chunks, back, split, filled, others, ending⟩, -⟩ := kept
  cases chunks with
  | nil =>
    rw [List.map_nil, List.nil_append] at split
    subst split
    exact ⟨ending (by simp),
      received_blank fun other member => others other (.tail _ member)⟩
  | cons chunk chunks =>
    rw [(List.cons.inj split).1, Blank, received, received, List.append_nil] at blank
    exact absurd blank (filled chunk (.head _))

end Keeping

section Steps

variable {remembers : Bool} {ending : Ending} {link : ChunkLink Error}

/-- What a further answer brings comes behind what was received. -/
theorem received_snoc (answers : List (Answer Error Bytes)) (answer : Answer Error Bytes) :
    received (answers ++ [answer]) = received answers ++ received [answer] :=
  received_append answers [answer]

/-- A cut leaves the octets as they are. -/
@[simp] theorem cut_flatten (place : Nat) (chunks : List Bytes) :
    (cutFirst place chunks).flatten = chunks.flatten := by
  unfold cutFirst
  split
  · rfl
  · next chunk chunks =>
    split
    · simp [← List.append_assoc, List.take_append_drop]
    · rfl

/-- Both parts of a chunk that is cut have octets. -/
theorem cut_filled {place : Nat} {chunks : List Bytes} (filled : ∀ chunk ∈ chunks, chunk ≠ []) :
    ∀ chunk ∈ cutFirst place chunks, chunk ≠ [] := by
  unfold cutFirst
  split
  · exact filled
  · next chunk chunks =>
    split
    · next inside =>
      intro part member
      rcases List.mem_cons.mp member with rfl | later
      · exact List.ne_nil_of_length_pos (by rw [List.length_take]; omega)
      · rcases List.mem_cons.mp later with rfl | behind
        · exact List.ne_nil_of_length_pos (by rw [List.length_drop]; omega)
        · exact filled part (.tail _ behind)
    · exact filled

/-- A chunk or the end arrives. -/
theorem arrive_kept (kept : Kept link) : Kept (link.arrive ending) := by
  obtain ⟨exact_, filled, answers, ended, complete⟩ := kept
  unfold ChunkLink.arrive
  split
  · next closed =>
    refine ⟨?_, filled, ?_, ?_, complete⟩
    · refine exact_.trans ?_
      simp only [ChunkLink.answer, received_snoc, received, List.append_nil]
    · have more := @Answers.other _ _ _ _ answers (.ready none) rfl link.broken id (by simp)
      rwa [← closed] at more
    · intro past
      obtain ⟨-, none_left, nothing⟩ := ended past
      refine ⟨closed, none_left, ?_⟩
      simp only [ChunkLink.answer, received_snoc, nothing, received, List.append_nil]
  · next open_ =>
    have running : link.closed = false := by simpa using open_
    split
    · next chunk wire onWire =>
      rw [onWire, List.forall_mem_cons] at filled
      refine ⟨?_, filled.2, ?_, ?_, ?_⟩
      · refine exact_.trans ?_
        rw [onWire]
        simp only [ChunkLink.answer, received_snoc, received, List.append_nil, List.flatten_cons,
          List.append_assoc]
      · have more := (running ▸ answers).chunk filled.1
        rwa [← running] at more
      · intro past
        obtain ⟨closed, -⟩ := ended past
        simp [running] at closed
      · intro closed
        simp [ChunkLink.answer, running] at closed
    · next onWire =>
      split
      · next finished =>
        have nothing : received [(ending.answer : Answer Error Bytes)] = [] := ending_blank ending
        have sound (found : Error) (same : ending.answer = .ready (some (.error found))) :
            link.broken = true := absurd same (ending_whole ending found)
        refine ⟨?_, filled, answers.other nothing link.broken id sound, ?_,
          fun _ _ => ⟨onWire, finished⟩⟩
        · refine exact_.trans ?_
          simp only [ChunkLink.answer, received_snoc, nothing, List.append_nil]
        · intro past
          obtain ⟨closed, -⟩ := ended past
          simp [running] at closed
      · exact ⟨exact_, filled, answers, ended, complete⟩

/-- The link breaks. -/
theorem breaks_kept (kept : Kept link) (error : Option Error) : Kept (link.breaks error) := by
  obtain ⟨exact_, filled, answers, ended, -⟩ := kept
  have breaking (answer : Answer Error Bytes) (nothing : Blank answer) :
      Kept ({ link with closed := true, broken := true }.answer answer) := by
    rw [Blank] at nothing
    refine ⟨?_, filled, answers.other nothing true (fun _ => rfl) (fun _ _ => rfl), ?_, ?_⟩
    · refine exact_.trans ?_
      simp only [ChunkLink.answer, received_snoc, nothing, List.append_nil]
    · intro past
      obtain ⟨-, none_left, none_coming⟩ := ended past
      refine ⟨rfl, none_left, ?_⟩
      simp only [ChunkLink.answer, received_snoc, none_coming, nothing, List.append_nil]
    · intro _ whole
      simp [ChunkLink.answer] at whole
  cases error with
  | some error => exact breaking _ rfl
  | none => exact breaking _ rfl

/-- A read goes on where the last one stopped. The cases are those of the reader. -/
theorem read_kept (kept : Kept link) (size : Nat) : Kept (link.read remembers size) := by
  obtain ⟨sent, finished, wire, closed, broken, ⟨leftover, past, coming⟩, returned⟩ := link
  obtain ⟨exact_, filled, answers, ended, complete⟩ := kept
  simp only at exact_ filled answers ended complete
  by_cases some_left : leftover = []
  · subst some_left
    by_cases running : past = true
    · subst running
      simp only [ChunkLink.read, pollRead, ne_eq, not_true_eq_false, if_false, if_true, given,
        List.append_nil]
      exact ⟨exact_, filled, answers, ended, complete⟩
    · rw [Bool.not_eq_true] at running
      subst running
      simp only [ChunkLink.read, pollRead, ne_eq, not_true_eq_false, if_false,
        Bool.false_eq_true]
      rcases coming with _ | ⟨(_ | (error | chunk)) | _, later⟩
      · simp only [pollNext, given, List.append_nil]
        exact ⟨exact_, filled, answers, ended, complete⟩
      · simp only [pollNext, given, List.append_nil]
        obtain ⟨atEnd, nothing⟩ := answers.behind rfl
        exact ⟨exact_, filled, answers.tail, fun _ => ⟨atEnd, rfl, nothing⟩, complete⟩
      · simp only [pollNext, given, List.append_nil]
        exact ⟨exact_, filled, answers.tail, fun past => absurd past (by simp), complete⟩
      · simp only [pollNext, given]
        refine ⟨?_, filled, answers.tail, fun past => absurd past (by simp), complete⟩
        rw [exact_]
        simp only [List.nil_append, received, List.append_assoc]
        rw [← List.append_assoc (chunk.take size), List.take_append_drop]
      · simp only [pollNext, given, List.append_nil]
        exact ⟨exact_, filled, answers.tail, fun past => absurd past (by simp), complete⟩
  · simp only [ChunkLink.read, pollRead, ne_eq, some_left, not_false_eq_true, if_true, given]
    refine ⟨?_, filled, answers, fun past => absurd (ended past).2.1 some_left, complete⟩
    rw [exact_, List.append_assoc, ← List.append_assoc (leftover.take size),
      List.take_append_drop]

/-- Every step keeps what is known of a link. -/
theorem step_kept (kept : Kept link) (event : LinkEvent Error) (proper : event.Proper) :
    Kept (link.step remembers ending event) := by
  cases event with
  | send chunk =>
    simp only [ChunkLink.step]
    split
    · exact kept
    · next running =>
      obtain ⟨exact_, filled, answers, ended, complete⟩ := kept
      refine ⟨?_, ?_, answers, ended, ?_⟩
      · simp only [List.flatten_append, exact_, List.append_assoc]
      · intro other member
        rcases List.mem_append.mp member with before | last
        · exact filled other before
        · rw [List.mem_singleton.mp last]
          exact proper
      · intro closed whole
        exact absurd (complete closed whole).2 running
  | finish =>
    obtain ⟨exact_, filled, answers, ended, complete⟩ := kept
    exact ⟨exact_, filled, answers, ended, fun closed whole => ⟨(complete closed whole).1, rfl⟩⟩
  | cut place =>
    obtain ⟨exact_, filled, answers, ended, complete⟩ := kept
    refine ⟨?_, cut_filled filled, answers, ended, fun closed whole => ?_⟩
    · simpa only [ChunkLink.step, cut_flatten] using exact_
    · obtain ⟨nothing, finished⟩ := complete closed whole
      exact ⟨congrArg (cutFirst place) nothing, finished⟩
  | arrive => exact arrive_kept kept
  | breaks error => exact breaks_kept kept error
  | read size => exact read_kept kept size

/-- A link proceeds to another state: by one event, or it stays as it is. -/
def Proceeds (remembers : Bool) (ending : Ending) (before after : ChunkLink Error) : Prop :=
  after = before ∨ ∃ event : LinkEvent Error, event.Proper ∧
    after = before.step remembers ending event

/-- Whatever way a link proceeds, it keeps the invariant. -/
theorem Proceeds.kept {after : ChunkLink Error} (proceeds : Proceeds remembers ending link after)
    (kept : Kept link) : Kept after := by
  rcases proceeds with rfl | ⟨event, proper, rfl⟩
  · exact kept
  · exact step_kept kept event proper

/-- A read that has room and completes with no octets has come to the end. -/
theorem read_at_end (kept : Kept link) {size : Nat} (room : 0 < size)
    (completed : (pollRead remembers size link.reader).1 = .ready (.ok [])) :
    link.closed = true ∧ link.sent.flatten = link.returned ++ link.wire.flatten := by
  obtain ⟨sent, finished, wire, closed, broken, ⟨leftover, past, coming⟩, returned⟩ := link
  obtain ⟨exact_, filled, answers, ended, complete⟩ := kept
  simp only at exact_ filled answers ended completed ⊢
  by_cases some_left : leftover = []
  · subst some_left
    by_cases running : past = true
    · obtain ⟨atEnd, -, nothing⟩ := ended running
      exact ⟨atEnd, by rw [exact_, nothing]; rfl⟩
    · simp only [pollRead, ne_eq, not_true_eq_false, if_false, running, Bool.false_eq_true]
        at completed
      rcases coming with _ | ⟨(_ | (error | chunk)) | _, later⟩
      · simp [pollNext] at completed
      · obtain ⟨atEnd, nothing⟩ := answers.behind rfl
        exact ⟨atEnd, by rw [exact_, received, nothing]; rfl⟩
      · simp [pollNext] at completed
      · simp only [pollNext, Poll.ready.injEq, Except.ok.injEq, List.take_eq_nil_iff] at completed
        obtain rfl : chunk = [] := completed.resolve_left (Nat.ne_of_gt room)
        obtain ⟨closed, nothing⟩ := answers.behind rfl
        exact ⟨closed, by rw [exact_, received, nothing]; rfl⟩
      · simp [pollNext] at completed
  · simp only [pollRead, ne_eq, some_left, not_false_eq_true, if_true, Poll.ready.injEq,
      Except.ok.injEq, List.take_eq_nil_iff] at completed
    exact (completed.resolve_left (Nat.ne_of_gt room)).elim

/-- A read gives an error only when the link has broken. -/
theorem read_error (kept : Kept link) {size : Nat} {error : Error}
    (completed : (pollRead remembers size link.reader).1 = .ready (.error error)) :
    link.broken = true := by
  obtain ⟨sent, finished, wire, closed, broken, ⟨leftover, past, coming⟩, returned⟩ := link
  have errors := kept.answers.errors
  simp only at errors completed ⊢
  by_cases some_left : leftover = []
  · by_cases running : past = true
    · simp [pollRead, some_left, running] at completed
    · simp only [pollRead, ne_eq, some_left, not_true_eq_false, if_false, running,
        Bool.false_eq_true] at completed
      rcases coming with _ | ⟨(_ | (found | chunk)) | _, later⟩
      · simp [pollNext] at completed
      · simp [pollNext] at completed
      · exact errors found (.head _)
      · simp [pollNext] at completed
      · simp [pollNext] at completed
  · simp [pollRead, some_left] at completed

end Steps

section Progress

variable (remembers : Bool) (ending : Ending)

/-- The steps that carry chunks on. -/
inductive LinkEvent.Internal : LinkEvent Error → Prop where
  | arrive : Internal .arrive
  | read : Internal (.read 1)

/-- A link that is not broken, with what had been sent before. -/
structure Whole (link other : ChunkLink Error) : Prop where
  kept : Kept other
  unbroken : other.broken = false
  sent : other.sent = link.sent
  finished : other.finished = link.finished

/-- Everything was read and nothing is on its way, and the end has come if the sender has
finished. -/
structure Delivered (link other : ChunkLink Error) : Prop where
  returned : other.returned = link.sent.flatten
  arrived : other.wire = [] ∧ received other.reader.answers = []
  ended : link.finished = true → other.closed = true

def linkWeight (link : ChunkLink Error) : Nat :=
  2 * (link.wire.flatten.length + link.wire.length) + 2 * (if link.closed then 0 else 1) +
    readsLeft link.reader

variable {remembers ending} {link other : ChunkLink Error}

/-- A link that is not broken stays whole through its own steps. -/
theorem Whole.step (whole : Whole link other) {event : LinkEvent Error}
    (internal : event.Internal) : Whole link (other.step remembers ending event) := by
  obtain ⟨kept, unbroken, sent, finished⟩ := whole
  have proper : event.Proper := by cases internal <;> trivial
  refine ⟨step_kept kept event proper, ?_, ?_, ?_⟩ <;> cases internal <;>
    simp only [ChunkLink.step, ChunkLink.arrive, ChunkLink.read, ChunkLink.answer] <;>
    repeat' split
  all_goals assumption

/-- A chunk that arrives makes the link lighter, and so does the end. -/
theorem arrive_lighter (open_ : other.closed = false)
    (something : other.wire ≠ [] ∨ other.finished = true) :
    linkWeight (other.step remembers ending .arrive) < linkWeight other := by
  simp only [ChunkLink.step, ChunkLink.arrive, open_, Bool.false_eq_true, if_false]
  cases onWire : other.wire with
  | cons chunk wire =>
    simp only [linkWeight, ChunkLink.answer, readsLeft, received_snoc, received, onWire, open_,
      List.append_nil, List.length_append, List.flatten_cons, List.length_cons, List.length_nil]
    omega
  | nil =>
    rw [onWire] at something
    rw [if_pos (something.resolve_left (not_not.mpr rfl))]
    have nothing : received [(ending.answer : Answer Error Bytes)] = [] := ending_blank ending
    simp only [linkWeight, ChunkLink.answer, readsLeft, received_snoc, nothing, onWire, open_,
      List.append_nil, List.length_append, List.length_cons, List.length_nil,
      Bool.false_eq_true, if_true, if_false]
    omega

/-- Some step carries the chunks on until everything was read. -/
theorem Whole.progress (whole : Whole link other) :
    Delivered link other ∨ ∃ event : LinkEvent Error, event.Internal ∧
      Whole link (other.step remembers ending event) ∧
      linkWeight (other.step remembers ending event) < linkWeight other := by
  obtain ⟨kept, unbroken, sent, finished⟩ := whole
  have onward {event : LinkEvent Error} (internal : event.Internal) :
      Whole link (other.step remembers ending event) :=
    Whole.step ⟨kept, unbroken, sent, finished⟩ internal
  by_cases coming : other.closed = false ∧ (other.wire ≠ [] ∨ other.finished = true)
  · exact .inr ⟨.arrive, .arrive, onward .arrive, arrive_lighter coming.1 coming.2⟩
  have nothing : other.wire = [] := by
    by_contra some
    by_cases open_ : other.closed = false
    · exact coming ⟨open_, .inl some⟩
    · exact some (kept.complete (by simpa using open_) unbroken).1
  have last : link.finished = true → other.closed = true := by
    intro finishing
    by_contra open_
    exact coming ⟨by simpa using open_, .inr (finished.trans finishing)⟩
  have done (none_left : other.reader.leftover = [])
      (none_coming : received other.reader.answers = []) : Delivered link other := by
    refine ⟨?_, ⟨nothing, none_coming⟩, last⟩
    rw [← sent, kept.exact, none_left, none_coming, nothing]
    exact (List.append_nil _).symm
  cases running : other.reader.ended with
  | true =>
    obtain ⟨-, none_left, none_coming⟩ := kept.ended running
    exact .inl (done none_left none_coming)
  | false =>
    rcases Nat.eq_zero_or_pos (readsLeft other.reader) with absent | something
    · left
      apply done
      · exact List.eq_nil_of_length_eq_zero (by rw [readsLeft] at absent; omega)
      · exact List.eq_nil_of_length_eq_zero (by rw [readsLeft] at absent; omega)
    · have fewer := @poll_reads_left _ remembers _ running something _ Nat.one_pos
      refine .inr ⟨.read 1, .read, onward .read, ?_⟩
      change 2 * (other.wire.flatten.length + other.wire.length) +
        2 * (if other.closed then 0 else 1) + readsLeft (pollRead remembers 1 other.reader).2 < _
      exact Nat.add_lt_add_left fewer _

/-- What a link keeps of its promises. -/
structure Conveys (remembers : Bool) (ending : Ending) (link : ChunkLink Error) : Prop where
  front : link.returned <+: link.sent.flatten
  ends : ∀ size, 0 < size → (pollRead remembers size link.reader).1 = .ready (.ok []) →
    link.closed = true ∧
      (link.broken = false → link.finished = true ∧ link.returned = link.sent.flatten)
  errors : ∀ size error, (pollRead remembers size link.reader).1 = .ready (.error error) →
    link.broken = true
  completes : link.broken = false →
    Leads (ChunkLink.step remembers ending) LinkEvent.Internal (Delivered link) link

/-- The invariant of the link gives its promises. -/
theorem Kept.conveys (kept : Kept link) : Conveys remembers ending link where
  front := by
    rw [kept.exact]
    exact List.prefix_append ..
  ends size room completed := by
    obtain ⟨closed, exact_⟩ := read_at_end kept room completed
    refine ⟨closed, fun unbroken => ?_⟩
    obtain ⟨nothing, finished⟩ := kept.complete closed unbroken
    refine ⟨finished, ?_⟩
    rw [exact_, nothing]
    exact (List.append_nil _).symm
  errors _ _ completed := read_error kept completed
  completes unbroken := by
    obtain ⟨more, internal, -, delivered⟩ :=
      leads_by_weight linkWeight (fun other (holds : Whole link other) => holds.progress)
        ⟨kept, unbroken, rfl, rfl⟩
    exact ⟨more, internal, delivered⟩

end Progress

end OmniProxy.ChunkLinks
