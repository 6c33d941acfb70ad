import OmniProxy.GeoFiles
import OmniProxy.PbOperations

/-!
# The parsers of a geo file come to an end

The parsers run the reader over the file, and further readers over the octets of its entries
and over those of their parts. Each round of a loop moves its reader forward, so every loop
ends by itself. What an inner reader does, an outer one could have done in place; so when no
sequence of operations on the file reads a long length, no parser at any depth does, and the
program is not stopped.
-/

namespace OmniProxy.GeoParsing

open ByteStrings GeoFiles GuardedRuns PbOperations PbReaders ProtobufWire RouteRules

variable {α β State : Type}

section Ending

/-- Without octets there are no rounds. -/
theorem while_more_stop (round : State → Pb State) (fuel : Nat) (state : State)
    {reader : PbReader} (finished : reader.hasMore = false) :
    whileMore round fuel state reader = .ok state reader := by
  cases fuel with
  | zero => rfl
  | succ fuel =>
    rw [whileMore, get_then, finished]
    rfl

/-- With octets there is a round, and the loop goes on where the round ends. -/
theorem while_more_next (round : State → Pb State) (fuel : Nat) (state : State)
    {reader : PbReader} (left : reader.hasMore = true) :
    whileMore round (fuel + 1) state reader = (round state >>= whileMore round fuel) reader := by
  rw [whileMore, get_then, left]
  rfl

/-- More fuel changes nothing, and a loop that returns leaves nothing. -/
def EndsWith (round : State → Pb State) (fuel : Nat) (state : State) (reader : PbReader) : Prop :=
  (∀ more, fuel ≤ more →
      whileMore round more state reader = whileMore round fuel state reader) ∧
    ∀ final after, whileMore round fuel state reader = .ok final after → after.hasMore = false

/-- With nothing left the loop stops where it is. -/
theorem ends_with_stop (round : State → Pb State) (fuel : Nat) (state : State)
    {reader : PbReader} (finished : reader.hasMore = false) : EndsWith round fuel state reader := by
  refine ⟨fun more _ => ?_, fun final after returned => ?_⟩
  · rw [while_more_stop round more state finished, while_more_stop round fuel state finished]
  · rw [while_more_stop round fuel state finished] at returned
    cases returned
    exact finished

/-- A loop whose rounds move forward has enough fuel with one for each octet that is left. -/
theorem ends_with_enough {round : State → Pb State} (moves : ∀ state, Moves 1 (round state))
    (fuel : Nat) (state : State) (reader : PbReader) (inside : Inside reader)
    (enough : reader.buf.length - reader.pos ≤ fuel) : EndsWith round fuel state reader := by
  induction fuel generalizing state reader with
  | zero =>
    apply ends_with_stop
    simp only [PbReader.hasMore, decide_eq_false_iff_not]
    omega
  | succ fuel inductionHypothesis =>
    cases left : reader.hasMore with
    | false => exact ends_with_stop round (fuel + 1) state left
    | true =>
      have next (fuel : Nat) := while_more_next round fuel state left
      cases ran : round state reader with
      | error fault reached =>
        refine ⟨fun more order => ?_, fun final after returned => ?_⟩
        · obtain ⟨more, rfl⟩ : ∃ less, more = less + 1 := ⟨more - 1, by omega⟩
          rw [next, next, bind_failed ran, bind_failed ran]
        · rw [next, bind_failed ran] at returned
          cases returned
      | ok middle reached =>
        have ahead := (moves state).ahead reader middle reached ran
        have kept := (moves state).buf reader
        have stays := (moves state).inside reader inside
        rw [ran] at kept stays
        have same : reached.buf = reader.buf := kept
        obtain ⟨later, ends⟩ := inductionHypothesis middle reached stays (by rw [same]; omega)
        refine ⟨fun more order => ?_, fun final after returned => ?_⟩
        · obtain ⟨more, rfl⟩ : ∃ less, more = less + 1 := ⟨more - 1, by omega⟩
          rw [next, next, bind_returned ran, bind_returned ran]
          exact later more (by omega)
        · rw [next, bind_returned ran] at returned
          exact ends final after returned

/-- The loop over a buffer ends by itself. -/
def Ends (round : State → Pb State) (start : State) (buf : Bytes) : Prop :=
  EndsWith round buf.length start (PbReader.new buf)

/-- A loop whose rounds each take an octet ends within the length of its buffer. -/
theorem loop_ends {round : State → Pb State} (moves : ∀ state, Moves 1 (round state))
    (start : State) (buf : Bytes) : Ends round start buf := by
  have inside : Inside (PbReader.new buf) := Nat.zero_le buf.length
  exact ends_with_enough moves buf.length start (PbReader.new buf) inside (Nat.sub_le _ _)

/-- A round over a network takes at least one octet. -/
theorem moves_cidr_round (cidr : Bytes × Nat) : Moves 1 (cidrRound cidr) := by
  refine moves_read_key.followed fun key => ?_
  obtain ⟨tag, wire⟩ := key
  refine moves_if ?_ (moves_if ?_ ?_)
  · exact moves_read_bytes.returning _
  · exact moves_read_varint.returning _
  · exact (moves_skip_field wire).returning _

/-- A round over a domain takes at least one octet. -/
theorem moves_domain_round (domain : Nat × String) : Moves 1 (domainRound domain) := by
  refine moves_read_key.followed fun key => ?_
  obtain ⟨tag, wire⟩ := key
  refine moves_if ?_ (moves_if ?_ ?_)
  · exact moves_read_varint.returning _
  · exact moves_read_bytes.returning _
  · exact (moves_skip_field wire).returning _

variable {library : RegexLibrary}

/-- A nested result takes no octets of the outer buffer. -/
theorem moves_nested (result : Except PbFault α) : Moves 0 (nested result) := by
  cases result with
  | ok value => exact moves_pure value
  | error fault => exact moves_throw 0 fault

/-- What keeps the value of a parser of a part does not move back. -/
theorem moves_sub (parse : Bytes → Except PbFault α) (keep : α → β) :
    Moves 0 (readBytes >>= fun part => nested (parse part) >>= fun value => pure (keep value)) :=
  (moves_read_bytes.followed fun part => (moves_nested (parse part)).returning keep).weaken
    (Nat.zero_le 1)

/-- A round over an entry takes at least one octet. -/
theorem moves_entry_round (entry : GeoEntry library) : Moves 1 (entryRound entry) := by
  refine moves_read_key.followed fun key => ?_
  obtain ⟨tag, wire⟩ := key
  refine moves_if ?_ (moves_if ?_ (moves_if ?_ ?_))
  · exact moves_read_bytes.returning _
  · exact moves_sub _ _
  · exact moves_sub _ _
  · exact (moves_skip_field wire).returning _

/-- A round over the lists takes at least one octet. -/
theorem moves_dat_round (lists : GeoLists library) : Moves 1 (datRound lists) := by
  refine moves_read_key.followed fun key => ?_
  obtain ⟨tag, wire⟩ := key
  refine moves_if ?_ ?_
  · exact moves_sub _ _
  · exact (moves_skip_field wire).returning _

end Ending

section Frames

/-- The reader over a buffer with octets put around it. -/
def framed (front back : Bytes) (reader : PbReader) : PbReader :=
  ⟨front ++ reader.buf ++ back, front.length + reader.pos⟩

/-- An action that returns does the same with octets put around the buffer. -/
def Framed (action : Pb α) : Prop :=
  ∀ front back reader value after, Inside reader →
    (front ++ reader.buf ++ back).length < 2 ^ 64 → action reader = .ok value after →
      action (framed front back reader) = .ok value (framed front back after)

/-- Returning does not look at the buffer. -/
theorem framed_pure (value : α) : Framed (pure value : Pb α) := by
  rintro front back reader value after inside held ⟨⟩
  rfl

/-- Failing does not look at the buffer. -/
theorem framed_throw (fault : PbFault) : Framed (throw fault : Pb α) := by
  rintro front back reader value after inside held ⟨⟩

/-- Two actions in sequence do the same inside a longer buffer. -/
theorem Framed.bind {first : Pb α} {next : α → Pb β} {least : Nat} (one : Framed first)
    (moves : Moves least first) (two : ∀ value, Framed (next value)) :
    Framed (first >>= next) := by
  intro front back reader value after inside held returned
  cases ran : first reader with
  | error fault reached =>
    rw [bind_failed ran] at returned
    cases returned
  | ok middle reached =>
    have kept := moves.buf reader
    have stays := moves.inside reader inside
    rw [ran] at kept stays
    have same : reached.buf = reader.buf := kept
    rw [bind_returned ran] at returned
    rw [bind_returned (one front back reader middle reached inside held ran)]
    exact two middle front back reached value after stays (by rwa [same]) returned

/-- A choice does the same inside a longer buffer when both branches do. -/
theorem framed_if {condition : Prop} [Decidable condition] {yes no : Pb α}
    (first : Framed yes) (second : Framed no) : Framed (if condition then yes else no) := by
  split
  · exact first
  · exact second

/-- The next octet is the same inside a longer buffer. -/
theorem framed_next_octet : Framed nextOctet := by
  intro front back reader value after inside held returned
  have there : reader.buf[reader.pos]? = some value ∧ ⟨reader.buf, reader.pos + 1⟩ = after := by
    simp only [nextOctet] at returned
    split at returned
    · cases returned
    · next octet found =>
      cases returned
      exact ⟨found, rfl⟩
  obtain ⟨found, rfl⟩ := there
  have bound := (List.getElem?_eq_some_iff.mp found).1
  have around : (front ++ reader.buf ++ back)[front.length + reader.pos]? = some value := by
    rw [List.append_assoc, List.getElem?_append_right (Nat.le_add_right _ _),
      Nat.add_sub_cancel_left, List.getElem?_append_left bound, found]
  simp only [nextOctet, framed, around, Nat.add_assoc]

/-- Octets inside a buffer are found with octets put around it. -/
theorem slice_framed (front buf back : Bytes) (first count : Nat)
    (fits : first + count ≤ buf.length) :
    ((front ++ buf ++ back).drop (front.length + first)).take count =
      (buf.drop first).take count := by
  rw [List.append_assoc, ← List.drop_drop, List.drop_left,
    List.drop_append_of_le_length (by omega),
    List.take_append_of_le_length (by rw [List.length_drop]; omega)]

/-- Moving on is the same inside a longer buffer. -/
theorem framed_advance (count : Nat) : Framed (advance count) := by
  intro front back reader value after inside held returned
  simp only [advance] at returned
  split at returned
  · cases returned
  · next fits =>
    cases returned
    have room : ¬(front ++ reader.buf ++ back).length < front.length + (reader.pos + count) := by
      simp only [List.length_append]
      omega
    simp only [advance, framed, if_neg room, Nat.add_assoc,
      slice_framed front reader.buf back reader.pos count (Nat.not_lt.mp fits)]

/-- The groups of a number are the same inside a longer buffer. -/
theorem framed_groups (rounds shift result : Nat) : Framed (readGroups rounds shift result) := by
  induction rounds generalizing shift result with
  | zero => exact framed_throw _
  | succ rounds inductionHypothesis =>
    rw [readGroups]
    refine framed_next_octet.bind moves_next_octet fun octet => ?_
    refine framed_if (framed_pure _) (framed_if ?_ (inductionHypothesis _ _))
    exact (framed_throw _).bind (moves_throw 0 _) fun _ => inductionHypothesis _ _

/-- A number is the same inside a longer buffer. -/
theorem framed_read_varint : Framed readVarint := framed_groups 10 0 0

/-- The octets that are read are in the buffer, so that their length may be added. -/
theorem framed_read_bytes : Framed readBytes := by
  refine framed_read_varint.bind moves_read_varint fun len => ?_
  intro front back reader value after inside held returned
  rw [get_then] at returned
  split at returned
  · cases returned
  · have moved : advance len reader = .ok value after := returned
    have fits : reader.pos + len ≤ reader.buf.length := by
      simp only [advance] at moved
      split at moved
      · cases moved
      · next fits => exact Nat.not_lt.mp fits
    have room : ¬2 ^ 64 ≤ (framed front back reader).pos + len := by
      simp only [framed, List.length_append] at held ⊢
      omega
    rw [get_then, if_neg room]
    exact framed_advance len front back reader value after inside held moved

/-- Skipping a field is the same inside a longer buffer. -/
theorem framed_skip_field (wire : Nat) : Framed (skipField wire) := by
  unfold skipField
  split
  · exact framed_read_varint.bind moves_read_varint fun _ => framed_pure _
  · exact framed_read_bytes.bind moves_read_bytes fun _ => framed_pure _
  · exact (framed_advance 4).bind (moves_advance 4) fun _ => framed_pure _
  · exact (framed_advance 8).bind (moves_advance 8) fun _ => framed_pure _
  · exact framed_throw _

/-- Every operation does the same inside a longer buffer. -/
theorem framed_operation (operation : Operation) : Framed operation.act := by
  cases operation with
  | readVarint => exact framed_read_varint.bind moves_read_varint fun _ => framed_pure _
  | readKey =>
    have key : Framed readKey := framed_read_varint.bind moves_read_varint fun _ => framed_pure _
    exact key.bind moves_read_key fun _ => framed_pure _
  | readBytes => exact framed_read_bytes.bind moves_read_bytes fun _ => framed_pure _
  | skipField wire => exact framed_skip_field wire

end Frames

section Careful

/-- No run of operations on the file stands at a long length. -/
def NoLong (data : Bytes) : Prop :=
  ∀ operations, ¬LongLength (run step (PbReader.new data) operations)

/-- A run of operations leads to a position of the file. -/
def Reached (data : Bytes) (pos : Nat) : Prop :=
  ∃ operations, run step (PbReader.new data) operations = ⟨data, pos⟩

/-- The reader's buffer is in the file, and a run of operations leads to where it stands. -/
def At (data : Bytes) (reader : PbReader) : Prop :=
  ∃ front back, front ++ reader.buf ++ back = data ∧ Inside reader ∧
    Reached data (front.length + reader.pos)

/-- From where runs lead, an action is not stopped; when it returns it stands at such a place
again, and its value meets a condition. -/
structure Careful (data : Bytes) (Post : α → Prop) (action : Pb α) : Prop where
  never : ∀ reader after, At data reader → action reader ≠ .error .overflow after
  kept : ∀ reader value after, At data reader → action reader = .ok value after →
    At data after ∧ Post value

variable {data : Bytes} {Post : α → Prop} {After : β → Prop}

/-- No operation in a run reads a long length exactly when no run leads to one. -/
theorem no_long_iff (data : Bytes) :
    NoLong data ↔ ∀ operations, EachStep step (PbReader.new data) ShortLength operations := by
  constructor
  · intro brief operations before operation after split reads
    exact brief before
  · intro each operations
    exact each (operations ++ [.readBytes]) operations .readBytes [] rfl (.inl rfl)

/-- At a place a run leads to there is no long length, whatever buffer it is read from. -/
theorem short_at (brief : NoLong data) {reader : PbReader} (place : At data reader) :
    ¬LongLength reader := by
  rintro ⟨octets, len, groups, short, there, large⟩
  obtain ⟨front, back, rfl, inside, operations, leads⟩ := place
  apply brief operations
  rw [leads]
  refine ⟨octets, len, groups, short, ?_, by simp only; omega⟩
  have around : (front ++ reader.buf ++ back).drop (front.length + reader.pos) =
      reader.buf.drop reader.pos ++ back := by
    rw [List.append_assoc, ← List.drop_drop, List.drop_left, List.drop_append_of_le_length inside]
  rw [around]
  exact there.trans (List.prefix_append _ _)

/-- A place is inside a buffer no longer than the file. -/
theorem at_inside (held : data.length < 2 ^ 64) {reader : PbReader} (place : At data reader) :
    Inside reader ∧ reader.buf.length < 2 ^ 64 := by
  obtain ⟨front, back, rfl, inside, -⟩ := place
  refine ⟨inside, ?_⟩
  simp only [List.length_append] at held
  omega

/-- An operation that returns leads to a place. -/
theorem at_after (held : data.length < 2 ^ 64) (operation : Operation) {reader after : PbReader}
    (place : At data reader) (returned : operation.act reader = .ok () after) :
    At data after := by
  obtain ⟨front, back, rfl, inside, operations, leads⟩ := place
  have moves := moves_operation operation
  have same := moves.buf reader
  have stays := moves.inside reader inside
  rw [returned] at same stays
  change after.buf = reader.buf at same
  have around := framed_operation operation front back reader () after inside held returned
  refine ⟨front, back, by rw [same], stays, operations ++ [operation], ?_⟩
  rw [run_snoc, leads]
  change standing (operation.act (framed front back reader)) = _
  rw [around, ← same]
  rfl

/-- The start of the file is a place. -/
theorem at_start (data : Bytes) : At data (PbReader.new data) :=
  ⟨[], [], by simp [PbReader.new], Nat.zero_le _, [], by simp [run, PbReader.new]⟩

/-- Returning keeps the place, with a value that meets the condition. -/
theorem careful_pure (value : α) (meets : Post value) :
    Careful data Post (pure value : Pb α) := by
  refine ⟨?_, ?_⟩
  · rintro reader after place ⟨⟩
  · rintro reader value after place ⟨⟩
    exact ⟨place, meets⟩

/-- Two careful actions in sequence are careful. -/
theorem Careful.bind {first : Pb α} {next : α → Pb β} (one : Careful data Post first)
    (two : ∀ value, Post value → Careful data After (next value)) :
    Careful data After (first >>= next) := by
  refine ⟨fun reader after place stopped => ?_, fun reader value after place returned => ?_⟩
  · cases ran : first reader with
    | error fault reached =>
      rw [bind_failed ran] at stopped
      cases stopped
      exact one.never reader after place ran
    | ok middle reached =>
      obtain ⟨there, meets⟩ := one.kept reader middle reached place ran
      rw [bind_returned ran] at stopped
      exact (two middle meets).never reached after there stopped
  · cases ran : first reader with
    | error fault reached =>
      rw [bind_failed ran] at returned
      cases returned
    | ok middle reached =>
      obtain ⟨there, meets⟩ := one.kept reader middle reached place ran
      rw [bind_returned ran] at returned
      exact (two middle meets).kept reached value after there returned

/-- What keeps the value of a careful action is careful. -/
theorem Careful.returning {first : Pb α} (one : Careful data Post first) (keep : α → β) :
    Careful data (fun _ => True) (first >>= fun value => pure (keep value)) :=
  one.bind fun value _ => careful_pure (keep value) trivial

/-- A choice between careful actions is careful. -/
theorem careful_if {condition : Prop} [Decidable condition] {yes no : Pb α}
    (first : Careful data Post yes) (second : Careful data Post no) :
    Careful data Post (if condition then yes else no) := by
  split
  · exact first
  · exact second

/-- A read whose outcome one operation has too. -/
theorem careful_read (held : data.length < 2 ^ 64) {action : Pb α} (operation : Operation)
    (same : operation.act = action >>= fun _ => pure ())
    (never : ∀ reader after, At data reader → action reader ≠ .error .overflow after) :
    Careful data (fun _ => True) action := by
  refine ⟨never, fun reader value after place returned => ⟨?_, trivial⟩⟩
  apply at_after held operation place
  rw [same, bind_returned returned]
  rfl

/-- Reading a number is not stopped. -/
theorem careful_varint (held : data.length < 2 ^ 64) :
    Careful data (fun _ => True) readVarint :=
  careful_read held .readVarint rfl fun reader after _ => returns_varint reader after

/-- Reading a key is not stopped. -/
theorem careful_key (held : data.length < 2 ^ 64) : Careful data (fun _ => True) readKey :=
  careful_read held .readKey rfl fun reader after _ =>
    returns_bind returns_varint (fun _ => returns_pure _) reader after

/-- Skipping a field is not stopped in a file without long lengths. -/
theorem careful_skip (brief : NoLong data) (held : data.length < 2 ^ 64) (wire : Nat) :
    Careful data (fun _ => True) (skipField wire) := by
  refine careful_read held (.skipField wire) bind_pure_unit.symm ?_
  intro reader after place stopped
  obtain ⟨inside, fits⟩ := at_inside held place
  have long := (act_stops_iff reader (.skipField wire) inside fits).mp ⟨after, stopped⟩
  exact short_at brief place long.2

/-- Octets that are read sit in the file where a run leads. -/
theorem careful_bytes (brief : NoLong data) (held : data.length < 2 ^ 64) :
    Careful data (fun octets => At data (PbReader.new octets)) readBytes := by
  have never (reader after : PbReader) (place : At data reader)
      (stopped : readBytes reader = .error .overflow after) : False := by
    obtain ⟨inside, fits⟩ := at_inside held place
    exact short_at brief place ((read_bytes_stops_iff reader inside fits).mp ⟨after, stopped⟩)
  have read := careful_read held .readBytes rfl never
  refine ⟨never, fun reader octets after place returned => ⟨?_, ?_⟩⟩
  · exact (read.kept reader octets after place returned).1
  · cases ran : readVarint reader with
    | error fault reached =>
      rw [readBytes, bind_failed ran] at returned
      cases returned
    | ok len reached =>
      obtain ⟨front, back, around, inside, leads⟩ :=
        ((careful_varint held).kept reader len reached place ran).1
      rw [readBytes, bind_returned ran, get_then] at returned
      split at returned
      · cases returned
      · change advance len reached = .ok octets after at returned
        simp only [advance] at returned
        split at returned
        · cases returned
        · cases returned
          refine ⟨front ++ reached.buf.take reached.pos,
            (reached.buf.drop reached.pos).drop len ++ back, ?_, Nat.zero_le _, ?_⟩
          · simp only [PbReader.new, List.append_assoc] at around ⊢
            rw [← List.append_assoc ((reached.buf.drop reached.pos).take len),
              List.take_append_drop, ← List.append_assoc (reached.buf.take reached.pos),
              List.take_append_drop, around]
          · have front_length : (front ++ reached.buf.take reached.pos).length =
                front.length + reached.pos := by
              rw [List.length_append, List.length_take, Nat.min_eq_left inside]
            rw [front_length]
            exact leads

/-- A loop of careful rounds is careful. -/
theorem careful_loop {round : State → Pb State}
    (rounds : ∀ state, Careful data (fun _ => True) (round state)) (fuel : Nat) (state : State) :
    Careful data (fun _ => True) (whileMore round fuel state) := by
  induction fuel generalizing state with
  | zero => exact careful_pure state trivial
  | succ fuel inductionHypothesis =>
    have both := (rounds state).bind fun value _ => inductionHypothesis value
    refine ⟨fun reader after place stopped => ?_, fun reader value after place returned => ?_⟩
    · cases left : reader.hasMore with
      | false =>
        rw [while_more_stop round (fuel + 1) state left] at stopped
        cases stopped
      | true =>
        rw [while_more_next round fuel state left] at stopped
        exact both.never reader after place stopped
    · cases left : reader.hasMore with
      | false =>
        rw [while_more_stop round (fuel + 1) state left] at returned
        cases returned
        exact ⟨place, trivial⟩
      | true =>
        rw [while_more_next round fuel state left] at returned
        exact both.kept reader value after place returned

end Careful

section Parsers

variable {data buf : Bytes} {library : RegexLibrary}

/-- A loop over octets of the file whose errors are dropped does not stop the program. -/
theorem ok_or_none_never {round : State → Pb State}
    (rounds : ∀ state, Careful data (fun _ => True) (round state)) (start : State)
    (place : At data (PbReader.new buf)) :
    okOrNone (readFields round start buf) ≠ .error .overflow := by
  have loop := careful_loop rounds buf.length start
  rw [readFields]
  cases ran : whileMore round buf.length start (PbReader.new buf) with
  | ok state after => simp [okOrNone]
  | error fault after =>
    cases fault with
    | refused error => simp [okOrNone]
    | overflow => exact absurd ran (loop.never _ after place)

/-- Two results in sequence do not overflow when neither does. -/
theorem bind_never {first : Except PbFault α} {next : α → Except PbFault β}
    (one : first ≠ .error .overflow) (two : ∀ value, next value ≠ .error .overflow) :
    (first >>= next) ≠ .error .overflow := by
  cases first with
  | ok value => exact two value
  | error fault =>
    rintro ⟨⟩
    exact one rfl

/-- A nested result that does not overflow keeps the place of the outer buffer. -/
theorem careful_nested {result : Except PbFault α} (never : result ≠ .error .overflow) :
    Careful data (fun _ => True) (nested result) := by
  cases result with
  | ok value => exact careful_pure value trivial
  | error fault =>
    refine ⟨?_, ?_⟩
    · rintro reader after place ⟨⟩
      exact never rfl
    · rintro reader value after place ⟨⟩

variable (brief : NoLong data) (held : data.length < 2 ^ 64)
include brief held

/-- A round over a network is not stopped. -/
theorem careful_cidr_round (cidr : Bytes × Nat) :
    Careful data (fun _ => True) (cidrRound cidr) := by
  refine (careful_key held).bind fun key _ => ?_
  obtain ⟨tag, wire⟩ := key
  refine careful_if ?_ (careful_if ?_ ?_)
  · exact (careful_bytes brief held).returning _
  · exact (careful_varint held).returning _
  · exact (careful_skip brief held wire).returning _

/-- A network parsed from inside the file does not overflow. -/
theorem parse_cidr_never (place : At data (PbReader.new buf)) :
    parsePbCidr buf ≠ .error .overflow := by
  refine bind_never (ok_or_none_never (careful_cidr_round brief held) ([], 0) place) ?_
  rintro value ⟨⟩

/-- A round over a domain is not stopped. -/
theorem careful_domain_round (domain : Nat × String) :
    Careful data (fun _ => True) (domainRound domain) := by
  refine (careful_key held).bind fun key _ => ?_
  obtain ⟨tag, wire⟩ := key
  refine careful_if ?_ (careful_if ?_ ?_)
  · exact (careful_varint held).returning _
  · exact (careful_bytes brief held).returning _
  · exact (careful_skip brief held wire).returning _

/-- A domain parsed from inside the file does not overflow. -/
theorem parse_domain_never (place : At data (PbReader.new buf)) :
    parseGeositeDomain library buf ≠ .error .overflow := by
  refine bind_never (ok_or_none_never (careful_domain_round brief held) (0, "") place) ?_
  rintro value ⟨⟩

/-- A round over an entry is not stopped. -/
theorem careful_entry_round (entry : GeoEntry library) :
    Careful data (fun _ => True) (entryRound entry) := by
  refine (careful_key held).bind fun key _ => ?_
  obtain ⟨tag, wire⟩ := key
  refine careful_if ?_ (careful_if ?_ (careful_if ?_ ?_))
  · exact (careful_bytes brief held).returning _
  · refine (careful_bytes brief held).bind fun sub place => ?_
    exact (careful_nested (parse_cidr_never brief held place)).returning _
  · refine (careful_bytes brief held).bind fun sub place => ?_
    exact (careful_nested (parse_domain_never brief held place)).returning _
  · exact (careful_skip brief held wire).returning _

/-- An entry parsed from inside the file does not overflow. -/
theorem parse_entry_never (place : At data (PbReader.new buf)) :
    parseGeoEntry library buf ≠ .error .overflow := by
  refine bind_never (ok_or_none_never (careful_entry_round brief held) ⟨"", [], []⟩ place) ?_
  rintro value ⟨⟩

/-- A round over the lists is not stopped. -/
theorem careful_dat_round (lists : GeoLists library) :
    Careful data (fun _ => True) (datRound lists) := by
  refine (careful_key held).bind fun key _ => ?_
  obtain ⟨tag, wire⟩ := key
  refine careful_if ?_ ?_
  · refine (careful_bytes brief held).bind fun sub place => ?_
    exact (careful_nested (parse_entry_never brief held place)).returning _
  · exact (careful_skip brief held wire).returning _

/-- A file in which no run leads to a long length is parsed, or refused. -/
theorem parse_dat_never : parseV2rayDat library data ≠ .error .overflow := by
  have rounds (lists : GeoLists library) : Careful data (fun _ => True) (datRound lists) :=
    careful_dat_round brief held lists
  have loop := careful_loop rounds data.length ⟨[], []⟩
  rw [parseV2rayDat]
  cases ran : readFields datRound (⟨[], []⟩ : GeoLists library) data with
  | ok lists after => simp
  | error fault after =>
    rintro ⟨⟩
    exact loop.never _ after (at_start data) ran

end Parsers

section Safety

/-- What is asked of the reader and of the parsers over a buffer. -/
structure ReaderSafe (library : RegexLibrary) (buf : Bytes) : Prop where
  operations : ∀ operations, EachStep step (PbReader.new buf) Sound operations
  file : parseV2rayDat library buf ≠ .error .overflow
  entry : parseGeoEntry library buf ≠ .error .overflow
  network : parsePbCidr buf ≠ .error .overflow
  pattern : parseGeositeDomain library buf ≠ .error .overflow
  fileEnds : Ends datRound (⟨[], []⟩ : GeoLists library) buf
  entryEnds : Ends entryRound (⟨"", [], []⟩ : GeoEntry library) buf
  networkEnds : Ends cidrRound ([], 0) buf
  patternEnds : Ends domainRound (0, "") buf

/-- The operations of a run are sound exactly when none of them reads a long length, and the
parsers of a buffer are safe exactly when no run over it comes to one. The buffer is one that
fits into memory. -/
theorem reader_safe_iff (library : RegexLibrary) (buf : Bytes) (held : buf.length < 2 ^ 63) :
    (∀ operations, EachStep step (PbReader.new buf) Sound operations ↔
        EachStep step (PbReader.new buf) ShortLength operations) ∧
      (ReaderSafe library buf ↔
        ∀ operations, EachStep step (PbReader.new buf) ShortLength operations) := by
  have same := run_sound_iff buf held
  refine ⟨same, fun safe operations => (same operations).mp (safe.operations operations), ?_⟩
  intro short
  have brief := (no_long_iff buf).mpr short
  have fits : buf.length < 2 ^ 64 := held.trans (by decide)
  have whole := at_start buf
  exact {
    operations := fun operations => (same operations).mpr (short operations)
    file := parse_dat_never brief fits
    entry := parse_entry_never brief fits whole
    network := parse_cidr_never brief fits whole
    pattern := parse_domain_never brief fits whole
    fileEnds := loop_ends moves_dat_round _ buf
    entryEnds := loop_ends moves_entry_round _ buf
    networkEnds := loop_ends moves_cidr_round _ buf
    patternEnds := loop_ends moves_domain_round _ buf }

/-- Without ten octets there is no long length. -/
theorem few_octets_short (buf : Bytes) (few : buf.length < 10) : NoLong buf := by
  rintro operations ⟨octets, len, groups, -, there, large⟩
  obtain ⟨kept, inside⟩ := run_within buf operations
  have within := there.length_le
  rw [Inside] at inside
  rw [List.length_drop] at within
  rw [kept] at within inside
  have small : len < 128 ^ 9 :=
    (groups_below groups).trans_le (Nat.pow_le_pow_right (by decide) (by omega))
  omega

/-- A file with an entry that has a field of its own. -/
theorem reader_safe_example : ReaderSafe literalRegex [0x0A, 0x02, 0x28, 0x05] :=
  (reader_safe_iff literalRegex [0x0A, 0x02, 0x28, 0x05] (by decide)).2.mpr
    ((no_long_iff _).mp (few_octets_short _ (by decide)))

/-- An entry whose length is the largest number of 64 bits. -/
def longEntry : Bytes := 0x0A :: List.replicate 9 0xFF ++ [0x01]

/-- The sum of the position and the length stops the reader, and the parser of the file. -/
theorem long_entry_stops :
    ¬EachStep step (PbReader.new longEntry) Sound [.readKey, .readBytes] ∧
      parseV2rayDat literalRegex longEntry = .error .overflow := by
  refine ⟨fun sound => ?_, rfl⟩
  have last := sound [.readKey] .readBytes [] rfl
  exact last.unbroken .addition ⟨longEntry, 11⟩ rfl

end Safety

end OmniProxy.GeoParsing
