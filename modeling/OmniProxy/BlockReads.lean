import OmniProxy.Connections
import OmniProxy.RetriedDecoders

/-!
# Reads in blocks until something is found

A loop reads blocks of octets and looks, before each of them, for something in all that it
has read. It stops when it finds it, and gives up when it holds more octets than a limit or
when nothing more arrives.

What it looks for is a header: nothing is found in a proper part of it, and it is found
whatever follows it. So it is found after the read that completes it, unless the loop gives
up inside it, and the octets behind it that this read took are not left on the connection.
None were taken exactly when a read ends at the end of the header. A header can be any octets
that end at the first mark in them, such as an empty line.

Nothing here refers to a particular program.
-/

namespace OmniProxy.BlockReads

open ByteStrings Connections IncrementalDecoding RetriedDecoders

variable {Octet Value : Type}

section Searching

/-- How a loop of reads ends: with a value, with too many octets, or with the end of what
arrives. The reads that it has not made are left. -/
inductive Search (Octet Value : Type) where
  | found (value : Value) (unread : List (List Octet))
  | full (unread : List (List Octet))
  | ended

variable (look : List Octet → Option Value) (limit : Nat)

/-- Look at what is held, give up behind the limit, and read on. -/
def readUntil (held : List Octet) (reads : List (List Octet)) : Search Octet Value :=
  match look held with
  | some value => .found value reads
  | none =>
      if limit < held.length then .full reads
      else
        match reads with
        | [] => .ended
        | read :: later => readUntil (held ++ read) later

/-- Nothing is found in a proper part of a header, and it is found with anything behind it. -/
structure Appears (header : List Octet) (value : List Octet → Value) : Prop where
  early : ∀ front missing, front ++ missing = header → missing ≠ [] → look front = none
  whole : ∀ more, look (header ++ more) = some (value more)

/-- A read ends inside the header and behind the limit. -/
def StopsInside (header held : List Octet) (reads : List (List Octet)) : Prop :=
  ∃ first later, reads = first ++ later ∧ limit < (held ++ first.flatten).length ∧
    (held ++ first.flatten).length < header.length

variable {look limit}

/-- While what is held is within the limit, one more read is taken in. -/
theorem stops_inside_cons (header held read : List Octet) (reads : List (List Octet))
    (inside : held.length ≤ limit) :
    StopsInside limit header held (read :: reads) ↔
      StopsInside limit header (held ++ read) reads := by
  constructor
  · rintro ⟨first, later, split, beyond, short⟩
    cases first with
    | nil =>
      rw [List.flatten_nil, List.append_nil] at beyond
      omega
    | cons other first =>
      rw [List.cons_append, List.cons.injEq] at split
      obtain ⟨rfl, others⟩ := split
      rw [List.flatten_cons, ← List.append_assoc] at beyond short
      exact ⟨first, later, others, beyond, short⟩
  · rintro ⟨first, later, rfl, beyond, short⟩
    rw [List.append_assoc, ← List.flatten_cons] at beyond short
    exact ⟨read :: first, later, rfl, beyond, short⟩

/-- With all of the header held, no later read ends inside it. -/
theorem not_stops_inside {header held : List Octet} (whole : header.length ≤ held.length)
    (reads : List (List Octet)) : ¬StopsInside limit header held reads := by
  rintro ⟨first, later, -, -, short⟩
  rw [List.length_append] at short
  omega

/-- A read that holds the header and more octets ends at its end if there are none more. -/
theorem read_ends_behind {header held more : List Octet} (longer : held = header ++ more)
    (reads : List (List Octet)) : ReadEndsAt header held reads ↔ more = [] := by
  subst longer
  constructor
  · rintro ⟨first, later, -, whole⟩
    have width := congrArg List.length whole
    simp only [List.length_append] at width
    exact List.eq_nil_of_length_eq_zero (by omega)
  · rintro rfl
    exact ⟨[], reads, rfl, by simp⟩

/-- The loop gives up inside the header, or finds it with the octets that the read has taken
behind it. The induction is on the reads; before each some of the header is missing. -/
theorem read_until_header {header payload : List Octet} {value : List Octet → Value}
    (appears : Appears look header value) (reads : List (List Octet)) (held : List Octet)
    (before : held.length < header.length)
    (stream : held ++ reads.flatten = header ++ payload) :
    (∃ unread, readUntil look limit held reads = .full unread ∧
      StopsInside limit header held reads) ∨
    ∃ more unread, readUntil look limit held reads = .found (value more) unread ∧
      more ++ unread.flatten = payload ∧ (ReadEndsAt header held reads ↔ more = []) ∧
      ¬StopsInside limit header held reads := by
  induction reads generalizing held with
  | nil =>
    have width := congrArg List.length stream
    simp only [List.flatten_nil, List.append_nil, List.length_append] at width
    omega
  | cons read reads inductionHypothesis =>
    have waits : look held = none := by
      obtain ⟨missing, front, lacking⟩ | ⟨more, rfl, -⟩ := front_arrives stream
      · exact appears.early held missing front lacking
      · rw [List.length_append] at before
        omega
    rw [readUntil, waits]
    dsimp only
    by_cases beyond : limit < held.length
    · rw [if_pos beyond]
      refine .inl ⟨_, rfl, [], read :: reads, rfl, ?_, ?_⟩
      · rwa [List.flatten_nil, List.append_nil]
      · rwa [List.flatten_nil, List.append_nil]
    · rw [if_neg beyond, read_ends_cons header held read reads before,
        stops_inside_cons header held read reads (Nat.not_lt.mp beyond)]
      rw [List.flatten_cons, ← List.append_assoc] at stream
      obtain ⟨missing, front, lacking⟩ | ⟨more, longer, rest⟩ := front_arrives stream
      · refine inductionHypothesis (held ++ read) ?_ stream
        rw [← front, @List.length_append _ (held ++ read)]
        exact Nat.lt_add_of_pos_right (List.length_pos_of_ne_nil lacking)
      · refine .inr ⟨more, reads, ?_, rest, read_ends_behind longer reads, ?_⟩
        · rw [longer]
          cases reads <;> rw [readUntil, appears.whole more]
        · refine not_stops_inside ?_ reads
          rw [longer, List.length_append]
          exact Nat.le_add_right _ _

/-- A header is found in a read that has all of it, with what this read has behind it. -/
theorem found_in_one_read {header : List Octet} {value : List Octet → Value}
    (appears : Appears look header value) (nonempty : header ≠ []) (more : List Octet) :
    readUntil look limit [] [header ++ more] = .found (value more) [] := by
  have waits : look [] = none := appears.early [] header (List.nil_append header) nonempty
  rw [readUntil, waits]
  dsimp only
  rw [List.length_nil, if_neg (Nat.not_lt_zero limit), List.nil_append, readUntil,
    appears.whole more]

/-- What is found is the header, with the octets behind it that were read and those that
were not. -/
theorem found_whole {header payload : List Octet} {value : List Octet → Value}
    (appears : Appears look header value) (reads : List (List Octet)) (nonempty : header ≠ [])
    (stream : reads.flatten = header ++ payload) {found : Value} {unread : List (List Octet)}
    (search : readUntil look limit [] reads = .found found unread) :
    ∃ more, found = value more ∧ more ++ unread.flatten = payload := by
  have before : ([] : List Octet).length < header.length := List.length_pos_of_ne_nil nonempty
  obtain ⟨_, full, -⟩ | ⟨more, others, again, rest, -, -⟩ :=
    read_until_header appears reads [] before stream
  · rw [full] at search
    cases search
  · rw [again] at search
    obtain ⟨rfl, rfl⟩ := Search.found.inj search
    exact ⟨more, rfl, rest⟩

/-- The search leaves what follows the header on the connection exactly when a read ends at
the end of the header, or nothing is found since one ends inside it and behind the limit. -/
theorem leaves_payload_iff {header payload : List Octet} {value : List Octet → Value}
    (appears : Appears look header value) (reads : List (List Octet)) (nonempty : header ≠ [])
    (stream : reads.flatten = header ++ payload) :
    (∀ more unread, readUntil look limit [] reads = .found (value more) unread →
      more ++ unread.flatten = payload → more = []) ↔
    ReadEndsAt header [] reads ∨ StopsInside limit header [] reads := by
  have before : ([] : List Octet).length < header.length := List.length_pos_of_ne_nil nonempty
  obtain ⟨unread, full, inside⟩ | ⟨more, unread, found, rest, ends, outside⟩ :=
    read_until_header appears reads [] before stream
  · refine ⟨fun _ => .inr inside, fun _ more others found => ?_⟩
    rw [full] at found
    cases found
  · rw [or_iff_left outside, ends]
    constructor
    · exact fun leaves => leaves more unread found rest
    · rintro rfl other others again whole
      rw [found] at again
      obtain ⟨-, rfl⟩ := Search.found.inj again
      rw [← rest] at whole
      exact List.append_left_eq_self.mp whole

end Searching

section Marks

variable [DecidableEq Octet]

/-- The place of the first window that is a mark. -/
def markAt (mark : List Octet) : List Octet → Option Nat
  | [] => none
  | octet :: rest =>
      if (octet :: rest).take mark.length = mark then some 0 else (markAt mark rest).map (· + 1)

/-- Look for a mark, to take all that is held. -/
def heldWith (mark : List Octet) (held : List Octet) : Option (List Octet) :=
  (markAt mark held).map fun _ => held

/-- The end of a line and of the empty line behind it. -/
def emptyLine : Bytes := [0x0D, 0x0A, 0x0D, 0x0A]

/-- The first place where the octets have a mark is at their end. -/
def EndsAtMark (mark octets : List Octet) : Prop :=
  ∃ place, markAt mark octets = some place ∧ place + mark.length = octets.length

variable {mark : List Octet}

/-- The mark that was found lies inside the octets. -/
theorem mark_inside {octets : List Octet} {place : Nat} (found : markAt mark octets = some place) :
    place + mark.length ≤ octets.length := by
  induction octets generalizing place with
  | nil => cases found
  | cons octet rest inductionHypothesis =>
    rw [markAt] at found
    split at found
    · next here =>
      have width := congrArg List.length here
      rw [List.length_take] at width
      obtain rfl := Option.some.inj found
      omega
    · next other =>
      obtain ⟨before, later, rfl⟩ := Option.map_eq_some_iff.mp found
      have inside := inductionHypothesis later
      rw [List.length_cons]
      omega

/-- A mark stays where it was found first, whatever follows. -/
theorem mark_append {octets : List Octet} {place : Nat} (found : markAt mark octets = some place)
    (more : List Octet) : markAt mark (octets ++ more) = some place := by
  induction octets generalizing place with
  | nil => cases found
  | cons octet rest inductionHypothesis =>
    have inside := mark_inside found
    have window :
        (octet :: (rest ++ more)).take mark.length = (octet :: rest).take mark.length := by
      rw [← List.cons_append, List.take_append_of_le_length (by omega)]
    rw [List.cons_append, markAt, window]
    rw [markAt] at found
    split at found
    · next here => rwa [if_pos here]
    · next other =>
      obtain ⟨before, later, rfl⟩ := Option.map_eq_some_iff.mp found
      rw [if_neg other, inductionHypothesis later]
      rfl

/-- Octets that end at their first mark are held when they are whole, and not before. -/
theorem held_with_mark {octets : List Octet} (ends : EndsAtMark mark octets) :
    Appears (heldWith mark) octets fun more => octets ++ more where
  early front missing cut lacking := by
    obtain ⟨place, found, width⟩ := ends
    rw [heldWith, Option.map_eq_none_iff]
    by_contra early
    obtain ⟨before, other⟩ := Option.ne_none_iff_exists'.mp early
    have inside := mark_inside other
    have again := mark_append other missing
    rw [cut, found] at again
    obtain rfl := Option.some.inj again
    have positive := List.length_pos_of_ne_nil lacking
    rw [← cut, List.length_append] at width
    omega
  whole more := by
    obtain ⟨place, found, -⟩ := ends
    rw [heldWith, mark_append found more]
    rfl

/-- Octets that end at their first mark are as long as its place and the mark. -/
theorem ends_at_mark_place {octets : List Octet} (ends : EndsAtMark mark octets)
    (more : List Octet) :
    ∃ place, markAt mark (octets ++ more) = some place ∧ place + mark.length = octets.length := by
  obtain ⟨place, found, width⟩ := ends
  exact ⟨place, mark_append found more, width⟩

/-- The octets are split into those before the mark, the mark, and those behind it. -/
theorem mark_split {octets : List Octet} {place : Nat} (found : markAt mark octets = some place) :
    octets = octets.take place ++ mark ++ octets.drop (place + mark.length) := by
  induction octets generalizing place with
  | nil => cases found
  | cons octet rest inductionHypothesis =>
    rw [markAt] at found
    split at found
    · next here =>
      obtain rfl := Option.some.inj found
      rw [List.take_zero, List.nil_append, Nat.zero_add]
      conv_lhs => rw [← List.take_append_drop mark.length (octet :: rest), here]
    · next other =>
      obtain ⟨before, later, rfl⟩ := Option.map_eq_some_iff.mp found
      rw [List.take_succ_cons, Nat.add_right_comm, List.drop_succ_cons, List.cons_append,
        List.cons_append, ← inductionHypothesis later]

end Marks

section Sockets

/-- What still arrives on a connection, in the segments of the transport, the error that it
ends with if it does not end in order, and what has been written to it. -/
structure Socket where
  arriving : List Bytes
  ending : Option IoError
  written : Bytes

/-- Actions on such a connection. -/
abbrev SocketIo := EStateM IoError Socket

/-- The reads of at most `size` octets that take all segments. -/
def readsOf (size : Nat) (segments : List Bytes) : List Bytes := segments.flatMap (pieces size)

def write (bytes : Bytes) : SocketIo Unit := fun socket =>
  .ok () { socket with written := socket.written ++ bytes }

/-- Read until something is found. What arrives may end before. -/
def readLoop (look : Bytes → Option Value) (size limit : Nat) (oversized : IoError)
    (ended : Option IoError → IoError) : SocketIo Value := fun socket =>
  match readUntil look limit [] (readsOf size socket.arriving) with
  | .found value unread => .ok value { socket with arriving := unread }
  | .full unread => .error oversized { socket with arriving := unread }
  | .ended => .error (ended socket.ending) { socket with arriving := [] }

/-- However large the reads, they join to what the segments join to. -/
theorem reads_of_flatten {size : Nat} (positive : 0 < size) (segments : List Bytes) :
    (readsOf size segments).flatten = segments.flatten := by
  induction segments with
  | nil => rfl
  | cons segment segments inductionHypothesis =>
    calc (readsOf size (segment :: segments)).flatten
      _ = (pieces size segment ++ readsOf size segments).flatten := rfl
      _ = (segment :: segments).flatten := by
        rw [List.flatten_append, pieces_flatten size segment positive, inductionHypothesis,
          List.flatten_cons]

/-- A write to the socket succeeds always and adds its octets. -/
theorem write_yields_iff (bytes : Bytes) (socket after : Socket) (value : Unit) :
    (write bytes).run socket = .ok value after ↔
      { socket with written := socket.written ++ bytes } = after :=
  ⟨fun wrote => (EStateM.Result.ok.inj wrote).2, fun same => congrArg (EStateM.Result.ok ()) same⟩

/-- The loop returns a value exactly when looking after each read finds it within the limit.
-/
theorem read_loop_yields_iff (look : Bytes → Option Value) (size limit : Nat)
    (oversized : IoError) (ended : Option IoError → IoError) (socket after : Socket)
    (value : Value) :
    (readLoop look size limit oversized ended).run socket = .ok value after ↔
      ∃ unread, readUntil look limit [] (readsOf size socket.arriving) = .found value unread ∧
        { socket with arriving := unread } = after := by
  rw [EStateM.run, readLoop]
  constructor
  · intro read
    cases search : readUntil look limit [] (readsOf size socket.arriving) with
    | found value unread =>
      rw [search] at read
      obtain ⟨rfl, rfl⟩ := EStateM.Result.ok.inj read
      exact ⟨unread, rfl, rfl⟩
    | full unread =>
      rw [search] at read
      cases read
    | ended =>
      rw [search] at read
      cases read
  · rintro ⟨unread, search, rfl⟩
    rw [search]

/-- A computation with its own refusal, as an action. -/
theorem of_except_yields_iff (given : Except IoError Value) (socket after : Socket)
    (value : Value) :
    (MonadExcept.ofExcept given : SocketIo Value).run socket = .ok value after ↔
      given = .ok value ∧ socket = after := by
  cases given with
  | ok found =>
    constructor
    · intro yielded
      obtain ⟨rfl, rfl⟩ := EStateM.Result.ok.inj yielded
      exact ⟨rfl, rfl⟩
    · rintro ⟨found, rfl⟩
      obtain rfl := Except.ok.inj found
      rfl
  | error refusal =>
    constructor
    · intro yielded
      cases yielded
    · rintro ⟨found, -⟩
      cases found

end Sockets

end OmniProxy.BlockReads
