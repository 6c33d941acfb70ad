import Mathlib.Data.List.Infix
import Mathlib.Data.List.DropRight
import OmniProxy.ByteStrings

/-!
# Requests for a connection, in lines

A request of HTTP/1.1 is a line of three words, lines of fields and an empty line. Lines are
written with a carriage return and a line feed at their ends, and are read up to a line feed,
with or without a carriage return in front. The words of the first line are separated by single
blanks, a field has a name and a value behind a colon, and no control stands anywhere in a line.

A request for a connection has the method CONNECT and asks for an authority, a host and a port.
Which hosts a reader takes is its own affair, but each of their octets is visible. What is
written for an authority is read back as that one request exactly when the reader takes it.

Nothing here refers to a particular program.
-/

namespace OmniProxy.RequestLines

open ByteStrings

/-- A carriage return and a line feed. -/
def lineEnd : Bytes := [0x0D, 0x0A]

/-- What the line ends separate. -/
def linesOf : Bytes → List Bytes
  | [] => [[]]
  | [octet] => [[octet]]
  | first :: second :: rest =>
      if first = 0x0D ∧ second = 0x0A then [] :: linesOf rest
      else (linesOf (second :: rest)).modifyHead (first :: ·)

/-- The lines with an end behind each of them. -/
def written (lines : List Bytes) : Bytes := lines.flatMap (· ++ lineEnd)

/-- There is always a line. -/
theorem lines_ne_nil (octets : Bytes) : linesOf octets ≠ [] := by
  fun_induction linesOf octets with
  | case1 => exact List.cons_ne_nil _ _
  | case2 => exact List.cons_ne_nil _ _
  | case3 => exact List.cons_ne_nil _ _
  | case4 first second rest other inductionHypothesis =>
    rwa [Ne, List.modifyHead_eq_nil_iff]

/-- A first line that has octets begins as they do. -/
theorem lines_first {octets line : Bytes} {octet : UInt8} {lines : List Bytes}
    (split : linesOf octets = (octet :: line) :: lines) : octets.head? = some octet := by
  fun_cases linesOf octets with
  | case1 => simp [linesOf] at split
  | case2 only =>
    have same : [only] = octet :: line := (List.cons.inj split).1
    exact congrArg List.head? same
  | case3 first second rest ending => simp [linesOf, ending] at split
  | case4 first second rest other =>
    rw [linesOf, if_neg other] at split
    obtain ⟨line', lines', others⟩ := List.exists_cons_of_ne_nil (lines_ne_nil (second :: rest))
    rw [others, List.modifyHead_cons] at split
    exact congrArg some (List.cons.inj (List.cons.inj split).1).1

/-- No line has a line end in it. -/
theorem lines_clean (octets : Bytes) : ∀ line ∈ linesOf octets, ¬lineEnd <:+: line := by
  have short (line : Bytes) (few : line.length < 2) : ¬lineEnd <:+: line := by
    intro inside
    have long : 2 ≤ line.length := inside.length_le
    omega
  fun_induction linesOf octets with
  | case1 =>
    intro line member
    exact short line (by rw [List.mem_singleton.mp member]; decide)
  | case2 octet =>
    intro line member
    exact short line (by rw [List.mem_singleton.mp member]; exact Nat.one_lt_two)
  | case3 first second rest ending inductionHypothesis =>
    intro line member
    rcases List.mem_cons.mp member with rfl | later
    · exact short [] (by decide)
    · exact inductionHypothesis line later
  | case4 first second rest other inductionHypothesis =>
    obtain ⟨front, lines, split⟩ := List.exists_cons_of_ne_nil (lines_ne_nil (second :: rest))
    rw [split] at inductionHypothesis ⊢
    intro line member
    rcases List.mem_cons.mp member with rfl | later
    · intro inside
      rcases List.infix_cons_iff.mp inside with begins | within
      · rw [lineEnd, List.cons_prefix_cons] at begins
        obtain ⟨rfl, begins⟩ := begins
        cases front with
        | nil => simp at begins
        | cons octet front =>
          rw [List.cons_prefix_cons] at begins
          obtain ⟨rfl, -⟩ := begins
          exact other ⟨rfl, Option.some.inj (lines_first split)⟩
      · exact inductionHypothesis front (.head _) within
    · exact inductionHypothesis line (.tail _ later)

/-- A line without a line end is read back from in front of one. -/
theorem lines_of_line (line rest : Bytes) (clean : ¬lineEnd <:+: line) :
    linesOf (line ++ lineEnd ++ rest) = line :: linesOf rest := by
  induction line with
  | nil => rfl
  | cons first line inductionHypothesis =>
    have later := inductionHypothesis fun within =>
      clean (List.infix_cons_iff.mpr (.inr within))
    have other (second : UInt8) (more : Bytes)
        (same : line ++ lineEnd ++ rest = second :: more) :
        ¬(first = 0x0D ∧ second = 0x0A) := by
      rintro ⟨rfl, rfl⟩
      cases line with
      | nil => simp [lineEnd] at same
      | cons second line =>
        obtain ⟨rfl, -⟩ := List.cons.inj same
        exact clean ⟨[], line, rfl⟩
    cases spelled : line ++ lineEnd ++ rest with
    | nil => simp [lineEnd] at spelled
    | cons second more =>
      rw [List.cons_append, List.cons_append, spelled, linesOf, if_neg (other second more spelled),
        ← spelled, later]
      rfl

/-- Lines that are written are read back, with an empty one behind the last end, exactly when
none of them has a line end in it. -/
theorem lines_of_written_iff (lines : List Bytes) :
    linesOf (written lines) = lines ++ [[]] ↔ ∀ line ∈ lines, ¬lineEnd <:+: line := by
  constructor
  · intro same line member
    exact lines_clean (written lines) line (by rw [same]; exact List.mem_append_left _ member)
  · intro clean
    induction lines with
    | nil => rfl
    | cons line lines inductionHypothesis =>
      rw [written, List.flatMap_cons, lines_of_line line _ (clean line (.head _)), ← written,
        inductionHypothesis fun other member => clean other (.tail _ member)]
      rfl

section Readers

/-- An octet that is no control, no blank and not the delete character. -/
def isVisible (octet : UInt8) : Bool := 0x20 < octet && octet != 0x7F

/-- A blank or a tab. -/
def isBlank (octet : UInt8) : Bool := octet == 0x20 || octet == 0x09

/-- The octets of the names of fields. -/
def isTokenOctet (octet : UInt8) : Bool :=
  (0x30 ≤ octet && octet ≤ 0x39) || (0x41 ≤ octet && octet ≤ 0x5A) ||
    (0x61 ≤ octet && octet ≤ 0x7A) ||
    [0x21, 0x23, 0x24, 0x25, 0x26, 0x27, 0x2A, 0x2B, 0x2D, 0x2E, 0x5E, 0x5F, 0x60, 0x7C,
      0x7E].contains octet

def isDigit (octet : UInt8) : Bool := 0x30 ≤ octet && octet ≤ 0x39

/-- A line without the carriage return at its end. -/
def dropReturn (line : Bytes) : Bytes :=
  if line.getLast? = some 0x0D then line.dropLast else line

/-- The lines that line feeds end, when nothing is left behind the last one. -/
def endedLines (octets : Bytes) : Option (List Bytes) :=
  if (octets.splitOn 0x0A).getLast? = some [] then
    some ((octets.splitOn 0x0A).dropLast.map dropReturn)
  else none

/-- A value without the blanks around it. -/
def trimBlanks (value : Bytes) : Bytes := (value.dropWhile isBlank).rdropWhile isBlank

/-- The name and the value of a field. -/
def parseField (line : Bytes) : Option (Bytes × Bytes) :=
  match line.dropWhile (· ≠ 0x3A) with
  | [] => none
  | _ :: value =>
      let name := line.takeWhile (· ≠ 0x3A)
      if name ≠ [] ∧ name.all isTokenOctet ∧ value.all fun octet => isVisible octet || isBlank octet
      then some (name, trimBlanks value)
      else none

/-- The host and the port of an authority, around its last colon. -/
def splitAuthority (word : Bytes) : Option (Bytes × Bytes) :=
  match word.reverse.dropWhile (· ≠ 0x3A) with
  | [] => none
  | _ :: host => some (host.reverse, (word.reverse.takeWhile (· ≠ 0x3A)).reverse)

/-- The word of the method, CONNECT. -/
def connectMethod : Bytes := [0x43, 0x4F, 0x4E, 0x4E, 0x45, 0x43, 0x54]

/-- The word of the version, HTTP/1.1. -/
def httpVersion : Bytes := [0x48, 0x54, 0x54, 0x50, 0x2F, 0x31, 0x2E, 0x31]

/-- A request for a connection. -/
structure Request where
  authority : Bytes
  fields : List (Bytes × Bytes)
deriving DecidableEq

/-- A reader of requests, with the hosts that it takes. -/
structure RequestReader where
  host : Bytes → Bool
  visible : ∀ octets, host octets = true → ∀ octet ∈ octets, isVisible octet = true

/-- The reader takes a word as an authority. -/
def RequestReader.takes (reader : RequestReader) (word : Bytes) : Bool :=
  match splitAuthority word with
  | none => false
  | some (host, port) => reader.host host && !port.isEmpty && port.all isDigit

/-- Read octets that are one request for a connection and nothing else. -/
def RequestReader.read (reader : RequestReader) (octets : Bytes) : Option Request :=
  match endedLines octets with
  | none => none
  | some [] => none
  | some (line :: lines) =>
      match line.splitOn 0x20, lines.dropWhile (· ≠ []) with
      | [method, target, version], [[]] =>
          if method = connectMethod ∧ version = httpVersion ∧ reader.takes target then
            ((lines.takeWhile (· ≠ [])).mapM parseField).map (⟨target, ·⟩)
          else none
      | _, _ => none

end Readers

section Reading

variable {reader : RequestReader}

/-- Lines without line feeds are read as they were written. -/
theorem ended_lines_written (lines : List Bytes) (plain : ∀ line ∈ lines, 0x0A ∉ line) :
    endedLines (written lines) = some lines := by
  have pieces : (written lines).splitOn 0x0A = lines.map (· ++ [0x0D]) ++ [[]] := by
    induction lines with
    | nil => rfl
    | cons line lines inductionHypothesis =>
      have own : 0x0A ∉ line ++ [0x0D] := by
        simp [plain line (.head _)]
      have split : written (line :: lines) = (line ++ [0x0D]) ++ 0x0A :: written lines := by
        simp [written, lineEnd]
      rw [split, List.splitOn_append_cons_self_of_not_mem own,
        inductionHypothesis fun other member => plain other (.tail _ member)]
      rfl
  have same : (lines.map (· ++ [0x0D])).map dropReturn = lines := by
    rw [List.map_map]
    refine (List.map_congr_left fun line _ => ?_).trans (List.map_id lines)
    simp [dropReturn]
  rw [endedLines, pieces, if_pos (by simp), List.dropLast_concat, same]

/-- A field is read back, with its value trimmed. -/
theorem parse_field_written {name value : Bytes} (named : name ≠ [])
    (token : ∀ octet ∈ name, isTokenOctet octet = true)
    (plain : ∀ octet ∈ value, (isVisible octet || isBlank octet) = true) :
    parseField (name ++ 0x3A :: value) = some (name, trimBlanks value) := by
  have other : ∀ octet ∈ name, decide (octet ≠ 0x3A) = true := by
    intro octet member
    rw [decide_eq_true_eq]
    rintro rfl
    exact absurd (token _ member) (by decide)
  have behind : (name ++ 0x3A :: value).dropWhile (· ≠ 0x3A) = 0x3A :: value := by
    rw [List.dropWhile_append_of_pos other]
    rfl
  have front : (name ++ 0x3A :: value).takeWhile (· ≠ 0x3A) = name := by
    rw [List.takeWhile_append_of_pos other]
    exact List.append_nil name
  rw [parseField, behind]
  dsimp only
  rw [front, if_pos ⟨named, List.all_eq_true.mpr token, List.all_eq_true.mpr plain⟩]

/-- An authority is split at its last colon, in front of the port. -/
theorem split_authority_written {host port : Bytes} (plain : 0x3A ∉ port) :
    splitAuthority (host ++ 0x3A :: port) = some (host, port) := by
  have other : ∀ octet ∈ port.reverse, decide (octet ≠ 0x3A) = true := by
    intro octet member
    rw [decide_eq_true_eq]
    rintro rfl
    exact plain (List.mem_reverse.mp member)
  have turned : (host ++ 0x3A :: port).reverse = port.reverse ++ 0x3A :: host.reverse := by simp
  have behind : (host ++ 0x3A :: port).reverse.dropWhile (· ≠ 0x3A) = 0x3A :: host.reverse := by
    rw [turned, List.dropWhile_append_of_pos other]
    rfl
  have front : (host ++ 0x3A :: port).reverse.takeWhile (· ≠ 0x3A) = port.reverse := by
    rw [turned, List.takeWhile_append_of_pos other]
    exact List.append_nil _
  rw [splitAuthority, behind]
  dsimp only
  rw [front, List.reverse_reverse, List.reverse_reverse]

/-- A host with a port is taken exactly when the host is. -/
theorem takes_written_iff {host port : Bytes} (numbered : port ≠ [])
    (digits : ∀ octet ∈ port, isDigit octet = true) :
    reader.takes (host ++ 0x3A :: port) = true ↔ reader.host host = true := by
  have plain : 0x3A ∉ port := fun member => absurd (digits _ member) (by decide)
  have all : port.all isDigit = true := List.all_eq_true.mpr digits
  rw [RequestReader.takes, split_authority_written plain]
  simp [all, numbered]

/-- A digit is visible. -/
theorem digit_visible {octet : UInt8} (digit : isDigit octet = true) : isVisible octet = true := by
  simp only [isDigit, isVisible, Bool.and_eq_true, decide_eq_true_eq, bne_iff_ne, ne_eq] at digit ⊢
  refine ⟨UInt8.lt_of_lt_of_le (by decide) digit.1, ?_⟩
  rintro rfl
  exact absurd digit.2 (by decide)

/-- The octets of an authority that is taken are visible. -/
theorem takes_visible {word : Bytes} (taken : reader.takes word = true) :
    ∀ octet ∈ word, isVisible octet = true := by
  intro octet member
  rw [RequestReader.takes, splitAuthority] at taken
  cases behind : word.reverse.dropWhile (· ≠ 0x3A) with
  | nil =>
    rw [behind] at taken
    cases taken
  | cons colon host =>
    rw [behind] at taken
    simp only [Bool.and_eq_true] at taken
    obtain ⟨⟨known, -⟩, digits⟩ := taken
    have separator : colon = 0x3A := by
      have first := List.head?_dropWhile_not (fun octet => decide (octet ≠ 0x3A)) word.reverse
      rw [behind] at first
      simpa using first
    have parts := List.takeWhile_append_dropWhile (p := fun octet => decide (octet ≠ 0x3A))
      (l := word.reverse)
    rw [behind] at parts
    have among : octet ∈ word.reverse := List.mem_reverse.mpr member
    rw [← parts] at among
    rcases List.mem_append.mp among with port | rest
    · exact digit_visible (List.all_eq_true.mp digits _ (List.mem_reverse.mpr port))
    · rcases List.mem_cons.mp rest with rfl | inside
      · rw [separator]
        decide
      · exact reader.visible _ known _ (List.mem_reverse.mpr inside)

/-- What is read has an authority that is taken. -/
theorem read_takes {octets : Bytes} {request : Request}
    (read : reader.read octets = some request) : reader.takes request.authority = true := by
  rw [RequestReader.read] at read
  split at read
  · cases read
  · cases read
  · split at read
    · split at read
      · next conditions =>
        obtain ⟨fields, -, rfl⟩ := Option.map_eq_some_iff.mp read
        exact conditions.2.2
      · cases read
    · cases read

/-- The first line of a request. -/
def requestLine (authority : Bytes) : Bytes :=
  connectMethod ++ 0x20 :: (authority ++ 0x20 :: httpVersion)

/-- A field as a line. -/
def fieldLine (field : Bytes × Bytes) : Bytes := field.1 ++ 0x3A :: field.2

/-- A field that may stand in a request: its name is a token, and its value has no controls. -/
structure Proper (field : Bytes × Bytes) : Prop where
  named : field.1 ≠ []
  token : ∀ octet ∈ field.1, isTokenOctet octet = true
  plain : ∀ octet ∈ field.2, (isVisible octet || isBlank octet) = true

/-- The octets of a token are behind the blank. -/
theorem token_above {octet : UInt8} (token : isTokenOctet octet = true) : 0x20 < octet := by
  rw [isTokenOctet] at token
  simp only [Bool.or_eq_true, Bool.and_eq_true, decide_eq_true_eq] at token
  rcases token with ((⟨least, -⟩ | ⟨least, -⟩) | ⟨least, -⟩) | other
  · exact UInt8.lt_of_lt_of_le (by decide) least
  · exact UInt8.lt_of_lt_of_le (by decide) least
  · exact UInt8.lt_of_lt_of_le (by decide) least
  · have among := List.mem_of_elem_eq_true other
    simp only [List.mem_cons, List.not_mem_nil, or_false] at among
    rcases among with rfl | rfl | rfl | rfl | rfl | rfl | rfl | rfl | rfl | rfl | rfl | rfl | rfl |
      rfl | rfl <;> decide

/-- A field has no controls but tabs. -/
theorem Proper.uncontrolled {field : Bytes × Bytes} (proper : Proper field) {octet : UInt8}
    (control : octet < 0x20) (other : octet ≠ 0x09) : octet ∉ fieldLine field := by
  have below (above : 0x20 < octet) : False :=
    UInt8.lt_irrefl _ (UInt8.lt_trans above control)
  intro member
  rcases List.mem_append.mp member with name | rest
  · exact below (token_above (proper.token octet name))
  · rcases List.mem_cons.mp rest with rfl | value
    · exact below (by decide)
    · rcases Bool.or_eq_true_iff.mp (proper.plain octet value) with seen | blank
      · rw [isVisible, Bool.and_eq_true, decide_eq_true_eq] at seen
        exact below seen.1
      · rcases Bool.or_eq_true_iff.mp blank with space | tab
        · rw [eq_of_beq space] at control
          exact UInt8.lt_irrefl _ control
        · exact other (eq_of_beq tab)

/-- The line of a field is not empty. -/
theorem field_line_some {field : Bytes × Bytes} : fieldLine field ≠ [] :=
  List.append_ne_nil_of_right_ne_nil _ (List.cons_ne_nil _ _)

/-- The lines of fields are read as the fields, with their values trimmed. -/
theorem fields_read {fields : List (Bytes × Bytes)} (proper : ∀ field ∈ fields, Proper field) :
    (fields.map fieldLine).mapM parseField =
      some (fields.map fun field => (field.1, trimBlanks field.2)) := by
  induction fields with
  | nil => rfl
  | cons field fields inductionHypothesis =>
    have own := proper field (.head _)
    have first : parseField (fieldLine field) = some (field.1, trimBlanks field.2) :=
      parse_field_written own.named own.token own.plain
    rw [List.map_cons, List.mapM_cons, first,
      inductionHypothesis fun other member => proper other (.tail _ member)]
    rfl

/-- An octet that is not visible stands in the first line between its words only. -/
theorem request_line_plain {authority : Bytes}
    (visible : ∀ octet ∈ authority, isVisible octet = true) {octet : UInt8}
    (control : octet < 0x20) : octet ∉ requestLine authority := by
  have unseen : isVisible octet = false := by
    simp only [isVisible, Bool.and_eq_false_iff, decide_eq_false_iff_not]
    exact .inl fun above => absurd (UInt8.lt_trans above control) (UInt8.lt_irrefl _)
  have words : ∀ word ∈ [connectMethod, httpVersion], ∀ other ∈ word, isVisible other = true := by
    decide +kernel
  have outside {word : Bytes} (seen : ∀ other ∈ word, isVisible other = true) : octet ∉ word := by
    intro member
    rw [seen octet member] at unseen
    cases unseen
  have blank : octet ≠ 0x20 := by
    rintro rfl
    exact absurd control (by decide)
  rw [requestLine, List.mem_append, List.mem_cons, List.mem_append, List.mem_cons]
  rintro (method | same | target | same | version)
  · exact outside (words _ (.head _)) method
  · exact blank same
  · exact outside visible target
  · exact blank same
  · exact outside (words _ (.tail _ (.head _))) version

/-- A request that is written for an authority which the reader takes is read back. -/
theorem read_written {authority : Bytes} (taken : reader.takes authority = true)
    {fields : List (Bytes × Bytes)} (proper : ∀ field ∈ fields, Proper field) :
    reader.read (written (requestLine authority :: fields.map fieldLine ++ [[]])) =
      some ⟨authority, fields.map fun field => (field.1, trimBlanks field.2)⟩ := by
  have visible := takes_visible taken
  have lines := ended_lines_written (requestLine authority :: fields.map fieldLine ++ [[]]) (by
    intro line member
    rcases List.mem_append.mp member with own | last
    · rcases List.mem_cons.mp own with rfl | header
      · exact request_line_plain visible (by decide)
      · obtain ⟨field, there, rfl⟩ := List.mem_map.mp header
        exact (proper field there).uncontrolled (by decide) (by decide)
    · rw [List.mem_singleton.mp last]
      decide)
  have full : ∀ line ∈ fields.map fieldLine, decide (line ≠ []) = true := by
    intro line member
    obtain ⟨field, -, rfl⟩ := List.mem_map.mp member
    exact decide_eq_true field_line_some
  have behind : (fields.map fieldLine ++ [[]]).dropWhile (· ≠ []) = [[]] := by
    rw [List.dropWhile_append_of_pos full]
    rfl
  have front : (fields.map fieldLine ++ [[]]).takeWhile (· ≠ []) = fields.map fieldLine := by
    rw [List.takeWhile_append_of_pos full]
    exact List.append_nil _
  have unblanked : 0x20 ∉ authority := fun member => absurd (visible _ member) (by decide)
  have words : (requestLine authority).splitOn 0x20 = [connectMethod, authority, httpVersion] := by
    rw [requestLine, List.splitOn_append_cons_self_of_not_mem (by decide),
      List.splitOn_append_cons_self_of_not_mem unblanked, List.splitOn_eq_singleton (by decide)]
  rw [RequestReader.read, lines]
  dsimp only [List.cons_append]
  rw [words, behind]
  dsimp only
  rw [if_pos ⟨rfl, rfl, taken⟩, front, fields_read proper]
  rfl

end Reading

end OmniProxy.RequestLines
