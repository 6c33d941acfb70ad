import OmniProxy.ServerNames
import OmniProxy.Utf8Text
import Mathlib

/-!
# The search for a Host line

The lines of a request are searched for one that begins with the name of the header in any
case and has a value. Each line ends the search, stops the program, names a host, or is
passed, and the first that is not passed decides.

The lines of a longer text are those of the text, but for the last one, which grows or loses
the first character of a line end that was cut in two. So the line that names a host goes on
to name it when more of the text is there.
-/

namespace OmniProxy.HostLines

open AddressText ByteStrings CheckedLoops ServerNames Sniffing Utf8Text

section Lines

/-- The octets that a text takes. -/
def octetCount (text : List Char) : Nat := (text.map Char.utf8Size).sum

/-- The octets of two texts add up. -/
theorem octet_count_append (front rest : List Char) :
    octetCount (front ++ rest) = octetCount front + octetCount rest := by
  simp [octetCount]

/-- A text has as many octets as its characters take together. -/
theorem utf8_byte_size_of_list (text : List Char) :
    (String.ofList text).utf8ByteSize = octetCount text := by
  rw [← as_bytes_length, as_bytes_of_list, List.length_flatMap, octetCount]
  simp only [String.length_utf8EncodeChar]

/-- A text that is cut has its first octets in front. -/
theorem split_at_byte_some (text front rest : List Char) (count : Nat)
    (cut : splitAtByte text count = some (front, rest)) :
    text = front ++ rest ∧ octetCount front = count := by
  induction text generalizing front count with
  | nil =>
    cases count with
    | zero =>
      obtain ⟨rfl, rfl⟩ := Prod.mk.inj (Option.some.inj cut)
      exact ⟨rfl, rfl⟩
    | succ count => simp [splitAtByte] at cut
  | cons char text inductionHypothesis =>
    cases count with
    | zero =>
      obtain ⟨rfl, rfl⟩ := Prod.mk.inj (Option.some.inj cut)
      exact ⟨rfl, rfl⟩
    | succ count =>
      rw [splitAtByte] at cut
      split at cut
      · contradiction
      · next fits =>
        obtain ⟨⟨other, rest⟩, later, same⟩ := Option.map_eq_some_iff.mp cut
        obtain ⟨rfl, rfl⟩ := Prod.mk.inj same
        obtain ⟨rfl, counted⟩ := inductionHypothesis other _ later
        refine ⟨rfl, ?_⟩
        simp only [octetCount, List.map_cons, List.sum_cons] at counted ⊢
        omega

/-- A text is cut where a character ends. -/
theorem split_at_byte_append (front rest : List Char) :
    splitAtByte (front ++ rest) (octetCount front) = some (front, rest) := by
  induction front with
  | nil => cases rest <;> rfl
  | cons char front inductionHypothesis =>
    have positive := char.utf8Size_pos
    have count : octetCount (char :: front) = char.utf8Size - 1 + octetCount front + 1 := by
      simp only [octetCount, List.map_cons, List.sum_cons]
      omega
    have left : char.utf8Size - 1 + octetCount front + 1 - char.utf8Size = octetCount front := by
      omega
    rw [count, List.cons_append, splitAtByte, if_neg (by omega), left, inductionHypothesis]
    rfl

/-- A line names a host: it begins with the name of the header in any case. -/
def IsHost (line value : List Char) : Prop :=
  ∃ name, line = name ++ value ∧ name.map Char.toLower = "host:".toList

/-- A character stands across the end of the first five octets of a line. -/
def Straddled (line : List Char) : Prop :=
  5 ≤ octetCount line ∧ ∀ front rest, line = front ++ rest → octetCount front ≠ 5

/-- A character whose small letter is ASCII takes one octet. -/
theorem lower_ascii (char : Char) (ascii : char.toLower.toNat < 128) : char.utf8Size = 1 := by
  have small := (to_lower_ascii_iff char).mp ascii
  rw [Char.utf8Size_eq_one_iff, UInt32.le_iff_toNat_le]
  exact Nat.le_of_lt_succ small

/-- The name of the header takes five octets. -/
theorem host_name_count (name : List Char) (named : name.map Char.toLower = "host:".toList) :
    octetCount name = 5 := by
  have ones : name.map Char.utf8Size = name.map fun _ => 1 := by
    apply List.map_congr_left
    intro char member
    apply lower_ascii
    have lower : char.toLower ∈ "host:".toList := named ▸ List.mem_map_of_mem member
    have all : "host:".toList.all fun letter => decide (letter.toNat < 128) := by decide
    exact of_decide_eq_true (List.all_eq_true.mp all _ lower)
  have five : name.length = 5 := by
    rw [← List.length_map (f := Char.toLower), named]
    rfl
  rw [octetCount, ones, List.map_const', List.sum_replicate, five]
  rfl

/-- The name of the header is looked for in the first five octets. -/
theorem strip_host_eq (line : List Char) :
    stripPrefixCi line "host:".toList =
      if 5 ≤ octetCount line then
        match splitAtByte line 5 with
        | none => .error .insideChar
        | some (front, rest) =>
            .ok (if front.map Char.toLower = "host:".toList then some rest else none)
      else .ok none := by
  have size : (String.ofList "host:".toList).utf8ByteSize = 5 := by decide
  have lower : "host:".toList.map Char.toLower = "host:".toList := by decide
  simp only [stripPrefixCi, size, lower, utf8_byte_size_of_list]
  rfl

/-- The head of a line is cut off exactly when it is the name of the field. -/
theorem strip_host_some_iff (line value : List Char) :
    stripPrefixCi line "host:".toList = .ok (some value) ↔ IsHost line value := by
  rw [strip_host_eq]
  constructor
  · intro stripped
    split at stripped
    · split at stripped
      · contradiction
      · next front rest cut =>
        have found := Except.ok.inj stripped
        obtain ⟨named, same⟩ := Option.ite_none_right_eq_some.mp found
        obtain rfl := Option.some.inj same
        exact ⟨front, (split_at_byte_some line front _ 5 cut).1, named⟩
    · cases stripped
  · rintro ⟨name, rfl, named⟩
    have count := host_name_count name named
    have cut := split_at_byte_append name value
    rw [count] at cut
    rw [octet_count_append, count, if_pos (Nat.le_add_right 5 _), cut]
    simp only [named, if_true]

/-- Cutting returns unless a character stands across the end of the first five octets. -/
theorem strip_host_returns_iff (line : List Char) :
    Returns (stripPrefixCi line "host:".toList) ↔ ¬Straddled line := by
  rw [strip_host_eq]
  constructor
  · rintro ⟨found, stripped⟩ ⟨long, apart⟩
    rw [if_pos long] at stripped
    split at stripped
    · contradiction
    · next front rest cut =>
      obtain ⟨spelled, count⟩ := split_at_byte_some line front rest 5 cut
      exact apart front rest spelled count
  · intro whole
    split
    · next long =>
      split
      · next cut =>
        refine absurd ⟨long, ?_⟩ whole
        rintro front rest rfl count
        have found := split_at_byte_append front rest
        rw [count, cut] at found
        contradiction
      · exact ⟨_, rfl⟩
    · exact ⟨_, rfl⟩

end Lines

section HostLines

/-- Nothing is left of a value without the white space at its ends. -/
def Blank (value : List Char) : Prop := (trim (String.ofList value)).isEmpty = true

/-- The name in a value: without white space at its ends and without its port. -/
def nameOf (value : List Char) : String := stripPort (trim (String.ofList value))

/-- The search goes on behind a line. -/
structure Passed (line : List Char) : Prop where
  nonempty : line ≠ []
  whole : ¬Straddled line
  blank : ∀ value, IsHost line value → Blank value

/-- The first line that decides the search names a host with a value. -/
inductive HostLine : List (List Char) → List Char → Prop where
  | here (line value : List Char) (lines : List (List Char)) (named : IsHost line value)
      (visible : ¬Blank value) : HostLine (line :: lines) value
  | later (line value : List Char) (lines : List (List Char)) (passed : Passed line)
      (rest : HostLine lines value) : HostLine (line :: lines) value

/-- The first line that decides the search stops the program. -/
inductive CutLine : List (List Char) → Prop where
  | here (line : List Char) (lines : List (List Char)) (straddled : Straddled line) :
      CutLine (line :: lines)
  | later (line : List Char) (lines : List (List Char)) (passed : Passed line)
      (rest : CutLine lines) : CutLine (line :: lines)

/-- A straddled line is not empty. -/
theorem straddled_nonempty {line : List Char} (straddled : Straddled line) : line ≠ [] := by
  rintro rfl
  exact absurd straddled.1 (by decide)

/-- One round of the search: behind a line that is passed it goes on. -/
theorem host_of_lines_passed (line : List Char) (lines : List (List Char)) (passed : Passed line) :
    hostOfLines (line :: lines) = hostOfLines lines := by
  obtain ⟨found, stripped⟩ := (strip_host_returns_iff line).mpr passed.whole
  rw [hostOfLines, if_neg (by simpa using passed.nonempty), stripped]
  cases found with
  | none => rfl
  | some value =>
    have blank := passed.blank value ((strip_host_some_iff line value).mp stripped)
    simp only [bind, Except.bind, show (trim (String.ofList value)).isEmpty = true from blank,
      if_true]

/-- A line ends the search, stops the program, names a host, or is passed. -/
theorem line_cases (line : List Char) :
    line = [] ∨ Straddled line ∨ (∃ value, IsHost line value ∧ ¬Blank value) ∨ Passed line := by
  by_cases empty : line = []
  · exact .inl empty
  by_cases straddled : Straddled line
  · exact .inr (.inl straddled)
  by_cases named : ∃ value, IsHost line value ∧ ¬Blank value
  · exact .inr (.inr (.inl named))
  · refine .inr (.inr (.inr ⟨empty, straddled, fun value host => ?_⟩))
    by_contra visible
    exact named ⟨value, host, visible⟩

/-- The first line that names a host, and has one, decides. -/
theorem host_of_lines_named (line value : List Char) (lines : List (List Char))
    (named : IsHost line value) (visible : ¬Blank value) :
    hostOfLines (line :: lines) = .ok (some (nameOf value)) := by
  have stripped := (strip_host_some_iff line value).mpr named
  have nonempty : line ≠ [] := by
    rintro rfl
    cases stripped
  have seen : ¬(trim (String.ofList value)).isEmpty = true := visible
  rw [hostOfLines, if_neg (by simpa using nonempty), stripped]
  simp only [bind, Except.bind]
  rw [if_neg seen]
  rfl

/-- A line with a character across the fifth octet stops the reader. -/
theorem host_of_lines_straddled (line : List Char) (lines : List (List Char))
    (straddled : Straddled line) : ¬Returns (hostOfLines (line :: lines)) := by
  rintro ⟨found, read⟩
  rw [hostOfLines, if_neg (by simpa using straddled_nonempty straddled)] at read
  obtain ⟨stripped, returned, -⟩ := (bind_ok_iff _ _ _).mp read
  exact (strip_host_returns_iff line).mp ⟨stripped, returned⟩ straddled

/-- The search returns a host exactly when a line names one before anything else decides.
The induction is on the lines; the first one is of one of four kinds. -/
theorem host_of_lines_some_iff (lines : List (List Char)) (host : String) :
    hostOfLines lines = .ok (some host) ↔ ∃ value, HostLine lines value ∧ host = nameOf value := by
  induction lines with
  | nil =>
    constructor
    · intro read
      cases read
    · rintro ⟨value, named, -⟩
      cases named
  | cons line lines inductionHypothesis =>
    constructor
    · intro read
      rcases line_cases line with rfl | straddled | ⟨value, named, visible⟩ | passed
      · cases read
      · exact absurd ⟨_, read⟩ (host_of_lines_straddled line lines straddled)
      · rw [host_of_lines_named line value lines named visible] at read
        exact ⟨value, .here line value lines named visible,
          (Option.some.inj (Except.ok.inj read)).symm⟩
      · rw [host_of_lines_passed line lines passed] at read
        obtain ⟨value, later, same⟩ := inductionHypothesis.mp read
        exact ⟨value, .later line value lines passed later, same⟩
    · rintro ⟨value, named, same⟩
      cases named with
      | here _ _ _ named visible =>
        rw [same]
        exact host_of_lines_named line value lines named visible
      | later _ _ _ passed later =>
        rw [host_of_lines_passed line lines passed]
        exact inductionHypothesis.mpr ⟨value, later, same⟩

/-- The search returns exactly when no line stops the program before anything else decides. -/
theorem host_of_lines_returns_iff (lines : List (List Char)) :
    Returns (hostOfLines lines) ↔ ¬CutLine lines := by
  induction lines with
  | nil =>
    constructor
    · intro _ cut
      cases cut
    · exact fun _ => ⟨none, rfl⟩
  | cons line lines inductionHypothesis =>
    constructor
    · intro returns cut
      cases cut with
      | here _ _ straddled => exact host_of_lines_straddled line lines straddled returns
      | later _ _ passed rest =>
        rw [host_of_lines_passed line lines passed] at returns
        exact inductionHypothesis.mp returns rest
    · intro whole
      rcases line_cases line with rfl | straddled | ⟨value, named, visible⟩ | passed
      · exact ⟨none, rfl⟩
      · exact absurd (.here line lines straddled) whole
      · exact ⟨_, host_of_lines_named line value lines named visible⟩
      · rw [host_of_lines_passed line lines passed]
        exact inductionHypothesis.mpr fun cut => whole (.later line lines passed cut)

end HostLines

section Growing

/-- Lines of a text and of a longer one: only the last line grows, or it loses the first
character of a line end that was cut in two. -/
inductive Grown : List (List Char) → List (List Char) → Prop where
  | longer (last more : List Char) (rest : List (List Char)) : Grown [last] ((last ++ more) :: rest)
  | ended (last : List Char) (rest : List (List Char)) : Grown [last ++ ['\r']] (last :: rest)
  | line (line : List Char) (lines later : List (List Char)) (grown : Grown lines later) :
      Grown (line :: lines) (line :: later)

/-- A text has a line. -/
theorem split_lines_nonempty (text : List Char) : splitLines text ≠ [] := by
  unfold splitLines
  split
  · simp
  · simp
  · split <;> simp

/-- A character in front of the lines of a text. -/
theorem grown_cons (char : Char) (line other : List Char) (lines later : List (List Char))
    (grown : Grown (line :: lines) (other :: later)) :
    Grown ((char :: line) :: lines) ((char :: other) :: later) := by
  generalize first : line :: lines = before at grown
  generalize second : other :: later = after at grown
  cases grown with
  | longer last more rest =>
    obtain ⟨rfl, rfl⟩ := List.cons.inj first
    obtain ⟨rfl, rfl⟩ := List.cons.inj second
    exact .longer (char :: line) more later
  | ended last rest =>
    obtain ⟨rfl, rfl⟩ := List.cons.inj first
    obtain ⟨rfl, rfl⟩ := List.cons.inj second
    exact .ended (char :: other) later
  | line same lines rest grown =>
    obtain ⟨rfl, rfl⟩ := List.cons.inj first
    obtain ⟨rfl, rfl⟩ := List.cons.inj second
    exact .line _ _ _ grown

/-- The lines of a text that goes on. The induction follows the search for line ends. -/
theorem split_lines_grown (text more : List Char) :
    Grown (splitLines text) (splitLines (text ++ more)) := by
  induction text using splitLines.induct with
  | case1 =>
    obtain ⟨head, tail, split⟩ := List.exists_cons_of_ne_nil (split_lines_nonempty more)
    rw [List.nil_append, split]
    exact .longer [] head tail
  | case2 text inductionHypothesis => exact .line [] _ _ inductionHypothesis
  | case3 char text plain none inductionHypothesis => exact absurd none (split_lines_nonempty text)
  | case4 char text plain line lines split inductionHypothesis =>
    obtain ⟨other, later, grown⟩ :=
      List.exists_cons_of_ne_nil (split_lines_nonempty (text ++ more))
    rw [split, grown] at inductionHypothesis
    have short : splitLines (char :: text) = (char :: line) :: lines := by
      rw [splitLines, split]
      exact plain
    by_cases cut : ∃ rest, char = '\r' ∧ text ++ more = '\n' :: rest
    · -- The line end was cut: nothing but its first character had arrived.
      obtain ⟨rest, rfl, joined⟩ := cut
      cases text with
      | nil =>
        obtain rfl : more = '\n' :: rest := joined
        exact .ended [] (splitLines rest)
      | cons next text =>
        obtain ⟨rfl, -⟩ := List.cons.inj joined
        exact absurd rfl (plain text rfl)
    · have long : splitLines (char :: text ++ more) = (char :: other) :: later := by
        rw [List.cons_append, splitLines, grown]
        exact fun rest first second => cut ⟨rest, first, second⟩
      rw [short, long]
      exact grown_cons char line other lines later inductionHypothesis

/-- Trimming leaves nothing exactly of white space. -/
theorem blank_iff (value : List Char) : Blank value ↔ ∀ char ∈ value, isWhitespace char := by
  have nothing : Blank value ↔
      ∀ char ∈ (value.dropWhile isWhitespace).reverse, isWhitespace char := by
    rw [← List.dropWhile_eq_nil_iff, Blank, trim, trimMatches, String.toList_ofList,
      String.isEmpty_iff]
    constructor
    · intro empty
      simpa using congrArg String.toList empty
    · intro empty
      simp [empty]
  rw [nothing]
  constructor
  · intro rest char member
    rw [← List.takeWhile_append_dropWhile (p := isWhitespace) (l := value)] at member
    rcases List.mem_append.mp member with front | back
    · exact List.mem_takeWhile_imp front
    · exact rest char (List.mem_reverse.mpr back)
  · intro all
    rw [List.dropWhile_eq_nil_iff.mpr all]
    simp

/-- A value that is visible stays visible. -/
theorem visible_grows {value : List Char} (more : List Char) (visible : ¬Blank value) :
    ¬Blank (value ++ more) := by
  rw [blank_iff] at visible ⊢
  exact fun blank => visible fun char member => blank char (List.mem_append_left more member)

/-- The line that names a host goes on to name it; its value grows, or loses the first
character of a line end that was cut in two. -/
theorem host_line_grows {lines later : List (List Char)} (grown : Grown lines later)
    {value : List Char} (named : HostLine lines value) :
    ∃ other, HostLine later other ∧ (value <+: other ∨ value = other ++ ['\r']) := by
  induction grown with
  | longer last more rest =>
    cases named with
    | here _ _ _ host visible =>
      obtain ⟨name, rfl, spelled⟩ := host
      refine ⟨value ++ more, .here _ _ _ ⟨name, by rw [List.append_assoc], spelled⟩
        (visible_grows more visible), .inl (List.prefix_append value more)⟩
    | later _ _ _ passed rest => cases rest
  | ended last rest =>
    cases named with
    | here _ _ _ host visible =>
      obtain ⟨name, spelled, named⟩ := host
      rcases List.eq_nil_or_concat value with rfl | ⟨front, char, rfl⟩
      · exact absurd ((blank_iff []).mpr (by simp)) visible
      · rw [List.concat_eq_append] at spelled visible ⊢
        rw [← List.append_assoc] at spelled
        obtain ⟨rfl, single⟩ := List.append_inj' spelled rfl
        obtain rfl := List.singleton_inj.mp single
        refine ⟨front, .here _ _ _ ⟨name, rfl, named⟩ ?_, .inr rfl⟩
        intro blank
        refine visible ((blank_iff _).mpr fun char member => ?_)
        rcases List.mem_append.mp member with early | last
        · exact (blank_iff front).mp blank char early
        · obtain rfl := List.mem_singleton.mp last
          decide
    | later _ _ _ passed rest => cases rest
  | line line lines later grown inductionHypothesis =>
    cases named with
    | here _ _ _ host visible =>
      exact ⟨value, .here line value later host visible, .inl (List.prefix_refl value)⟩
    | later _ _ _ passed rest =>
      obtain ⟨other, named, same⟩ := inductionHypothesis rest
      exact ⟨other, .later line other later passed named, same⟩

end Growing

end OmniProxy.HostLines
