import OmniProxy.Utf8Text

/-!
# Lossy decoding, character by character

Lossy decoding takes a character at a time from the front. What it takes is either the
octets that spell the character, or ill-formed octets for which the replacement character
U+FFFD stands. So decoded text without that character has the octets that were decoded, and
an ASCII octet separates what is in front of it from what is behind it.

In the other direction every text is decoded from its own octets, and a text with U+FFFD
also from fewer, since one octet that leads nothing is enough for each such character.

Nothing here refers to a particular program.
-/

namespace OmniProxy.LossyText

open ByteStrings Utf8Text

section Spelling

/-- The octets that spell a scalar value. -/
inductive Spells : Bytes → Nat → Prop where
  | one (value : Nat) (narrow : value < 0x80) : Spells [UInt8.ofNat value] value
  | two (value : Nat) (wide : 0x80 ≤ value) (narrow : value < 0x800) :
      Spells [UInt8.ofNat (value / 64 + 0xC0), UInt8.ofNat (value % 64 + 0x80)] value
  | three (value : Nat) (wide : 0x800 ≤ value) (narrow : value < 0x10000)
      (scalar : value < 0xD800 ∨ 0xDFFF < value) :
      Spells [UInt8.ofNat (value / 4096 + 0xE0), UInt8.ofNat (value / 64 % 64 + 0x80),
        UInt8.ofNat (value % 64 + 0x80)] value
  | four (value : Nat) (wide : 0x10000 ≤ value) (narrow : value < 0x110000) :
      Spells [UInt8.ofNat (value / 262144 + 0xF0), UInt8.ofNat (value / 4096 % 64 + 0x80),
        UInt8.ofNat (value / 64 % 64 + 0x80), UInt8.ofNat (value % 64 + 0x80)] value

/-- A number below 256 is the value of its octet. -/
theorem octet_value {value : Nat} (small : value < 256) : (UInt8.ofNat value).toNat = value := by
  rw [UInt8.toNat_ofNat', Nat.mod_eq_of_lt small]

/-- An octet with the value is the octet of the value. -/
theorem octet_of_value {octet : UInt8} {value : Nat} (same : octet.toNat = value) :
    octet = UInt8.ofNat value := by
  rw [← same, UInt8.ofNat_toNat]

/-- A character is encoded as it is spelled. -/
theorem encode_spells (char : Char) : Spells (String.utf8EncodeChar char) char.toNat := by
  have valid : char.toNat < 0xD800 ∨ 0xDFFF < char.toNat ∧ char.toNat < 0x110000 := char.valid
  unfold String.utf8EncodeChar
  dsimp only [Char.toNat] at valid ⊢
  generalize char.val.toNat = value at valid ⊢
  split_ifs with one two three
  · exact .one value (by omega)
  · have high : value / 64 % 0x20 = value / 64 := Nat.mod_eq_of_lt (by omega)
    rw [high]
    exact .two value (by omega) (by omega)
  · have high : value / 4096 % 0x10 = value / 4096 := Nat.mod_eq_of_lt (by omega)
    rw [high]
    exact .three value (by omega) (by omega) (by omega)
  · have high : value / 262144 % 0x08 = value / 262144 := Nat.mod_eq_of_lt (by omega)
    rw [high]
    exact .four value (by omega) (by omega)

/-- A value has one spelling. -/
theorem spells_unique {octets others : Bytes} {value : Nat} (spelled : Spells octets value)
    (other : Spells others value) : octets = others := by
  cases spelled <;> cases other <;> first | rfl | omega

/-- What is spelled is the code of a character. -/
theorem spells_valid {octets : Bytes} {value : Nat} (spelled : Spells octets value) :
    (Char.ofNat value).toNat = value := by
  rcases char_of_nat_code value with code | ⟨invalid, -⟩
  · exact code
  · exact absurd (by cases spelled <;> rw [Nat.isValidChar] <;> omega) invalid

/-- So the octets that spell a value encode its character. -/
theorem encode_spelled {octets : Bytes} {value : Nat} (spelled : Spells octets value) :
    String.utf8EncodeChar (Char.ofNat value) = octets := by
  have encoded := encode_spells (Char.ofNat value)
  rw [spells_valid spelled] at encoded
  exact spells_unique encoded spelled

end Spelling

section Accepting

/-- What the value of a lead octet announces. -/
theorem lead_width_eq (lead : UInt8) :
    leadWidth lead =
      if lead.toNat < 0x80 then 1
      else if 0xC2 ≤ lead.toNat ∧ lead.toNat ≤ 0xDF then 2
      else if 0xE0 ≤ lead.toNat ∧ lead.toNat ≤ 0xEF then 3
      else if 0xF0 ≤ lead.toNat ∧ lead.toNat ≤ 0xF4 then 4
      else 0 := by
  simp only [leadWidth, UInt8.lt_iff_toNat_lt, UInt8.le_iff_toNat_le, UInt8.reduceToNat,
    Bool.and_eq_true, decide_eq_true_eq]

/-- The bounds on the octet after a lead. -/
structure SecondWithin (lead second : UInt8) : Prop where
  low : 0x80 ≤ second.toNat
  high : second.toNat ≤ 0xBF
  long3 : lead.toNat = 0xE0 → 0xA0 ≤ second.toNat
  surrogate : lead.toNat = 0xED → second.toNat ≤ 0x9F
  long4 : lead.toNat = 0xF0 → 0x90 ≤ second.toNat
  last : lead.toNat = 0xF4 → second.toNat ≤ 0x8F

/-- The check on the second octet is that it lies within the bounds of its lead octet. -/
theorem second_within_iff (lead second : UInt8) :
    tailWithin (secondBounds lead).1 (secondBounds lead).2 (some second) = true ↔
      SecondWithin lead second := by
  have spelled : SecondWithin lead second ↔ 0x80 ≤ second.toNat ∧ second.toNat ≤ 0xBF ∧
      (lead.toNat = 0xE0 → 0xA0 ≤ second.toNat) ∧ (lead.toNat = 0xED → second.toNat ≤ 0x9F) ∧
      (lead.toNat = 0xF0 → 0x90 ≤ second.toNat) ∧ (lead.toNat = 0xF4 → second.toNat ≤ 0x8F) :=
    ⟨fun ⟨low, high, a, b, c, d⟩ => ⟨low, high, a, b, c, d⟩,
      fun ⟨low, high, a, b, c, d⟩ => ⟨low, high, a, b, c, d⟩⟩
  rw [spelled]
  simp only [secondBounds, tailWithin, ← UInt8.toNat_inj, UInt8.reduceToNat]
  split_ifs <;>
    simp only [UInt8.le_iff_toNat_le, UInt8.reduceToNat, Bool.and_eq_true, decide_eq_true_eq] <;>
    omega

/-- The check on a later octet is that it lies between 80 and BF. -/
theorem tail_within_iff (octet : UInt8) :
    tailWithin 0x80 0xBF (some octet) = true ↔ 0x80 ≤ octet.toNat ∧ octet.toNat ≤ 0xBF := by
  simp only [tailWithin, UInt8.le_iff_toNat_le, UInt8.reduceToNat, Bool.and_eq_true,
    decide_eq_true_eq]

/-- The lead octets of each width. -/
theorem lead_range (lead : UInt8) :
    (leadWidth lead = 1 ↔ lead.toNat < 0x80) ∧
      (leadWidth lead = 2 ↔ 0xC2 ≤ lead.toNat ∧ lead.toNat ≤ 0xDF) ∧
      (leadWidth lead = 3 ↔ 0xE0 ≤ lead.toNat ∧ lead.toNat ≤ 0xEF) ∧
      (leadWidth lead = 4 ↔ 0xF0 ≤ lead.toNat ∧ lead.toNat ≤ 0xF4) := by
  rw [lead_width_eq]
  refine ⟨?_, ?_, ?_, ?_⟩ <;> constructor <;> intro given <;> split_ifs at given ⊢ <;> omega

/-- An octet behind the second one. -/
def Continues (octet : UInt8) : Prop := 0x80 ≤ octet.toNat ∧ octet.toNat ≤ 0xBF

section Codes

variable {lead second third fourth : UInt8}

/-- Two octets spell a code point of five and six bits. -/
theorem code_point_two (width : leadWidth lead = 2) :
    codePoint lead [second] = lead.toNat % 32 * 64 + second.toNat % 64 := by
  rw [codePoint, width]
  rfl

/-- Three octets spell a code point of four, six and six bits. -/
theorem code_point_three (width : leadWidth lead = 3) :
    codePoint lead [second, third] =
      (lead.toNat % 16 * 64 + second.toNat % 64) * 64 + third.toNat % 64 := by
  rw [codePoint, width]
  rfl

/-- Four octets spell a code point of three and three times six bits. -/
theorem code_point_four (width : leadWidth lead = 4) :
    codePoint lead [second, third, fourth] =
      ((lead.toNat % 8 * 64 + second.toNat % 64) * 64 + third.toNat % 64) * 64 +
        fourth.toNat % 64 := by
  rw [codePoint, width]
  rfl

/-- Two octets that are accepted spell their code, and so do three and four. -/
theorem two_spell (width : leadWidth lead = 2)
    (within : SecondWithin lead second) : Spells [lead, second] (codePoint lead [second]) := by
  obtain ⟨low, high⟩ := (lead_range lead).2.1.mp width
  obtain ⟨secondLow, secondHigh, -, -, -, -⟩ := within
  rw [code_point_two width]
  generalize value : lead.toNat % 32 * 64 + second.toNat % 64 = scalar
  have first : lead = UInt8.ofNat (scalar / 64 + 0xC0) := octet_of_value (by omega)
  have later : second = UInt8.ofNat (scalar % 64 + 0x80) := octet_of_value (by omega)
  rw [first, later]
  exact .two scalar (by omega) (by omega)

/-- Three octets within the bounds spell their code point. -/
theorem three_spell (width : leadWidth lead = 3)
    (within : SecondWithin lead second) (continues : Continues third) :
    Spells [lead, second, third] (codePoint lead [second, third]) := by
  obtain ⟨low, high⟩ := (lead_range lead).2.2.1.mp width
  obtain ⟨secondLow, secondHigh, long, surrogate, -, -⟩ := within
  obtain ⟨thirdLow, thirdHigh⟩ := continues
  rw [code_point_three width]
  generalize value : (lead.toNat % 16 * 64 + second.toNat % 64) * 64 + third.toNat % 64 = scalar
  have first : lead = UInt8.ofNat (scalar / 4096 + 0xE0) := octet_of_value (by omega)
  have middle : second = UInt8.ofNat (scalar / 64 % 64 + 0x80) := octet_of_value (by omega)
  have later : third = UInt8.ofNat (scalar % 64 + 0x80) := octet_of_value (by omega)
  rw [first, middle, later]
  exact .three scalar (by omega) (by omega) (by omega)

/-- Four octets within the bounds spell their code point. -/
theorem four_spell (width : leadWidth lead = 4)
    (within : SecondWithin lead second) (continues : Continues third)
    (last : Continues fourth) :
    Spells [lead, second, third, fourth] (codePoint lead [second, third, fourth]) := by
  obtain ⟨low, high⟩ := (lead_range lead).2.2.2.mp width
  obtain ⟨secondLow, secondHigh, -, -, long, bound⟩ := within
  obtain ⟨thirdLow, thirdHigh⟩ := continues
  obtain ⟨fourthLow, fourthHigh⟩ := last
  rw [code_point_four width]
  generalize value : ((lead.toNat % 8 * 64 + second.toNat % 64) * 64 + third.toNat % 64) * 64 +
    fourth.toNat % 64 = scalar
  have first : lead = UInt8.ofNat (scalar / 262144 + 0xF0) := octet_of_value (by omega)
  have middle : second = UInt8.ofNat (scalar / 4096 % 64 + 0x80) := octet_of_value (by omega)
  have behind : third = UInt8.ofNat (scalar / 64 % 64 + 0x80) := octet_of_value (by omega)
  have later : fourth = UInt8.ofNat (scalar % 64 + 0x80) := octet_of_value (by omega)
  rw [first, middle, behind, later]
  exact .four scalar (by omega) (by omega)

end Codes

/-- What has a first octet begins with it. -/
theorem first_there {items : Bytes} {first : UInt8} (there : items[0]? = some first) :
    ∃ more, items = first :: more := by
  cases items with
  | nil => cases there
  | cons other more => exact ⟨more, by rw [Option.some.inj there]⟩

/-- What follows a lead when octets are accepted behind it. -/
theorem accepted_forms (lead : UInt8) (rest : Bytes) :
    acceptedTail lead rest = 0 ∨
    (∃ second more, rest = second :: more ∧ SecondWithin lead second ∧
      acceptedTail lead rest = 1) ∨
    (∃ second third more, rest = second :: third :: more ∧ SecondWithin lead second ∧
      Continues third ∧ acceptedTail lead rest = 2) ∨
    ∃ second third fourth more, rest = second :: third :: fourth :: more ∧
      SecondWithin lead second ∧ Continues third ∧ Continues fourth ∧
      acceptedTail lead rest = 3 := by
  have octet (low high : UInt8) (index : Nat)
      (within : ¬(!tailWithin low high rest[index]?) = true) :
      ∃ found, rest[index]? = some found ∧ tailWithin low high (some found) = true := by
    cases there : rest[index]? with
    | none => simp [there, tailWithin] at within
    | some found => exact ⟨found, rfl, by simpa [there] using within⟩
  unfold acceptedTail
  split_ifs with narrow outside two beyond three last
  · exact .inl rfl
  · exact .inl rfl
  all_goals
    obtain ⟨second, there, within⟩ := octet _ _ 0 outside
    rw [second_within_iff] at within
    obtain ⟨more, rfl⟩ := first_there there
  · exact .inr (.inl ⟨second, more, rfl, within, rfl⟩)
  · exact .inr (.inl ⟨second, more, rfl, within, rfl⟩)
  all_goals
    obtain ⟨third, there, continues⟩ := octet _ _ 1 beyond
    rw [tail_within_iff] at continues
    obtain ⟨more, rfl⟩ := first_there there
  · exact .inr (.inr (.inl ⟨second, third, more, rfl, within, continues, rfl⟩))
  · exact .inr (.inr (.inl ⟨second, third, more, rfl, within, continues, rfl⟩))
  · obtain ⟨fourth, there, ends⟩ := octet _ _ 2 last
    rw [tail_within_iff] at ends
    obtain ⟨more, rfl⟩ := first_there there
    exact .inr (.inr (.inr ⟨second, third, fourth, more, rfl, within, continues, ends, rfl⟩))

/-- The octets that are accepted as a whole character spell its code. -/
theorem complete_spells (lead : UInt8) (rest : Bytes)
    (complete : leadWidth lead = acceptedTail lead rest + 1) :
    Spells (lead :: rest.take (acceptedTail lead rest))
      (codePoint lead (rest.take (acceptedTail lead rest))) := by
  obtain nothing | ⟨second, more, rfl, within, one⟩ |
    ⟨second, third, more, rfl, within, continues, two⟩ |
    ⟨second, third, fourth, more, rfl, within, continues, last, three⟩ :=
      accepted_forms lead rest
  · rw [nothing] at complete ⊢
    have spelled := Spells.one lead.toNat ((lead_range lead).1.mp complete)
    rw [List.take_zero, codePoint, complete]
    rwa [UInt8.ofNat_toNat] at spelled
  · rw [one] at complete ⊢
    exact two_spell complete within
  · rw [two] at complete ⊢
    exact three_spell complete within continues
  · rw [three] at complete ⊢
    exact four_spell complete within continues last

/-- A second octet within the bounds passes the check. -/
theorem second_accepted {lead second : UInt8} (within : SecondWithin lead second) :
    ¬(!tailWithin (secondBounds lead).1 (secondBounds lead).2 (some second)) = true := by
  rw [(second_within_iff lead second).mpr within]
  decide

/-- A later octet that continues passes the check. -/
theorem later_accepted {octet : UInt8} (continues : Continues octet) :
    ¬(!tailWithin 0x80 0xBF (some octet)) = true := by
  rw [(tail_within_iff octet).mpr continues]
  decide

/-- The octets that spell a value are accepted as a whole character, whatever follows. -/
theorem spelled_accepted {lead : UInt8} {tail : Bytes} {value : Nat}
    (spelled : Spells (lead :: tail) value) (rest : Bytes) :
    leadWidth lead = tail.length + 1 ∧ acceptedTail lead (tail ++ rest) = tail.length ∧
      codePoint lead tail = value := by
  have later (number : Nat) : (UInt8.ofNat (number % 64 + 0x80)).toNat = number % 64 + 0x80 :=
    octet_value (by omega)
  have follows (number : Nat) : Continues (UInt8.ofNat (number % 64 + 0x80)) := by
    rw [Continues, later]
    omega
  cases spelled with
  | one _ narrow =>
    have first : (UInt8.ofNat value).toNat = value := octet_value (by omega)
    have width : leadWidth (UInt8.ofNat value) = 1 := (lead_range _).1.mpr (by omega)
    refine ⟨width, ?_, ?_⟩
    · rw [acceptedTail, width, if_pos (by decide)]
      rfl
    · rw [codePoint, width, List.foldl_nil]
      exact first
  | two _ wide narrow =>
    have first : (UInt8.ofNat (value / 64 + 0xC0)).toNat = value / 64 + 0xC0 :=
      octet_value (by omega)
    have second := later value
    have width : leadWidth (UInt8.ofNat (value / 64 + 0xC0)) = 2 :=
      (lead_range _).2.1.mpr (by omega)
    have within : SecondWithin (UInt8.ofNat (value / 64 + 0xC0))
        (UInt8.ofNat (value % 64 + 0x80)) := by
      constructor <;> omega
    refine ⟨width, ?_, ?_⟩
    · rw [acceptedTail, width, if_neg (by decide)]
      exact (if_neg (second_accepted within)).trans (if_pos (by decide))
    · rw [code_point_two width]
      omega
  | three _ wide narrow scalar =>
    have first : (UInt8.ofNat (value / 4096 + 0xE0)).toNat = value / 4096 + 0xE0 :=
      octet_value (by omega)
    have second := later (value / 64)
    have third := later value
    have width : leadWidth (UInt8.ofNat (value / 4096 + 0xE0)) = 3 :=
      (lead_range _).2.2.1.mpr (by omega)
    have within : SecondWithin (UInt8.ofNat (value / 4096 + 0xE0))
        (UInt8.ofNat (value / 64 % 64 + 0x80)) := by
      constructor <;> omega
    refine ⟨width, ?_, ?_⟩
    · rw [acceptedTail, width, if_neg (by decide)]
      refine (if_neg (second_accepted within)).trans ((if_neg (by decide)).trans ?_)
      exact (if_neg (later_accepted (follows value))).trans (if_pos (by decide))
    · rw [code_point_three width]
      omega
  | four _ wide narrow =>
    have first : (UInt8.ofNat (value / 262144 + 0xF0)).toNat = value / 262144 + 0xF0 :=
      octet_value (by omega)
    have second := later (value / 4096)
    have third := later (value / 64)
    have fourth := later value
    have width : leadWidth (UInt8.ofNat (value / 262144 + 0xF0)) = 4 :=
      (lead_range _).2.2.2.mpr (by omega)
    have within : SecondWithin (UInt8.ofNat (value / 262144 + 0xF0))
        (UInt8.ofNat (value / 4096 % 64 + 0x80)) := by
      constructor <;> omega
    refine ⟨width, ?_, ?_⟩
    · rw [acceptedTail, width, if_neg (by decide)]
      refine (if_neg (second_accepted within)).trans ((if_neg (by decide)).trans ?_)
      refine (if_neg (later_accepted (follows (value / 64)))).trans ((if_neg (by decide)).trans ?_)
      exact if_neg (later_accepted (follows value))
    · rw [code_point_four width]
      omega

end Accepting

section Decoding

/-- The character that stands for ill-formed octets. -/
def replacement : Char := Char.ofNat 0xFFFD

/-- The characters of lossily decoded octets. -/
def lossyChars (bytes : Bytes) : List Char := repairedChars bytes.length bytes

/-- With enough fuel the amount of it has no meaning. -/
theorem repaired_fuel (fuel more : Nat) (bytes : Bytes) (enough : bytes.length ≤ fuel)
    (plenty : bytes.length ≤ more) : repairedChars fuel bytes = repairedChars more bytes := by
  induction fuel generalizing more bytes with
  | zero =>
    obtain rfl := List.eq_nil_of_length_eq_zero (Nat.le_zero.mp enough)
    cases more <;> rfl
  | succ fuel inductionHypothesis =>
    cases bytes with
    | nil => cases more <;> rfl
    | cons lead rest =>
      rw [List.length_cons] at enough plenty
      obtain ⟨more, rfl⟩ : ∃ less, more = less + 1 := ⟨more - 1, by omega⟩
      rw [repairedChars, repairedChars]
      congr 1
      apply inductionHypothesis <;> rw [List.length_drop] <;> omega

/-- A character is taken from the front, or ill-formed octets are replaced. -/
theorem lossy_chars_cons (lead : UInt8) (rest : Bytes) :
    lossyChars (lead :: rest) =
      (if leadWidth lead = acceptedTail lead rest + 1 then
        Char.ofNat (codePoint lead (rest.take (acceptedTail lead rest))) else replacement) ::
      lossyChars (rest.drop (acceptedTail lead rest)) := by
  rw [lossyChars, List.length_cons, repairedChars]
  congr 1
  refine repaired_fuel _ _ _ ?_ (Nat.le_refl _)
  rw [List.length_drop]
  exact Nat.sub_le _ _

/-- The octets of a character decode to it. -/
theorem lossy_chars_encoded (char : Char) (rest : Bytes) :
    lossyChars (String.utf8EncodeChar char ++ rest) = char :: lossyChars rest := by
  have spelled := encode_spells char
  cases encoded : String.utf8EncodeChar char with
  | nil =>
    rw [encoded] at spelled
    cases spelled
  | cons lead tail =>
    rw [encoded] at spelled
    obtain ⟨width, accepted, code⟩ := spelled_accepted spelled rest
    rw [List.cons_append, lossy_chars_cons, accepted, if_pos width, List.take_left,
      List.drop_left, code, Char.ofNat_toNat]

/-- The octets of a text decode to it. -/
theorem lossy_chars_text (chars : List Char) (rest : Bytes) :
    lossyChars (chars.flatMap String.utf8EncodeChar ++ rest) = chars ++ lossyChars rest := by
  induction chars with
  | nil => rfl
  | cons char chars inductionHypothesis =>
    rw [List.flatMap_cons, List.append_assoc, lossy_chars_encoded, inductionHypothesis]
    rfl

/-- The characters of a text are read back from its own octets. -/
theorem lossy_chars_own (chars : List Char) :
    lossyChars (chars.flatMap String.utf8EncodeChar) = chars := by
  have decoded := lossy_chars_text chars []
  have empty : lossyChars [] = [] := rfl
  rwa [List.append_nil, empty, List.append_nil] at decoded

/-- The lossy text of a string is spelled by its lossy characters. -/
theorem from_utf8_lossy_chars (bytes : Bytes) :
    fromUtf8Lossy bytes = String.ofList (lossyChars bytes) := by
  rw [fromUtf8Lossy]
  cases decoded : fromUtf8 bytes with
  | none => rfl
  | some text =>
    have spelled := from_utf8_some bytes text decoded
    rw [← String.ofList_toList (s := text), as_bytes_of_list] at spelled
    have chars := lossy_chars_own text.toList
    rw [spelled] at chars
    rw [chars, String.ofList_toList]

/-- Octets taken apart into those of characters and ill-formed ones. -/
inductive Repaired : Bytes → List Char → Prop where
  | nil : Repaired [] []
  | whole (char : Char) {rest : Bytes} {chars : List Char} (later : Repaired rest chars) :
      Repaired (String.utf8EncodeChar char ++ rest) (char :: chars)
  | broken {octets rest : Bytes} {chars : List Char} (nonempty : octets ≠ [])
      (later : Repaired rest chars) : Repaired (octets ++ rest) (replacement :: chars)

/-- Lossy decoding takes octets apart so. The induction is on their number. -/
theorem lossy_repaired (bytes : Bytes) : Repaired bytes (lossyChars bytes) := by
  induction measure : bytes.length using Nat.strongRecOn generalizing bytes with
  | ind count inductionHypothesis =>
    cases bytes with
    | nil => exact .nil
    | cons lead rest =>
      have shorter : (rest.drop (acceptedTail lead rest)).length < count := by
        rw [← measure, List.length_cons, List.length_drop]
        omega
      have later := inductionHypothesis _ shorter _ rfl
      have parts : lead :: rest = lead :: rest.take (acceptedTail lead rest) ++
          rest.drop (acceptedTail lead rest) := by
        rw [List.cons_append, List.take_append_drop]
      rw [lossy_chars_cons]
      by_cases complete : leadWidth lead = acceptedTail lead rest + 1
      · rw [if_pos complete, parts, ← encode_spelled (complete_spells lead rest complete)]
        exact .whole _ later
      · rw [if_neg complete, parts]
        exact .broken (List.cons_ne_nil _ _) later

/-- Without the replacement character the octets are those of the text. -/
theorem repaired_exact {bytes : Bytes} {chars : List Char} (repaired : Repaired bytes chars)
    (intact : replacement ∉ chars) : bytes = chars.flatMap String.utf8EncodeChar := by
  induction repaired with
  | nil => rfl
  | whole char later inductionHypothesis =>
    rw [List.flatMap_cons, ← inductionHypothesis fun member => intact (.tail _ member)]
  | broken some later inductionHypothesis => exact absurd (.head _) intact

/-- The fewest octets that decode to a character. -/
def shortest (char : Char) : Bytes :=
  if char = replacement then [0xFF] else String.utf8EncodeChar char

/-- No octets decode to a text that are fewer than those. -/
theorem repaired_width {bytes : Bytes} {chars : List Char} (repaired : Repaired bytes chars) :
    (chars.flatMap shortest).length ≤ bytes.length := by
  induction repaired with
  | nil => exact Nat.le_refl _
  | whole char later inductionHypothesis =>
    have least : (shortest char).length ≤ (String.utf8EncodeChar char).length := by
      rw [shortest]
      split
      · rw [String.length_utf8EncodeChar]
        exact char.utf8Size_pos
      · exact Nat.le_refl _
    rw [List.flatMap_cons, List.length_append, List.length_append]
    omega
  | broken some later inductionHypothesis =>
    have positive := List.length_pos_of_ne_nil some
    have least : (shortest replacement).length = 1 := rfl
    rw [List.flatMap_cons, List.length_append, List.length_append, least]
    omega

/-- An octet that leads nothing is replaced by itself. -/
theorem lossy_chars_broken (rest : Bytes) :
    lossyChars (0xFF :: rest) = replacement :: lossyChars rest := by
  have width : leadWidth 0xFF = 0 := by decide
  have accepted : acceptedTail 0xFF rest = 0 := by
    rw [acceptedTail, width]
    rfl
  rw [lossy_chars_cons, accepted, width, if_neg (by decide), List.drop_zero]

/-- And those decode to it. -/
theorem lossy_chars_shortest (chars : List Char) : lossyChars (chars.flatMap shortest) = chars := by
  induction chars with
  | nil => rfl
  | cons char chars inductionHypothesis =>
    rw [List.flatMap_cons, shortest]
    split
    · next same => rw [List.singleton_append, lossy_chars_broken, inductionHypothesis, same]
    · rw [lossy_chars_encoded, inductionHypothesis]

/-- They are fewer than the octets of the text if it has the replacement character. -/
theorem shortest_shorter {chars : List Char} (broken : replacement ∈ chars) :
    (chars.flatMap shortest).length < (chars.flatMap String.utf8EncodeChar).length := by
  obtain ⟨front, rest, rfl⟩ := List.append_of_mem broken
  have least (others : List Char) :
      (others.flatMap shortest).length ≤ (others.flatMap String.utf8EncodeChar).length := by
    have fewest := repaired_width (lossy_repaired (others.flatMap String.utf8EncodeChar))
    rwa [lossy_chars_own] at fewest
  have fewer : (shortest replacement).length = 1 := rfl
  have three : (String.utf8EncodeChar replacement).length = 3 := rfl
  have inFront := least front
  have behind := least rest
  simp only [List.flatMap_append, List.flatMap_cons, List.length_append, fewer, three]
  omega

/-- An ASCII octet continues no character. -/
theorem accepted_tail_stop (lead : UInt8) (front : Bytes) {octet : UInt8}
    (ascii : octet.toNat < 0x80) (rest : Bytes) :
    acceptedTail lead (front ++ octet :: rest) = acceptedTail lead front := by
  have second : tailWithin (secondBounds lead).1 (secondBounds lead).2 (some octet) = false := by
    rw [Bool.eq_false_iff, Ne, second_within_iff]
    intro within
    have low := within.low
    omega
  have later : tailWithin 0x80 0xBF (some octet) = false := by
    rw [Bool.eq_false_iff, Ne, tail_within_iff]
    omega
  have absent (low high : UInt8) : tailWithin low high none = false := rfl
  match front with
  | [] =>
    simp only [acceptedTail, List.nil_append, List.getElem?_cons_zero, List.getElem?_nil, second,
      absent]
    rfl
  | [first] =>
    simp only [acceptedTail, List.cons_append, List.nil_append, List.getElem?_cons_zero,
      List.getElem?_cons_succ, List.getElem?_nil, later, absent]
    rfl
  | [first, other] =>
    simp only [acceptedTail, List.cons_append, List.nil_append, List.getElem?_cons_zero,
      List.getElem?_cons_succ, List.getElem?_nil, later, absent]
  | first :: other :: third :: more => rfl

/-- An ASCII octet is decoded by itself. -/
theorem lossy_chars_split (front : Bytes) {octet : UInt8} (ascii : octet.toNat < 0x80)
    (rest : Bytes) :
    lossyChars (front ++ octet :: rest) =
      lossyChars front ++ Char.ofNat octet.toNat :: lossyChars rest := by
  induction measure : front.length using Nat.strongRecOn generalizing front with
  | ind count inductionHypothesis =>
    cases front with
    | nil =>
      have spelled := Spells.one octet.toNat ascii
      have decoded := lossy_chars_encoded (Char.ofNat octet.toNat) rest
      rwa [encode_spelled spelled, UInt8.ofNat_toNat] at decoded
    | cons lead front =>
      have there := (accepted_tail_there lead front).1
      have shorter : (front.drop (acceptedTail lead front)).length < count := by
        rw [← measure, List.length_cons, List.length_drop]
        omega
      rw [List.cons_append, lossy_chars_cons, lossy_chars_cons, accepted_tail_stop lead front ascii,
        List.take_append_of_le_length there, List.drop_append_of_le_length there,
        inductionHypothesis _ shorter _ rfl]
      rfl

end Decoding

end OmniProxy.LossyText
