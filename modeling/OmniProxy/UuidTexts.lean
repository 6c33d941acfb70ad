import OmniProxy.Digests

/-!
# Texts of UUIDs

A UUID is written as its thirty-two hexadecimal digits in lower case with hyphens
after the eighth, twelfth, sixteenth and twentieth. The reader keeps the
hexadecimal digits of a text and skips everything else, so it accepts both written
forms in either case, and every other text whose digits are those of a UUID.
-/

namespace OmniProxy.UuidTexts

open ByteStrings Digests

/-- The values of the thirty-two digits of a UUID. -/
def nibbles (u : Bytes) : List Nat :=
  u.flatMap fun octet => [octet.toNat / 16, octet.toNat % 16]

/-- Two lower-case hexadecimal digits of an octet. -/
def hexPair (octet : UInt8) : List Char :=
  [Nat.digitChar (octet.toNat / 16), Nat.digitChar (octet.toNat % 16)]

/-- Digits with hyphens after the eighth, twelfth, sixteenth and twentieth. -/
def hyphenated (digits : List Char) : List Char :=
  digits.take 8 ++ '-' :: (digits.drop 8).take 4 ++ '-' :: (digits.drop 12).take 4 ++
    '-' :: (digits.drop 16).take 4 ++ '-' :: digits.drop 20

/-- The text of a UUID. -/
def uuidToString (u : Octets 16) : String :=
  String.ofList (hyphenated (u.toList.flatMap hexPair))

example : uuidToString ⟨[0xb8, 0x31, 0x38, 0x1d, 0x63, 0x24, 0x4d, 0x53, 0xad, 0x4f, 0x8c, 0xda,
    0x48, 0xb3, 0x08, 0x11], rfl⟩ = "b831381d-6324-4d53-ad4f-8cda48b30811" := by decide +kernel

/-- A text writes a UUID: its digits in either case, plain or with the hyphens. -/
def Writes (text : String) (u : Octets 16) : Prop :=
  ∃ digits : List Char, digits.map hexDigit = (nibbles u.toList).map some ∧
    (text = String.ofList digits ∨ text = String.ofList (hyphenated digits))

/-- Octets are put together from the digits they are taken apart into. -/
theorem hex_octets_nibbles (octets : Bytes) : hexOctets (nibbles octets) = octets := by
  induction octets with
  | nil => rfl
  | cons octet octets inductionHypothesis =>
    have whole : 16 * (octet.toNat / 16) + octet.toNat % 16 = octet.toNat := Nat.div_add_mod _ _
    rw [nibbles, List.flatMap_cons]
    change UInt8.ofNat _ :: hexOctets (nibbles octets) = _
    rw [whole, UInt8.ofNat_toNat, inductionHypothesis]

/-- Digits are taken apart from the octets they are put together into. -/
theorem nibbles_hex_octets (digits : List Nat) (small : ∀ digit ∈ digits, digit < 16)
    (even : digits.length % 2 = 0) : nibbles (hexOctets digits) = digits := by
  induction digits using hexOctets.induct with
  | case1 => rfl
  | case2 digit => simp at even
  | case3 high low rest inductionHypothesis =>
    have highSmall := small high (by simp)
    have lowSmall := small low (by simp)
    have value : (UInt8.ofNat (16 * high + low)).toNat = 16 * high + low := by
      rw [UInt8.toNat_ofNat']
      omega
    have quotient : (16 * high + low) / 16 = high := by omega
    have remainder : (16 * high + low) % 16 = low := by omega
    have others := inductionHypothesis (fun digit member => small digit (by simp [member])) (by
      rw [List.length_cons, List.length_cons] at even
      omega)
    rw [hexOctets, nibbles, List.flatMap_cons, value, quotient, remainder]
    exact congrArg (fun rest => high :: low :: rest) others

/-- A digit has a value below sixteen. -/
theorem hex_digit_small (char : Char) (digit : Nat) (value : hexDigit char = some digit) :
    digit < 16 := by
  have code (top : Char) (below : char ≤ top) : char.toNat ≤ top.toNat := below
  unfold hexDigit at value
  split_ifs at value with number small capital
  · have bound := code '9' number.2
    rw [← Option.some.inj value]
    simp only [Char.reduceToNat] at bound ⊢
    omega
  · have bound := code 'f' small.2
    rw [← Option.some.inj value]
    simp only [Char.reduceToNat] at bound ⊢
    omega
  · have bound := code 'F' capital.2
    rw [← Option.some.inj value]
    simp only [Char.reduceToNat] at bound ⊢
    omega

/-- An octet has two digits. -/
theorem nibbles_length (octets : Bytes) : (nibbles octets).length = 2 * octets.length := by
  induction octets with
  | nil => rfl
  | cons octet octets inductionHypothesis =>
    rw [nibbles, List.flatMap_cons, List.length_append, List.length_cons, ← nibbles,
      inductionHypothesis, List.length_cons, List.length_cons, List.length_nil]
    omega

/-- A text is read as the UUID whose digits are the hexadecimal digits of the text:
every other character is skipped. -/
theorem parse_uuid_digits (text : String) (u : Octets 16) :
    parseUuid text = some u ↔ text.toList.filterMap hexDigit = nibbles u.toList := by
  have small : ∀ digit ∈ text.toList.filterMap hexDigit, digit < 16 := by
    intro digit member
    obtain ⟨char, -, value⟩ := List.mem_filterMap.mp member
    exact hex_digit_small char digit value
  unfold parseUuid
  constructor
  · intro parsed
    by_cases count : (text.toList.filterMap hexDigit).length = 32
    · have made := Option.some.inj ((dif_pos count).symm.trans parsed)
      rw [← made, List.Vector.toList_mk, nibbles_hex_octets _ small (by rw [count])]
    · exact absurd ((dif_neg count).symm.trans parsed) (by simp)
  · intro digits
    have count : (text.toList.filterMap hexDigit).length = 32 := by
      rw [digits, nibbles_length, List.Vector.toList_length]
    refine (dif_pos count).trans (congrArg some (List.Vector.eq _ _ ?_))
    rw [List.Vector.toList_mk, digits, hex_octets_nibbles]

/-- Hexadecimal digits among hyphens are the digits. -/
theorem hyphenated_digits (digits : List Char) :
    (hyphenated digits).filterMap hexDigit = digits.filterMap hexDigit := by
  have hyphen : hexDigit '-' = none := by decide
  conv_rhs => rw [← List.take_append_drop 8 digits, ← List.take_append_drop 4 (digits.drop 8),
    List.drop_drop, ← List.take_append_drop 4 (digits.drop (8 + 4)), List.drop_drop,
    ← List.take_append_drop 4 (digits.drop (8 + 4 + 4)), List.drop_drop]
  simp only [hyphenated, List.filterMap_append, List.filterMap_cons, hyphen, List.append_assoc]

/-- Digits that all have values keep all of them. -/
theorem values_filtered (digits : List Char) (values : List Nat)
    (same : digits.map hexDigit = values.map some) : digits.filterMap hexDigit = values := by
  have filtered := congrArg (List.filterMap id) same
  rw [List.filterMap_map, List.filterMap_map] at filtered
  simpa using filtered

/-- A text that writes a UUID has its digits. -/
theorem writes_digits (text : String) (u : Octets 16) (written : Writes text u) :
    text.toList.filterMap hexDigit = nibbles u.toList := by
  obtain ⟨digits, values, plain | grouped⟩ := written
  · rw [plain, String.toList_ofList, values_filtered digits _ values]
  · rw [grouped, String.toList_ofList, hyphenated_digits, values_filtered digits _ values]

/-- A character of the hyphenated text is one of the digits or a hyphen. -/
theorem hyphenated_member (digits : List Char) (char : Char) (member : char ∈ hyphenated digits) :
    char ∈ digits ∨ char = '-' := by
  have taken (start count : Nat) (inside : char ∈ (digits.drop start).take count) :
      char ∈ digits := List.mem_of_mem_drop (List.mem_of_mem_take inside)
  simp only [hyphenated, List.mem_append, List.mem_cons] at member
  rcases member with
    (((first | hyphen | second) | hyphen | third) | hyphen | fourth) | hyphen | last
  · exact Or.inl (List.mem_of_mem_take first)
  · exact Or.inr hyphen
  · exact Or.inl (taken 8 4 second)
  · exact Or.inr hyphen
  · exact Or.inl (taken 12 4 third)
  · exact Or.inr hyphen
  · exact Or.inl (taken 16 4 fourth)
  · exact Or.inr hyphen
  · exact Or.inl (List.mem_of_mem_drop last)

/-- A text that writes a UUID has only hexadecimal digits and hyphens. -/
theorem writes_characters (text : String) (u : Octets 16) (written : Writes text u) (char : Char)
    (member : char ∈ text.toList) : (hexDigit char).isSome ∨ char = '-' := by
  obtain ⟨digits, values, form⟩ := written
  have digit : char ∈ digits → (hexDigit char).isSome := by
    intro inside
    have image : hexDigit char ∈ digits.map hexDigit := List.mem_map_of_mem inside
    rw [values] at image
    obtain ⟨value, -, same⟩ := List.mem_map.mp image
    rw [← same]
    rfl
  rcases form with plain | grouped
  · rw [plain, String.toList_ofList] at member
    exact Or.inl (digit member)
  · rw [grouped, String.toList_ofList] at member
    exact (hyphenated_member digits char member).imp_left digit

/-- The written digits of an octet. -/
theorem hex_pair_values (octet : UInt8) :
    (hexPair octet).map hexDigit = [octet.toNat / 16, octet.toNat % 16].map some := by
  have digit : ∀ value : Fin 16, hexDigit (Nat.digitChar value.val) = some value.val := by decide
  have bound : octet.toNat < 256 := octet.toNat_lt
  have high := digit ⟨octet.toNat / 16, by omega⟩
  have low := digit ⟨octet.toNat % 16, by omega⟩
  simp only [hexPair, List.map_cons, List.map_nil, high, low]

/-- The text of a UUID writes it. -/
theorem uuid_to_string_writes (u : Octets 16) : Writes (uuidToString u) u := by
  refine ⟨u.toList.flatMap hexPair, ?_, Or.inr rfl⟩
  rw [nibbles, List.map_flatMap, List.map_flatMap]
  exact congrArg (List.flatMap · u.toList) (funext hex_pair_values)

/-- A text is read as a UUID exactly when the hexadecimal digits in it are those of
the UUID; so every text that writes a UUID is read as it, the program's own text
among them, and no text with another number of digits is accepted. -/
theorem parse_uuid_exact (text : String) (u : Octets 16) :
    (parseUuid text = some u ↔ text.toList.filterMap hexDigit = nibbles u.toList) ∧
      (Writes text u → parseUuid text = some u) ∧
      parseUuid (uuidToString u) = some u ∧
      ((text.toList.filterMap hexDigit).length ≠ 32 → parseUuid text = none) := by
  refine ⟨parse_uuid_digits text u, fun written => ?_, ?_, fun other => dif_neg other⟩
  · exact (parse_uuid_digits text u).mpr (writes_digits text u written)
  · exact (parse_uuid_digits _ u).mpr (writes_digits _ u (uuid_to_string_writes u))

/-- A text in capitals without hyphens writes a UUID and is read as it. -/
theorem parse_uuid_exact_capitals :
    parseUuid "B831381D63244D53AD4F8CDA48B30811" = some ⟨[0xb8, 0x31, 0x38, 0x1d, 0x63, 0x24,
      0x4d, 0x53, 0xad, 0x4f, 0x8c, 0xda, 0x48, 0xb3, 0x08, 0x11], rfl⟩ :=
  (parse_uuid_exact "B831381D63244D53AD4F8CDA48B30811" _).2.1
    ⟨"B831381D63244D53AD4F8CDA48B30811".toList, by decide, Or.inl (String.ofList_toList).symm⟩

/-- A text with characters of neither kind is read as a UUID that it does not write. -/
theorem parse_uuid_skips :
    parseUuid "z{00000000000000000000000000000000}" = some (zeroOctets 16) ∧
      ¬Writes "z{00000000000000000000000000000000}" (zeroOctets 16) := by
  refine ⟨by decide, fun written => ?_⟩
  have characters := writes_characters _ _ written 'z' (by decide)
  revert characters
  decide

end OmniProxy.UuidTexts
