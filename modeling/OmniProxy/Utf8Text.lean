import OmniProxy.ByteStrings

/-!
# Octets of texts

A text is encoded character by character, and a character below 128 is its own
octet. The first octet of any other character is at least 0xC0 and the others lie
below it, so octets below 0xC0 at the front of a text are whole characters. Lossy
decoding invents no ASCII character other than the null character.

Nothing here refers to a particular program.
-/

namespace OmniProxy.Utf8Text

open ByteStrings

/-- The octets of a text are those of its characters. -/
theorem as_bytes_of_list (chars : List Char) :
    asBytes (String.ofList chars) = chars.flatMap String.utf8EncodeChar := by
  rw [asBytes, String.toByteArray_ofList, List.utf8Encode, List.data_toByteArray]

/-- The octets of two texts in sequence are those of the one and then of the other. -/
theorem as_bytes_append (front back : String) :
    asBytes (front ++ back) = asBytes front ++ asBytes back := by
  simp [asBytes]

/-- A character is ASCII when its small letter is. -/
theorem to_lower_ascii_iff (char : Char) : char.toLower.toNat < 128 ↔ char.toNat < 128 := by
  by_cases capital : char.val ≥ 'A'.val ∧ char.val ≤ 'Z'.val
  · have first : 65 ≤ char.toNat := UInt32.le_iff_toNat_le.mp capital.1
    have last : char.toNat ≤ 90 := UInt32.le_iff_toNat_le.mp capital.2
    have lowered : char.toLower.val = char.val + 32 := congrArg Char.val (dif_pos capital)
    have added : char.toLower.toNat = char.toNat + 32 := by
      change char.toLower.val.toNat = _
      rw [lowered, UInt32.toNat_add]
      exact Nat.mod_eq_of_lt (by change char.toNat + 32 < _; omega)
    omega
  · have same : char.toLower = char := dif_neg capital
    rw [same]

/-- Every character takes at least one octet. -/
theorem chars_le_octets (chars : List Char) :
    chars.length ≤ (chars.flatMap String.utf8EncodeChar).length := by
  induction chars with
  | nil => exact Nat.le_refl _
  | cons char chars inductionHypothesis =>
    have positive := char.utf8Size_pos
    rw [List.flatMap_cons, List.length_append, String.length_utf8EncodeChar, List.length_cons]
    omega

/-- Octets that decode strictly are the octets of the text. -/
theorem from_utf8_some (bytes : Bytes) (text : String) (decoded : fromUtf8 bytes = some text) :
    asBytes text = bytes := by
  rw [fromUtf8, String.fromUTF8?] at decoded
  split at decoded
  · rw [← Option.some.inj decoded]
    exact List.toList_toArray
  · simp at decoded

/-- Octets that are text are decoded to it, also lossily. -/
theorem text_decodes {octets : Bytes} (text : fromUtf8 octets ≠ none) :
    asBytes (fromUtf8Lossy octets) = octets := by
  obtain ⟨name, spelled⟩ := Option.ne_none_iff_exists'.mp text
  rw [← from_utf8_some octets name spelled, from_utf8_lossy_as_bytes]

/-- Characters that are encoded at the front of others are the first of them. -/
theorem encoded_front (front others : List Char) (more : Bytes)
    (same : front.flatMap String.utf8EncodeChar ++ more = others.flatMap String.utf8EncodeChar) :
    ∃ rest, others = front ++ rest := by
  induction front generalizing others with
  | nil => exact ⟨others, rfl⟩
  | cons char front inductionHypothesis =>
    cases others with
    | nil =>
      have length := congrArg List.length same
      have positive := char.utf8Size_pos
      simp only [List.flatMap_cons, List.flatMap_nil, List.length_append, List.length_nil,
        String.length_utf8EncodeChar] at length
      omega
    | cons other others =>
      rw [List.flatMap_cons, List.flatMap_cons, List.append_assoc] at same
      have decoded := congrArg (fun octets => octets.toByteArray.utf8DecodeChar? 0) same
      simp only [List.toByteArray_append, ByteArray.utf8DecodeChar?_utf8EncodeChar_append] at decoded
      obtain rfl := Option.some.inj decoded
      obtain ⟨rest, rfl⟩ := inductionHypothesis others (List.append_cancel_left same)
      exact ⟨rest, rfl⟩

/-- A text that is decoded from more octets begins with the text decoded from the first. -/
theorem from_utf8_grows (buf more : Bytes) (text longer : String)
    (decoded : fromUtf8 buf = some text) (later : fromUtf8 (buf ++ more) = some longer) :
    ∃ rest, longer.toList = text.toList ++ rest := by
  apply encoded_front text.toList longer.toList more
  rw [← as_bytes_of_list, ← as_bytes_of_list, String.ofList_toList, String.ofList_toList,
    from_utf8_some buf text decoded, from_utf8_some (buf ++ more) longer later]

/-- The octet of an ASCII character. -/
theorem encode_ascii (char : Char) (ascii : char.toNat < 128) :
    String.utf8EncodeChar char = [UInt8.ofNat char.toNat] := by
  have size : char.utf8Size = 1 := by
    rw [Char.utf8Size_eq_one_iff, UInt32.le_iff_toNat_le]
    exact Nat.le_of_lt_succ ascii
  rw [String.utf8EncodeChar_eq_singleton size]
  rfl

/-- An octet with bits set by a mask is at least the mask. -/
theorem masked_octet_ge (octet mask : UInt8) : mask ≤ octet ||| mask := by
  rw [UInt8.le_iff_toNat_le, UInt8.toNat_or]
  exact Nat.right_le_or

/-- The first octet of a character that is not ASCII is at least 0xC0, the others
are at least 0x80. -/
theorem encode_wide (char : Char) (wide : 128 ≤ char.toNat) :
    ∃ first rest, String.utf8EncodeChar char = first :: rest ∧ 0xC0 ≤ first ∧
      ∀ octet ∈ rest, 0x80 ≤ octet := by
  have several : char.utf8Size ≠ 1 := by
    rw [Ne, Char.utf8Size_eq_one_iff, UInt32.le_iff_toNat_le]
    exact Nat.not_le.mpr wide
  have positive := char.utf8Size_pos
  have bounded := char.utf8Size_le_four
  have above (low high : UInt8) (order : low ≤ high) (octet : UInt8) : low ≤ octet ||| high :=
    UInt8.le_trans order (masked_octet_ge octet high)
  obtain two | three | four : char.utf8Size = 2 ∨ char.utf8Size = 3 ∨ char.utf8Size = 4 := by
    omega
  · refine ⟨_, _, String.utf8EncodeChar_eq_cons_cons two, above _ _ (by decide) _, ?_⟩
    simp only [List.forall_mem_cons, List.not_mem_nil, false_imp_iff, implies_true, and_true]
    exact above _ _ (by decide) _
  · refine ⟨_, _, String.utf8EncodeChar_eq_cons_cons_cons three, above _ _ (by decide) _, ?_⟩
    simp only [List.forall_mem_cons, List.not_mem_nil, false_imp_iff, implies_true, and_true]
    exact ⟨above _ _ (by decide) _, above _ _ (by decide) _⟩
  · refine ⟨_, _, String.utf8EncodeChar_eq_cons_cons_cons_cons four, above _ _ (by decide) _, ?_⟩
    simp only [List.forall_mem_cons, List.not_mem_nil, false_imp_iff, implies_true, and_true]
    exact ⟨above _ _ (by decide) _, above _ _ (by decide) _, above _ _ (by decide) _⟩

/-- ASCII characters are their own octets. -/
theorem as_bytes_ascii (chars : List Char) (ascii : ∀ char ∈ chars, char.toNat < 128) :
    asBytes (String.ofList chars) = chars.map fun char => UInt8.ofNat char.toNat := by
  rw [as_bytes_of_list]
  induction chars with
  | nil => rfl
  | cons char chars inductionHypothesis =>
    rw [List.flatMap_cons, encode_ascii char (ascii char List.mem_cons_self),
      inductionHypothesis fun later member => ascii later (List.mem_cons_of_mem char member)]
    rfl

/-- Octets below 0xC0 at the front of a text are whole characters. -/
theorem drop_low_octets (count : Nat) (chars : List Char)
    (low : ∀ octet ∈ (asBytes (String.ofList chars)).take count, octet < 0xC0) :
    (asBytes (String.ofList chars)).drop count = asBytes (String.ofList (chars.drop count)) := by
  simp only [as_bytes_of_list] at low ⊢
  induction count generalizing chars with
  | zero => rfl
  | succ count inductionHypothesis =>
    cases chars with
    | nil => rfl
    | cons char chars =>
      rw [List.flatMap_cons] at low ⊢
      by_cases ascii : char.toNat < 128
      · rw [encode_ascii char ascii] at low ⊢
        exact inductionHypothesis chars fun octet member =>
          low octet (List.mem_cons_of_mem _ member)
      · obtain ⟨first, rest, encoded, high, -⟩ := encode_wide char (by omega)
        have lower : first < 0xC0 := low first (by
          rw [encoded, List.cons_append, List.take_succ_cons]
          exact List.mem_cons_self)
        exact absurd high (UInt8.not_le.mpr lower)

/-- An ASCII octet of a text is one of its characters. -/
theorem ascii_octet_mem (chars : List Char) (char : Char) (ascii : char.toNat < 128)
    (member : UInt8.ofNat char.toNat ∈ asBytes (String.ofList chars)) : char ∈ chars := by
  rw [as_bytes_of_list] at member
  obtain ⟨source, present, encoded⟩ := List.mem_flatMap.mp member
  have value : (UInt8.ofNat char.toNat).toNat = char.toNat := by
    rw [UInt8.toNat_ofNat']
    omega
  by_cases narrow : source.toNat < 128
  · rw [encode_ascii source narrow, List.mem_singleton] at encoded
    have same := congrArg UInt8.toNat encoded
    rw [value, UInt8.toNat_ofNat', Nat.mod_eq_of_lt (by omega)] at same
    rwa [Char.toNat_inj.mp same]
  · obtain ⟨first, rest, spelled, high, others⟩ := encode_wide source (by omega)
    rw [spelled] at encoded
    have above : 0x80 ≤ UInt8.ofNat char.toNat := by
      rcases List.mem_cons.mp encoded with same | later
      · rw [same]
        exact UInt8.le_trans (by decide) high
      · exact others _ later
    rw [UInt8.le_iff_toNat_le, value] at above
    exact absurd ascii (Nat.not_lt.mpr above)

/-- What the number of announced octets says about the lead octet. -/
theorem lead_width_bounds (lead : UInt8) :
    (leadWidth lead = 1 → lead.toNat < 128) ∧ (leadWidth lead = 2 → 2 ≤ lead.toNat % 32) ∧
      (leadWidth lead = 3 → lead = 0xE0 ∨ 1 ≤ lead.toNat % 16) ∧
      (leadWidth lead = 4 → lead = 0xF0 ∨ 1 ≤ lead.toNat % 8) ∧ leadWidth lead ≤ 4 := by
  have bound := lead.toNat_lt
  simp only [leadWidth, UInt8.lt_iff_toNat_lt, UInt8.le_iff_toNat_le, UInt8.reduceToNat,
    Bool.and_eq_true, decide_eq_true_eq, ← UInt8.toNat_inj]
  refine ⟨?_, ?_, ?_, ?_, by split_ifs <;> omega⟩ <;>
  · intro width
    split_ifs at width <;> omega

/-- The octets accepted after a lead are there, and the first of them lies in its
bounds. -/
theorem accepted_tail_there (lead : UInt8) (rest : Bytes) :
    acceptedTail lead rest ≤ rest.length ∧ (0 < acceptedTail lead rest →
      ∃ second more, rest = second :: more ∧ (secondBounds lead).1 ≤ second ∧
        second ≤ (secondBounds lead).2) := by
  have there (low high : UInt8) (index : Nat)
      (within : ¬(!tailWithin low high rest[index]?) = true) : index < rest.length := by
    by_contra short
    rw [List.getElem?_eq_none (by omega)] at within
    simp [tailWithin] at within
  unfold acceptedTail
  split_ifs with narrow outside two third three fourth
  · simp
  · simp
  all_goals
    obtain ⟨second, more, rfl⟩ := List.exists_cons_of_length_pos (there _ _ 0 outside)
    have bounds : (secondBounds lead).1 ≤ second ∧ second ≤ (secondBounds lead).2 := by
      simpa [tailWithin] using outside
  · exact ⟨by simp, fun _ => ⟨second, more, rfl, bounds⟩⟩
  · exact ⟨by simp, fun _ => ⟨second, more, rfl, bounds⟩⟩
  · exact ⟨there _ _ 1 third, fun _ => ⟨second, more, rfl, bounds⟩⟩
  · exact ⟨there _ _ 1 third, fun _ => ⟨second, more, rfl, bounds⟩⟩
  · exact ⟨there _ _ 2 fourth, fun _ => ⟨second, more, rfl, bounds⟩⟩

/-- Each further octet multiplies a code point by 64. -/
theorem code_point_grows (tail : Bytes) (start : Nat) :
    start * 64 ^ tail.length ≤
      tail.foldl (fun value octet => value * 64 + octet.toNat % 64) start := by
  induction tail generalizing start with
  | nil => simp
  | cons octet tail inductionHypothesis =>
    rw [List.length_cons, Nat.pow_succ, Nat.mul_comm (64 ^ tail.length), ← Nat.mul_assoc,
      List.foldl_cons]
    exact Nat.le_trans (Nat.mul_le_mul_right _ (Nat.le_add_right _ _)) (inductionHypothesis _)

/-- The code point of a character of several octets is at least 128. The lead octet
contributes, or the narrower bounds on the octet after it do. -/
theorem code_point_wide (lead : UInt8) (rest : Bytes) (several : 0 < acceptedTail lead rest)
    (complete : leadWidth lead = acceptedTail lead rest + 1) :
    128 ≤ codePoint lead (rest.take (acceptedTail lead rest)) := by
  obtain ⟨there, after⟩ := accepted_tail_there lead rest
  obtain ⟨second, more, rfl, low, high⟩ := after several
  obtain ⟨-, two, three, four, bounded⟩ := lead_width_bounds lead
  generalize acceptedTail lead (second :: more) = taken at *
  obtain ⟨later, rfl⟩ : ∃ later, taken = later + 1 := ⟨taken - 1, by omega⟩
  have width : (more.take later).length = later := by
    rw [List.length_cons] at there
    rw [List.length_take]
    omega
  rw [List.take_succ_cons, codePoint, complete, List.foldl_cons]
  rw [UInt8.le_iff_toNat_le] at low high
  obtain rfl | rfl | rfl : later = 0 ∨ later = 1 ∨ later = 2 := by omega
  · have grows := code_point_grows (more.take 0) (lead.toNat % 32 * 64 + second.toNat % 64)
    have payload := two complete
    rw [width] at grows
    exact Nat.le_trans (by omega) grows
  · have grows := code_point_grows (more.take 1) (lead.toNat % 16 * 64 + second.toNat % 64)
    rw [width] at grows
    refine Nat.le_trans ?_ grows
    rcases three complete with rfl | payload
    · have bounds : secondBounds 0xE0 = (0xA0, 0xBF) := by decide
      simp only [bounds, UInt8.reduceToNat] at low high
      omega
    · omega
  · have grows := code_point_grows (more.take 2) (lead.toNat % 8 * 64 + second.toNat % 64)
    rw [width] at grows
    refine Nat.le_trans ?_ grows
    rcases four complete with rfl | payload
    · have bounds : secondBounds 0xF0 = (0x90, 0xBF) := by decide
      simp only [bounds, UInt8.reduceToNat] at low high
      omega
    · omega

/-- A number is the code of its character, or it is no code and stands for the null
character. -/
theorem char_of_nat_code (code : Nat) :
    (Char.ofNat code).toNat = code ∨ ¬code.isValidChar ∧ (Char.ofNat code).toNat = 0 := by
  by_cases valid : code.isValidChar
  · have found : Char.ofNat code = Char.ofNatAux code valid := dif_pos valid
    rw [found]
    exact .inl rfl
  · have absent : Char.ofNat code = Char.ofNat 0 := dif_neg valid
    rw [absent]
    exact .inr ⟨valid, rfl⟩

/-- Repaired text has no ASCII character whose octet was not there, the null
character aside. -/
theorem repaired_ascii_mem (fuel : Nat) (bytes : Bytes) (char : Char) (visible : 0 < char.toNat)
    (ascii : char.toNat < 128) (member : char ∈ repairedChars fuel bytes) :
    UInt8.ofNat char.toNat ∈ bytes := by
  induction fuel generalizing bytes with
  | zero => simp [repairedChars] at member
  | succ fuel inductionHypothesis =>
    cases bytes with
    | nil => simp [repairedChars] at member
    | cons lead rest =>
      rw [repairedChars] at member
      rcases List.mem_cons.mp member with first | later
      · split at first
        · rename_i complete
          rcases Nat.eq_zero_or_pos (acceptedTail lead rest) with single | several
          · rw [single] at complete first
            have narrow := (lead_width_bounds lead).1 complete
            have value : char.toNat = lead.toNat := by
              rw [first]
              simp only [codePoint, complete, List.take_zero, List.foldl_nil]
              rcases char_of_nat_code lead.toNat with code | ⟨invalid, -⟩
              · exact code
              · exact absurd (.inl (by omega)) invalid
            rw [value, UInt8.ofNat_toNat]
            exact List.mem_cons_self
          · have wide := code_point_wide lead rest several complete
            rw [first] at visible ascii
            rcases char_of_nat_code (codePoint lead (rest.take (acceptedTail lead rest))) with
              code | ⟨-, null⟩ <;> omega
        · rw [first] at ascii
          exact absurd ascii (by decide)
      · exact List.mem_cons_of_mem _ (List.mem_of_mem_drop (inductionHypothesis _ later))

/-- Lossy decoding invents no ASCII character other than the null character. -/
theorem lossy_ascii_mem (bytes : Bytes) (char : Char) (visible : 0 < char.toNat)
    (ascii : char.toNat < 128) (member : char ∈ (fromUtf8Lossy bytes).toList) :
    UInt8.ofNat char.toNat ∈ bytes := by
  unfold fromUtf8Lossy at member
  split at member
  · rename_i text decoded
    rw [← from_utf8_some bytes text decoded, ← String.ofList_toList (s := text), as_bytes_of_list,
      List.mem_flatMap]
    exact ⟨char, member, by rw [encode_ascii char ascii]; exact List.mem_singleton_self _⟩
  · rw [String.toList_ofList] at member
    exact repaired_ascii_mem _ bytes char visible ascii member

end OmniProxy.Utf8Text
