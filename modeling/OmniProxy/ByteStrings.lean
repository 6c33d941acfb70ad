import Mathlib.Data.Vector.Basic

/-!
# Byte strings, fixed arrays, positional integers and text

A byte string is a list of octets and a fixed array is a list that carries its
length. Integers travel as digit strings in base 256: the big-endian reading
puts the most significant octet first, the little-endian reading puts it last.
Writing a value at a width and reading it back gives the value reduced modulo
256 to that width, so a value that fits is recovered exactly.

Text is UTF-8. Strict decoding refuses every malformed sequence; lossy decoding
returns well-formed text unchanged and otherwise puts one replacement character
in the place of each maximal ill-formed part. Cutting a string into bounded
pieces loses nothing and yields no empty piece.

Nothing here refers to a particular program.
-/

namespace OmniProxy.ByteStrings

/-- A slice or growable vector of octets. -/
abbrev Bytes := List UInt8

/-- An array of exactly `n` octets; no value of another length can be built. -/
abbrev Octets (n : Nat) := List.Vector UInt8 n

/-- An array is built from the first `n` octets of a string that has them. -/
def octetsOf (n : Nat) (bytes : Bytes) (enough : n ≤ bytes.length) : Octets n :=
  ⟨bytes.take n, by simp [enough]⟩

/-- A string of at least `total` octets leaves enough of them after its first ones. -/
theorem enough_after {bytes : Bytes} {total : Nat} (long : ¬bytes.length < total)
    (first count : Nat) (fits : first + count ≤ total) : count ≤ (bytes.drop first).length := by
  rw [List.length_drop]
  omega

/-- A zero-filled array. -/
def zeroOctets (n : Nat) : Octets n := List.Vector.replicate n 0

/-- The `width` low base-256 digits of a value, most significant first. -/
def bigEndian : Nat → Nat → Bytes
  | 0, _ => []
  | width + 1, value => UInt8.ofNat (value / 256 ^ width) :: bigEndian width value

/-- The value of a digit string whose first octet is the most significant. -/
def bigEndianValue : Bytes → Nat
  | [] => 0
  | digit :: rest => digit.toNat * 256 ^ rest.length + bigEndianValue rest

/-- The value of a digit string whose first octet is the least significant. -/
def littleEndianValue : Bytes → Nat
  | [] => 0
  | digit :: rest => digit.toNat + 256 * littleEndianValue rest

/-- The `width` low base-256 digits of a value, least significant first. -/
def littleEndian : Nat → Nat → Bytes
  | 0, _ => []
  | width + 1, value => UInt8.ofNat value :: littleEndian width (value / 256)

/-- A number written in a width takes that many octets, most significant first. -/
@[simp] theorem big_endian_length (width value : Nat) :
    (bigEndian width value).length = width := by
  induction width with
  | zero => rfl
  | succ width inductionHypothesis => simp [bigEndian, inductionHypothesis]

/-- A number written in a width takes that many octets, least significant first. -/
@[simp] theorem little_endian_length (width value : Nat) :
    (littleEndian width value).length = width := by
  induction width generalizing value with
  | zero => rfl
  | succ width inductionHypothesis => simp [littleEndian, inductionHypothesis]

/-- Reading back the digits written at a width recovers the value modulo that
width. The leading digit is the quotient modulo 256; the remaining digits give
the remainder by induction. -/
theorem big_endian_value_exact (width value : Nat) :
    bigEndianValue (bigEndian width value) = value % 256 ^ width := by
  induction width with
  | zero => simp [bigEndian, bigEndianValue, Nat.mod_one]
  | succ width inductionHypothesis =>
    have leading : (UInt8.ofNat (value / 256 ^ width)).toNat = value / 256 ^ width % 256 := by
      simp
    rw [bigEndian, bigEndianValue, big_endian_length, inductionHypothesis, leading, Nat.pow_succ,
      Nat.mod_mul, Nat.mul_comm (256 ^ width)]
    exact Nat.add_comm _ _

/-- The last digit is the value modulo 256, and the digits before it are those of
the quotient. -/
theorem big_endian_snoc (width value : Nat) :
    bigEndian (width + 1) value = bigEndian width (value / 256) ++ [UInt8.ofNat value] := by
  induction width with
  | zero => simp [bigEndian]
  | succ width inductionHypothesis =>
    have leading : value / 256 ^ (width + 1) = value / 256 / 256 ^ width := by
      rw [Nat.div_div_eq_div_mul, Nat.pow_succ, Nat.mul_comm]
    rw [bigEndian, inductionHypothesis, leading, bigEndian, List.cons_append]

/-- A value below the width's bound is recovered unchanged. -/
theorem big_endian_value_fits (width value : Nat) (fits : value < 256 ^ width) :
    bigEndianValue (bigEndian width value) = value := by
  rw [big_endian_value_exact, Nat.mod_eq_of_lt fits]

/-- The value of a string of octets is below 256 to its length. -/
theorem big_endian_value_bound (bytes : Bytes) :
    bigEndianValue bytes < 256 ^ bytes.length := by
  induction bytes with
  | nil => simp [bigEndianValue]
  | cons digit rest inductionHypothesis =>
    have bounded : digit.toNat < 256 := digit.toNat_lt
    have room : (digit.toNat + 1) * 256 ^ rest.length ≤ 256 * 256 ^ rest.length :=
      Nat.mul_le_mul_right _ bounded
    rw [Nat.succ_mul] at room
    simp only [bigEndianValue, List.length_cons, Nat.pow_succ]
    omega

/-- The digits of a width do not show what is above them. -/
theorem big_endian_above (width high value : Nat) :
    bigEndian width (high * 256 ^ width + value) = bigEndian width value := by
  induction width generalizing high with
  | zero => rfl
  | succ width inductionHypothesis =>
    have shifted : high * 256 ^ (width + 1) = high * 256 * 256 ^ width := by
      rw [Nat.pow_succ, Nat.mul_comm (256 ^ width), Nat.mul_assoc]
    have leading : (high * 256 * 256 ^ width + value) / 256 ^ width =
        high * 256 + value / 256 ^ width := by
      rw [Nat.add_comm, Nat.add_mul_div_right _ _ (Nat.pow_pos (by decide)), Nat.add_comm]
    have digit : UInt8.ofNat (high * 256 + value / 256 ^ width) =
        UInt8.ofNat (value / 256 ^ width) := by
      apply UInt8.toNat_inj.mp
      rw [UInt8.toNat_ofNat', UInt8.toNat_ofNat']
      omega
    rw [bigEndian, bigEndian, shifted, leading, digit, inductionHypothesis]

/-- Octets are written back from the value they denote. -/
theorem big_endian_of_value (bytes : Bytes) :
    bigEndian bytes.length (bigEndianValue bytes) = bytes := by
  induction bytes with
  | nil => rfl
  | cons digit rest inductionHypothesis =>
    have leading : (digit.toNat * 256 ^ rest.length + bigEndianValue rest) / 256 ^ rest.length =
        digit.toNat := by
      rw [Nat.add_comm, Nat.add_mul_div_right _ _ (Nat.pow_pos (by decide)),
        Nat.div_eq_of_lt (big_endian_value_bound rest), Nat.zero_add]
    rw [bigEndianValue, List.length_cons, bigEndian, leading, UInt8.ofNat_toNat, big_endian_above,
      inductionHypothesis]

/-- A little-endian string denotes a value below its width's bound. -/
theorem little_endian_value_bound (bytes : Bytes) :
    littleEndianValue bytes < 256 ^ bytes.length := by
  induction bytes with
  | nil => simp [littleEndianValue]
  | cons digit rest inductionHypothesis =>
    have bounded : digit.toNat < 256 := digit.toNat_lt
    simp only [littleEndianValue, List.length_cons, Nat.pow_succ]
    omega

/-- The digits of a width do not depend on what is above them. -/
theorem big_endian_mod (width value : Nat) :
    bigEndian width (value % 256 ^ width) = bigEndian width value := by
  conv_rhs => rw [← Nat.div_add_mod' value (256 ^ width)]
  exact (big_endian_above width _ _).symm

/-- Only the remainder of the number by the width's range is written. -/
theorem little_endian_mod (width value : Nat) :
    littleEndian width (value % 256 ^ width) = littleEndian width value := by
  induction width generalizing value with
  | zero => rfl
  | succ width inductionHypothesis =>
    have digit : UInt8.ofNat (value % 256 ^ (width + 1)) = UInt8.ofNat value := by
      apply UInt8.toNat_inj.mp
      rw [UInt8.toNat_ofNat', UInt8.toNat_ofNat']
      exact Nat.mod_mod_of_dvd value (Dvd.intro_left (256 ^ width) rfl)
    have rest : value % 256 ^ (width + 1) / 256 = value / 256 % 256 ^ width := by
      rw [Nat.pow_succ, Nat.mul_comm, Nat.mod_mul_right_div_self]
    rw [littleEndian, littleEndian, digit, rest, inductionHypothesis]

/-- A last octet adds its digit above those before it. -/
theorem little_endian_value_snoc (bytes : Bytes) (digit : UInt8) :
    littleEndianValue (bytes ++ [digit]) =
      littleEndianValue bytes + digit.toNat * 256 ^ bytes.length := by
  induction bytes with
  | nil => simp [littleEndianValue]
  | cons first bytes inductionHypothesis =>
    simp only [List.cons_append, littleEndianValue, inductionHypothesis, List.length_cons,
      Nat.pow_succ, Nat.mul_add, Nat.add_assoc]
    congr 2
    rw [Nat.mul_left_comm, Nat.mul_comm 256]

/-- Both readings of a string and of its reversal agree. -/
theorem big_endian_value_reverse (bytes : Bytes) :
    bigEndianValue bytes.reverse = littleEndianValue bytes := by
  rw [← List.reverse_reverse bytes]
  generalize bytes.reverse = reversed
  rw [List.reverse_reverse]
  induction reversed with
  | nil => rfl
  | cons digit rest inductionHypothesis =>
    rw [List.reverse_cons, little_endian_value_snoc, ← inductionHypothesis, bigEndianValue,
      List.length_reverse, Nat.add_comm]

/-- An unsigned 16-bit integer in network order. -/
def bigEndian16 (value : UInt16) : Bytes := bigEndian 2 value.toNat

/-- The 16-bit integer two octets denote in network order. -/
def ofBigEndian16 (high low : UInt8) : UInt16 := UInt16.ofNat (bigEndianValue [high, low])

/-- A 16-bit number takes two octets. -/
@[simp] theorem big_endian16_length (value : UInt16) : (bigEndian16 value).length = 2 := by
  simp [bigEndian16]

/-- Every 16-bit integer survives its two octets. -/
theorem of_big_endian16_exact (value : UInt16) :
    ∃ high low, bigEndian16 value = [high, low] ∧ ofBigEndian16 high low = value := by
  refine ⟨UInt8.ofNat (value.toNat / 256), UInt8.ofNat value.toNat, ?_, ?_⟩
  · simp [bigEndian16, bigEndian]
  · have written : [UInt8.ofNat (value.toNat / 256), UInt8.ofNat value.toNat] =
        bigEndian 2 value.toNat := by simp [bigEndian]
    rw [ofBigEndian16, written, big_endian_value_fits 2 value.toNat value.toNat_lt]
    exact UInt16.ofNat_toNat

/-- Two octets are written back from the integer they denote. -/
theorem big_endian16_of (high low : UInt8) :
    bigEndian16 (ofBigEndian16 high low) = [high, low] := by
  have highSmall : high.toNat < 256 := high.toNat_lt
  have lowSmall : low.toNat < 256 := low.toNat_lt
  have value : (ofBigEndian16 high low).toNat = high.toNat * 256 + low.toNat := by
    simp only [ofBigEndian16, bigEndianValue, List.length_cons, List.length_nil,
      UInt16.toNat_ofNat']
    omega
  have quotient : (high.toNat * 256 + low.toNat) / 256 = high.toNat := by omega
  simp only [bigEndian16, bigEndian, value, Nat.pow_one, Nat.pow_zero, Nat.div_one, quotient,
    UInt8.ofNat_toNat]
  congr 2
  apply UInt8.toNat_inj.mp
  rw [UInt8.toNat_ofNat']
  omega

/-- Lower-case hexadecimal digits of octets. -/
def hexEncode (bytes : Bytes) : String :=
  let digit (value : Nat) : Char := "0123456789abcdef".toList.getD value '0'
  String.ofList (bytes.flatMap fun octet => [digit (octet.toNat / 16), digit (octet.toNat % 16)])

/-- The UTF-8 octets of a string. -/
def asBytes (text : String) : Bytes := text.toByteArray.data.toList

/-- Strict UTF-8 decoding. -/
def fromUtf8 (bytes : Bytes) : Option String := String.fromUTF8? ⟨bytes.toArray⟩

/-- Decoding the octets of a string returns the string. -/
@[simp] theorem from_utf8_as_bytes (text : String) : fromUtf8 (asBytes text) = some text := by
  simp [fromUtf8, asBytes, String.fromUTF8?, String.fromUTF8, text.isValidUTF8]

/-- A text has as many octets as its UTF-8 form. -/
@[simp] theorem as_bytes_length (text : String) : (asBytes text).length = text.utf8ByteSize := rfl

/-- Lower-case the ASCII letters of a text and keep every other character. -/
def toAsciiLowercase (text : String) : String := String.ofList (text.toList.map Char.toLower)

/-- A continuation octet inside the inclusive bounds. -/
def tailWithin (low high : UInt8) : Option UInt8 → Bool
  | some octet => low ≤ octet && octet ≤ high
  | none => false

/-- Bounds on the octet after a multi-octet lead: the narrower ranges exclude
overlong forms, surrogates and values above the last code point. -/
def secondBounds (lead : UInt8) : UInt8 × UInt8 :=
  if lead = 0xE0 then (0xA0, 0xBF)
  else if lead = 0xED then (0x80, 0x9F)
  else if lead = 0xF0 then (0x90, 0xBF)
  else if lead = 0xF4 then (0x80, 0x8F)
  else (0x80, 0xBF)

/-- The number of octets a lead octet announces; zero for an octet that leads nothing. -/
def leadWidth (lead : UInt8) : Nat :=
  if lead < 0x80 then 1
  else if 0xC2 ≤ lead && lead ≤ 0xDF then 2
  else if 0xE0 ≤ lead && lead ≤ 0xEF then 3
  else if 0xF0 ≤ lead && lead ≤ 0xF4 then 4
  else 0

/-- Octets of the longest acceptable start of a character after its lead. -/
def acceptedTail (lead : UInt8) (rest : Bytes) : Nat :=
  if leadWidth lead < 2 then 0
  else if !tailWithin (secondBounds lead).1 (secondBounds lead).2 rest[0]? then 0
  else if leadWidth lead < 3 then 1
  else if !tailWithin 0x80 0xBF rest[1]? then 1
  else if leadWidth lead < 4 then 2
  else if !tailWithin 0x80 0xBF rest[2]? then 2
  else 3

/-- The code point of a complete character of the announced width. -/
def codePoint (lead : UInt8) (tail : Bytes) : Nat :=
  let payload := match leadWidth lead with
    | 1 => lead.toNat
    | 2 => lead.toNat % 32
    | 3 => lead.toNat % 16
    | _ => lead.toNat % 8
  tail.foldl (fun value octet => value * 64 + octet.toNat % 64) payload

/-- Characters of a possibly malformed string. A complete character is decoded;
otherwise its longest acceptable start is replaced by one U+FFFD. The fuel
counts octets, each round consuming at least one. -/
def repairedChars : Nat → Bytes → List Char
  | 0, _ => []
  | _ + 1, [] => []
  | fuel + 1, lead :: rest =>
      let taken := acceptedTail lead rest
      let char := if leadWidth lead = taken + 1 then Char.ofNat (codePoint lead (rest.take taken))
        else Char.ofNat 0xFFFD
      char :: repairedChars fuel (rest.drop taken)

/-- Lossy UTF-8 decoding: borrowed text when well formed, repaired text otherwise. -/
def fromUtf8Lossy (bytes : Bytes) : String :=
  match fromUtf8 bytes with
  | some text => text
  | none => String.ofList (repairedChars bytes.length bytes)

/-- Lossy decoding returns well-formed text unchanged. -/
@[simp] theorem from_utf8_lossy_as_bytes (text : String) : fromUtf8Lossy (asBytes text) = text := by
  simp [fromUtf8Lossy]

example : repairedChars 5 [0x61, 0xE2, 0x82, 0x62, 0xFF] =
    ['a', Char.ofNat 0xFFFD, 'b', Char.ofNat 0xFFFD] := by decide

section Pieces

variable {α : Type*}

/-- Consecutive pieces of `size` elements, the last one possibly shorter. -/
def pieces (size : Nat) (items : List α) : List (List α) :=
  if size = 0 ∨ items = [] then [] else items.take size :: pieces size (items.drop size)
termination_by items.length
decreasing_by
  rename_i remaining
  have nonempty : 0 < items.length := List.length_pos_iff.mpr (by tauto)
  simp only [List.length_drop]
  omega

/-- Nothing is cut into no pieces. -/
@[simp] theorem pieces_nil (size : Nat) : pieces size ([] : List α) = [] := by
  rw [pieces]
  simp

/-- A nonempty list is its first piece followed by the pieces of the rest. -/
theorem pieces_unfold (size : Nat) (items : List α) (positive : 0 < size) (nonempty : items ≠ []) :
    pieces size items = items.take size :: pieces size (items.drop size) := by
  rw [pieces]
  simp [nonempty, Nat.pos_iff_ne_zero.mp positive]

/-- Pieces rejoin to the original list, in order. -/
theorem pieces_flatten (size : Nat) (items : List α) (positive : 0 < size) :
    (pieces size items).flatten = items := by
  induction measure : items.length using Nat.strongRecOn generalizing items with
  | ind count inductionHypothesis =>
    by_cases empty : items = []
    · simp [empty]
    · have shorter : (items.drop size).length < count := by
        have nonempty : 0 < items.length := List.length_pos_iff.mpr empty
        simp only [List.length_drop]
        omega
      rw [pieces_unfold size items positive empty, List.flatten_cons,
        inductionHypothesis _ shorter (items.drop size) rfl, List.take_append_drop]

/-- Every piece is nonempty and within the bound. -/
theorem pieces_bounded (size : Nat) (items : List α) (positive : 0 < size) :
    ∀ piece ∈ pieces size items, piece ≠ [] ∧ piece.length ≤ size := by
  induction measure : items.length using Nat.strongRecOn generalizing items with
  | ind count inductionHypothesis =>
    by_cases empty : items = []
    · simp [empty]
    · have nonempty : 0 < items.length := List.length_pos_iff.mpr empty
      have shorter : (items.drop size).length < count := by
        simp only [List.length_drop]
        omega
      rw [pieces_unfold size items positive empty]
      intro piece member
      rcases List.mem_cons.mp member with rfl | member
      · refine ⟨?_, by simp⟩
        intro vanished
        have length := congrArg List.length vanished
        simp only [List.length_take, List.length_nil] at length
        omega
      · exact inductionHypothesis _ shorter (items.drop size) rfl piece member

/-- A long list has many pieces. -/
theorem pieces_many (size count : Nat) (items : List α) (positive : 0 < size)
    (long : count * size ≤ items.length) : count ≤ (pieces size items).length := by
  induction count generalizing items with
  | zero => exact Nat.zero_le _
  | succ count inductionHypothesis =>
    rw [Nat.succ_mul] at long
    have nonempty : items ≠ [] := List.length_pos_iff.mp (by omega)
    rw [pieces_unfold size items positive nonempty, List.length_cons]
    apply Nat.succ_le_succ
    apply inductionHypothesis
    rw [List.length_drop]
    omega

/-- A list within the bound is its own single piece. -/
theorem pieces_single (size : Nat) (items : List α) (nonempty : items ≠ [])
    (short : items.length ≤ size) : pieces size items = [items] := by
  have positive : 0 < size := Nat.lt_of_lt_of_le (List.length_pos_iff.mpr nonempty) short
  rw [pieces_unfold size items positive nonempty, List.take_of_length_le short,
    List.drop_of_length_le short, pieces_nil]

end Pieces

end OmniProxy.ByteStrings
