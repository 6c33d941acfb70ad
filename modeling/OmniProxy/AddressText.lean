import OmniProxy.ProxyTargets
import Mathlib.Data.List.TakeWhile

/-!
# Text of numbers and IP addresses

The readers of the standard library for small numbers and for IP addresses, with
the texts of their errors. A reader takes characters from the front of its input;
one that fails leaves the input as it was. An address is accepted only when the
whole text is read: dotted IPv4 with no leading zeros, or IPv6 with at most one
gap and an optional IPv4 ending after it. What a reader of addresses takes are
digits, dots and colons, and not more of them than the longest address has.

Trimming and splitting of text stand here too. White space is that of Unicode.
-/

namespace OmniProxy.AddressText

open ByteStrings ProxyTargets

/-- The Unicode white-space characters. -/
def isWhitespace (char : Char) : Bool :=
  let code := char.toNat
  (0x09 ≤ code && code ≤ 0x0D) || code == 0x20 || code == 0x85 || code == 0xA0 ||
    code == 0x1680 || (0x2000 ≤ code && code ≤ 0x200A) || code == 0x2028 || code == 0x2029 ||
    code == 0x202F || code == 0x205F || code == 0x3000

/-- Drop the characters of a kind from both ends of a text, where each end may
have its own kind. -/
def trimMatches (atStart atEnd : Char → Bool) (text : String) : String :=
  String.ofList ((text.toList.dropWhile atStart).reverse.dropWhile atEnd).reverse

/-- Drop white space from both ends of a text. -/
def trim (text : String) : String := trimMatches isWhitespace isWhitespace text

/-- The parts of a text before and after the first separator, if it has one. -/
def splitOnce (separator : Char) (text : String) : Option (String × String) :=
  match text.toList.span (· != separator) with
  | (_, []) => none
  | (before, _ :: after) => some (String.ofList before, String.ofList after)

/-- The parts of a text before and after the last separator, if it has one. -/
def rsplitOnce (separator : Char) (text : String) : Option (String × String) :=
  match text.toList.reverse.span (· != separator) with
  | (_, []) => none
  | (after, _ :: before) => some (String.ofList before.reverse, String.ofList after.reverse)

section Splitting

variable (separator : Char)

/-- No character of a text without the separator separates it. -/
theorem none_separates {chars : List Char} (absent : separator ∉ chars) :
    ∀ char ∈ chars, (char != separator) = true := by
  intro char member
  rw [bne_iff_ne]
  rintro rfl
  exact absent member

/-- A text is split at its first separator. -/
theorem split_once_first (before after : List Char) (first : separator ∉ before) :
    splitOnce separator (String.ofList (before ++ separator :: after)) =
      some (String.ofList before, String.ofList after) := by
  have other := none_separates separator first
  rw [splitOnce, String.toList_ofList, List.span_eq_takeWhile_dropWhile,
    List.takeWhile_append_of_pos other, List.dropWhile_append_of_pos other]
  simp

/-- A text without the separator is not split. -/
theorem split_once_none (text : String) (absent : separator ∉ text.toList) :
    splitOnce separator text = none := by
  have other := none_separates separator absent
  rw [splitOnce, List.span_eq_takeWhile_dropWhile, List.dropWhile_eq_nil_iff.mpr other]

/-- The last separator is where a text is split from behind. -/
theorem rsplit_once_last (before after : List Char) (last : separator ∉ after) :
    rsplitOnce separator (String.ofList (before ++ separator :: after)) =
      some (String.ofList before, String.ofList after) := by
  have absent : separator ∉ after.reverse := fun member => last (List.mem_reverse.mp member)
  have other := none_separates separator absent
  rw [rsplitOnce, String.toList_ofList, List.reverse_append, List.reverse_cons, List.append_assoc,
    List.singleton_append, List.span_eq_takeWhile_dropWhile, List.takeWhile_append_of_pos other,
    List.dropWhile_append_of_pos other]
  simp

/-- A text without the separator is not split from behind. -/
theorem rsplit_once_none (text : String) (absent : separator ∉ text.toList) :
    rsplitOnce separator text = none := by
  have nowhere : separator ∉ text.toList.reverse :=
    fun member => absent (List.mem_reverse.mp member)
  have other := none_separates separator nowhere
  rw [rsplitOnce, List.span_eq_takeWhile_dropWhile, List.dropWhile_eq_nil_iff.mpr other]

end Splitting

/-- The value of a digit in a base up to sixteen. -/
def toDigit (radix : Nat) (char : Char) : Option Nat :=
  let value :=
    if '0' ≤ char ∧ char ≤ '9' then some (char.toNat - '0'.toNat)
    else if 'a' ≤ char ∧ char ≤ 'f' then some (char.toNat - 'a'.toNat + 10)
    else if 'A' ≤ char ∧ char ≤ 'F' then some (char.toNat - 'A'.toNat + 10)
    else none
  value.filter (· < radix)

/-- Add decimal digits to a value that may not exceed a maximum. -/
def addDigits (maximum : Nat) : Nat → List Char → Except String Nat
  | value, [] => .ok value
  | value, char :: rest =>
      match toDigit 10 char with
      | none => .error "invalid digit found in string"
      | some digit =>
          if maximum < value * 10 + digit then
            .error "number too large to fit in target type"
          else addDigits maximum (value * 10 + digit) rest

/-- Read a whole text as an unsigned number; one plus sign may stand before it. -/
def parseUnsigned (maximum : Nat) (text : String) : Except String Nat :=
  match text.toList with
  | [] => .error "cannot parse integer from empty string"
  | ['+'] => .error "invalid digit found in string"
  | '+' :: digits => addDigits maximum 0 digits
  | digits => addDigits maximum 0 digits

/-- The digits at the front of an input, and what follows them. -/
def leadingDigits (radix : Nat) : List Char → List Nat × List Char
  | [] => ([], [])
  | char :: rest =>
      match toDigit radix char with
      | none => ([], char :: rest)
      | some digit =>
          let (digits, remaining) := leadingDigits radix rest
          (digit :: digits, remaining)

/-- Read a number of at most `maxDigits` digits that does not exceed a maximum. -/
def readNumber (radix maxDigits maximum : Nat) (allowZeroPrefix : Bool) (input : List Char) :
    Option (Nat × List Char) :=
  let (digits, rest) := leadingDigits radix input
  let value := digits.foldl (fun value digit => value * radix + digit) 0
  if maxDigits < digits.length then none
  else if digits.length = 0 then none
  else if !allowZeroPrefix && input.head? == some '0' && 1 < digits.length then none
  else if maximum < value then none
  else some (value, rest)

/-- Read one given character. -/
def readGivenChar (target : Char) : List Char → Option (List Char)
  | [] => none
  | char :: rest => if char = target then some rest else none

/-- Read an item that a separator precedes unless it is the first one. -/
def readSeparator {α : Type} (separator : Char) (index : Nat)
    (inner : List Char → Option (α × List Char)) (input : List Char) :
    Option (α × List Char) :=
  if 0 < index then (readGivenChar separator input).bind inner else inner input

/-- Read four numbers with dots between them. -/
def readIpv4Addr (input : List Char) : Option (Octets 4 × List Char) := do
  let octet := readNumber 10 3 255 false
  let (one, input) ← readSeparator '.' 0 octet input
  let (two, input) ← readSeparator '.' 1 octet input
  let (three, input) ← readSeparator '.' 2 octet input
  let (four, input) ← readSeparator '.' 3 octet input
  some (⟨[one, two, three, four].map UInt8.ofNat, rfl⟩, input)

/-- Read up to `remaining` groups of an IPv6 address with colons between them. An
IPv4 address may stand in the place of the last two; the flag tells whether one
did. -/
def readGroups : Nat → Nat → List Char → (List Nat × Bool) × List Char
  | 0, _, input => (([], false), input)
  | remaining + 1, index, input =>
      let embedded :=
        if 0 < remaining then readSeparator ':' index readIpv4Addr input else none
      match embedded with
      | some (octets, rest) =>
          (([bigEndianValue (octets.toList.take 2), bigEndianValue (octets.toList.drop 2)],
            true), rest)
      | none =>
          match readSeparator ':' index (readNumber 16 4 0xFFFF true) input with
          | none => (([], false), input)
          | some (group, rest) =>
              let ((groups, ipv4), rest) := readGroups remaining (index + 1) rest
              ((group :: groups, ipv4), rest)

/-- The address whose first groups are `head` and whose last groups are `tail`,
with zeros between them. -/
def ipv6OfGroups (head tail : List Nat) : Octets 16 :=
  let group (index : Nat) : Nat :=
    if index < 8 - tail.length then head.getD index 0
    else tail.getD (index - (8 - tail.length)) 0
  ⟨List.ofFn fun position : Fin 16 =>
    (bigEndian 2 (group (position / 2))).getD (position % 2) 0, by simp⟩

/-- Read an IPv6 address. -/
def readIpv6Addr (input : List Char) : Option (Octets 16 × List Char) :=
  let ((head, headIpv4), rest) := readGroups 8 0 input
  if head.length = 8 then some (ipv6OfGroups head [], rest)
  else if headIpv4 then none
  else do
    let rest ← readGivenChar ':' rest
    let rest ← readGivenChar ':' rest
    let ((tail, _), rest) := readGroups (8 - (head.length + 1)) 0 rest
    some (ipv6OfGroups head tail, rest)

/-- Read an address of either family. -/
def readIpAddr (input : List Char) : Option (IpAddr × List Char) :=
  match readIpv4Addr input with
  | some (octets, rest) => some (.v4 octets, rest)
  | none => (readIpv6Addr input).map fun (octets, rest) => (.v6 octets, rest)

/-- Read a whole text as an address. -/
def parseIpAddr (text : String) : Except String IpAddr :=
  match readIpAddr text.toList with
  | some (addr, []) => .ok addr
  | _ => .error "invalid IP address syntax"

section Spans

/-- A digit of some base, a dot or a colon. -/
def InAddresses (char : Char) : Prop :=
  (∃ radix, (toDigit radix char).isSome) ∨ char = '.' ∨ char = ':'

/-- A reader took at least and at most so many characters, all of them of those that
addresses have. -/
def Spans (least most : Nat) (input rest : List Char) : Prop :=
  ∃ used, input = used ++ rest ∧ least ≤ used.length ∧ used.length ≤ most ∧
    ∀ char ∈ used, InAddresses char

/-- Reading nothing spans no characters. -/
theorem Spans.none (most : Nat) (input : List Char) : Spans 0 most input input :=
  ⟨[], rfl, Nat.le_refl 0, Nat.zero_le most, by simp⟩

/-- Two readings in sequence span together what each of them spans. -/
theorem Spans.trans {least most least' most' : Nat} {input middle rest : List Char}
    (first : Spans least most input middle) (second : Spans least' most' middle rest) :
    Spans (least + least') (most + most') input rest := by
  obtain ⟨used, rfl, low, high, chars⟩ := first
  obtain ⟨more, rfl, low', high', chars'⟩ := second
  refine ⟨used ++ more, (List.append_assoc _ _ _).symm, ?_, ?_, fun char member => ?_⟩
  · rw [List.length_append]
    exact Nat.add_le_add low low'
  · rw [List.length_append]
    exact Nat.add_le_add high high'
  · exact (List.mem_append.mp member).elim (chars char) (chars' char)

/-- Bounds on what was read may be loosened on both sides. -/
theorem Spans.weaken {least most least' most' : Nat} {input rest : List Char}
    (spans : Spans least most input rest) (lower : least' ≤ least) (higher : most ≤ most') :
    Spans least' most' input rest := by
  obtain ⟨used, split, low, high, chars⟩ := spans
  exact ⟨used, split, lower.trans low, high.trans higher, chars⟩

/-- Reading a given character of addresses takes that one character. -/
theorem read_given_spans (target : Char) (spelled : InAddresses target) (input rest : List Char)
    (read : readGivenChar target input = some rest) : Spans 1 1 input rest := by
  cases input with
  | nil => simp [readGivenChar] at read
  | cons first input =>
    rw [readGivenChar] at read
    split at read
    · rename_i same
      rw [← Option.some.inj read]
      refine ⟨[first], rfl, Nat.le_refl 1, Nat.le_refl 1, fun char member => ?_⟩
      rwa [List.mem_singleton.mp member, same]
    · simp at read

/-- A separator adds one character to what its item takes. -/
theorem read_separator_spans {α : Type} (separator : Char) (spelled : InAddresses separator)
    (index least most : Nat) (inner : List Char → Option (α × List Char))
    (each : ∀ input rest value, inner input = some (value, rest) → Spans least most input rest)
    (input rest : List Char) (value : α)
    (read : readSeparator separator index inner input = some (value, rest)) :
    Spans (least + min index 1) (most + 1) input rest := by
  rw [readSeparator] at read
  split at read
  · obtain ⟨middle, given, taken⟩ := Option.bind_eq_some_iff.mp read
    exact ((read_given_spans separator spelled input middle given).trans
      (each middle rest value taken)).weaken (by omega) (by omega)
  · exact (each input rest value read).weaken (by omega) (by omega)

/-- As many characters are taken as digits are found. -/
theorem leading_digits_spans (radix : Nat) (input : List Char) :
    Spans (leadingDigits radix input).1.length (leadingDigits radix input).1.length input
      (leadingDigits radix input).2 := by
  induction input with
  | nil => exact Spans.none 0 []
  | cons first rest inductionHypothesis =>
    rw [leadingDigits]
    split
    · exact Spans.none 0 _
    · rename_i digit found
      have one : Spans 1 1 (first :: rest) rest := by
        refine ⟨[first], rfl, Nat.le_refl 1, Nat.le_refl 1, fun char member => ?_⟩
        rw [List.mem_singleton.mp member]
        exact Or.inl ⟨radix, Option.isSome_of_eq_some found⟩
      exact (one.trans inductionHypothesis).weaken (by simp [Nat.add_comm]) (by simp [Nat.add_comm])

/-- A number takes at least one character and at most as many as it may have digits. -/
theorem read_number_spans (radix maxDigits maximum : Nat) (allowed : Bool)
    (input rest : List Char) (value : Nat)
    (read : readNumber radix maxDigits maximum allowed input = some (value, rest)) :
    Spans 1 maxDigits input rest := by
  simp only [readNumber] at read
  split_ifs at read with long none
  rw [← (Prod.mk.inj (Option.some.inj read)).2]
  exact (leading_digits_spans radix input).weaken (Nat.pos_of_ne_zero none) (by omega)

/-- A dotted address has four numbers of one to three digits and three dots. -/
theorem read_ipv4_spans (input rest : List Char) (ip : Octets 4)
    (read : readIpv4Addr input = some (ip, rest)) : Spans 7 16 input rest := by
  have octet (index : Nat) := read_separator_spans '.' (Or.inr (Or.inl rfl)) index 1 3 _
    fun input rest value => read_number_spans 10 3 255 false input rest value
  simp only [readIpv4Addr, Option.bind_eq_bind] at read
  obtain ⟨⟨one, afterOne⟩, first, read⟩ := Option.bind_eq_some_iff.mp read
  obtain ⟨⟨two, afterTwo⟩, second, read⟩ := Option.bind_eq_some_iff.mp read
  obtain ⟨⟨three, afterThree⟩, third, read⟩ := Option.bind_eq_some_iff.mp read
  obtain ⟨⟨four, afterFour⟩, fourth, read⟩ := Option.bind_eq_some_iff.mp read
  obtain rfl : afterFour = rest := (Prod.mk.inj (Option.some.inj read)).2
  exact (octet 0 _ _ _ first).trans ((octet 1 _ _ _ second).trans
    ((octet 2 _ _ _ third).trans (octet 3 _ _ _ fourth)))

/-- Every group takes at most a colon and a dotted address. -/
theorem read_groups_spans (remaining index : Nat) (input : List Char) :
    Spans 0 (17 * remaining) input (readGroups remaining index input).2 := by
  have colon : InAddresses ':' := Or.inr (Or.inr rfl)
  induction remaining generalizing index input with
  | zero => exact Spans.none 0 input
  | succ remaining inductionHypothesis =>
    rw [readGroups]
    simp only
    split
    · rename_i octets rest found
      split at found
      · exact (read_separator_spans ':' colon index 7 16 readIpv4Addr read_ipv4_spans _ _ _
          found).weaken (by omega) (by omega)
      · simp at found
    · split
      · exact Spans.none _ input
      · rename_i group rest found
        exact ((read_separator_spans ':' colon index 1 4 _
          (read_number_spans 16 4 0xFFFF true) _ _ _ found).trans
          (inductionHypothesis (index + 1) rest)).weaken (by omega) (by omega)

/-- However an IPv6 address is read, it takes at most 257 characters of the input. -/
theorem read_ipv6_spans (input rest : List Char) (ip : Octets 16)
    (read : readIpv6Addr input = some (ip, rest)) : Spans 0 257 input rest := by
  have colon : InAddresses ':' := Or.inr (Or.inr rfl)
  have head := read_groups_spans 8 0 input
  unfold readIpv6Addr at read
  simp only at read
  split_ifs at read
  · rw [← (Prod.mk.inj (Option.some.inj read)).2]
    exact head.weaken (by omega) (by omega)
  · simp only [Option.bind_eq_bind] at read
    obtain ⟨afterOne, first, read⟩ := Option.bind_eq_some_iff.mp read
    obtain ⟨afterTwo, second, read⟩ := Option.bind_eq_some_iff.mp read
    rw [← (Prod.mk.inj (Option.some.inj read)).2]
    exact (head.trans ((read_given_spans ':' colon _ _ first).trans
      ((read_given_spans ':' colon _ _ second).trans
        (read_groups_spans _ 0 afterTwo)))).weaken (by omega) (by omega)

/-- A text that is read as an address has few characters, all of them of those that
addresses have, and at least seven if the address is dotted. -/
theorem read_ip_spans (input rest : List Char) (addr : IpAddr)
    (read : readIpAddr input = some (addr, rest)) :
    Spans 0 257 input rest ∧ ∀ octets, addr = .v4 octets → Spans 7 16 input rest := by
  rw [readIpAddr] at read
  split at read
  · rename_i octets after found
    obtain rfl : after = rest := (Prod.mk.inj (Option.some.inj read)).2
    have dotted := read_ipv4_spans _ _ _ found
    exact ⟨dotted.weaken (Nat.zero_le 7) (by omega), fun _ _ => dotted⟩
  · obtain ⟨⟨octets, after⟩, found, same⟩ := Option.map_eq_some_iff.mp read
    obtain ⟨family, reached⟩ := Prod.mk.inj same
    obtain rfl : after = rest := reached
    refine ⟨read_ipv6_spans _ _ _ found, fun octets dotted => ?_⟩
    rw [← family] at dotted
    cases dotted

end Spans

/-- Read a port with any number of leading zeros. -/
def readPort (input : List Char) : Option (UInt16 × List Char) :=
  (readNumber 10 input.length 0xFFFF true input).map fun (port, rest) => (UInt16.ofNat port, rest)

/-- Read an IPv4 address and a port after a colon. -/
def readSocketAddrV4 (input : List Char) : Option (SocketAddr × List Char) := do
  let (octets, input) ← readIpv4Addr input
  let input ← readGivenChar ':' input
  let (port, input) ← readPort input
  some (⟨.v4 octets, port⟩, input)

/-- Read a scope after a percent sign, if there is one; the scope is dropped. -/
def readScopeId (input : List Char) : List Char :=
  (((readGivenChar '%' input).bind fun rest =>
    readNumber 10 rest.length 0xFFFFFFFF true rest).map Prod.snd).getD input

/-- Read an IPv6 address in brackets and a port after a colon. -/
def readSocketAddrV6 (input : List Char) : Option (SocketAddr × List Char) := do
  let input ← readGivenChar '[' input
  let (octets, input) ← readIpv6Addr input
  let input ← readGivenChar ']' (readScopeId input)
  let input ← readGivenChar ':' input
  let (port, input) ← readPort input
  some (⟨.v6 octets, port⟩, input)

/-- Read a whole text as an address with a port. -/
def parseSocketAddr (text : String) : Except String SocketAddr :=
  match (readSocketAddrV4 text.toList).or (readSocketAddrV6 text.toList) with
  | some (addr, []) => .ok addr
  | _ => .error "invalid socket address syntax"

/-- The documentation address of IPv6 with a gap and an IPv4 ending. -/
example : parseIpAddr "2001:db8::192.0.2.33" =
    .ok (.v6 ⟨[0x20, 0x01, 0x0d, 0xb8, 0, 0, 0, 0, 0, 0, 0, 0, 192, 0, 2, 33], rfl⟩) := by
  decide

end OmniProxy.AddressText
