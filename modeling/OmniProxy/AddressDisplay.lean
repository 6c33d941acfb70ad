import OmniProxy.AddressText

/-!
# How numbers and IP addresses are written

The writers of the standard library: numbers in decimal, IPv4 addresses dotted,
IPv6 addresses as hexadecimal groups where the longest run of at least two zero
groups is left out and an address that maps an IPv4 address ends in it.

A written port and a written IPv4 address are read back. Nothing with a character
that occurs in no address is read as an address.
-/

namespace OmniProxy.AddressDisplay

open ByteStrings ProxyTargets AddressText

/-- Items with a separator between them. -/
def joinChars (separator : Char) : List (List Char) → List Char
  | [] => []
  | first :: tail => first ++ tail.flatMap fun item => separator :: item

/-- The text of an IPv4 address. -/
def displayIpv4 (ip : Octets 4) : List Char :=
  joinChars '.' (ip.toList.map fun octet => Nat.toDigits 10 octet.toNat)

/-- The eight groups of an IPv6 address. -/
def segments (ip : Octets 16) : List Nat :=
  List.ofFn fun index : Fin 8 =>
    bigEndianValue [ip.toList.getD (2 * index) 0, ip.toList.getD (2 * index + 1) 0]

/-- The IPv4 address that an IPv6 address maps, if it maps one. -/
def toIpv4Mapped (ip : Octets 16) : Option (Octets 4) :=
  if ip.toList.take 12 = [0, 0, 0, 0, 0, 0, 0, 0, 0, 0, 0xFF, 0xFF] then
    some ⟨ip.toList.drop 12, by simp⟩
  else none

/-- A run of groups. -/
structure Span where
  start : Nat
  len : Nat

/-- One round of the search for the longest run of zeros: the run so far ends
before the given index. -/
def longestStep (index segment : Nat) (longest current : Span) : Span × Span :=
  if segment = 0 then
    let current : Span := ⟨if current.len = 0 then index else current.start, current.len + 1⟩
    (if longest.len < current.len then current else longest, current)
  else (longest, ⟨0, 0⟩)

/-- The longest run of zeros; the first one of several. -/
def longestZeros : Nat → List Nat → Span → Span → Span
  | _, [], longest, _ => longest
  | index, segment :: rest, longest, current =>
      let (longest, current) := longestStep index segment longest current
      longestZeros (index + 1) rest longest current

/-- Groups in hexadecimal with colons between them. -/
def fmtSubslice (chunk : List Nat) : List Char := joinChars ':' (chunk.map (Nat.toDigits 16))

/-- The text of an IPv6 address. -/
def displayIpv6 (ip : Octets 16) : List Char :=
  match toIpv4Mapped ip with
  | some ipv4 => "::ffff:".toList ++ displayIpv4 ipv4
  | none =>
      let groups := segments ip
      let longest := longestZeros 0 groups ⟨0, 0⟩ ⟨0, 0⟩
      if 1 < longest.len then
        fmtSubslice (groups.take longest.start) ++ "::".toList ++
          fmtSubslice (groups.drop (longest.start + longest.len))
      else fmtSubslice groups

/-- The text of an address of either family. -/
def displayIp : IpAddr → String
  | .v4 ip => String.ofList (displayIpv4 ip)
  | .v6 ip => String.ofList (displayIpv6 ip)

/-- The text of an address with a port. -/
def displaySocketAddr (addr : SocketAddr) : String :=
  match addr.ip with
  | .v4 ip => String.ofList (displayIpv4 ip ++ ':' :: Nat.toDigits 10 addr.port.toNat)
  | .v6 ip =>
      String.ofList ('[' :: displayIpv6 ip ++ ']' :: ':' :: Nat.toDigits 10 addr.port.toNat)

/-- The text of a target. -/
def displayTarget : ProxyTarget → String
  | .tcp addr => displaySocketAddr addr
  | .domain host port => String.ofList (host.toList ++ ':' :: Nat.toDigits 10 port.toNat)

example : displayIp (.v6 ⟨[0x20, 0x01, 0x0d, 0xb8, 0, 0, 0, 0, 0, 0, 0, 0, 0, 0, 0, 1], rfl⟩) =
    "2001:db8::1" := by decide

section WrittenNumbers

/-- A decimal digit is read as its value. -/
theorem to_digit_decimal (char : Char) (decimal : char.isDigit) :
    toDigit 10 char = some (char.toNat - '0'.toNat) := by
  have bounds : '0' ≤ char ∧ char ≤ '9' := Char.isDigit_iff_toNat.mp decimal
  have small : char.toNat - '0'.toNat < 10 := by
    have top : char.toNat ≤ 57 := bounds.2
    change char.toNat - 48 < 10
    omega
  rw [toDigit, if_pos bounds]
  simp only [Option.filter_some, decide_eq_true small, if_true]

/-- More digits never make a number smaller. -/
theorem of_digit_chars_ge (digits : List Char) (start : Nat) :
    start ≤ Nat.ofDigitChars 10 digits start := by
  rw [Nat.ofDigitChars_eq_ofDigitChars_zero]
  have positive : 0 < 10 ^ digits.length := Nat.pow_pos (by decide)
  exact Nat.le_trans (Nat.le_mul_of_pos_left start positive) (Nat.le_add_right _ _)

/-- Digits whose value does not exceed the maximum are read as that value. -/
theorem add_digits_exact (maximum : Nat) (digits : List Char) (start : Nat)
    (decimal : ∀ char ∈ digits, char.isDigit)
    (fits : Nat.ofDigitChars 10 digits start ≤ maximum) :
    addDigits maximum start digits = .ok (Nat.ofDigitChars 10 digits start) := by
  induction digits generalizing start with
  | nil => rfl
  | cons char digits inductionHypothesis =>
    rw [Nat.ofDigitChars_cons, Nat.mul_comm] at fits
    have below := of_digit_chars_ge digits (start * 10 + (char.toNat - '0'.toNat))
    simp only [addDigits, to_digit_decimal char (decimal char List.mem_cons_self)]
    rw [if_neg (by omega), Nat.ofDigitChars_cons, Nat.mul_comm 10 start]
    exact inductionHypothesis _
      (fun later member => decimal later (List.mem_cons_of_mem char member)) fits

/-- The characters of a number in decimal are digits. -/
theorem decimal_digits (number : Nat) : ∀ char ∈ Nat.toDigits 10 number, char.isDigit :=
  fun _ member => Nat.isDigit_of_mem_toDigits (by decide) (by decide) member

/-- A number written in decimal is read back when it does not exceed the maximum. -/
theorem parse_unsigned_written (maximum number : Nat) (fits : number ≤ maximum) :
    parseUnsigned maximum (String.ofList (Nat.toDigits 10 number)) = .ok number := by
  have exact := add_digits_exact maximum (Nat.toDigits 10 number) 0 (decimal_digits number)
    (by rwa [Nat.ofDigitChars_ten_toDigits])
  rw [Nat.ofDigitChars_ten_toDigits] at exact
  have unsigned : ∀ rest, Nat.toDigits 10 number ≠ '+' :: rest := by
    intro rest spelled
    have sign := decimal_digits number '+' (by rw [spelled]; exact List.mem_cons_self)
    exact absurd sign (by decide)
  rw [parseUnsigned, String.toList_ofList]
  split
  · rename_i empty
    exact absurd empty Nat.toDigits_ne_nil
  · rename_i sign
    exact absurd sign (unsigned [])
  · rename_i rest _ sign
    exact absurd sign (unsigned rest)
  · exact exact

end WrittenNumbers

section WrittenIpv4

/-- Digits in front of something else are taken whole. -/
theorem leading_digits_decimal (digits rest : List Char) (decimal : ∀ char ∈ digits, char.isDigit)
    (stops : ∀ char, rest.head? = some char → toDigit 10 char = none) :
    leadingDigits 10 (digits ++ rest) =
      (digits.map fun char => char.toNat - '0'.toNat, rest) := by
  induction digits with
  | nil =>
    cases rest with
    | nil => rfl
    | cons char rest =>
      rw [List.nil_append, leadingDigits]
      simp only [stops char rfl, List.map_nil]
  | cons char digits inductionHypothesis =>
    have later := inductionHypothesis fun digit member =>
      decimal digit (List.mem_cons_of_mem char member)
    rw [List.cons_append, leadingDigits]
    simp only [to_digit_decimal char (decimal char List.mem_cons_self), later, List.map_cons]

/-- A positive number is written without a leading zero. -/
theorem written_head (number : Nat) (positive : 0 < number) :
    (Nat.toDigits 10 number).head? ≠ some '0' := by
  induction number using Nat.strongRecOn with
  | ind number inductionHypothesis =>
    rw [Nat.toDigits_eq_if (by decide)]
    split
    · rw [List.head?_cons, Ne, Option.some.injEq, Nat.digitChar_eq_zero]
      omega
    · rw [List.head?_append_of_ne_nil _ Nat.toDigits_ne_nil]
      exact inductionHypothesis (number / 10) (by omega) (by omega)

/-- An octet written in decimal is read back up to a character that is no digit. -/
theorem read_number_octet (octet : UInt8) (rest : List Char)
    (stops : ∀ char, rest.head? = some char → toDigit 10 char = none) :
    readNumber 10 3 255 false (Nat.toDigits 10 octet.toNat ++ rest) = some (octet.toNat, rest) := by
  have bound : octet.toNat < 256 := octet.toNat_lt
  have digits := leading_digits_decimal _ rest (decimal_digits octet.toNat) stops
  have value : ((Nat.toDigits 10 octet.toNat).map fun char => char.toNat - '0'.toNat).foldl
      (fun value digit => value * 10 + digit) 0 = octet.toNat := by
    have whole := Nat.ofDigitChars_ten_toDigits (n := octet.toNat)
    rw [Nat.ofDigitChars_eq_foldl] at whole
    rw [List.foldl_map]
    simpa only [Nat.mul_comm] using whole
  have short : (Nat.toDigits 10 octet.toNat).length ≤ 3 :=
    (Nat.length_toDigits_le_iff (by decide) (by decide)).mpr (by omega)
  have some_digits := Nat.length_toDigits_pos (b := 10) (n := octet.toNat)
  have plain : ¬(!false && (Nat.toDigits 10 octet.toNat ++ rest).head? == some '0' &&
      decide (1 < (Nat.toDigits 10 octet.toNat).length)) = true := by
    rw [List.head?_append_of_ne_nil _ Nat.toDigits_ne_nil]
    intro padded
    simp only [Bool.not_false, Bool.true_and, Bool.and_eq_true, beq_iff_eq,
      decide_eq_true_eq] at padded
    rcases Nat.eq_zero_or_pos octet.toNat with zero | positive
    · rw [zero] at padded
      exact absurd padded.2 (by decide)
    · exact written_head octet.toNat positive padded.1
  simp only [readNumber, digits, value, List.length_map]
  rw [if_neg (by omega), if_neg (by omega), if_neg plain, if_neg (by omega)]

/-- A written IPv4 address is read back up to a character that is no digit. -/
theorem read_ipv4_written (ip : Octets 4) (rest : List Char)
    (stops : ∀ char, rest.head? = some char → toDigit 10 char = none) :
    readIpv4Addr (displayIpv4 ip ++ rest) = some (ip, rest) := by
  obtain ⟨octets, width⟩ := ip
  obtain ⟨one, two, three, four, rfl⟩ : ∃ one two three four, octets = [one, two, three, four] := by
    rcases octets with _ | ⟨one, _ | ⟨two, _ | ⟨three, _ | ⟨four, _ | ⟨five, more⟩⟩⟩⟩⟩ <;>
      simp at width
    exact ⟨one, two, three, four, rfl⟩
  have dotted (octet : UInt8) (later : List Char) :
      readNumber 10 3 255 false (Nat.toDigits 10 octet.toNat ++ '.' :: later) =
        some (octet.toNat, '.' :: later) :=
    read_number_octet octet _ fun char head => by
      obtain rfl : '.' = char := by simpa using head
      decide
  simp only [displayIpv4, List.Vector.toList, List.map_cons, List.map_nil, joinChars,
    List.flatMap_cons, List.flatMap_nil, List.append_nil, List.cons_append, List.append_assoc]
  simp only [readIpv4Addr, readSeparator, readGivenChar, dotted, read_number_octet four rest stops,
    Nat.lt_irrefl, Nat.zero_lt_succ, if_true, if_false, Option.bind_eq_bind, Option.bind_some,
    List.map_cons, List.map_nil, UInt8.ofNat_toNat]

/-- A written IPv4 address is read back. -/
theorem parse_ip_written_ipv4 (ip : Octets 4) :
    parseIpAddr (displayIp (.v4 ip)) = .ok (.v4 ip) := by
  have read := read_ipv4_written ip [] (by simp)
  rw [List.append_nil] at read
  rw [parseIpAddr, displayIp, String.toList_ofList, readIpAddr, read]

end WrittenIpv4

section ForeignCharacters

/-- A character that no address has. -/
structure Foreign (char : Char) : Prop where
  digit : ∀ radix, toDigit radix char = none
  dot : char ≠ '.'
  colon : char ≠ ':'

/-- The rest of an input after characters other than the given one. -/
def Follows (char : Char) (input rest : List Char) : Prop :=
  ∃ used, input = used ++ rest ∧ char ∉ used

variable {char : Char} (foreign : Foreign char)
include foreign

/-- A reader that takes characters of addresses takes no other. -/
theorem spans_follow {least most : Nat} {input rest : List Char}
    (spans : Spans least most input rest) : Follows char input rest := by
  obtain ⟨used, split, -, -, chars⟩ := spans
  refine ⟨used, split, fun member => ?_⟩
  rcases chars char member with ⟨radix, digit⟩ | dot | colon
  · rw [foreign.digit radix] at digit
    cases digit
  · exact foreign.dot dot
  · exact foreign.colon colon

/-- A text with a character that no address has is not read as an address. -/
theorem parse_ip_foreign (text : String) (member : char ∈ text.toList) :
    parseIpAddr text = .error "invalid IP address syntax" := by
  rw [parseIpAddr]
  split
  · rename_i addr read
    obtain ⟨used, spelled, absent⟩ := spans_follow foreign (read_ip_spans _ _ _ read).1
    rw [spelled, List.append_nil] at member
    exact absurd member absent
  · rfl

end ForeignCharacters

section WrittenCharacters

/-- A character of written addresses. -/
def isAddressChar (char : Char) : Bool :=
  (toDigit 16 char).isSome || char == '.' || char == ':'

/-- The characters of an address are ASCII, so each of them is written as one octet. -/
theorem address_char_ascii (char : Char) (written : isAddressChar char) : char.toNat < 128 := by
  have digit : (toDigit 16 char).isSome → char.toNat < 128 := by
    intro found
    by_contra wide
    have bound (top : Char) (ascii : top.toNat < 128) : ¬char ≤ top := fun below =>
      wide (Nat.lt_of_le_of_lt below ascii)
    rw [toDigit, if_neg (fun range => bound '9' (by decide) range.2),
      if_neg (fun range => bound 'f' (by decide) range.2),
      if_neg (fun range => bound 'F' (by decide) range.2)] at found
    simp at found
  simp only [isAddressChar, Bool.or_eq_true, beq_iff_eq] at written
  obtain (found | rfl) | rfl := written
  · exact digit found
  · decide
  · decide

/-- The digits of a number in a base up to sixteen are characters of addresses. -/
theorem digits_written (radix number : Nat) (several : 1 < radix) (bounded : radix ≤ 16) :
    ∀ char ∈ Nat.toDigits radix number, isAddressChar char := by
  have each : ∀ digit < 16, isAddressChar (Nat.digitChar digit) := by decide
  induction number using Nat.strongRecOn with
  | ind number inductionHypothesis =>
    intro char member
    rw [Nat.toDigits_eq_if several] at member
    split at member
    · rename_i small
      rw [List.mem_singleton.mp member]
      exact each number (by omega)
    · rename_i large
      rcases List.mem_append.mp member with earlier | last
      · exact inductionHypothesis (number / radix) (Nat.div_lt_self (by omega) several) char earlier
      · rw [List.mem_singleton.mp last]
        exact each _ (Nat.lt_of_lt_of_le (Nat.mod_lt number (by omega)) bounded)

/-- Joined items have the characters of the items and the separator. -/
theorem join_chars_forall (Allowed : Char → Prop) (separator : Char) (items : List (List Char))
    (between : Allowed separator) (each : ∀ item ∈ items, ∀ char ∈ item, Allowed char) :
    ∀ char ∈ joinChars separator items, Allowed char := by
  intro char member
  cases items with
  | nil => simp [joinChars] at member
  | cons first tail =>
    rcases List.mem_append.mp member with early | late
    · exact each first List.mem_cons_self char early
    · obtain ⟨item, present, inside⟩ := List.mem_flatMap.mp late
      rcases List.mem_cons.mp inside with rfl | inside
      · exact between
      · exact each item (List.mem_cons_of_mem first present) char inside

/-- Joined items have at most one separator for each item. -/
theorem join_chars_length (separator : Char) (items : List (List Char)) (width : Nat)
    (each : ∀ item ∈ items, item.length ≤ width) :
    (joinChars separator items).length ≤ items.length * (width + 1) := by
  have flat (tail : List (List Char)) (short : ∀ item ∈ tail, item.length ≤ width) :
      (tail.flatMap fun item => separator :: item).length ≤ tail.length * (width + 1) := by
    induction tail with
    | nil => simp
    | cons item tail inductionHypothesis =>
      have one := short item List.mem_cons_self
      have more := inductionHypothesis fun later member =>
        short later (List.mem_cons_of_mem item member)
      rw [List.flatMap_cons, List.length_append, List.length_cons, List.length_cons, Nat.add_mul]
      omega
  cases items with
  | nil => simp [joinChars]
  | cons first tail =>
    have one := each first List.mem_cons_self
    have more := flat tail fun later member => each later (List.mem_cons_of_mem first member)
    rw [joinChars, List.length_append, List.length_cons, Nat.add_mul]
    omega

/-- An IPv4 address is written with address characters, at most sixteen of them. -/
theorem display_ipv4_written (ip : Octets 4) :
    (∀ char ∈ displayIpv4 ip, isAddressChar char) ∧ (displayIpv4 ip).length ≤ 16 := by
  constructor
  · apply join_chars_forall (isAddressChar ·) '.' _ (by decide)
    simp only [List.mem_map]
    rintro item ⟨octet, -, rfl⟩
    exact digits_written 10 octet.toNat (by decide) (by decide)
  · have bound := join_chars_length '.' (ip.toList.map fun octet => Nat.toDigits 10 octet.toNat) 3
      (by
        simp only [List.mem_map]
        rintro item ⟨octet, -, rfl⟩
        have small : octet.toNat < 256 := octet.toNat_lt
        exact (Nat.length_toDigits_le_iff (by decide) (by decide)).mpr (by omega))
    rwa [List.length_map, ip.toList_length] at bound

/-- An IPv4 address is written without a colon, which only the port may bring. -/
theorem display_ipv4_plain (ip : Octets 4) : ':' ∉ displayIpv4 ip := by
  have other := join_chars_forall (· ≠ ':') '.'
    (ip.toList.map fun octet => Nat.toDigits 10 octet.toNat) (by decide) (by
      simp only [List.mem_map]
      rintro item ⟨octet, -, rfl⟩ char member rfl
      exact absurd (decimal_digits octet.toNat ':' member) (by decide))
  exact fun member => other ':' member rfl

/-- A run of groups is written with address characters, at most five for each group. -/
theorem fmt_subslice_written (chunk : List Nat) (small : ∀ group ∈ chunk, group < 65536) :
    (∀ char ∈ fmtSubslice chunk, isAddressChar char) ∧
      (fmtSubslice chunk).length ≤ chunk.length * 5 := by
  constructor
  · apply join_chars_forall (isAddressChar ·) ':' _ (by decide)
    simp only [List.mem_map]
    rintro item ⟨group, -, rfl⟩
    exact digits_written 16 group (by decide) (by decide)
  · have bound := join_chars_length ':' (chunk.map (Nat.toDigits 16)) 4
      (by
        simp only [List.mem_map]
        rintro item ⟨group, member, rfl⟩
        exact (Nat.length_toDigits_le_iff (by decide) (by decide)).mpr (small group member))
    rwa [List.length_map] at bound

/-- Every group of an IPv6 address is a 16-bit number. -/
theorem segments_small (ip : Octets 16) : ∀ group ∈ segments ip, group < 65536 := by
  intro group member
  obtain ⟨index, rfl⟩ := List.mem_ofFn.mp member
  have bound := big_endian_value_bound
    [ip.toList.getD (2 * index) 0, ip.toList.getD (2 * index + 1) 0]
  rwa [List.length_cons, List.length_singleton] at bound

/-- The text of an IPv6 address has the characters of addresses, a colon among them,
and is short. -/
theorem display_ipv6_written (ip : Octets 16) :
    (∀ char ∈ displayIpv6 ip, isAddressChar char) ∧ ':' ∈ displayIpv6 ip ∧
      (displayIpv6 ip).length ≤ 42 := by
  have small := segments_small ip
  have count : (segments ip).length = 8 := List.length_ofFn
  unfold displayIpv6
  split
  · rename_i ipv4 mapped
    obtain ⟨chars, short⟩ := display_ipv4_written ipv4
    refine ⟨?_, List.mem_append_left _ (by decide), ?_⟩
    · intro char member
      rcases List.mem_append.mp member with front | back
      · have fixed : "::ffff:".toList.all isAddressChar := by decide
        exact List.all_eq_true.mp fixed char front
      · exact chars char back
    · rw [List.length_append]
      have fixed : "::ffff:".toList.length = 7 := by decide
      omega
  · simp only
    split
    · obtain ⟨headChars, headShort⟩ := fmt_subslice_written ((segments ip).take
        (longestZeros 0 (segments ip) ⟨0, 0⟩ ⟨0, 0⟩).start)
        fun group member => small group (List.mem_of_mem_take member)
      obtain ⟨tailChars, tailShort⟩ := fmt_subslice_written ((segments ip).drop
        ((longestZeros 0 (segments ip) ⟨0, 0⟩ ⟨0, 0⟩).start +
          (longestZeros 0 (segments ip) ⟨0, 0⟩ ⟨0, 0⟩).len))
        fun group member => small group (List.mem_of_mem_drop member)
      refine ⟨?_, by simp, ?_⟩
      · intro char member
        rcases List.mem_append.mp member with front | back
        · rcases List.mem_append.mp front with head | gap
          · exact headChars char head
          · have fixed : "::".toList.all isAddressChar := by decide
            exact List.all_eq_true.mp fixed char gap
        · exact tailChars char back
      · rw [List.length_take] at headShort
        rw [List.length_drop] at tailShort
        have fixed : "::".toList.length = 2 := by decide
        rw [List.length_append, List.length_append]
        omega
    · obtain ⟨chars, short⟩ := fmt_subslice_written (segments ip) small
      refine ⟨chars, ?_, by omega⟩
      obtain ⟨first, second, rest, spelled⟩ : ∃ first second rest,
          segments ip = first :: second :: rest := ⟨_, _, _, rfl⟩
      rw [spelled]
      simp [fmtSubslice, joinChars]

end WrittenCharacters

end OmniProxy.AddressDisplay
