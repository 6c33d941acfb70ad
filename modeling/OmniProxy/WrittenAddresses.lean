import OmniProxy.AddressDisplay
import Mathlib.Tactic.IntervalCases

/-!
# Written addresses are read back

The reader of addresses inverts the writer. For IPv4 this stands beside the writer; for
IPv6 the groups before and after the gap are read up to the character that follows them,
the gap stands for zeros, and a mapped IPv4 address at the end is read as the last two
groups.
-/

namespace OmniProxy.WrittenAddresses

open ByteStrings ProxyTargets AddressText AddressDisplay

section Groups

/-- Nothing at the front of an input is a hexadecimal digit. -/
def Ends (input : List Char) : Prop := ∀ char, input.head? = some char → toDigit 16 char = none

/-- A number is written in hexadecimal with the digits of its value. -/
theorem hex_digits (number : Nat) :
    ∃ digits : List Nat, Nat.toDigits 16 number = digits.map Nat.digitChar ∧
      (∀ digit ∈ digits, digit < 16) ∧
      digits.foldl (fun value digit => value * 16 + digit) 0 = number := by
  induction number using Nat.strongRecOn with
  | ind number inductionHypothesis =>
    rw [Nat.toDigits_eq_if (by decide)]
    split
    · next small => exact ⟨[number], rfl, by simpa using small, by simp⟩
    · next large =>
      obtain ⟨digits, written, bounded, value⟩ := inductionHypothesis (number / 16) (by omega)
      refine ⟨digits ++ [number % 16], by rw [written, List.map_append]; rfl, ?_, ?_⟩
      · intro digit member
        rcases List.mem_append.mp member with early | last
        · exact bounded digit early
        · rw [List.mem_singleton.mp last]
          exact Nat.mod_lt number (by decide)
      · rw [List.foldl_append, value]
        simp only [List.foldl_cons, List.foldl_nil]
        omega

/-- Hexadecimal digits in front of something else are taken whole. -/
theorem leading_digits_hex (digits : List Nat) (rest : List Char)
    (bounded : ∀ digit ∈ digits, digit < 16) (ends : Ends rest) :
    leadingDigits 16 (digits.map Nat.digitChar ++ rest) = (digits, rest) := by
  have each : ∀ digit < 16, toDigit 16 (Nat.digitChar digit) = some digit := by decide
  induction digits with
  | nil =>
    cases rest with
    | nil => rfl
    | cons char rest => simp only [List.map_nil, List.nil_append, leadingDigits, ends char rfl]
  | cons digit digits inductionHypothesis =>
    obtain ⟨first, later⟩ := List.forall_mem_cons.mp bounded
    rw [List.map_cons, List.cons_append, leadingDigits]
    simp only [each digit first, inductionHypothesis later]

/-- A written group is read back. -/
theorem read_group_written (group : Nat) (rest : List Char) (small : group < 65536)
    (ends : Ends rest) :
    readNumber 16 4 0xFFFF true (Nat.toDigits 16 group ++ rest) = some (group, rest) := by
  obtain ⟨digits, written, bounded, value⟩ := hex_digits group
  have short : digits.length ≤ 4 := by
    have width := (Nat.length_toDigits_le_iff (b := 16) (n := group) (k := 4) (by decide)
      (by decide)).mpr (by simpa using small)
    rwa [written, List.length_map] at width
  have some_digit : digits.length ≠ 0 := by
    have positive := Nat.length_toDigits_pos (b := 16) (n := group)
    rw [written, List.length_map] at positive
    omega
  have read := leading_digits_hex digits rest bounded ends
  rw [written]
  simp only [readNumber, read, value, Bool.not_true, Bool.false_and, Bool.false_eq_true, if_false]
  rw [if_neg (by omega), if_neg some_digit, if_neg (by omega)]

/-- The digits of an input are in front of what is left. -/
theorem leading_digits_suffix (radix : Nat) (input : List Char) :
    (leadingDigits radix input).2 <:+ input := by
  induction input with
  | nil => exact List.suffix_refl []
  | cons char rest inductionHypothesis =>
    rw [leadingDigits]
    split
    · exact List.suffix_refl _
    · exact inductionHypothesis.trans (List.suffix_cons char rest)

/-- No IPv4 address is read where there is no dot. -/
theorem read_ipv4_undotted (input : List Char) (undotted : '.' ∉ input) :
    readIpv4Addr input = none := by
  rw [readIpv4Addr, Option.bind_eq_bind, Option.bind_eq_none_iff]
  rintro ⟨one, rest⟩ read
  have suffix : rest <:+ input := by
    simp only [readSeparator, Nat.lt_irrefl, if_false, readNumber] at read
    split_ifs at read
    rw [← (Prod.mk.inj (Option.some.inj read)).2]
    exact leading_digits_suffix 10 input
  have given : readGivenChar '.' rest = none := by
    cases rest with
    | nil => rfl
    | cons char rest =>
      rw [readGivenChar, if_neg]
      rintro rfl
      exact undotted (suffix.subset List.mem_cons_self)
  simp [readSeparator, given]

/-- A group with the colon that stands before it unless it is the first. -/
def separated (index group : Nat) : List Char :=
  if index = 0 then Nat.toDigits 16 group else ':' :: Nat.toDigits 16 group

/-- A group is read and the reading goes on behind it. -/
theorem read_groups_step (remaining index group : Nat) (rest : List Char) (small : group < 65536)
    (ends : Ends rest) (plain : readIpv4Addr (Nat.toDigits 16 group ++ rest) = none) :
    readGroups (remaining + 1) index (separated index group ++ rest) =
      ((group :: (readGroups remaining (index + 1) rest).1.1,
        (readGroups remaining (index + 1) rest).1.2),
        (readGroups remaining (index + 1) rest).2) := by
  have number := read_group_written group rest small ends
  rw [readGroups]
  by_cases first : index = 0
  · subst first
    simp [separated, readSeparator, plain, number]
  · have positive : 0 < index := Nat.pos_of_ne_zero first
    simp [separated, first, readSeparator, readGivenChar, positive, plain, number]

/-- What ends the groups after some of them. -/
def Stops (index : Nat) (rest : List Char) : Prop :=
  readSeparator ':' index (readNumber 16 4 0xFFFF true) rest = none ∧
    readSeparator ':' index readIpv4Addr rest = none

/-- Where something stops the groups, none are read. -/
theorem groups_stop (remaining index : Nat) (rest : List Char) (stops : Stops index rest) :
    readGroups remaining index rest = (([], false), rest) := by
  cases remaining with
  | zero => rfl
  | succ remaining =>
    rw [readGroups]
    simp [stops.1, stops.2]

/-- Groups with a colon before each but the first of all. -/
def groupsFrom (index : Nat) : List Nat → List Char
  | [] => []
  | group :: chunk => separated index group ++ groupsFrom (index + 1) chunk

/-- What is behind a group ends it. -/
theorem groups_from_ends (index : Nat) (chunk : List Nat) (rest : List Char) (ends : Ends rest) :
    Ends (groupsFrom (index + 1) chunk ++ rest) := by
  cases chunk with
  | nil => exact ends
  | cons group chunk =>
    intro char head
    obtain rfl : ':' = char := by simpa [groupsFrom, separated] using head
    decide

/-- Groups have no dot. -/
theorem groups_from_undotted (index : Nat) (chunk : List Nat) : '.' ∉ groupsFrom index chunk := by
  have digits (group : Nat) : '.' ∉ Nat.toDigits 16 group := by
    obtain ⟨values, written, bounded, -⟩ := hex_digits group
    have each : ∀ digit < 16, Nat.digitChar digit ≠ '.' := by decide
    rw [written, List.mem_map]
    rintro ⟨digit, member, dot⟩
    exact each digit (bounded digit member) dot
  induction chunk generalizing index with
  | nil => simp [groupsFrom]
  | cons group chunk inductionHypothesis =>
    rw [groupsFrom, List.mem_append, not_or]
    refine ⟨?_, inductionHypothesis (index + 1)⟩
    unfold separated
    split
    · exact digits group
    · simpa using digits group

/-- Written groups are read back up to what ends them. -/
theorem read_groups_written (chunk : List Nat) (remaining index : Nat) (rest : List Char)
    (small : ∀ group ∈ chunk, group < 65536) (room : chunk.length ≤ remaining)
    (ends : Ends rest) (undotted : '.' ∉ rest)
    (stops : chunk.length = remaining ∨ Stops (index + chunk.length) rest) :
    readGroups remaining index (groupsFrom index chunk ++ rest) = ((chunk, false), rest) := by
  induction chunk generalizing remaining index with
  | nil =>
    rcases stops with rfl | stops
    · rfl
    · exact groups_stop remaining index rest stops
  | cons group chunk inductionHypothesis =>
    obtain _ | remaining := remaining
    · simp at room
    · obtain ⟨first, later⟩ := List.forall_mem_cons.mp small
      have read := inductionHypothesis remaining (index + 1) later (Nat.le_of_succ_le_succ room)
        (stops.imp Nat.succ.inj fun stops => by
          rwa [List.length_cons, Nat.add_comm chunk.length, ← Nat.add_assoc] at stops)
      have plain : readIpv4Addr (Nat.toDigits 16 group ++
          (groupsFrom (index + 1) chunk ++ rest)) = none := by
        apply read_ipv4_undotted
        have one := groups_from_undotted 0 [group]
        have more := groups_from_undotted (index + 1) chunk
        simp only [groupsFrom, separated, if_true, List.append_nil] at one
        simp [one, more, undotted]
      rw [groupsFrom, List.append_assoc, read_groups_step remaining index group _ first
        (groups_from_ends index chunk rest ends) plain, read]

/-- The writer joins groups as the reader separates them. -/
theorem fmt_subslice_groups (chunk : List Nat) : fmtSubslice chunk = groupsFrom 0 chunk := by
  have later (chunk : List Nat) (index : Nat) :
      (chunk.map (Nat.toDigits 16)).flatMap (fun item => ':' :: item) =
        groupsFrom (index + 1) chunk := by
    induction chunk generalizing index with
    | nil => rfl
    | cons group chunk inductionHypothesis =>
      rw [List.map_cons, List.flatMap_cons, inductionHypothesis (index + 1), groupsFrom]
      simp [separated]
  cases chunk with
  | nil => rfl
  | cons group chunk =>
    rw [fmtSubslice, List.map_cons, joinChars, later chunk 0, groupsFrom]
    rfl

/-- The end of the input stops the groups. -/
theorem stops_at_end (index : Nat) : Stops index [] := by
  unfold Stops readSeparator
  split
  · exact ⟨rfl, rfl⟩
  · exact ⟨rfl, rfl⟩

/-- No IPv4 address starts with something that is no decimal digit. -/
theorem read_ipv4_other (char : Char) (rest : List Char) (other : toDigit 10 char = none) :
    readIpv4Addr (char :: rest) = none := by
  simp [readIpv4Addr, readSeparator, readNumber, leadingDigits, other]

/-- What may stand behind a whole address. -/
structure Closes (rest : List Char) : Prop where
  ends : Ends rest
  undotted : '.' ∉ rest
  stops : ∀ index, Stops index rest

/-- Nothing may stand behind a whole address. -/
theorem closes_at_end : Closes [] := ⟨by simp [Ends], by simp, stops_at_end⟩

/-- What is no hexadecimal digit is no decimal digit. -/
theorem to_digit_none {char : Char} (other : toDigit 16 char = none) : toDigit 10 char = none := by
  rw [toDigit, Option.filter_eq_none_iff] at other ⊢
  intro value found small
  exact other value found (by simp only [decide_eq_true_eq] at small ⊢; omega)

/-- A gap stops the groups. -/
theorem stops_at_gap (index : Nat) (rest : List Char) : Stops index (':' :: ':' :: rest) := by
  unfold Stops readSeparator
  split
  · exact ⟨rfl, rfl⟩
  · exact ⟨rfl, rfl⟩

end Groups

section Segments

/-- A run of zero groups. -/
def ZeroRun (groups : List Nat) (span : Span) : Prop :=
  span.start + span.len ≤ groups.length ∧
    ∀ index, span.start ≤ index → index < span.start + span.len → groups[index]? = some 0

/-- A run that ends at a zero group takes it in. -/
theorem zero_run_grows (groups : List Nat) (place : Nat) (current : Span)
    (running : ZeroRun groups current)
    (here : current.len ≠ 0 → current.start + current.len = place)
    (zero : groups[place]? = some 0) :
    ZeroRun groups ⟨if current.len = 0 then place else current.start, current.len + 1⟩ := by
  have long : place < groups.length := (List.getElem?_eq_some_iff.mp zero).1
  obtain ⟨inside, zeros⟩ := running
  constructor
  · simp only
    split <;> omega
  · intro index above below
    simp only at above below
    by_cases last : index = place
    · rw [last, zero]
    · split at above <;> split at below
      · omega
      · contradiction
      · contradiction
      · exact zeros index above (by omega)

/-- The search keeps runs of zeros: the longest one so far, and the current one, which
ends where the search stands. -/
theorem longest_zeros_run (groups done rest : List Nat) (split : groups = done ++ rest)
    (longest current : Span) (kept : ZeroRun groups longest) (running : ZeroRun groups current)
    (here : current.len ≠ 0 → current.start + current.len = done.length) :
    ZeroRun groups (longestZeros done.length rest longest current) := by
  induction rest generalizing done longest current with
  | nil => exact kept
  | cons segment rest inductionHypothesis =>
    have position : groups[done.length]? = some segment := by simp [split]
    have next := inductionHypothesis (done ++ [segment]) (by simp [split])
    rw [List.length_append, List.length_singleton] at next
    rw [longestZeros]
    by_cases zero : segment = 0
    · subst zero
      have grown := zero_run_grows groups done.length current running here position
      simp only [longestStep, if_true]
      apply next
      · split
        · exact grown
        · exact kept
      · exact grown
      · intro _
        simp only
        split <;> omega
    · simp only [longestStep, zero, if_false]
      exact next longest ⟨0, 0⟩ kept ⟨Nat.zero_le _, fun index _ below => absurd below (by simp)⟩
        (fun some_len => absurd rfl some_len)

/-- A group of an address. -/
theorem segment_at (ip : Octets 16) (index : Nat) (inside : index < 8) :
    (segments ip).getD index 0 =
      bigEndianValue [ip.toList.getD (2 * index) 0, ip.toList.getD (2 * index + 1) 0] := by
  rw [List.getD_eq_getElem?_getD, segments, List.getElem?_ofFn]
  simp [inside]

/-- Groups determine an address. -/
theorem ipv6_of_groups_eq (ip : Octets 16) (head tail : List Nat)
    (same : ∀ index < 8, (if index < 8 - tail.length then head.getD index 0
      else tail.getD (index - (8 - tail.length)) 0) = (segments ip).getD index 0) :
    ipv6OfGroups head tail = ip := by
  apply Subtype.ext
  apply List.ext_getElem
  · rw [ip.2]
    simp [ipv6OfGroups]
  · intro position inside there
    have small : position < 16 := by simpa [ipv6OfGroups] using inside
    have group := same (position / 2) (by omega)
    rw [segment_at ip (position / 2) (by omega)] at group
    simp only [ipv6OfGroups, List.getElem_ofFn]
    have digits (high low : UInt8) : bigEndian 2 (bigEndianValue [high, low]) = [high, low] :=
      big_endian_of_value [high, low]
    rw [group, digits]
    have octet : ip.1[position] = ip.toList.getD position 0 := by
      rw [List.getD_eq_getElem?_getD]
      exact (congrArg (Option.getD · 0) (List.getElem?_eq_getElem there)).symm
    rw [octet]
    rcases Nat.mod_two_eq_zero_or_one position with even | odd
    · rw [even]
      have whole : 2 * (position / 2) = position := by omega
      simp [whole]
    · rw [odd]
      have whole : 2 * (position / 2) + 1 = position := by omega
      simp [whole]

end Segments

section Texts

/-- The octets of an address that maps an IPv4 address. -/
theorem mapped_octets (ip : Octets 16) (ipv4 : Octets 4) (mapped : toIpv4Mapped ip = some ipv4) :
    ip.toList = [0, 0, 0, 0, 0, 0, 0, 0, 0, 0, 0xFF, 0xFF] ++ ipv4.toList := by
  unfold toIpv4Mapped at mapped
  split at mapped
  · next front =>
    obtain rfl := Option.some.inj mapped
    have whole := List.take_append_drop 12 ip.toList
    rw [front] at whole
    exact whole.symm
  · contradiction

/-- An address that maps an IPv4 address is read back: its last two groups are read as the
IPv4 address. -/
theorem read_mapped (ip : Octets 16) (ipv4 : Octets 4) (mapped : toIpv4Mapped ip = some ipv4)
    (rest : List Char) (closes : Closes rest) :
    readIpv6Addr ("::ffff:".toList ++ (displayIpv4 ipv4 ++ rest)) = some (ip, rest) := by
  have address := read_ipv4_written ipv4 rest fun char head =>
    to_digit_none (closes.ends char head)
  have octets := mapped_octets ip ipv4 mapped
  generalize displayIpv4 ipv4 ++ rest = text at address ⊢
  obtain ⟨one, two, three, four, last⟩ :
      ∃ one two three four, ipv4.toList = [one, two, three, four] :=
    List.length_eq_four.mp ipv4.toList_length
  rw [last] at octets
  have first := read_groups_step 6 0 0xFFFF (':' :: text) (by decide)
    (fun char head => by
      obtain rfl : ':' = char := by simpa using head
      decide)
    (read_ipv4_other 'f' _ (by decide))
  have ending : readGroups 6 1 (':' :: text) =
      (([bigEndianValue [one, two], bigEndianValue [three, four]], true), rest) := by
    rw [readGroups]
    simp [readSeparator, readGivenChar, address, last]
  have tail : readGroups 7 0 ("ffff:".toList ++ text) =
      (([0xFFFF, bigEndianValue [one, two], bigEndianValue [three, four]], true), rest) := by
    rw [ending] at first
    exact first
  have same := ipv6_of_groups_eq ip []
    [0xFFFF, bigEndianValue [one, two], bigEndianValue [three, four]] fun index below => by
      rw [segment_at ip index below, octets]
      interval_cases index <;> simp [bigEndianValue]
  have head := groups_stop 8 0 ("::ffff:".toList ++ text) (stops_at_gap 0 _)
  have gap : "::ffff:".toList ++ text = ':' :: ':' :: ("ffff:".toList ++ text) := rfl
  rw [readIpv6Addr, head, gap]
  simp only [List.length_nil, OfNat.zero_ne_ofNat, if_false, Bool.false_eq_true, readGivenChar,
    if_true, Option.bind_eq_bind, Option.bind_some, Nat.zero_add, Nat.reduceSub, tail, same]

/-- The groups before and after a run of zeros determine an address. -/
theorem groups_around_gap (ip : Octets 16) (span : Span) (zeros : ZeroRun (segments ip) span) :
    ipv6OfGroups ((segments ip).take span.start)
      ((segments ip).drop (span.start + span.len)) = ip := by
  have count : (segments ip).length = 8 := List.length_ofFn
  obtain ⟨inside, zero⟩ := zeros
  rw [count] at inside
  apply ipv6_of_groups_eq
  intro index below
  rw [List.length_drop, count]
  split
  · next front =>
    simp only [List.getD_eq_getElem?_getD, List.getElem?_take]
    split
    · rfl
    · next gap =>
      rw [zero index (by omega) (by omega)]
      rfl
  · next back =>
    have position : span.start + span.len + (index - (8 - (8 - (span.start + span.len)))) =
        index := by omega
    simp only [List.getD_eq_getElem?_getD, List.getElem?_drop, position]

/-- An address is read back whatever run of zeros is left out of its text. -/
theorem read_with_gap (ip : Octets 16) (span : Span) (zeros : ZeroRun (segments ip) span)
    (several : 1 < span.len) (rest : List Char) (closes : Closes rest) :
    readIpv6Addr (fmtSubslice ((segments ip).take span.start) ++ "::".toList ++
      fmtSubslice ((segments ip).drop (span.start + span.len)) ++ rest) = some (ip, rest) := by
  have count : (segments ip).length = 8 := List.length_ofFn
  have small := segments_small ip
  obtain ⟨inside, zero⟩ := zeros
  rw [count] at inside
  have headLength : ((segments ip).take span.start).length = span.start := by
    rw [List.length_take]
    omega
  have tailLength : ((segments ip).drop (span.start + span.len)).length =
      8 - (span.start + span.len) := by
    rw [List.length_drop, count]
  have undotted := groups_from_undotted 0 ((segments ip).drop (span.start + span.len))
  have head := read_groups_written ((segments ip).take span.start) 8 0
    (':' :: ':' :: (groupsFrom 0 ((segments ip).drop (span.start + span.len)) ++ rest))
    (fun group member => small group (List.mem_of_mem_take member)) (by omega)
    (fun char first => by
      obtain rfl : ':' = char := by simpa using first
      decide)
    (by simp [undotted, closes.undotted]) (.inr (stops_at_gap _ _))
  have tail := read_groups_written ((segments ip).drop (span.start + span.len))
    (8 - (span.start + 1)) 0 rest (fun group member => small group (List.mem_of_mem_drop member))
    (by omega) closes.ends closes.undotted (.inr (closes.stops _))
  have spelled : fmtSubslice ((segments ip).take span.start) ++ "::".toList ++
      fmtSubslice ((segments ip).drop (span.start + span.len)) ++ rest =
      groupsFrom 0 ((segments ip).take span.start) ++
        ':' :: ':' :: (groupsFrom 0 ((segments ip).drop (span.start + span.len)) ++ rest) := by
    rw [fmt_subslice_groups, fmt_subslice_groups, List.append_assoc, List.append_assoc]
    rfl
  have same := groups_around_gap ip span ⟨by rwa [count], zero⟩
  have cut : span.start ≠ 8 := by omega
  rw [spelled, readIpv6Addr, head]
  simp only [cut, if_false, headLength, readGivenChar, if_true, Option.bind_eq_bind,
    Option.bind_some, tail, same, Bool.false_eq_true]

/-- An address whose text leaves nothing out is read back. -/
theorem read_without_gap (ip : Octets 16) (rest : List Char) (closes : Closes rest) :
    readIpv6Addr (fmtSubslice (segments ip) ++ rest) = some (ip, rest) := by
  have count : (segments ip).length = 8 := List.length_ofFn
  have read := read_groups_written (segments ip) 8 0 rest (segments_small ip) (by omega)
    closes.ends closes.undotted (.inl count)
  have same := ipv6_of_groups_eq ip (segments ip) [] fun index below => by simp [below]
  rw [fmt_subslice_groups, readIpv6Addr, read]
  simp only [count, if_true, same]

end Texts

/-- A written IPv6 address is read back up to what closes it, and not as an IPv4 address. -/
theorem read_ipv6_written (ip : Octets 16) (rest : List Char) (closes : Closes rest) :
    readIpv4Addr (displayIpv6 ip ++ rest) = none ∧
      readIpv6Addr (displayIpv6 ip ++ rest) = some (ip, rest) := by
  have plain (chunk : List Nat) : '.' ∉ fmtSubslice chunk := by
    rw [fmt_subslice_groups]
    exact groups_from_undotted 0 chunk
  rw [displayIpv6]
  split
  · next ipv4 mapped =>
    rw [List.append_assoc]
    exact ⟨read_ipv4_other ':' _ (by decide), read_mapped ip ipv4 mapped rest closes⟩
  · simp only
    split
    · next several =>
      have zeros := longest_zeros_run (segments ip) [] (segments ip) rfl ⟨0, 0⟩ ⟨0, 0⟩
        ⟨Nat.zero_le _, fun index _ below => absurd below (by simp)⟩
        ⟨Nat.zero_le _, fun index _ below => absurd below (by simp)⟩ (by simp)
      exact ⟨read_ipv4_undotted _ (by simp [plain, closes.undotted]),
        read_with_gap ip _ zeros several rest closes⟩
    · exact ⟨read_ipv4_undotted _ (by simp [plain, closes.undotted]),
        read_without_gap ip rest closes⟩

/-- A written IPv6 address is read back. -/
theorem parse_ip_written_ipv6 (ip : Octets 16) :
    parseIpAddr (displayIp (.v6 ip)) = .ok (.v6 ip) := by
  obtain ⟨other, read⟩ := read_ipv6_written ip [] closes_at_end
  rw [List.append_nil] at other read
  simp [parseIpAddr, displayIp, readIpAddr, other, read]

/-- Every written address is read back. -/
theorem parse_ip_written (ip : IpAddr) : parseIpAddr (displayIp ip) = .ok ip := by
  cases ip with
  | v4 ip => exact parse_ip_written_ipv4 ip
  | v6 ip => exact parse_ip_written_ipv6 ip

section SocketAddresses

end SocketAddresses

end OmniProxy.WrittenAddresses
