import OmniProxy.RouteRules

/-!
# Networks as leading bits

A network is a text with an address, a slash and a length. The matcher compares words under
a mask of ones that is shifted by what the length leaves of the word; the length is bounded
when the text is read, and the mask is not made for the length zero, so neither the
subtraction nor the shift goes wrong. What is compared are the leading bits of the octets.

A text without a slash gets a length that no family has. So a list with a bare address is
refused as a whole.
-/

namespace OmniProxy.CidrPrefixes

open AddressText ByteStrings CheckedLoops ProxyTargets RouteRules

section Bits

/-- A bit of an octet string, counted from the most significant one of the first octet. -/
def leadingBit (octets : Bytes) (index : Nat) : Bool :=
  (octets.getD (index / 8) 0).toNat.testBit (7 - index % 8)

/-- The bits of an octet string are those of its value, from the other end. -/
theorem value_bit (octets : Bytes) (index : Nat) (inside : index < 8 * octets.length) :
    (bigEndianValue octets).testBit (8 * octets.length - 1 - index) = leadingBit octets index := by
  induction octets generalizing index with
  | nil => exact absurd inside (Nat.not_lt_zero index)
  | cons digit rest inductionHypothesis =>
    have bounded : bigEndianValue rest < 2 ^ (8 * rest.length) := by
      rw [Nat.pow_mul]
      exact big_endian_value_bound rest
    have power : 256 ^ rest.length = 2 ^ (8 * rest.length) := by
      rw [Nat.pow_mul]
    rw [List.length_cons] at inside ⊢
    rw [bigEndianValue, power, Nat.mul_comm, Nat.testBit_two_pow_mul_add _ bounded]
    by_cases first : index < 8
    · rw [if_neg (by omega), leadingBit, Nat.div_eq_of_lt first, Nat.mod_eq_of_lt first,
        List.getD_cons_zero]
      congr 1
      omega
    · have later := inductionHypothesis (index - 8) (by omega)
      have position : 8 * (rest.length + 1) - 1 - index = 8 * rest.length - 1 - (index - 8) := by
        omega
      have octet : index / 8 = (index - 8) / 8 + 1 := by omega
      have bit : index % 8 = (index - 8) % 8 := by omega
      rw [if_pos (by omega), position, later, leadingBit, leadingBit, octet, bit,
        List.getD_cons_succ]

/-- Two numbers agree after a division exactly when they agree on the leading bits. -/
theorem leading_eq_iff (width count left right : Nat) (bounded : count ≤ width)
    (leftFits : left < 2 ^ width) (rightFits : right < 2 ^ width) :
    left / 2 ^ (width - count) = right / 2 ^ (width - count) ↔
      ∀ index < count, left.testBit (width - 1 - index) = right.testBit (width - 1 - index) := by
  constructor
  · intro same index inside
    have bit := congrArg (·.testBit (count - 1 - index)) same
    have position : count - 1 - index + (width - count) = width - 1 - index := by omega
    simpa only [Nat.testBit_div_two_pow, position] using bit
  · intro agree
    apply Nat.eq_of_testBit_eq
    intro index
    rw [Nat.testBit_div_two_pow, Nat.testBit_div_two_pow]
    by_cases inside : index < count
    · have position : index + (width - count) = width - 1 - (count - 1 - index) := by omega
      rw [position]
      exact agree _ (by omega)
    · have above : 2 ^ width ≤ 2 ^ (index + (width - count)) :=
        Nat.pow_le_pow_right (by decide) (by omega)
      rw [Nat.testBit_lt_two_pow (leftFits.trans_le above),
        Nat.testBit_lt_two_pow (rightFits.trans_le above)]

/-- Octet strings of one length agree after a division exactly on their leading bits. -/
theorem octets_leading_iff {n : Nat} (addr network : Octets n) (len : Nat) (bounded : len ≤ 8 * n) :
    bigEndianValue addr.toList / 2 ^ (8 * n - len) =
        bigEndianValue network.toList / 2 ^ (8 * n - len) ↔
      ∀ index < len, leadingBit addr.toList index = leadingBit network.toList index := by
  have fits (octets : Octets n) : bigEndianValue octets.toList < 2 ^ (8 * n) := by
    have bound := big_endian_value_bound octets.toList
    rw [octets.toList_length] at bound
    rwa [Nat.pow_mul]
  have bit (octets : Octets n) (index : Nat) (inside : index < len) :
      (bigEndianValue octets.toList).testBit (8 * n - 1 - index) =
        leadingBit octets.toList index := by
    have here := value_bit octets.toList index (by rw [octets.toList_length]; omega)
    rwa [octets.toList_length] at here
  rw [leading_eq_iff (8 * n) len _ _ bounded (fits addr) (fits network)]
  apply forall₂_congr
  intro index inside
  rw [bit addr index inside, bit network index inside]

end Bits

section Networks

/-- The number of bits of an address. -/
def addressWidth : IpAddr → Nat
  | .v4 _ => 32
  | .v6 _ => 128

/-- An address of a network's family that begins with the same bits. -/
def Begins (network : IpAddr) (len : Nat) (addr : IpAddr) : Prop :=
  match network, addr with
  | .v4 network, .v4 addr =>
      ∀ index < len, leadingBit addr.toList index = leadingBit network.toList index
  | .v6 network, .v6 addr =>
      ∀ index < len, leadingBit addr.toList index = leadingBit network.toList index
  | _, _ => False

/-- An address is in the network exactly when it begins with the network's bits. -/
theorem in_network_iff (network : IpAddr) (len : Nat) (addr : IpAddr)
    (bounded : len ≤ addressWidth network) :
    InNetwork network len addr ↔ Begins network len addr := by
  cases network with
  | v4 network =>
    cases addr with
    | v4 addr => exact octets_leading_iff addr network len bounded
    | v6 addr => rfl
  | v6 network =>
    cases addr with
    | v4 addr => rfl
    | v6 addr => exact octets_leading_iff addr network len bounded

/-- A text lists a network: its address in front of the first slash and the length of its
prefix behind it. -/
def Lists (cidr : String) (network : IpAddr) (len : Nat) : Prop :=
  ∃ addr digits, splitOnce '/' cidr = some (addr, digits) ∧ parseIpAddr addr = .ok network ∧
    parseUnsigned 255 digits = .ok len

/-- A prefix is the text of one network and one length only. -/
theorem lists_unique {cidr : String} {network other : IpAddr} {len length : Nat}
    (listed : Lists cidr network len) (again : Lists cidr other length) :
    network = other ∧ len = length := by
  obtain ⟨addr, digits, split, parsed, number⟩ := listed
  obtain ⟨addr', digits', split', parsed', number'⟩ := again
  obtain ⟨rfl, rfl⟩ := Prod.mk.inj (Option.some.inj (split.symm.trans split'))
  exact ⟨Except.ok.inj (parsed.symm.trans parsed'), Except.ok.inj (number.symm.trans number')⟩

/-- A network is read exactly from a text that lists it with a length of its family. -/
theorem parse_cidr_iff (cidr : String) (network : IpAddr) (len : Nat) :
    parseCidr cidr = .ok (network, len) ↔
      Lists cidr network len ∧ len ≤ addressWidth network := by
  unfold parseCidr Lists
  cases splitOnce '/' cidr with
  | none =>
    -- The length that stands for a missing one is too large for either family.
    cases parsed : parseIpAddr cidr with
    | error error => simp [parsed]
    | ok addr => cases addr <;> simp [parsed]
  | some parts =>
    obtain ⟨addr, digits⟩ := parts
    simp only [Option.some.injEq, Prod.mk.injEq, ↓existsAndEq, true_and]
    cases parseIpAddr addr with
    | error error => simp
    | ok parsed =>
      cases parsed with
      | v4 octets =>
        cases parseUnsigned 255 digits with
        | error error => simp
        | ok number =>
          simp only [check_ok_iff, Except.ok.injEq, Prod.mk.injEq, not_lt]
          constructor
          · rintro ⟨bounded, rfl, rfl⟩
            exact ⟨⟨rfl, rfl⟩, bounded⟩
          · rintro ⟨⟨rfl, rfl⟩, bounded⟩
            exact ⟨bounded, rfl, rfl⟩
      | v6 octets =>
        cases parseUnsigned 255 digits with
        | error error => simp
        | ok number =>
          simp only [check_ok_iff, Except.ok.injEq, Prod.mk.injEq, not_lt]
          constructor
          · rintro ⟨bounded, rfl, rfl⟩
            exact ⟨⟨rfl, rfl⟩, bounded⟩
          · rintro ⟨⟨rfl, rfl⟩, bounded⟩
            exact ⟨bounded, rfl, rfl⟩

/-- All texts of a list that is taken can be read, and the matcher holds what was read. -/
theorem from_cidrs_read (cidrs : List String) (matcher : IpMatcher)
    (read : IpMatcher.fromCidrs cidrs = .ok matcher) :
    (∀ cidr ∈ cidrs, ∃ network len, parseCidr cidr = .ok (network, len)) ∧
      (∀ item ∈ matcher.v4, item.2 ≤ 32) ∧ ∀ item ∈ matcher.v6, item.2 ≤ 128 := by
  have related := fold_traced
    (fun (matcher : IpMatcher) cidr => do return matcher.push (← parseCidr cidr))
    (fun done (matcher : IpMatcher) =>
      (∀ cidr ∈ done, ∃ network len, parseCidr cidr = .ok (network, len)) ∧
        (∀ item ∈ matcher.v4, item.2 ≤ 32) ∧ ∀ item ∈ matcher.v6, item.2 ≤ 128)
    ?_ cidrs [] ⟨[], []⟩ matcher ?_ read
  · simpa using related
  · rintro done cidr before after ⟨earlier, v4, v6⟩ stepped
    obtain ⟨⟨network, len⟩, parsed, pushed⟩ := (bind_ok_iff _ _ _).mp stepped
    simp only [pure, Except.pure, Except.ok.injEq] at pushed
    subst pushed
    have bounded := ((parse_cidr_iff cidr network len).mp parsed).2
    refine ⟨?_, ?_⟩
    · intro other member
      rcases List.mem_append.mp member with there | last
      · exact earlier other there
      · rw [List.mem_singleton.mp last]
        exact ⟨network, len, parsed⟩
    · cases network with
      | v4 octets =>
        refine ⟨fun item member => ?_, v6⟩
        rcases List.mem_append.mp member with there | last
        · exact v4 item there
        · rw [List.mem_singleton.mp last]
          exact bounded
      | v6 octets =>
        refine ⟨v4, fun item member => ?_⟩
        rcases List.mem_append.mp member with there | last
        · exact v6 item there
        · rw [List.mem_singleton.mp last]
          exact bounded
  · simp

end Networks

section Arithmetic

/-- What can go wrong with unsigned words: a difference below zero, or a shift by the width. -/
inductive ArithmeticFault where
  | subtraction
  | shift
deriving DecidableEq

/-- All ones, shifted by what a length leaves of the width. -/
def shiftedOnes (width len : Nat) : Except ArithmeticFault (BitVec width) :=
  if width < len then .error .subtraction
  else if width ≤ width - len then .error .shift
  else .ok (BitVec.allOnes width <<< (width - len))

/-- The comparison under a mask with its arithmetic checked. -/
def checkedMask (width : Nat) (addr network : BitVec width) (len : Nat) :
    Except ArithmeticFault Bool :=
  if len = 0 then .ok true
  else do
    let bits ← shiftedOnes width len
    return addr &&& bits == network &&& bits

/-- The same of the octets of an address and a network. -/
def checkedEntry {n : Nat} (width : Nat) (addr : Octets n) (item : Octets n × Nat) :
    Except ArithmeticFault Bool :=
  checkedMask width (BitVec.ofNat width (bigEndianValue addr.toList))
    (BitVec.ofNat width (bigEndianValue item.1.toList)) item.2

/-- A matcher's search with its arithmetic checked. -/
def checkedMatches (matcher : IpMatcher) : IpAddr → Except ArithmeticFault Bool
  | .v4 addr => matcher.v4.anyM (checkedEntry 32 addr)
  | .v6 addr => matcher.v6.anyM (checkedEntry 128 addr)

/-- Nothing goes wrong with a length of at most the width. -/
theorem checked_mask_eq (width : Nat) (addr network : BitVec width) (len : Nat)
    (bounded : len ≤ width) :
    checkedMask width addr network len = .ok (mask width addr network len) := by
  rw [checkedMask, mask]
  split_ifs with zero
  · rfl
  · rw [shiftedOnes, if_neg (by omega), if_neg (by omega)]
    rfl

/-- A search whose tests all succeed is a search. -/
theorem any_checked {ε α : Type} (test : α → Except ε Bool) (holds : α → Bool) (items : List α)
    (succeeds : ∀ item ∈ items, test item = .ok (holds item)) :
    items.anyM test = .ok (items.any holds) := by
  induction items with
  | nil => rfl
  | cons item items inductionHypothesis =>
    have later := inductionHypothesis fun other member => succeeds other (.tail _ member)
    rw [List.anyM, succeeds item (.head _), List.any_cons]
    cases holds item with
    | true => rfl
    | false => exact later

/-- Networks are matched by their leading bits. For every list that is taken and every address,
the matcher matches the address exactly when it begins as a listed network of its family does,
and no subtraction or shift on the way leaves the width of a word. -/
theorem matches_listed_iff (cidrs : List String) (matcher : IpMatcher)
    (read : IpMatcher.fromCidrs cidrs = .ok matcher) (addr : IpAddr) :
    (matcher.matches addr = true ↔
        ∃ cidr ∈ cidrs, ∃ network len, Lists cidr network len ∧ Begins network len addr) ∧
      checkedMatches matcher addr = .ok (matcher.matches addr) := by
  obtain ⟨parsed, v4, v6⟩ := from_cidrs_read cidrs matcher read
  constructor
  · rw [(from_cidrs_spec cidrs matcher read).1 addr]
    constructor
    · rintro ⟨cidr, member, network, len, taken, inside⟩
      obtain ⟨listed, bounded⟩ := (parse_cidr_iff cidr network len).mp taken
      have begins := (in_network_iff network len addr bounded).mp inside
      exact ⟨cidr, member, network, len, listed, begins⟩
    · rintro ⟨cidr, member, network, len, listed, begins⟩
      -- A text lists one network, so the one that was read is this one.
      obtain ⟨other, length, taken⟩ := parsed cidr member
      obtain ⟨again, bounded⟩ := (parse_cidr_iff cidr other length).mp taken
      obtain ⟨rfl, rfl⟩ := lists_unique listed again
      have inside := (in_network_iff network len addr bounded).mpr begins
      exact ⟨cidr, member, network, len, taken, inside⟩
  · cases addr with
    | v4 addr =>
      exact any_checked _ _ _ fun item member => checked_mask_eq 32 _ _ _ (v4 item member)
    | v6 addr =>
      exact any_checked _ _ _ fun item member => checked_mask_eq 128 _ _ _ (v6 item member)

end Arithmetic

section BareAddresses

/-- A list with a text that has no slash is not taken, whatever else is in it. -/
theorem bare_refused (cidrs : List String) (text : String) (member : text ∈ cidrs)
    (bare : '/' ∉ text.toList) : ∃ error, IpMatcher.fromCidrs cidrs = .error error := by
  cases read : IpMatcher.fromCidrs cidrs with
  | error error => exact ⟨error, rfl⟩
  | ok matcher =>
    obtain ⟨network, len, parsed⟩ := (from_cidrs_read cidrs matcher read).1 text member
    obtain ⟨addr, digits, split, -⟩ := ((parse_cidr_iff text network len).mp parsed).1
    rw [split_once_none '/' text bare] at split
    cases split

/-- A text in a list stands for one address: the list is taken, its matcher matches the
address, and the text by itself is taken and matches no other. -/
def HostRoute (cidrs : List String) (text : String) (addr : IpAddr) : Prop :=
  ∃ matcher own, IpMatcher.fromCidrs cidrs = .ok matcher ∧ matcher.matches addr = true ∧
    IpMatcher.fromCidrs [text] = .ok own ∧ ∀ other, own.matches other = true ↔ other = addr

/-- A text without a slash, such as an address, stands for no address in any list: every list with
it is refused. -/
theorem bare_address_no_route (cidrs : List String) (text : String) (addr : IpAddr)
    (member : text ∈ cidrs) (bare : '/' ∉ text.toList) :
    (∃ error, IpMatcher.fromCidrs cidrs = .error error) ∧ ¬HostRoute cidrs text addr := by
  obtain ⟨error, refused⟩ := bare_refused cidrs text member bare
  refine ⟨⟨error, refused⟩, ?_⟩
  rintro ⟨matcher, own, read, -⟩
  rw [refused] at read
  cases read

end BareAddresses

section Examples

/-- The address 10.0.0.1. -/
def hostAddr : IpAddr := .v4 ⟨[10, 0, 0, 1], rfl⟩

/-- One network of eight bits. -/
theorem matches_listed_example :
    (IpMatcher.matches ⟨[(⟨[10, 0, 0, 0], rfl⟩, 8)], []⟩ hostAddr = true ↔
        ∃ cidr ∈ ["10.0.0.0/8"], ∃ network len, Lists cidr network len ∧
          Begins network len hostAddr) ∧
      checkedMatches ⟨[(⟨[10, 0, 0, 0], rfl⟩, 8)], []⟩ hostAddr =
        .ok (IpMatcher.matches ⟨[(⟨[10, 0, 0, 0], rfl⟩, 8)], []⟩ hostAddr) :=
  matches_listed_iff ["10.0.0.0/8"] ⟨[(⟨[10, 0, 0, 0], rfl⟩, 8)], []⟩ (by decide) hostAddr

/-- The address alone is refused with the message for a length that is too large. -/
theorem bare_address_refused :
    parseIpAddr "10.0.0.1" = .ok hostAddr ∧
      IpMatcher.fromCidrs ["10.0.0.1"] = .error "invalid ipv4 prefix length in 10.0.0.1" ∧
      ¬HostRoute ["10.0.0.1"] "10.0.0.1" hostAddr := by
  have refused : IpMatcher.fromCidrs ["10.0.0.1"] =
      .error "invalid ipv4 prefix length in 10.0.0.1" := by
    decide
  refine ⟨by decide, refused, ?_⟩
  rintro ⟨matcher, own, read, -⟩
  rw [refused] at read
  cases read

/-- Nor does it stand for itself beside a network. -/
theorem bare_address_no_route_example :
    (∃ error, IpMatcher.fromCidrs ["192.168.0.0/16", "10.0.0.1"] = .error error) ∧
      ¬HostRoute ["192.168.0.0/16", "10.0.0.1"] "10.0.0.1" hostAddr :=
  bare_address_no_route ["192.168.0.0/16", "10.0.0.1"] "10.0.0.1" hostAddr (by decide) (by decide)

end Examples

end OmniProxy.CidrPrefixes
