import OmniProxy.AddressText
import OmniProxy.CheckedLoops
import Mathlib

/-!
# Route rules and their compilation

A rule lists criteria of nine kinds. Compilation checks the texts and sorts the
criteria into six matchers: domains (suffixes, keywords and regular expressions),
geosite codes, networks, geoip codes, ports (single ones and ranges) and inbound
tags. A compiled rule asks each matcher that is not empty.

The meaning of a rule is stated on its lists alone: every group with at least one
criterion must be satisfied, and a group is satisfied by any one of its criteria.
The result is that a compiled rule decides this meaning. Networks are compared on
the leading bits of the addresses; the mask of the code is shown to do that.

Regular expressions and the geo tables are parameters.
-/

namespace OmniProxy.RouteRules

open ByteStrings ProxyTargets AddressText CheckedLoops

/-- The library of regular expressions. -/
structure RegexLibrary where
  Regex : Type
  new : String → Except String Regex
  isMatch : Regex → String → Bool

/-- The geo tables. -/
structure GeoLookup where
  geoipContains : String → IpAddr → Bool
  geositeMatches : String → String → Bool

/-- Whether a text ends in another. -/
def endsWith (text ending : String) : Bool := decide (ending.toList <:+ text.toList)

/-- Whether a text contains another. -/
def contains (text part : String) : Bool := decide (part.toList <:+: text.toList)

/-- A pattern of host names. -/
inductive DomainPattern (Regex : Type) where
  | full (name : String)
  | suffix (name : String)
  | keyword (part : String)
  | regex (expression : Regex)

/-- The patterns of a rule by kind. -/
structure DomainMatcher (Regex : Type) where
  full : List String
  suffix : List String
  keyword : List String
  regex : List Regex
deriving DecidableEq

variable {Regex : Type}

def DomainMatcher.new : DomainMatcher Regex := ⟨[], [], [], []⟩

/-- Add a pattern; texts are put in lower case. -/
def DomainMatcher.insert (matcher : DomainMatcher Regex) :
    DomainPattern Regex → DomainMatcher Regex
  | .full name => { matcher with full := matcher.full.insert (toAsciiLowercase name) }
  | .suffix name => { matcher with suffix := matcher.suffix ++ [toAsciiLowercase name] }
  | .keyword part => { matcher with keyword := matcher.keyword ++ [toAsciiLowercase part] }
  | .regex expression => { matcher with regex := matcher.regex ++ [expression] }

def DomainMatcher.isEmpty (matcher : DomainMatcher Regex) : Bool :=
  matcher.full.isEmpty && matcher.suffix.isEmpty && matcher.keyword.isEmpty &&
    matcher.regex.isEmpty

/-- Whether a host name in any case matches one of the patterns. -/
def DomainMatcher.matches (isMatch : Regex → String → Bool) (matcher : DomainMatcher Regex)
    (domain : String) : Bool :=
  let name := toAsciiLowercase domain
  matcher.full.contains name ||
    matcher.suffix.any (fun suffix => name == suffix || endsWith name ("." ++ suffix)) ||
    matcher.keyword.any (fun keyword => contains name keyword) ||
    matcher.regex.any (fun expression => isMatch expression name)

/-- The networks of a rule by family, each with the length of its prefix. -/
structure IpMatcher where
  v4 : List (Octets 4 × Nat)
  v6 : List (Octets 16 × Nat)
deriving DecidableEq

/-- Read a network: an address, and after a slash the length of its prefix. With
no slash the length is the greatest octet. -/
def parseCidr (cidr : String) : Except String (IpAddr × Nat) :=
  let (addr, len) :=
    match splitOnce '/' cidr with
    | some (addr, len) => (addr, parseUnsigned 255 len)
    | none => (cidr, .ok 255)
  match parseIpAddr addr with
  | .error error => .error ("invalid cidr " ++ cidr ++ ": " ++ error)
  | .ok (.v4 octets) =>
      match len with
      | .error error => .error ("invalid prefix in " ++ cidr ++ ": " ++ error)
      | .ok len =>
          if 32 < len then .error ("invalid ipv4 prefix length in " ++ cidr)
          else .ok (.v4 octets, len)
  | .ok (.v6 octets) =>
      match len with
      | .error error => .error ("invalid prefix in " ++ cidr ++ ": " ++ error)
      | .ok len =>
          if 128 < len then .error ("invalid ipv6 prefix length in " ++ cidr)
          else .ok (.v6 octets, len)

/-- Add a network to the list of its family. -/
def IpMatcher.push (matcher : IpMatcher) : IpAddr × Nat → IpMatcher
  | (.v4 octets, len) => { matcher with v4 := matcher.v4 ++ [(octets, len)] }
  | (.v6 octets, len) => { matcher with v6 := matcher.v6 ++ [(octets, len)] }

def IpMatcher.fromCidrs (cidrs : List String) : Except String IpMatcher :=
  cidrs.foldlM (fun matcher cidr => do return matcher.push (← parseCidr cidr)) ⟨[], []⟩

/-- Whether an address and a network agree under the mask of a prefix length. -/
def mask (width : Nat) (addr network : BitVec width) (len : Nat) : Bool :=
  if len = 0 then true
  else
    let bits := BitVec.allOnes width <<< (width - len)
    addr &&& bits == network &&& bits

def mask4 (addr network : Octets 4) (len : Nat) : Bool :=
  mask 32 (BitVec.ofNat 32 (bigEndianValue addr.toList))
    (BitVec.ofNat 32 (bigEndianValue network.toList)) len

def mask6 (addr network : Octets 16) (len : Nat) : Bool :=
  mask 128 (BitVec.ofNat 128 (bigEndianValue addr.toList))
    (BitVec.ofNat 128 (bigEndianValue network.toList)) len

def IpMatcher.matches (matcher : IpMatcher) : IpAddr → Bool
  | .v4 addr => matcher.v4.any fun (network, len) => mask4 addr network len
  | .v6 addr => matcher.v6.any fun (network, len) => mask6 addr network len

def IpMatcher.isEmpty (matcher : IpMatcher) : Bool := matcher.v4.isEmpty && matcher.v6.isEmpty

/-- The ports of a rule. -/
structure PortMatcher where
  exact : List UInt16
  ranges : List (UInt16 × UInt16)
deriving DecidableEq

def PortMatcher.new : PortMatcher := ⟨[], []⟩

def PortMatcher.insertPort (matcher : PortMatcher) (port : UInt16) : PortMatcher :=
  { matcher with exact := matcher.exact.insert port }

def PortMatcher.insertRange (matcher : PortMatcher) (range : UInt16 × UInt16) : PortMatcher :=
  { matcher with ranges := matcher.ranges ++ [range] }

def PortMatcher.isEmpty (matcher : PortMatcher) : Bool :=
  matcher.exact.isEmpty && matcher.ranges.isEmpty

def PortMatcher.matches (matcher : PortMatcher) (port : UInt16) : Bool :=
  matcher.exact.contains port ||
    matcher.ranges.any fun (first, last) => first ≤ port && port ≤ last

/-- A rule as it is written. -/
structure RouteRuleAst where
  domainSuffix : List String
  domainKeyword : List String
  domainRegex : List String
  ipCidr : List String
  geoip : List String
  geosite : List String
  ports : List UInt16
  portRanges : List (UInt16 × UInt16)
  inboundTags : List String

def RouteRuleAst.hasCriteria (ast : RouteRuleAst) : Bool :=
  !(ast.domainSuffix.isEmpty && ast.domainKeyword.isEmpty && ast.domainRegex.isEmpty &&
    ast.ipCidr.isEmpty && ast.geoip.isEmpty && ast.geosite.isEmpty && ast.ports.isEmpty &&
    ast.portRanges.isEmpty && ast.inboundTags.isEmpty)

/-- A rule ready to be asked. -/
structure CompiledRule (Regex : Type) where
  domains : DomainMatcher Regex
  ips : IpMatcher
  geoip : List String
  geosite : List String
  ports : PortMatcher
  inboundTags : List String
  hasCriteria : Bool
deriving DecidableEq

def validateDomainItem (domain : String) : Except String Unit :=
  if (trim domain).isEmpty then
    .error "route rule domain entry is empty or whitespace-only"
  else .ok ()

/-- Add a suffix of a rule after checking it. -/
def addSuffix (domains : DomainMatcher Regex) (domain : String) :
    Except String (DomainMatcher Regex) := do
  validateDomainItem domain
  return domains.insert (.suffix (toAsciiLowercase domain))

/-- Add a keyword of a rule after checking it. -/
def addKeyword (domains : DomainMatcher Regex) (keyword : String) :
    Except String (DomainMatcher Regex) :=
  if (trim keyword).isEmpty then
    .error "route rule[i].domain_keyword[j] is empty or whitespace-only"
  else .ok (domains.insert (.keyword (toAsciiLowercase keyword)))

/-- Add a regular expression of a rule after compiling it. -/
def addRegex (library : RegexLibrary) (domains : DomainMatcher library.Regex)
    (expression : String) : Except String (DomainMatcher library.Regex) :=
  match library.new expression with
  | .error error => .error ("regex.compile: regex pattern compilation failed: " ++ error)
  | .ok regex => .ok (domains.insert (.regex regex))

def RouteRuleAst.compile (library : RegexLibrary) (ast : RouteRuleAst) :
    Except String (CompiledRule library.Regex) := do
  let domains ← ast.domainSuffix.foldlM addSuffix DomainMatcher.new
  let domains ← ast.domainKeyword.foldlM addKeyword domains
  let domains ← ast.domainRegex.foldlM (addRegex library) domains
  let ips ← IpMatcher.fromCidrs ast.ipCidr
  let ports := ast.ports.foldl PortMatcher.insertPort PortMatcher.new
  let ports := ast.portRanges.foldl PortMatcher.insertRange ports
  return { domains, ips, geoip := ast.geoip, geosite := ast.geosite, ports,
           inboundTags := ast.inboundTags, hasCriteria := ast.hasCriteria }

/-- Ask a rule about a connection. The matchers are asked in turn; one that is not
empty and does not match decides against the rule. -/
def CompiledRule.matches (isMatch : Regex → String → Bool) (rule : CompiledRule Regex)
    (host : Option String) (ip : Option IpAddr) (port : UInt16) (inboundTag : Option String)
    (geo : GeoLookup) : Bool :=
  if !rule.hasCriteria then true
  else if !rule.inboundTags.isEmpty && !inboundTag.any rule.inboundTags.contains then false
  else if !rule.ports.isEmpty && !rule.ports.matches port then false
  else if !rule.domains.isEmpty && !host.any (rule.domains.matches isMatch) then false
  else if !rule.geosite.isEmpty &&
      !host.any (fun name => rule.geosite.any fun code => geo.geositeMatches code name) then
    false
  else if !rule.ips.isEmpty && !ip.any rule.ips.matches then false
  else if !rule.geoip.isEmpty &&
      !ip.any (fun addr => rule.geoip.any fun code => geo.geoipContains code addr) then false
  else true

/-- A connection as a rule sees it. -/
structure Query where
  host : Option String
  ip : Option IpAddr
  port : UInt16
  inboundTag : Option String

/-- A host name in lower case falls under one of the domain criteria. -/
def DomainCriteria (library : RegexLibrary) (ast : RouteRuleAst) (name : String) : Prop :=
  (∃ suffix ∈ ast.domainSuffix,
    name = toAsciiLowercase suffix ∨ endsWith name ("." ++ toAsciiLowercase suffix) = true) ∨
  (∃ keyword ∈ ast.domainKeyword, contains name (toAsciiLowercase keyword) = true) ∨
  (∃ expression ∈ ast.domainRegex, ∃ regex, library.new expression = .ok regex ∧
    library.isMatch regex name = true)

/-- An address agrees with a network of its family on the leading bits. -/
def InNetwork (network : IpAddr) (len : Nat) (addr : IpAddr) : Prop :=
  match network, addr with
  | .v4 network, .v4 addr =>
      bigEndianValue addr.toList / 2 ^ (32 - len) = bigEndianValue network.toList / 2 ^ (32 - len)
  | .v6 network, .v6 addr =>
      bigEndianValue addr.toList / 2 ^ (128 - len) =
        bigEndianValue network.toList / 2 ^ (128 - len)
  | _, _ => False

/-- An address lies in the network that a text denotes. -/
def InCidr (cidr : String) (addr : IpAddr) : Prop :=
  ∃ network len, parseCidr cidr = .ok (network, len) ∧ InNetwork network len addr

/-- The meaning of a rule: each group with a criterion is satisfied. -/
structure Satisfied (library : RegexLibrary) (geo : GeoLookup) (ast : RouteRuleAst)
    (query : Query) : Prop where
  inboundTags : ast.inboundTags ≠ [] → ∃ tag ∈ query.inboundTag, tag ∈ ast.inboundTags
  ports : ast.ports ≠ [] ∨ ast.portRanges ≠ [] →
    query.port ∈ ast.ports ∨
      ∃ range ∈ ast.portRanges, range.1 ≤ query.port ∧ query.port ≤ range.2
  domains : ast.domainSuffix ≠ [] ∨ ast.domainKeyword ≠ [] ∨ ast.domainRegex ≠ [] →
    ∃ host ∈ query.host, DomainCriteria library ast (toAsciiLowercase host)
  geosite : ast.geosite ≠ [] →
    ∃ host ∈ query.host, ∃ code ∈ ast.geosite, geo.geositeMatches code host = true
  ipCidr : ast.ipCidr ≠ [] → ∃ addr ∈ query.ip, ∃ cidr ∈ ast.ipCidr, InCidr cidr addr
  geoip : ast.geoip ≠ [] →
    ∃ addr ∈ query.ip, ∃ code ∈ ast.geoip, geo.geoipContains code addr = true

/-- Lower-casing twice is lower-casing once. -/
theorem to_ascii_lowercase_idempotent (text : String) :
    toAsciiLowercase (toAsciiLowercase text) = toAsciiLowercase text := by
  have idempotent : Char.toLower ∘ Char.toLower = Char.toLower :=
    funext Char.toLower_toLower_eq_toLower
  simp [toAsciiLowercase, idempotent]

/-- Two words agree under a mask exactly when they agree after the shift that drops
the masked bits. -/
theorem masked_eq_iff {width : Nat} (left right : BitVec width) (count : Nat) :
    left &&& BitVec.allOnes width <<< count = right &&& BitVec.allOnes width <<< count ↔
      left >>> count = right >>> count := by
  constructor
  · intro masked
    apply BitVec.eq_of_getLsbD_eq
    intro index inside
    have bit := congrArg (fun word => word.getLsbD (count + index)) masked
    by_cases reached : count + index < width
    · have above : ¬count + index < count := by omega
      simpa [reached, above] using bit
    · simp [BitVec.getLsbD_of_ge _ _ (Nat.le_of_not_lt reached)]
  · intro shifted
    apply BitVec.eq_of_getLsbD_eq
    intro index inside
    by_cases low : index < count
    · simp [low]
    · have bit := congrArg (fun word => word.getLsbD (index - count)) shifted
      have position : count + (index - count) = index := by omega
      simp only [BitVec.getLsbD_ushiftRight, position] at bit
      simp [bit]

/-- Masking two words compares their leading bits. -/
theorem mask_iff (width : Nat) (addr network : BitVec width) (len : Nat) :
    mask width addr network len = true ↔
      addr.toNat / 2 ^ (width - len) = network.toNat / 2 ^ (width - len) := by
  rw [← Nat.shiftRight_eq_div_pow, ← Nat.shiftRight_eq_div_pow, ← BitVec.toNat_ushiftRight,
    ← BitVec.toNat_ushiftRight, ← BitVec.toNat_eq, ← masked_eq_iff]
  unfold mask
  by_cases whole : len = 0
  · simp [whole]
  · simp [whole]

/-- The word of an array of octets has the value of the array. -/
theorem word_value {n : Nat} (width : Nat) (octets : Octets n) (wide : 256 ^ n = 2 ^ width) :
    (BitVec.ofNat width (bigEndianValue octets.toList)).toNat =
      bigEndianValue octets.toList := by
  rw [BitVec.toNat_ofNat, Nat.mod_eq_of_lt]
  calc bigEndianValue octets.toList
      < 256 ^ octets.toList.length := big_endian_value_bound octets.toList
    _ = 2 ^ width := by rw [octets.toList_length, wide]

/-- A matcher with one more network matches what it matched before and the
addresses of that network. -/
theorem push_matches (matcher : IpMatcher) (network : IpAddr) (len : Nat) (addr : IpAddr) :
    (matcher.push (network, len)).matches addr = true ↔
      matcher.matches addr = true ∨ InNetwork network len addr := by
  cases network with
  | v4 network =>
    cases addr with
    | v4 addr =>
      simp only [IpMatcher.push, IpMatcher.matches, InNetwork, mask4, List.any_append,
        Bool.or_eq_true, List.any_cons, List.any_nil, Bool.or_false, mask_iff,
        word_value 32 _ (by decide : 256 ^ 4 = 2 ^ 32)]
    | v6 addr => simp [IpMatcher.push, IpMatcher.matches, InNetwork]
  | v6 network =>
    cases addr with
    | v4 addr => simp [IpMatcher.push, IpMatcher.matches, InNetwork]
    | v6 addr =>
      simp only [IpMatcher.push, IpMatcher.matches, InNetwork, mask6, List.any_append,
        Bool.or_eq_true, List.any_cons, List.any_nil, Bool.or_false, mask_iff,
        word_value 128 _ (by decide : 256 ^ 16 = 2 ^ 128)]

/-- The networks of a list of texts, when all of them can be read: the matcher
decides membership in one of them and is empty only for the empty list. -/
theorem from_cidrs_spec (cidrs : List String) (matcher : IpMatcher)
    (read : IpMatcher.fromCidrs cidrs = .ok matcher) :
    (∀ addr, matcher.matches addr = true ↔ ∃ cidr ∈ cidrs, InCidr cidr addr) ∧
      (matcher.isEmpty = true ↔ cidrs = []) := by
  have related := fold_traced
    (fun (matcher : IpMatcher) cidr => do return matcher.push (← parseCidr cidr))
    (fun done (matcher : IpMatcher) =>
      (∀ addr, matcher.matches addr = true ↔ ∃ cidr ∈ done, InCidr cidr addr) ∧
        (matcher.isEmpty = true ↔ done = []))
    ?_ cidrs [] ⟨[], []⟩ matcher ?_ read
  · simpa using related
  · rintro done cidr before after ⟨decides, -⟩ stepped
    obtain ⟨⟨network, len⟩, parsed, pushed⟩ := (bind_ok_iff _ _ _).mp stepped
    simp only [pure, Except.pure, Except.ok.injEq] at pushed
    subst pushed
    constructor
    · intro addr
      rw [push_matches, decides addr]
      simp [InCidr, parsed, or_and_right, exists_or]
    · cases network <;> simp [IpMatcher.push, IpMatcher.isEmpty]
  · constructor
    · intro addr
      cases addr <;> simp [IpMatcher.matches]
    · simp [IpMatcher.isEmpty]

/-- The suffixes of a rule are stored in lower case. -/
theorem suffixes_added (suffixes : List String) (domains : DomainMatcher Regex)
    (added : suffixes.foldlM addSuffix DomainMatcher.new = .ok domains) :
    domains = ⟨[], suffixes.map toAsciiLowercase, [], []⟩ := by
  have related := fold_traced addSuffix
    (fun done (domains : DomainMatcher Regex) =>
      domains = ⟨[], done.map toAsciiLowercase, [], []⟩)
    ?_ suffixes [] DomainMatcher.new domains rfl added
  · simpa using related
  · rintro done suffix before after rfl stepped
    obtain ⟨-, -, inserted⟩ := (bind_ok_iff _ _ _).mp stepped
    simp only [pure, Except.pure, Except.ok.injEq] at inserted
    simp [← inserted, DomainMatcher.insert, to_ascii_lowercase_idempotent]

/-- The keywords of a rule are stored in lower case beside what was there. -/
theorem keywords_added (keywords : List String) (start domains : DomainMatcher Regex)
    (added : keywords.foldlM addKeyword start = .ok domains) :
    domains = { start with keyword := start.keyword ++ keywords.map toAsciiLowercase } := by
  have related := fold_traced addKeyword
    (fun done (domains : DomainMatcher Regex) =>
      domains = { start with keyword := start.keyword ++ done.map toAsciiLowercase })
    ?_ keywords [] start domains (by simp) added
  · simpa using related
  · rintro done keyword before after rfl stepped
    obtain ⟨-, inserted⟩ := (check_ok_iff _ _ _ _).mp stepped
    simp only [Except.ok.injEq] at inserted
    simp [← inserted, DomainMatcher.insert, to_ascii_lowercase_idempotent]

/-- The compiled expressions of a rule stand beside what was there, in order. -/
theorem regexes_added (library : RegexLibrary) (expressions : List String)
    (start domains : DomainMatcher library.Regex)
    (added : expressions.foldlM (addRegex library) start = .ok domains) :
    ∃ regexes, List.Forall₂ (fun expression regex => library.new expression = .ok regex)
        expressions regexes ∧
      domains = { start with regex := start.regex ++ regexes } := by
  have related := fold_traced (addRegex library)
    (fun done (domains : DomainMatcher library.Regex) => ∃ regexes,
      List.Forall₂ (fun expression regex => library.new expression = .ok regex) done regexes ∧
        domains = { start with regex := start.regex ++ regexes })
    ?_ expressions [] start domains ⟨[], by simp⟩ added
  · simpa using related
  · rintro done expression before after ⟨regexes, compiled, rfl⟩ stepped
    unfold addRegex at stepped
    cases outcome : library.new expression with
    | error error => simp [outcome] at stepped
    | ok regex =>
      simp only [outcome, Except.ok.injEq] at stepped
      refine ⟨regexes ++ [regex], ?_, by simp [← stepped, DomainMatcher.insert]⟩
      exact List.rel_append compiled (List.Forall₂.cons outcome List.Forall₂.nil)

/-- Inserting ports one by one stores each of them. -/
theorem ports_inserted (ports : List UInt16) (start : PortMatcher) :
    ∃ exact, ports.foldl PortMatcher.insertPort start = { start with exact } ∧
      ∀ port, port ∈ exact ↔ port ∈ start.exact ∨ port ∈ ports := by
  induction ports generalizing start with
  | nil => exact ⟨start.exact, rfl, by simp⟩
  | cons first ports inductionHypothesis =>
    obtain ⟨exact, inserted, stored⟩ := inductionHypothesis (start.insertPort first)
    refine ⟨exact, inserted, fun port => ?_⟩
    simp only [stored, PortMatcher.insertPort, List.mem_insert_iff, List.mem_cons]
    tauto

/-- Inserting ranges one by one appends them. -/
theorem ranges_inserted (ranges : List (UInt16 × UInt16)) (start : PortMatcher) :
    ranges.foldl PortMatcher.insertRange start =
      { start with ranges := start.ranges ++ ranges } := by
  induction ranges generalizing start with
  | nil => simp
  | cons first ranges inductionHypothesis =>
    simp [inductionHypothesis, PortMatcher.insertRange]

/-- What a compiled rule holds of the rule it was compiled from. -/
structure CompiledFrom (library : RegexLibrary) (ast : RouteRuleAst)
    (rule : CompiledRule library.Regex) : Prop where
  full : rule.domains.full = []
  suffix : rule.domains.suffix = ast.domainSuffix.map toAsciiLowercase
  keyword : rule.domains.keyword = ast.domainKeyword.map toAsciiLowercase
  regex : List.Forall₂ (fun expression regex => library.new expression = .ok regex)
    ast.domainRegex rule.domains.regex
  ips : IpMatcher.fromCidrs ast.ipCidr = .ok rule.ips
  exact : ∀ port, port ∈ rule.ports.exact ↔ port ∈ ast.ports
  ranges : rule.ports.ranges = ast.portRanges
  geoip : rule.geoip = ast.geoip
  geosite : rule.geosite = ast.geosite
  inboundTags : rule.inboundTags = ast.inboundTags
  hasCriteria : rule.hasCriteria = ast.hasCriteria

/-- A rule that compiles holds what it was compiled from. -/
theorem compile_spec (library : RegexLibrary) (ast : RouteRuleAst)
    (rule : CompiledRule library.Regex) (compiled : ast.compile library = .ok rule) :
    CompiledFrom library ast rule := by
  obtain ⟨suffixes, suffixed, compiled⟩ := (bind_ok_iff _ _ _).mp compiled
  obtain ⟨keywords, keyworded, compiled⟩ := (bind_ok_iff _ _ _).mp compiled
  obtain ⟨domains, expressed, compiled⟩ := (bind_ok_iff _ _ _).mp compiled
  obtain ⟨ips, networks, compiled⟩ := (bind_ok_iff _ _ _).mp compiled
  obtain rfl := suffixes_added ast.domainSuffix suffixes suffixed
  obtain rfl := keywords_added ast.domainKeyword _ keywords keyworded
  obtain ⟨regexes, matching, rfl⟩ := regexes_added library ast.domainRegex _ domains expressed
  obtain ⟨exact, inserted, stored⟩ := ports_inserted ast.ports PortMatcher.new
  simp only [pure, Except.pure, Except.ok.injEq, inserted, ranges_inserted] at compiled
  subst compiled
  exact {
    full := rfl
    suffix := rfl
    keyword := by simp
    regex := by simpa using matching
    ips := networks
    exact := by simpa [PortMatcher.new] using stored
    ranges := by simp [PortMatcher.new]
    geoip := rfl
    geosite := rfl
    inboundTags := rfl
    hasCriteria := rfl }

section Compiled

variable {library : RegexLibrary} {ast : RouteRuleAst} {rule : CompiledRule library.Regex}

/-- Some compiled expression has a property exactly when some expression compiles to
one that has it. -/
theorem compiled_exists_iff (Holds : library.Regex → Prop) (expressions : List String)
    (regexes : List library.Regex)
    (compiled : List.Forall₂ (fun expression regex => library.new expression = .ok regex)
      expressions regexes) :
    (∃ regex ∈ regexes, Holds regex) ↔
      ∃ expression ∈ expressions, ∃ regex, library.new expression = .ok regex ∧
        Holds regex := by
  induction compiled with
  | nil => simp
  | cons first rest inductionHypothesis => simp [inductionHypothesis, first]

/-- The domain matcher of a compiled rule decides its domain criteria. -/
theorem domains_match_iff (holds : CompiledFrom library ast rule) (host : String) :
    rule.domains.matches library.isMatch host = true ↔
      DomainCriteria library ast (toAsciiLowercase host) := by
  have expressions := compiled_exists_iff
    (fun regex => library.isMatch regex (toAsciiLowercase host) = true) _ _ holds.regex
  simp only [DomainMatcher.matches, holds.full, holds.suffix, holds.keyword,
    DomainCriteria, ← expressions]
  simp [or_assoc]

/-- The domain matcher of a compiled rule is empty exactly when the rule has no
domain criterion. -/
theorem domains_empty_iff (holds : CompiledFrom library ast rule) :
    rule.domains.isEmpty = true ↔
      ast.domainSuffix = [] ∧ ast.domainKeyword = [] ∧ ast.domainRegex = [] := by
  have lengths := holds.regex.length_eq
  simp [DomainMatcher.isEmpty, holds.full, holds.suffix, holds.keyword, and_assoc,
    ← List.length_eq_zero_iff, lengths]

/-- The ports of a rule match its listed ports and those inside its ranges. -/
theorem ports_match_iff (holds : CompiledFrom library ast rule) (port : UInt16) :
    rule.ports.matches port = true ↔
      port ∈ ast.ports ∨ ∃ range ∈ ast.portRanges, range.1 ≤ port ∧ port ≤ range.2 := by
  simp [PortMatcher.matches, holds.exact, holds.ranges]

/-- The criterion on ports is empty exactly when no port and no range was given. -/
theorem ports_empty_iff (holds : CompiledFrom library ast rule) :
    rule.ports.isEmpty = true ↔ ast.ports = [] ∧ ast.portRanges = [] := by
  simp [PortMatcher.isEmpty, holds.ranges, List.eq_nil_iff_forall_not_mem, holds.exact]

/-- A compiled rule with criteria matches when each matcher is empty or matches. -/
theorem matches_iff (rule : CompiledRule library.Regex) (criteria : rule.hasCriteria = true)
    (query : Query) (geo : GeoLookup) :
    rule.matches library.isMatch query.host query.ip query.port query.inboundTag geo = true ↔
      (rule.inboundTags = [] ∨ ∃ tag ∈ query.inboundTag, tag ∈ rule.inboundTags) ∧
      (rule.ports.isEmpty = true ∨ rule.ports.matches query.port = true) ∧
      (rule.domains.isEmpty = true ∨
        ∃ host ∈ query.host, rule.domains.matches library.isMatch host = true) ∧
      (rule.geosite = [] ∨
        ∃ host ∈ query.host, ∃ code ∈ rule.geosite, geo.geositeMatches code host = true) ∧
      (rule.ips.isEmpty = true ∨ ∃ addr ∈ query.ip, rule.ips.matches addr = true) ∧
      (rule.geoip = [] ∨
        ∃ addr ∈ query.ip, ∃ code ∈ rule.geoip, geo.geoipContains code addr = true) := by
  unfold CompiledRule.matches
  simp only [criteria, Bool.not_true, Bool.false_eq_true, if_false, Bool.if_false_left]
  simp [Option.any_eq_true]

/-- A rule is satisfied when each group is empty or has a criterion that is met. -/
theorem satisfied_iff (geo : GeoLookup) (query : Query) :
    Satisfied library geo ast query ↔
      (ast.inboundTags = [] ∨ ∃ tag ∈ query.inboundTag, tag ∈ ast.inboundTags) ∧
      ((ast.ports = [] ∧ ast.portRanges = []) ∨ query.port ∈ ast.ports ∨
        ∃ range ∈ ast.portRanges, range.1 ≤ query.port ∧ query.port ≤ range.2) ∧
      ((ast.domainSuffix = [] ∧ ast.domainKeyword = [] ∧ ast.domainRegex = []) ∨
        ∃ host ∈ query.host, DomainCriteria library ast (toAsciiLowercase host)) ∧
      (ast.geosite = [] ∨
        ∃ host ∈ query.host, ∃ code ∈ ast.geosite, geo.geositeMatches code host = true) ∧
      (ast.ipCidr = [] ∨ ∃ addr ∈ query.ip, ∃ cidr ∈ ast.ipCidr, InCidr cidr addr) ∧
      (ast.geoip = [] ∨
        ∃ addr ∈ query.ip, ∃ code ∈ ast.geoip, geo.geoipContains code addr = true) := by
  have somePort : ¬(ast.ports = [] ∧ ast.portRanges = []) ↔
      ast.ports ≠ [] ∨ ast.portRanges ≠ [] := not_and_or
  have someDomain :
      ¬(ast.domainSuffix = [] ∧ ast.domainKeyword = [] ∧ ast.domainRegex = []) ↔
        ast.domainSuffix ≠ [] ∨ ast.domainKeyword ≠ [] ∨ ast.domainRegex ≠ [] := by
    rw [not_and_or, not_and_or]
  constructor
  · rintro ⟨tags, ports, domains, geosite, cidr, geoip⟩
    exact ⟨or_iff_not_imp_left.mpr tags,
      or_iff_not_imp_left.mpr fun given => ports (somePort.mp given),
      or_iff_not_imp_left.mpr fun given => domains (someDomain.mp given),
      or_iff_not_imp_left.mpr geosite, or_iff_not_imp_left.mpr cidr,
      or_iff_not_imp_left.mpr geoip⟩
  · rintro ⟨tags, ports, domains, geosite, cidr, geoip⟩
    exact ⟨tags.resolve_left, fun given => ports.resolve_left (somePort.mpr given),
      fun given => domains.resolve_left (someDomain.mpr given), geosite.resolve_left,
      cidr.resolve_left, geoip.resolve_left⟩

/-- A rule without criteria is satisfied by every connection. -/
theorem satisfied_without_criteria (geo : GeoLookup) (query : Query)
    (bare : ast.hasCriteria = false) : Satisfied library geo ast query := by
  simp only [RouteRuleAst.hasCriteria, Bool.not_eq_false', Bool.and_eq_true,
    List.isEmpty_iff] at bare
  obtain ⟨⟨⟨⟨⟨⟨⟨⟨suffix, keyword⟩, regex⟩, cidr⟩, geoip⟩, geosite⟩, ports⟩, ranges⟩, tags⟩ := bare
  exact (satisfied_iff geo query).mpr ⟨.inl tags, .inl ⟨ports, ranges⟩,
    .inl ⟨suffix, keyword, regex⟩, .inl geosite, .inl cidr, .inl geoip⟩

end Compiled

/-- Compilation preserves the meaning of a rule: the compiled rule matches a
connection exactly when every group of the written rule that has a criterion is
satisfied, and a rule without criteria matches every connection. Each matcher is
empty exactly when its group is, and otherwise decides it. -/
theorem compile_preserves_meaning (library : RegexLibrary) (ast : RouteRuleAst)
    (rule : CompiledRule library.Regex) (compiled : ast.compile library = .ok rule)
    (geo : GeoLookup) (host : Option String) (ip : Option IpAddr) (port : UInt16)
    (inboundTag : Option String) :
    (rule.matches library.isMatch host ip port inboundTag geo = true ↔
      Satisfied library geo ast ⟨host, ip, port, inboundTag⟩) ∧
    (ast.hasCriteria = false →
      rule.matches library.isMatch host ip port inboundTag geo = true) := by
  have holds := compile_spec library ast rule compiled
  have always (bare : ast.hasCriteria = false) :
      rule.matches library.isMatch host ip port inboundTag geo = true := by
    simp [CompiledRule.matches, holds.hasCriteria, bare]
  refine ⟨?_, always⟩
  cases criteria : ast.hasCriteria with
  | false => simp [always criteria, satisfied_without_criteria geo _ criteria]
  | true =>
    obtain ⟨networks, noNetworks⟩ := from_cidrs_spec ast.ipCidr rule.ips holds.ips
    have decides := matches_iff rule (holds.hasCriteria.trans criteria)
      ⟨host, ip, port, inboundTag⟩ geo
    simp only [holds.inboundTags, holds.geosite, holds.geoip, ports_match_iff holds,
      ports_empty_iff holds, domains_match_iff holds, domains_empty_iff holds, networks,
      noNetworks] at decides
    rw [decides, satisfied_iff]

/-- A library in which an expression is a text to be found. -/
def literalRegex : RegexLibrary where
  Regex := String
  new expression := .ok expression
  isMatch expression name := contains name expression

instance : DecidableEq literalRegex.Regex := inferInstanceAs (DecidableEq String)

/-- Web traffic to a private network or under a domain, from one inbound. -/
def officeRule : RouteRuleAst where
  domainSuffix := ["Example.COM"]
  domainKeyword := []
  domainRegex := ["cdn"]
  ipCidr := ["10.0.0.0/8", "fd00::/8"]
  geoip := []
  geosite := []
  ports := [443]
  portRanges := [(8000, 8999)]
  inboundTags := ["office"]

/-- What compilation makes of it. -/
def officeCompiled : CompiledRule literalRegex.Regex where
  domains := ⟨[], ["example.com"], [], [("cdn" : String)]⟩
  ips := ⟨[(⟨[10, 0, 0, 0], rfl⟩, 8)],
    [(⟨[0xFD, 0, 0, 0, 0, 0, 0, 0, 0, 0, 0, 0, 0, 0, 0, 0], rfl⟩, 8)]⟩
  geoip := []
  geosite := []
  ports := ⟨[443], [(8000, 8999)]⟩
  inboundTags := ["office"]
  hasCriteria := true

/-- A connection that meets all four groups of the rule satisfies it. -/
theorem compile_preserves_meaning_example :
    Satisfied literalRegex ⟨fun _ _ => false, fun _ _ => false⟩ officeRule
      ⟨some "WWW.example.com", some (.v4 ⟨[10, 1, 2, 3], rfl⟩), 8080, some "office"⟩ :=
  (compile_preserves_meaning literalRegex officeRule officeCompiled
    (by decide +kernel) ⟨fun _ _ => false, fun _ _ => false⟩ _ _ _ _).1.mp
    (by decide +kernel)

end OmniProxy.RouteRules
