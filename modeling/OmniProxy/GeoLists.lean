import OmniProxy.GeoFiles
import OmniProxy.WrittenAddresses

/-!
# Geo lists and what loading them means

A geo list is stated on its own: country codes with networks, or country codes with
patterns of host names. A file holds a list when its octets are a message for it, with
fields in any order and with fields that are not known among them.

Loading a file of networks makes the table of networks answer what the list says. The
patterns of a site stand under the number 2, where the parser expects networks, so
loading a file of sites leaves the table of sites as it was and empties the networks of
each code in it.
-/

namespace OmniProxy.GeoLists

open ByteStrings ProxyTargets AddressText AddressDisplay WrittenAddresses CheckedLoops RouteRules
open ProtobufWire PbReaders GeoFiles EStateM

section Lists

/-- The octets of an address. -/
def ipOctets : IpAddr → Bytes
  | .v4 octets => octets.toList
  | .v6 octets => octets.toList

/-- The bits of an address. -/
def ipWidth : IpAddr → Nat
  | .v4 _ => 32
  | .v6 _ => 128

/-- A network: an address and the length of its prefix. -/
structure Cidr where
  ip : IpAddr
  len : Nat
  bounded : len ≤ ipWidth ip

/-- A country code with its networks. -/
structure GeoIp where
  countryCode : String
  cidr : List Cidr
  named : countryCode ≠ ""

/-- The fields of a network; no length stands for zero. -/
structure Cidr.Fields (cidr : Cidr) (fields : List Field) : Prop where
  ip : (bytesOf 1 fields).getLast? = some (ipOctets cidr.ip)
  len : (varintsOf 2 fields).getLast?.getD 0 = cidr.len

def Cidr.Written (cidr : Cidr) (octets : Bytes) : Prop :=
  ∃ fields, Message fields octets ∧ cidr.Fields fields

/-- The fields of a country; no string of octets stands under the number 3. -/
structure GeoIp.Fields (geoip : GeoIp) (fields : List Field) : Prop where
  countryCode : (bytesOf 1 fields).getLast? = some (asBytes geoip.countryCode)
  cidr : List.Forall₂ Cidr.Written geoip.cidr (bytesOf 2 fields)
  known : bytesOf 3 fields = []

def GeoIp.Written (geoip : GeoIp) (octets : Bytes) : Prop :=
  ∃ fields, Message fields octets ∧ geoip.Fields fields

/-- A file in memory holds a list of countries, whose codes differ in more than case. -/
structure GeoIpFile (list : List GeoIp) (octets : Bytes) : Prop where
  written : ∃ fields, Message fields octets ∧
    List.Forall₂ GeoIp.Written list (bytesOf 1 fields)
  distinct : (list.map fun geoip => toAsciiLowercase geoip.countryCode).Nodup
  held : octets.length < 2 ^ 64

/-- An address lies in a network that the list has under a code in any case. -/
def ListedAddress (list : List GeoIp) (code : String) (addr : IpAddr) : Prop :=
  ∃ geoip ∈ list, toAsciiLowercase geoip.countryCode = toAsciiLowercase code ∧
    ∃ cidr ∈ geoip.cidr, InNetwork cidr.ip cidr.len addr

end Lists

section Parsed

/-- What a parser makes of octets that it does not fault on. -/
def answer {α : Type} (parse : Bytes → Except PbFault (Option α)) (octets : Bytes) : Option α :=
  (parse octets).toOption.join

/-- What a parser makes of the octets of each item of a list. -/
theorem parsed_along {Item α : Type} (parse : Bytes → Except PbFault (Option α))
    (Written : Item → Bytes → Prop) (result : Item → Option α) {items : List Item}
    {subs : List Bytes} (written : List.Forall₂ Written items subs)
    (parsed : ∀ item, ∀ sub ∈ subs, Written item sub → parse sub = .ok (result item)) :
    (∀ sub ∈ subs, parse sub = .ok (answer parse sub)) ∧
      subs.map (answer parse) = items.map result := by
  induction written with
  | nil => simp
  | @cons item sub items subs first rest inductionHypothesis =>
    have one := parsed item sub List.mem_cons_self first
    have later := inductionHypothesis fun other octets member =>
      parsed other octets (List.mem_cons_of_mem sub member)
    have exact : answer parse sub = result item := by
      simp only [answer, one]
      rfl
    constructor
    · rw [List.forall_mem_cons]
      exact ⟨one.trans (congrArg Except.ok exact.symm), later.1⟩
    · rw [List.map_cons, List.map_cons, exact, later.2]

/-- The text of a network. -/
def Cidr.text (cidr : Cidr) : String :=
  displayIp cidr.ip ++ ("/" ++ String.ofList (Nat.toDigits 10 cidr.len))

/-- A written network is parsed to its text. -/
theorem cidr_parsed (cidr : Cidr) (octets : Bytes) (written : cidr.Written octets)
    (held : octets.length < 2 ^ 64) : parsePbCidr octets = .ok (some cidr.text) := by
  obtain ⟨fields, message, ip, len⟩ := written
  have small : cidr.len < 2 ^ 32 := by
    have bounded := cidr.bounded
    cases shape : cidr.ip <;> rw [shape, ipWidth] at bounded <;> omega
  have reduced : ((varintsOf 2 fields).getLast?.map (· % 2 ^ 32)).getD 0 = cidr.len := by
    rw [← Nat.mod_eq_of_lt small, ← len]
    cases (varintsOf 2 fields).getLast? <;> rfl
  rw [parse_pb_cidr_written message held, ip, reduced, Option.getD_some]
  obtain ⟨addr, length, bounded⟩ := cidr
  cases addr with
  | v4 array =>
    obtain ⟨octets, width⟩ := array
    simp [cidrText, ipOctets, Cidr.text, List.Vector.toList, width]
  | v6 array =>
    obtain ⟨octets, width⟩ := array
    simp [cidrText, ipOctets, Cidr.text, List.Vector.toList, width]

/-- No written address has a slash. -/
theorem display_ip_unslashed (ip : IpAddr) : '/' ∉ (displayIp ip).toList := by
  have slash : isAddressChar '/' = false := by decide
  intro member
  cases ip with
  | v4 octets =>
    have written := (display_ipv4_written octets).1 '/' (by simpa [displayIp] using member)
    rw [slash] at written
    contradiction
  | v6 octets =>
    have written := (display_ipv6_written octets).1 '/' (by simpa [displayIp] using member)
    rw [slash] at written
    contradiction

/-- The text of a network is read back. -/
theorem cidr_read_back (cidr : Cidr) : parseCidr cidr.text = .ok (cidr.ip, cidr.len) := by
  have spelled : cidr.text = String.ofList
      ((displayIp cidr.ip).toList ++ '/' :: Nat.toDigits 10 cidr.len) := by
    apply String.toList_injective
    simp [Cidr.text]
  have split := split_once_first '/' _ (Nat.toDigits 10 cidr.len)
    (display_ip_unslashed cidr.ip)
  have bounded := cidr.bounded
  have fits : cidr.len ≤ 255 := by
    cases shape : cidr.ip <;> rw [shape, ipWidth] at bounded <;> omega
  rw [← spelled, String.ofList_toList] at split
  have address := parse_ip_written cidr.ip
  have length := parse_unsigned_written 255 cidr.len fits
  delta parseCidr
  rw [split]
  simp only [address, length]
  cases shape : cidr.ip with
  | v4 octets =>
    rw [shape, ipWidth] at bounded
    simp [Nat.not_lt.mpr bounded]
  | v6 octets =>
    rw [shape, ipWidth] at bounded
    simp [Nat.not_lt.mpr bounded]

/-- The texts of networks are all read, and the matcher knows each network. -/
theorem networks_read (cidrs : List Cidr) :
    ∃ matcher, IpMatcher.fromCidrs (cidrs.map Cidr.text) = .ok matcher ∧
      ∀ addr, matcher.matches addr = true ↔ ∃ cidr ∈ cidrs, InNetwork cidr.ip cidr.len addr := by
  have read (start : IpMatcher) : ∃ matcher, (cidrs.map Cidr.text).foldlM
      (fun matcher cidr => do return matcher.push (← parseCidr cidr)) start = .ok matcher := by
    induction cidrs generalizing start with
    | nil => exact ⟨start, rfl⟩
    | cons cidr cidrs inductionHypothesis =>
      obtain ⟨matcher, later⟩ := inductionHypothesis (start.push (cidr.ip, cidr.len))
      refine ⟨matcher, (fold_cons_iff _ _ _ _ _).mpr ⟨_, ?_, later⟩⟩
      rw [cidr_read_back]
      rfl
  obtain ⟨matcher, read⟩ := read ⟨[], []⟩
  refine ⟨matcher, read, fun addr => ?_⟩
  rw [(from_cidrs_spec _ matcher read).1 addr]
  simp [InCidr, cidr_read_back]

variable (library : RegexLibrary)

/-- An entry without patterns holds its code and what its networks are read as. -/
theorem entry_parsed {Item : Type} (Written : Item → Bytes → Prop) (result : Item → Option String)
    (items : List Item) (code : String) {fields : List Field} {octets : Bytes}
    (message : Message fields octets) (held : octets.length < 2 ^ 64)
    (coded : (bytesOf 1 fields).getLast? = some (asBytes code))
    (written : List.Forall₂ Written items (bytesOf 2 fields)) (known : bytesOf 3 fields = [])
    (parsed : ∀ item octets, Written item octets → octets.length < 2 ^ 64 →
      parsePbCidr octets = .ok (result item)) :
    parseGeoEntry library octets = .ok (GeoEntry.filed ⟨code, [], items.filterMap result⟩) := by
  obtain ⟨answers, results⟩ := parsed_along parsePbCidr Written result written
    fun item sub member writes => parsed item sub writes
      (Nat.lt_of_le_of_lt (bytes_of_length message 2 sub member) held)
  have found : (bytesOf 2 fields).filterMap (answer parsePbCidr) = items.filterMap result := by
    have mapped := congrArg (List.filterMap id) results
    simpa [List.filterMap_map] using mapped
  rw [parse_geo_entry_written (answer parsePbCidr) (fun _ => none) message held answers
    (by simp [known]), coded, known, found]
  simp

/-- An entry with a code and no pattern is a country. -/
theorem add_country (lists : GeoLists library) (code : String) (cidrs : List String)
    (named : code ≠ "") :
    lists.add (GeoEntry.filed ⟨code, [], cidrs⟩) =
      { lists with countries := lists.countries ++ [(code, cidrs)] } := by
  cases cidrs <;> simp [GeoEntry.filed, GeoLists.add, named]

/-- A file of entries without patterns is parsed to countries, in order. -/
theorem countries_parsed {Item : Type} (Written : Item → Bytes → Prop)
    (country : Item → String × List String) (named : ∀ item, (country item).1 ≠ "")
    (items : List Item) {fields : List Field} {octets : Bytes} (message : Message fields octets)
    (held : octets.length < 2 ^ 64) (written : List.Forall₂ Written items (bytesOf 1 fields))
    (parsed : ∀ item octets, Written item octets → octets.length < 2 ^ 64 →
      parseGeoEntry library octets =
        .ok (GeoEntry.filed ⟨(country item).1, [], (country item).2⟩)) :
    parseV2rayDat library octets = .ok ⟨[], items.map country⟩ := by
  obtain ⟨answers, results⟩ := parsed_along (parseGeoEntry library) Written _ written
    fun item sub member writes => parsed item sub writes
      (Nat.lt_of_le_of_lt (bytes_of_length message 1 sub member) held)
  have folded (lists : GeoLists library) :
      (items.map fun item => GeoEntry.filed ⟨(country item).1, [], (country item).2⟩).foldl
          GeoLists.add lists =
        { lists with countries := lists.countries ++ items.map country } := by
    clear written results
    induction items generalizing lists with
    | nil => simp
    | cons item items inductionHypothesis =>
      rw [List.map_cons, List.foldl_cons, add_country library lists _ _ (named item),
        inductionHypothesis]
      simp
  rw [parse_v2ray_dat_written _ message held answers, results, folded]
  rfl

end Parsed

section Installed

variable {library : RegexLibrary}

/-- Inserting under other keys changes nothing under a key. -/
theorem inserts_absent {Item Value : Type} (key : Item → String) (value : Item → Value)
    (items : List Item) (table : AList fun _ : String => Value) (wanted : String)
    (absent : ∀ item ∈ items, key item ≠ wanted) :
    (items.foldl (fun table item => table.insert (key item) (value item)) table).lookup wanted =
      table.lookup wanted := by
  induction items generalizing table with
  | nil => rfl
  | cons item items inductionHypothesis =>
    obtain ⟨other, later⟩ := List.forall_mem_cons.mp absent
    rw [List.foldl_cons, inductionHypothesis _ later, AList.lookup_insert_ne other.symm]

/-- Inserting under distinct keys leaves each item's value under its key. -/
theorem inserts_present {Item Value : Type} (key : Item → String) (value : Item → Value)
    (items : List Item) (distinct : (items.map key).Nodup)
    (table : AList fun _ : String => Value) (item : Item) (member : item ∈ items) :
    (items.foldl (fun table item => table.insert (key item) (value item)) table).lookup (key item) =
      some (value item) := by
  induction items generalizing table with
  | nil => simp at member
  | cons first items inductionHypothesis =>
    rw [List.map_cons, List.nodup_cons] at distinct
    rw [List.foldl_cons]
    rcases List.mem_cons.mp member with rfl | later
    · rw [inserts_absent key value items _ (key item), AList.lookup_insert]
      intro other present same
      exact distinct.1 (same ▸ List.mem_map_of_mem present)
    · exact inductionHypothesis distinct.2 _ later

/-- Countries whose networks are all read are installed in order. -/
theorem countries_installed {Item : Type} (country : Item → String × List String)
    (matcher : Item → IpMatcher) (items : List Item)
    (read : ∀ item ∈ items, IpMatcher.fromCidrs (country item).2 = .ok (matcher item))
    (registry : GeoRegistry library) :
    ((items.map country).forM fun (code, cidrs) => GeoRegistry.installCidrs code cidrs) registry =
      .ok () { registry with
        ips := items.foldl (fun ips item =>
          ips.insert (toAsciiLowercase (country item).1) (matcher item)) registry.ips } := by
  induction items generalizing registry with
  | nil => rfl
  | cons item items inductionHypothesis =>
    obtain ⟨first, later⟩ := List.forall_mem_cons.mp read
    have installed : GeoRegistry.installCidrs (country item).1 (country item).2 registry =
        .ok () { registry with
          ips := registry.ips.insert (toAsciiLowercase (country item).1) (matcher item) } := by
      simp only [GeoRegistry.installCidrs, first]
      rfl
    rw [List.forM_eq_forM, List.map_cons, List.forM_cons]
    simp only [Bind.bind, EStateM.bind, installed, List.foldl_cons]
    exact inductionHypothesis later _

/-- The registry in which the countries of a list are installed. -/
def installed {Item : Type} (country : Item → String × List String) (matcher : Item → IpMatcher)
    (items : List Item) (registry : GeoRegistry library) : GeoRegistry library :=
  { registry with
    ips := items.foldl (fun ips item =>
      ips.insert (toAsciiLowercase (country item).1) (matcher item)) registry.ips }

/-- Loading a file of countries installs them. -/
theorem countries_loaded {Item : Type} (country : Item → String × List String)
    (matcher : Item → IpMatcher) (items : List Item) (octets : Bytes)
    (parsed : parseV2rayDat library octets = .ok ⟨[], items.map country⟩)
    (read : ∀ item ∈ items, IpMatcher.fromCidrs (country item).2 = .ok (matcher item))
    (path : String) (registry : GeoRegistry library) :
    GeoRegistry.loadDat path (.ok octets) registry =
      .ok (0, items.length) (installed country matcher items registry) := by
  have done := countries_installed country matcher items read registry
  simp only [GeoRegistry.loadDat, parsed, List.forM_eq_forM, List.forM_nil, Bind.bind,
    EStateM.bind, Pure.pure, EStateM.pure] at done ⊢
  rw [done]
  simp only [List.length_map]
  rfl

/-- A code in any case under which a list has an item. -/
def HasCode {Item : Type} (code : Item → String) (items : List Item) (wanted : String) : Prop :=
  ∃ item ∈ items, toAsciiLowercase (code item) = toAsciiLowercase wanted

/-- Among items with distinct codes, the one with a code speaks for it. -/
theorem listed_under_iff {Item : Type} (code : Item → String) (items : List Item)
    (distinct : (items.map fun item => toAsciiLowercase (code item)).Nodup)
    (holds : Item → Prop) {item : Item} {wanted : String} (member : item ∈ items)
    (same : toAsciiLowercase (code item) = toAsciiLowercase wanted) :
    (∃ other ∈ items, toAsciiLowercase (code other) = toAsciiLowercase wanted ∧ holds other) ↔
      holds item := by
  constructor
  · rintro ⟨other, inside, equal, held⟩
    rwa [List.inj_on_of_nodup_map distinct inside member (equal.trans same.symm)] at held
  · exact fun held => ⟨item, member, same, held⟩

/-- After countries with distinct codes are installed, each code is answered by its own
matcher, and what is not listed as before. -/
theorem installed_contains_iff {Item : Type} (country : Item → String × List String)
    (matcher : Item → IpMatcher) (items : List Item)
    (distinct : (items.map fun item => toAsciiLowercase (country item).1).Nodup)
    (registry : GeoRegistry library) (code : String) (addr : IpAddr) :
    (installed country matcher items registry).geoipContains code addr = true ↔
      (∃ item ∈ items, toAsciiLowercase (country item).1 = toAsciiLowercase code ∧
        (matcher item).matches addr = true) ∨
      ¬HasCode (fun item => (country item).1) items code ∧
        registry.geoipContains code addr = true := by
  have present := inserts_present (fun item => toAsciiLowercase (country item).1) matcher items
    distinct registry.ips
  by_cases listed : HasCode (fun item => (country item).1) items code
  · rw [or_iff_left fun both => both.1 listed]
    obtain ⟨item, member, same⟩ := listed
    have found := present item member
    rw [same] at found
    rw [listed_under_iff (fun item => (country item).1) items distinct _ member same]
    simp only [GeoRegistry.geoipContains, installed, found, Option.map_some, Option.getD_some]
  · have absent := inserts_absent (fun item => toAsciiLowercase (country item).1) matcher items
      registry.ips (toAsciiLowercase code) fun item member same => listed ⟨item, member, same⟩
    simp only [GeoRegistry.geoipContains, installed, absent]
    constructor
    · exact fun contained => .inr ⟨listed, contained⟩
    · rintro (⟨item, member, same, -⟩ | ⟨-, contained⟩)
      · exact absurd ⟨item, member, same⟩ listed
      · exact contained

end Installed

section Countries

variable (library : RegexLibrary)

/-- Loading a file of countries succeeds, and then the table answers what the list says; a
code that is not in the list is answered as before. The file is parsed to the texts of the
networks, which are read back, and each code is installed with its own networks. -/
theorem geoip_list_loaded (list : List GeoIp) (octets : Bytes) (file : GeoIpFile list octets)
    (path : String) (registry : GeoRegistry library) :
    ∃ after, GeoRegistry.loadDat path (.ok octets) registry = .ok (0, list.length) after ∧
      ∀ code addr, after.geoipContains code addr = true ↔
        ListedAddress list code addr ∨
          ¬HasCode GeoIp.countryCode list code ∧ registry.geoipContains code addr = true := by
  obtain ⟨⟨fields, message, written⟩, distinct, held⟩ := file
  choose matcher read decides using fun geoip : GeoIp => networks_read geoip.cidr
  let country (geoip : GeoIp) := (geoip.countryCode, geoip.cidr.map Cidr.text)
  have parsed := countries_parsed library GeoIp.Written country (fun geoip => geoip.named) list
    message held written fun geoip octets written held => by
      obtain ⟨fields, message, coded, cidrs, known⟩ := written
      have entry := entry_parsed library Cidr.Written (fun cidr => some cidr.text) geoip.cidr
        geoip.countryCode message held coded cidrs known cidr_parsed
      simpa using entry
  refine ⟨_, countries_loaded country matcher list octets parsed (fun geoip _ => read geoip)
    path registry, fun code addr => ?_⟩
  rw [installed_contains_iff country matcher list distinct registry code addr]
  simp only [decides]
  rfl

/-- The fields of a network, a country and a list, with a field that is not known. -/
def networkFields : List Field :=
  [⟨2, .varint 24, by decide⟩, ⟨1, .bytes [1, 0, 1, 0], by decide⟩,
    ⟨7, .fixed32 (zeroOctets 4), by decide⟩]

def countryFields : List Field :=
  [⟨1, .bytes (asBytes "CN"), by decide⟩, ⟨2, .bytes (writeMessage networkFields), by decide⟩]

def countryFile : Bytes := writeMessage [⟨1, .bytes (writeMessage countryFields), by decide⟩]

/-- The list that the file holds. -/
def countryList : List GeoIp :=
  [⟨"CN", [⟨.v4 ⟨[1, 0, 1, 0], rfl⟩, 24, by decide⟩], by decide⟩]

/-- The sample file has the countries that it says. -/
theorem country_file_holds : GeoIpFile countryList countryFile := by
  have network : Cidr.Written ⟨.v4 ⟨[1, 0, 1, 0], rfl⟩, 24, by decide⟩
      (writeMessage networkFields) :=
    ⟨networkFields, write_message_written _ (by simp [networkFields, Payload.Fits]), rfl, rfl⟩
  have fits : (writeMessage networkFields).length < 2 ^ 64 := by decide
  have country : GeoIp.Written ⟨"CN", [⟨.v4 ⟨[1, 0, 1, 0], rfl⟩, 24, by decide⟩], by decide⟩
      (writeMessage countryFields) :=
    ⟨countryFields, write_message_written _ (by
        simp only [countryFields, List.forall_mem_cons, Payload.Fits]
        exact ⟨by decide, fits, by simp⟩),
      rfl, .cons network .nil, rfl⟩
  have entry : (writeMessage countryFields).length < 2 ^ 64 := by decide
  exact ⟨⟨_, write_message_written _ (by simpa [Payload.Fits] using entry), .cons country .nil⟩,
    by decide, by decide⟩

/-- An address of the network is found under the code in another case. -/
theorem geoip_list_loaded_example :
    ∃ after, GeoRegistry.loadDat "geoip.dat" (.ok countryFile)
        (GeoRegistry.new : GeoRegistry literalRegex) = .ok (0, 1) after ∧
      after.geoipContains "cn" (.v4 ⟨[1, 0, 1, 9], rfl⟩) = true := by
  obtain ⟨after, loaded, decides⟩ := geoip_list_loaded literalRegex countryList countryFile
    country_file_holds "geoip.dat" GeoRegistry.new
  refine ⟨after, loaded, (decides _ _).mpr (.inl ⟨_, List.mem_cons_self, by decide, _,
    List.mem_cons_self, ?_⟩)⟩
  simp only [InNetwork]
  decide

end Countries

section Sites

/-- The kinds of patterns. -/
inductive DomainType where
  | keyword
  | regex
  | rootDomain
  | full

/-- The number of a kind. -/
def DomainType.number : DomainType → Nat
  | .keyword => 0
  | .regex => 1
  | .rootDomain => 2
  | .full => 3

/-- A pattern of host names. -/
structure Domain where
  type : DomainType
  value : String
  named : value ≠ ""

/-- A code with its patterns. -/
structure GeoSite where
  countryCode : String
  domain : List Domain
  named : countryCode ≠ ""

variable (library : RegexLibrary)

/-- A pattern matches a name. Only regular expressions heed the case. -/
def Domain.Matches (domain : Domain) (name : String) : Prop :=
  match domain.type with
  | .keyword => contains (toAsciiLowercase name) (toAsciiLowercase domain.value) = true
  | .regex => ∃ regex, library.new domain.value = .ok regex ∧ library.isMatch regex name = true
  | .rootDomain => toAsciiLowercase name = toAsciiLowercase domain.value ∨
      endsWith (toAsciiLowercase name) ("." ++ toAsciiLowercase domain.value) = true
  | .full => toAsciiLowercase name = toAsciiLowercase domain.value

/-- The fields of a pattern; no type stands for a keyword. -/
structure Domain.Fields (domain : Domain) (fields : List Field) : Prop where
  type : (varintsOf 1 fields).getLast?.getD 0 = domain.type.number
  value : (bytesOf 2 fields).getLast? = some (asBytes domain.value)
  known : bytesOf 1 fields = []

def Domain.Written (domain : Domain) (octets : Bytes) : Prop :=
  ∃ fields, Message fields octets ∧ domain.Fields fields

/-- The fields of a site; no string of octets stands under the number 3. -/
structure GeoSite.Fields (site : GeoSite) (fields : List Field) : Prop where
  countryCode : (bytesOf 1 fields).getLast? = some (asBytes site.countryCode)
  domain : List.Forall₂ Domain.Written site.domain (bytesOf 2 fields)
  known : bytesOf 3 fields = []

def GeoSite.Written (site : GeoSite) (octets : Bytes) : Prop :=
  ∃ fields, Message fields octets ∧ site.Fields fields

/-- A file in memory holds a list of sites, whose codes differ in more than case and whose
regular expressions are valid. -/
structure GeoSiteFile (list : List GeoSite) (octets : Bytes) : Prop where
  written : ∃ fields, Message fields octets ∧
    List.Forall₂ GeoSite.Written list (bytesOf 1 fields)
  distinct : (list.map fun site => toAsciiLowercase site.countryCode).Nodup
  valid : ∀ site ∈ list, ∀ domain ∈ site.domain, domain.type = .regex →
    ∃ regex, library.new domain.value = .ok regex
  held : octets.length < 2 ^ 64

/-- A name matches a pattern that the list has under a code in any case. -/
def ListedName (list : List GeoSite) (code name : String) : Prop :=
  ∃ site ∈ list, toAsciiLowercase site.countryCode = toAsciiLowercase code ∧
    ∃ domain ∈ site.domain, domain.Matches library name

/-- Loading means what the list says: it succeeds, then the table of sites answers what the
list says, a code that is not in the list is answered as before, and so is every question
about networks. -/
def LoadMeansSites (list : List GeoSite) (octets : Bytes) (path : String)
    (registry : GeoRegistry library) : Prop :=
  ∃ counts after, GeoRegistry.loadDat path (.ok octets) registry = .ok counts after ∧
    (∀ code name, after.geositeMatches code name = true ↔
      ListedName library list code name ∨
        ¬HasCode GeoSite.countryCode list code ∧ registry.geositeMatches code name = true) ∧
    ∀ code addr, after.geoipContains code addr = registry.geoipContains code addr

variable {library}

/-- A written pattern is read as a network without an address. -/
theorem domain_parsed (domain : Domain) (octets : Bytes) (written : domain.Written octets)
    (held : octets.length < 2 ^ 64) : parsePbCidr octets = .ok none := by
  obtain ⟨fields, message, -, -, known⟩ := written
  rw [parse_pb_cidr_written message held, known]
  rfl

/-- What a site is installed as: a country without networks. -/
def emptied (site : GeoSite) : String × List String := (site.countryCode, [])

/-- Loading a file of sites installs each code without networks. -/
theorem sites_loaded (list : List GeoSite) (octets : Bytes)
    (file : GeoSiteFile library list octets) (path : String) (registry : GeoRegistry library) :
    GeoRegistry.loadDat path (.ok octets) registry =
      .ok (0, list.length) (installed emptied (fun _ => ⟨[], []⟩) list registry) := by
  obtain ⟨⟨fields, message, written⟩, -, -, held⟩ := file
  have parsed := countries_parsed library GeoSite.Written emptied (fun site => site.named) list
    message held written fun site octets written held => by
      obtain ⟨fields, message, coded, domains, known⟩ := written
      have entry := entry_parsed library Domain.Written (fun _ => none) site.domain
        site.countryCode message held coded domains known domain_parsed
      simpa [emptied] using entry
  exact countries_loaded emptied _ list octets parsed (fun _ _ => rfl) path registry

/-- After sites are installed so, no address is listed under their codes. -/
theorem emptied_contains_iff (list : List GeoSite)
    (distinct : (list.map fun site => toAsciiLowercase site.countryCode).Nodup)
    (registry : GeoRegistry library) (code : String) (addr : IpAddr) :
    (installed emptied (fun _ => ⟨[], []⟩) list registry).geoipContains code addr = true ↔
      ¬HasCode GeoSite.countryCode list code ∧ registry.geoipContains code addr = true := by
  have nothing : IpMatcher.matches ⟨[], []⟩ addr = false := by cases addr <;> rfl
  rw [installed_contains_iff emptied _ list distinct registry code addr]
  simp only [nothing, Bool.false_eq_true, and_false, exists_false, false_or]
  rfl

/-- Under the code of a site in any case, its patterns are listed. -/
theorem listed_name_iff (list : List GeoSite)
    (distinct : (list.map fun site => toAsciiLowercase site.countryCode).Nodup) (name : String)
    {site : GeoSite} {code : String} (member : site ∈ list)
    (same : toAsciiLowercase site.countryCode = toAsciiLowercase code) :
    ListedName library list code name ↔ ∃ domain ∈ site.domain, domain.Matches library name :=
  listed_under_iff GeoSite.countryCode list distinct
    (fun site => ∃ domain ∈ site.domain, domain.Matches library name) member same

/-- A code is answered as the same code in another case. -/
theorem geosite_same_code (registry : GeoRegistry library) (name : String) {code other : String}
    (same : toAsciiLowercase code = toAsciiLowercase other) :
    registry.geositeMatches code name = registry.geositeMatches other name := by
  unfold GeoRegistry.geositeMatches
  rw [same]

/-- Capital and small letters in a code make no difference. -/
theorem geoip_same_code (registry : GeoRegistry library) (addr : IpAddr) {code other : String}
    (same : toAsciiLowercase code = toAsciiLowercase other) :
    registry.geoipContains code addr = registry.geoipContains other addr := by
  unfold GeoRegistry.geoipContains
  rw [same]

/-- Exactly when loading a file of sites means what the list says: under every code of the
list the table of sites already answered what the list says, and the table of networks
had no address. Loading leaves the sites as they were and empties the networks of the
codes. -/
theorem load_means_sites_iff (list : List GeoSite) (octets : Bytes)
    (file : GeoSiteFile library list octets) (path : String) (registry : GeoRegistry library) :
    LoadMeansSites library list octets path registry ↔
      ∀ site ∈ list,
        (∀ name, registry.geositeMatches site.countryCode name = true ↔
          ∃ domain ∈ site.domain, domain.Matches library name) ∧
        ∀ addr, registry.geoipContains site.countryCode addr = false := by
  have loaded := sites_loaded list octets file path registry
  have contains := emptied_contains_iff list file.distinct registry
  constructor
  · rintro ⟨counts, after, loading, sites, countries⟩ site member
    obtain ⟨-, rfl⟩ := Result.ok.inj (loaded.symm.trans loading)
    have listed : HasCode GeoSite.countryCode list site.countryCode := ⟨site, member, rfl⟩
    constructor
    · intro name
      rw [← listed_name_iff list file.distinct name member rfl]
      exact (sites site.countryCode name).trans (or_iff_left fun both => both.1 listed)
    · intro addr
      rw [← countries site.countryCode addr, Bool.eq_false_iff, Ne, contains]
      exact fun both => both.1 listed
  · intro answered
    refine ⟨_, _, loaded, fun code name => ?_, fun code addr => ?_⟩
    · change registry.geositeMatches code name = true ↔ _
      by_cases listed : HasCode GeoSite.countryCode list code
      · rw [or_iff_left fun both => both.1 listed]
        obtain ⟨site, member, same⟩ := listed
        rw [← geosite_same_code registry name same, (answered site member).1 name]
        exact (listed_name_iff list file.distinct name member same).symm
      · have unlisted : ¬ListedName library list code name := by
          rintro ⟨site, member, same, -⟩
          exact listed ⟨site, member, same⟩
        rw [or_iff_right unlisted, and_iff_right listed]
    · rw [Bool.eq_iff_iff, contains]
      constructor
      · exact fun both => both.2
      · intro contained
        refine ⟨?_, contained⟩
        rintro ⟨site, member, same⟩
        rw [← geoip_same_code registry addr same, (answered site member).2 addr] at contained
        exact Bool.false_ne_true contained

/-- The fields of a pattern and of a site. -/
def patternFields : List Field :=
  [⟨1, .varint 3, by decide⟩, ⟨2, .bytes (asBytes "example.org"), by decide⟩]

def siteFields : List Field :=
  [⟨1, .bytes (asBytes "TEST"), by decide⟩, ⟨2, .bytes (writeMessage patternFields), by decide⟩]

def siteFile : Bytes := writeMessage [⟨1, .bytes (writeMessage siteFields), by decide⟩]

/-- The list that the file holds. -/
def siteList : List GeoSite := [⟨"TEST", [⟨.full, "example.org", by decide⟩], by decide⟩]

/-- The sample file has the lists that it says. -/
theorem site_file_holds : GeoSiteFile literalRegex siteList siteFile := by
  have pattern : Domain.Written ⟨.full, "example.org", by decide⟩ (writeMessage patternFields) :=
    ⟨patternFields, write_message_written _ (by
        simp only [patternFields, List.forall_mem_cons, Payload.Fits]
        exact ⟨by decide, by decide, by simp⟩),
      rfl, rfl, rfl⟩
  have fits : (writeMessage patternFields).length < 2 ^ 64 := by decide
  have site : GeoSite.Written ⟨"TEST", [⟨.full, "example.org", by decide⟩], by decide⟩
      (writeMessage siteFields) :=
    ⟨siteFields, write_message_written _ (by
        simp only [siteFields, List.forall_mem_cons, Payload.Fits]
        exact ⟨by decide, fits, by simp⟩),
      rfl, .cons pattern .nil, rfl⟩
  have entry : (writeMessage siteFields).length < 2 ^ 64 := by decide
  exact ⟨⟨_, write_message_written _ (by simpa [Payload.Fits] using entry), .cons site .nil⟩,
    by decide, by simp [siteList], by decide⟩

/-- An empty registry does not come to know the site. -/
theorem site_list_lost :
    ¬LoadMeansSites literalRegex siteList siteFile "geosite.dat" GeoRegistry.new := by
  rintro ⟨counts, after, loading, sites, -⟩
  have loaded := sites_loaded siteList siteFile site_file_holds "geosite.dat" GeoRegistry.new
  obtain ⟨-, rfl⟩ := Result.ok.inj (loaded.symm.trans loading)
  have found := (sites "TEST" "example.org").mpr
    (.inl ⟨_, List.mem_cons_self, rfl, _, List.mem_cons_self, rfl⟩)
  exact Bool.false_ne_true found

/-- When the table already answers the list, nothing is lost. -/
theorem load_means_sites_example :
    LoadMeansSites literalRegex siteList siteFile "geosite.dat"
      ⟨AList.insert "test" ⟨["example.org"], [], [], []⟩ ∅, ∅⟩ := by
  refine (load_means_sites_iff siteList siteFile site_file_holds "geosite.dat" _).mpr ?_
  intro site member
  obtain rfl := List.mem_singleton.mp member
  refine ⟨fun name => ?_, fun addr => rfl⟩
  have key : toAsciiLowercase "TEST" = "test" := by decide
  have lower : toAsciiLowercase "example.org" = "example.org" := by decide
  unfold GeoRegistry.geositeMatches
  rw [key, AList.lookup_insert]
  simp [DomainMatcher.matches, Domain.Matches, lower]

end Sites

end OmniProxy.GeoLists
