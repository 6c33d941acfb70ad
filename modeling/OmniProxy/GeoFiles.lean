import OmniProxy.AddressDisplay
import OmniProxy.PbReaders
import OmniProxy.RouteRules

/-!
# The geo tables and the files they are loaded from

A file is a message of entries, each with a country code and either networks or patterns of
host names. One parser reads both kinds of entries: what it finds under the number 2 it
takes for networks, and what it finds under the number 3 for patterns. An entry with a
pattern is filed among the sites, every other one among the countries, and an entry that
cannot be read is left out.

Every loop over fields is shown to be the fold of what one field does to its state, over
every buffer that a message was written to.
-/

namespace OmniProxy.GeoFiles

open ByteStrings ProxyTargets AddressText AddressDisplay CheckedLoops RouteRules
open ProtobufWire PbReaders EStateM

section Parsing

/-- The text of a network, when its address has four or sixteen octets. -/
def cidrText (ip : Bytes) (len : Nat) : Option String :=
  let slash := "/" ++ String.ofList (Nat.toDigits 10 len)
  if four : ip.length = 4 then some (displayIp (.v4 ⟨ip, four⟩) ++ slash)
  else if sixteen : ip.length = 16 then some (displayIp (.v6 ⟨ip, sixteen⟩) ++ slash)
  else none

/-- A round of the loop over the fields of a network: the address and the length of its
prefix so far. -/
def cidrRound (cidr : Bytes × Nat) : Pb (Bytes × Nat) := do
  let (tag, wire) ← readKey
  if tag = 1 ∧ wire = 2 then return (← readBytes, cidr.2)
  else if tag = 2 ∧ wire = 0 then return (cidr.1, (← readVarint) % 2 ^ 32)
  else
    skipField wire
    return cidr

def parsePbCidr (buf : Bytes) : Except PbFault (Option String) := do
  let cidr ← okOrNone (readFields cidrRound ([], 0) buf)
  return cidr.bind fun (ip, len) => cidrText ip len

/-- A round of the loop over the fields of a pattern: its type and its value so far. -/
def domainRound (domain : Nat × String) : Pb (Nat × String) := do
  let (tag, wire) ← readKey
  if tag = 1 ∧ wire = 0 then return (← readVarint, domain.2)
  else if tag = 2 ∧ wire = 2 then return (domain.1, fromUtf8Lossy (← readBytes))
  else
    skipField wire
    return domain

variable (library : RegexLibrary)

/-- The pattern of a type and a value. -/
def domainPattern (dtype : Nat) (value : String) : Option (DomainPattern library.Regex) :=
  if value.isEmpty then none
  else
    match dtype with
    | 0 => some (.keyword (toAsciiLowercase value))
    | 1 => (library.new value).toOption.map .regex
    | 2 => some (.suffix (toAsciiLowercase value))
    | 3 => some (.full (toAsciiLowercase value))
    | _ => none

def parseGeositeDomain (buf : Bytes) : Except PbFault (Option (DomainPattern library.Regex)) := do
  let domain ← okOrNone (readFields domainRound (0, "") buf)
  return domain.bind fun (dtype, value) => domainPattern library dtype value

/-- What the loop over the fields of an entry has found. -/
structure GeoEntry where
  code : String
  pats : List (DomainPattern library.Regex)
  cidrs : List String

/-- An error inside an entry stops the program here too. -/
def nested {α : Type} : Except PbFault α → Pb α
  | .ok value => pure value
  | .error fault => throw fault

variable {library}

/-- Add a network that was read, if one was. -/
def GeoEntry.addCidr (entry : GeoEntry library) (cidr : Option String) : GeoEntry library :=
  { entry with cidrs := entry.cidrs ++ cidr.toList }

/-- Add a pattern that was read, if one was. -/
def GeoEntry.addPattern (entry : GeoEntry library)
    (pattern : Option (DomainPattern library.Regex)) : GeoEntry library :=
  { entry with pats := entry.pats ++ pattern.toList }

/-- A round of the loop over the fields of an entry. -/
def entryRound (entry : GeoEntry library) : Pb (GeoEntry library) := do
  let (tag, wire) ← readKey
  if tag = 1 ∧ wire = 2 then return { entry with code := fromUtf8Lossy (← readBytes) }
  else if tag = 2 ∧ wire = 2 then
    let sub ← readBytes
    return entry.addCidr (← nested (parsePbCidr sub))
  else if tag = 3 ∧ wire = 2 then
    let sub ← readBytes
    return entry.addPattern (← nested (parseGeositeDomain library sub))
  else
    skipField wire
    return entry

variable (library)

/-- An entry as it is filed: its code, whether it is a site, its patterns and its networks. -/
abbrev ParsedEntry :=
  String × Bool × Option (List (DomainPattern library.Regex)) × Option (List String)

variable {library}

/-- File what was found in an entry; one without a code is left out. -/
def GeoEntry.filed (entry : GeoEntry library) : Option (ParsedEntry library) :=
  if entry.code.isEmpty then none
  else
    let isSite := !entry.pats.isEmpty
    some (entry.code, isSite, if isSite then some entry.pats else none,
      if !entry.cidrs.isEmpty then some entry.cidrs else none)

variable (library)

def parseGeoEntry (entry : Bytes) : Except PbFault (Option (ParsedEntry library)) := do
  let found ← okOrNone (readFields entryRound (⟨"", [], []⟩ : GeoEntry library) entry)
  return found.bind GeoEntry.filed

/-- The sites and the countries of a file. -/
structure GeoLists where
  sites : List (String × List (DomainPattern library.Regex))
  countries : List (String × List String)

variable {library}

/-- File an entry that was read, if one was. -/
def GeoLists.add (lists : GeoLists library) : Option (ParsedEntry library) → GeoLists library
  | none => lists
  | some (code, isSite, pats, cidrs) =>
      if isSite then { lists with sites := lists.sites ++ [(code, pats.getD [])] }
      else { lists with countries := lists.countries ++ [(code, cidrs.getD [])] }

/-- A round of the loop over the entries of a file. -/
def datRound (lists : GeoLists library) : Pb (GeoLists library) := do
  let (tag, wire) ← readKey
  if tag = 1 ∧ wire = 2 then
    let entry ← readBytes
    return lists.add (← nested (parseGeoEntry library entry))
  else
    skipField wire
    return lists

variable (library)

def parseV2rayDat (data : Bytes) : Except PbFault (GeoLists library) :=
  match readFields datRound (⟨[], []⟩ : GeoLists library) data with
  | .ok lists _ => .ok lists
  | .error fault _ => .error fault

end Parsing

section Folds

/-- What a field does to the state of the loop over a network. -/
def cidrUpdate (cidr : Bytes × Nat) (field : Field) : Bytes × Nat :=
  match field.payload with
  | .bytes ip => if field.number = 1 then (ip, cidr.2) else cidr
  | .varint len => if field.number = 2 then (cidr.1, len % 2 ^ 32) else cidr
  | _ => cidr

/-- A field that is not known leaves the state as it was. -/
theorem reads_unknown {State : Type} (payload : Payload) (octets : Bytes) (state : State)
    (written : payload.Written octets) :
    Reads (skipField payload.wireType >>= fun _ => pure state) octets state :=
  (reads_skip payload octets written).map fun _ => state

/-- A round of the loop reads a field as it was written and updates the network with it. -/
theorem reads_cidr_round (cidr : Bytes × Nat) (field : Field) (octets : Bytes)
    (written : field.Written octets) :
    Reads (cidrRound cidr) octets (cidrUpdate cidr field) := by
  obtain ⟨key, tail, rfl, spelled, payload⟩ := written
  apply Reads.bind (reads_key field key spelled)
  obtain ⟨number, shape, bounded⟩ := field
  have unknown := reads_unknown shape tail cidr payload
  cases payload with
  | varint value _ number_spelled =>
    by_cases second : number = 2
    · subst second
      exact (reads_varint number_spelled).map fun value => (cidr.1, value % 2 ^ 32)
    · simpa [cidrUpdate, Payload.wireType, second] using unknown
  | bytes ip count number_spelled =>
    by_cases first : number = 1
    · subst first
      exact (reads_bytes ip count number_spelled).map fun ip => (ip, cidr.2)
    · simpa [cidrUpdate, Payload.wireType, first] using unknown
  | fixed64 array => simpa [cidrUpdate, Payload.wireType] using unknown
  | fixed32 array => simpa [cidrUpdate, Payload.wireType] using unknown

/-- The fields of a network: the last address and the last length count. -/
theorem cidr_fold (fields : List Field) (cidr : Bytes × Nat) :
    fields.foldl cidrUpdate cidr =
      ((bytesOf 1 fields).getLast?.getD cidr.1,
        ((varintsOf 2 fields).getLast?.map (· % 2 ^ 32)).getD cidr.2) := by
  induction fields generalizing cidr with
  | nil => rfl
  | cons field fields inductionHypothesis =>
    rw [List.foldl_cons, inductionHypothesis]
    obtain ⟨number, payload, bounded⟩ := field
    cases payload with
    | bytes octets =>
      by_cases first : number = 1 <;>
        simp [bytesOf, varintsOf, cidrUpdate, first, List.getLast?_cons]
    | varint value =>
      by_cases second : number = 2
      · cases rest : (varintsOf 2 fields).getLast? <;>
          simp_all [bytesOf, varintsOf, cidrUpdate, List.getLast?_cons]
      · simp [bytesOf, varintsOf, cidrUpdate, second]
    | fixed64 octets => simp [bytesOf, varintsOf, cidrUpdate]
    | fixed32 octets => simp [bytesOf, varintsOf, cidrUpdate]

/-- A written network is parsed to the text of its address and its length. -/
theorem parse_pb_cidr_written {fields : List Field} {octets : Bytes}
    (message : Message fields octets) (held : octets.length < 2 ^ 64) :
    parsePbCidr octets = .ok (cidrText ((bytesOf 1 fields).getLast?.getD [])
      (((varintsOf 2 fields).getLast?.map (· % 2 ^ 32)).getD 0)) := by
  have rounds (cidr : Bytes × Nat) (field : Field) (octets : Bytes) (after : Bytes × Nat)
      (written : field.Written octets)
      (updated : (.ok (cidrUpdate cidr field) : Except PbFault (Bytes × Nat)) = .ok after) :
      Reads (cidrRound cidr) octets after :=
    Except.ok.inj updated ▸ reads_cidr_round cidr field octets written
  have read := read_fields_folds rounds message held ([], 0) _ (List.foldlM_pure ..)
  rw [parsePbCidr, read, cidr_fold]
  rfl

variable (library : RegexLibrary)

/-- What a field does to the state of the loop over an entry. -/
def entryUpdate (entry : GeoEntry library) (field : Field) :
    Except PbFault (GeoEntry library) :=
  match field.payload with
  | .bytes octets =>
      if field.number = 1 then .ok { entry with code := fromUtf8Lossy octets }
      else if field.number = 2 then (parsePbCidr octets).map entry.addCidr
      else if field.number = 3 then (parseGeositeDomain library octets).map entry.addPattern
      else .ok entry
  | _ => .ok entry

variable {library}

/-- What is read inside an entry is added to it. -/
theorem reads_nested {α β : Type} (parse : Bytes → Except PbFault α) (add : α → β)
    (sub count : Bytes) (spelled : Varint count sub.length) (after : β)
    (parsed : (parse sub).map add = .ok after) :
    Reads (do
      let sub ← readBytes
      return add (← nested (parse sub))) (count ++ sub) after := by
  rw [← List.append_nil (count ++ sub)]
  apply Reads.bind (reads_bytes sub count spelled)
  cases outcome : parse sub with
  | error fault => simp [outcome, Except.map] at parsed
  | ok value =>
    rw [outcome] at parsed
    obtain rfl : add value = after := Except.ok.inj parsed
    exact (reads_pure value).map add

/-- A round of the loop reads a field as it was written and updates the entry with it. -/
theorem reads_entry_round (entry after : GeoEntry library) (field : Field) (octets : Bytes)
    (written : field.Written octets) (updated : entryUpdate library entry field = .ok after) :
    Reads (entryRound entry) octets after := by
  obtain ⟨key, tail, rfl, spelled, payload⟩ := written
  apply Reads.bind (reads_key field key spelled)
  obtain ⟨number, shape, bounded⟩ := field
  have unknown := reads_unknown shape tail entry payload
  cases payload with
  | bytes sub count number_spelled =>
    simp only [entryUpdate] at updated
    simp only [Payload.wireType, and_true]
    split_ifs at updated ⊢ with first second third
    · obtain rfl := Except.ok.inj updated
      exact (reads_bytes sub count number_spelled).map fun octets =>
        { entry with code := fromUtf8Lossy octets }
    · exact reads_nested parsePbCidr entry.addCidr sub count number_spelled after updated
    · exact reads_nested (parseGeositeDomain library) entry.addPattern sub count number_spelled
        after updated
    · obtain rfl := Except.ok.inj updated
      exact unknown
  | varint value _ number_spelled =>
    obtain rfl := Except.ok.inj updated
    simpa [Payload.wireType] using unknown
  | fixed64 array =>
    obtain rfl := Except.ok.inj updated
    simpa [Payload.wireType] using unknown
  | fixed32 array =>
    obtain rfl := Except.ok.inj updated
    simpa [Payload.wireType] using unknown

/-- The fields of an entry: the last code counts, and everything that is read under the
numbers 2 and 3 is kept in order. -/
theorem entry_fold (cidr : Bytes → Option String)
    (pattern : Bytes → Option (DomainPattern library.Regex)) (fields : List Field)
    (entry : GeoEntry library)
    (cidrs : ∀ sub ∈ bytesOf 2 fields, parsePbCidr sub = .ok (cidr sub))
    (patterns : ∀ sub ∈ bytesOf 3 fields, parseGeositeDomain library sub = .ok (pattern sub)) :
    fields.foldlM (entryUpdate library) entry =
      .ok ⟨((bytesOf 1 fields).getLast?.map fromUtf8Lossy).getD entry.code,
        entry.pats ++ (bytesOf 3 fields).filterMap pattern,
        entry.cidrs ++ (bytesOf 2 fields).filterMap cidr⟩ := by
  induction fields generalizing entry with
  | nil => simp [bytesOf, pure, Except.pure]
  | cons field fields inductionHypothesis =>
    rw [fold_cons_iff]
    obtain ⟨number, payload, bounded⟩ := field
    cases payload with
    | bytes octets =>
      by_cases first : number = 1
      · subst first
        simp only [bytesOf, List.filterMap_cons, if_true, OfNat.one_ne_ofNat, if_false]
          at cidrs patterns ⊢
        refine ⟨_, rfl, (inductionHypothesis _ cidrs patterns).trans ?_⟩
        cases rest : (bytesOf 1 fields).getLast? <;> simp_all [bytesOf, List.getLast?_cons]
      by_cases second : number = 2
      · subst second
        simp only [bytesOf, List.filterMap_cons, if_true, Nat.reduceEqDiff, if_false,
          List.forall_mem_cons, OfNat.ofNat_ne_one] at cidrs patterns ⊢
        refine ⟨_, congrArg (Except.map _) cidrs.1,
          (inductionHypothesis _ cidrs.2 patterns).trans ?_⟩
        cases found : cidr octets <;> simp [GeoEntry.addCidr, bytesOf]
      by_cases third : number = 3
      · subst third
        simp only [bytesOf, List.filterMap_cons, if_true, Nat.reduceEqDiff, if_false,
          List.forall_mem_cons, OfNat.ofNat_ne_one] at cidrs patterns ⊢
        refine ⟨_, congrArg (Except.map _) patterns.1,
          (inductionHypothesis _ cidrs patterns.2).trans ?_⟩
        cases found : pattern octets <;> simp [GeoEntry.addPattern, bytesOf]
      · simp only [bytesOf, List.filterMap_cons, first, second, third, if_false]
          at cidrs patterns ⊢
        exact ⟨entry, by simp [entryUpdate, first, second, third],
          inductionHypothesis entry cidrs patterns⟩
    | varint value => exact ⟨entry, rfl, inductionHypothesis entry cidrs patterns⟩
    | fixed64 array => exact ⟨entry, rfl, inductionHypothesis entry cidrs patterns⟩
    | fixed32 array => exact ⟨entry, rfl, inductionHypothesis entry cidrs patterns⟩

/-- A written entry is filed with its last code and all that is read in it. -/
theorem parse_geo_entry_written (cidr : Bytes → Option String)
    (pattern : Bytes → Option (DomainPattern library.Regex)) {fields : List Field}
    {octets : Bytes} (message : Message fields octets) (held : octets.length < 2 ^ 64)
    (cidrs : ∀ sub ∈ bytesOf 2 fields, parsePbCidr sub = .ok (cidr sub))
    (patterns : ∀ sub ∈ bytesOf 3 fields, parseGeositeDomain library sub = .ok (pattern sub)) :
    parseGeoEntry library octets =
      .ok (GeoEntry.filed ⟨((bytesOf 1 fields).getLast?.map fromUtf8Lossy).getD "",
        (bytesOf 3 fields).filterMap pattern, (bytesOf 2 fields).filterMap cidr⟩) := by
  have read := read_fields_folds
    (fun entry field octets after written updated =>
      reads_entry_round entry after field octets written updated)
    message held ⟨"", [], []⟩ _ (entry_fold cidr pattern fields _ cidrs patterns)
  rw [parseGeoEntry, read]
  rfl

variable (library)

/-- What a field does to the state of the loop over a file. -/
def datUpdate (lists : GeoLists library) (field : Field) : Except PbFault (GeoLists library) :=
  match field.payload with
  | .bytes octets =>
      if field.number = 1 then (parseGeoEntry library octets).map lists.add else .ok lists
  | _ => .ok lists

variable {library}

/-- A round of the loop reads a field as it was written and updates the lists with it. -/
theorem reads_dat_round (lists after : GeoLists library) (field : Field) (octets : Bytes)
    (written : field.Written octets) (updated : datUpdate library lists field = .ok after) :
    Reads (datRound lists) octets after := by
  obtain ⟨key, tail, rfl, spelled, payload⟩ := written
  apply Reads.bind (reads_key field key spelled)
  obtain ⟨number, shape, bounded⟩ := field
  have unknown := reads_unknown shape tail lists payload
  cases payload with
  | bytes sub count number_spelled =>
    simp only [datUpdate] at updated
    simp only [Payload.wireType, and_true]
    split_ifs at updated ⊢ with first
    · exact reads_nested (parseGeoEntry library) lists.add sub count number_spelled after updated
    · obtain rfl := Except.ok.inj updated
      exact unknown
  | varint value _ number_spelled =>
    obtain rfl := Except.ok.inj updated
    simpa [Payload.wireType] using unknown
  | fixed64 array =>
    obtain rfl := Except.ok.inj updated
    simpa [Payload.wireType] using unknown
  | fixed32 array =>
    obtain rfl := Except.ok.inj updated
    simpa [Payload.wireType] using unknown

/-- The fields of a file: what is read under the number 1 is filed in order. -/
theorem dat_fold (entry : Bytes → Option (ParsedEntry library)) (fields : List Field)
    (lists : GeoLists library)
    (entries : ∀ sub ∈ bytesOf 1 fields, parseGeoEntry library sub = .ok (entry sub)) :
    fields.foldlM (datUpdate library) lists =
      .ok (((bytesOf 1 fields).map entry).foldl GeoLists.add lists) := by
  induction fields generalizing lists with
  | nil => rfl
  | cons field fields inductionHypothesis =>
    rw [fold_cons_iff]
    obtain ⟨number, payload, bounded⟩ := field
    cases payload with
    | bytes octets =>
      by_cases first : number = 1
      · subst first
        simp only [bytesOf, List.filterMap_cons, if_true, List.forall_mem_cons] at entries ⊢
        exact ⟨_, congrArg (Except.map _) entries.1, inductionHypothesis _ entries.2⟩
      · simp only [bytesOf, List.filterMap_cons, first, if_false] at entries ⊢
        exact ⟨lists, by simp [datUpdate, first], inductionHypothesis lists entries⟩
    | varint value => exact ⟨lists, rfl, inductionHypothesis lists entries⟩
    | fixed64 array => exact ⟨lists, rfl, inductionHypothesis lists entries⟩
    | fixed32 array => exact ⟨lists, rfl, inductionHypothesis lists entries⟩

/-- A written file is parsed to its entries in order. -/
theorem parse_v2ray_dat_written (entry : Bytes → Option (ParsedEntry library))
    {fields : List Field} {octets : Bytes} (message : Message fields octets)
    (held : octets.length < 2 ^ 64)
    (entries : ∀ sub ∈ bytesOf 1 fields, parseGeoEntry library sub = .ok (entry sub)) :
    parseV2rayDat library octets =
      .ok (((bytesOf 1 fields).map entry).foldl GeoLists.add ⟨[], []⟩) := by
  have read := read_fields_folds
    (fun lists field octets after written updated =>
      reads_dat_round lists after field octets written updated)
    message held ⟨[], []⟩ _ (dat_fold entry fields _ entries)
  rw [parseV2rayDat, read]

end Folds

section Registry

variable (library : RegexLibrary)

/-- The tables, with codes in lower case. -/
structure GeoRegistry where
  domains : AList fun _ : String => DomainMatcher library.Regex
  ips : AList fun _ : String => IpMatcher

abbrev Loading := EStateM PbFault (GeoRegistry library)

variable {library}

def GeoRegistry.new : GeoRegistry library := ⟨∅, ∅⟩

def GeoRegistry.installDomains (site : String) (patterns : List (DomainPattern library.Regex)) :
    Loading library Unit :=
  modify fun registry =>
    { registry with
      domains := registry.domains.insert (toAsciiLowercase site)
        (patterns.foldl DomainMatcher.insert DomainMatcher.new) }

def GeoRegistry.installCidrs (country : String) (cidrs : List String) : Loading library Unit :=
  match IpMatcher.fromCidrs cidrs with
  | .error error => throw (.refused error)
  | .ok matcher => modify fun registry =>
      { registry with ips := registry.ips.insert (toAsciiLowercase country) matcher }

/-- Load a file, of which the attempt to read it is given. -/
def GeoRegistry.loadDat (path : String) (file : Except String Bytes) :
    Loading library (Nat × Nat) := do
  match file with
  | .error error => throw (.refused ("geo: read " ++ path ++ ": " ++ error))
  | .ok data =>
      match parseV2rayDat library data with
      | .error fault => throw fault
      | .ok lists =>
          lists.sites.forM fun (code, pats) => installDomains code pats
          lists.countries.forM fun (code, cidrs) => installCidrs code cidrs
          return (lists.sites.length, lists.countries.length)

def GeoRegistry.geoipContains (registry : GeoRegistry library) (code : String) (ip : IpAddr) :
    Bool :=
  ((registry.ips.lookup (toAsciiLowercase code)).map (·.matches ip)).getD false

def GeoRegistry.geositeMatches (registry : GeoRegistry library) (code domain : String) : Bool :=
  ((registry.domains.lookup (toAsciiLowercase code)).map
    (·.matches library.isMatch domain)).getD false

end Registry

end OmniProxy.GeoFiles
