import OmniProxy.GeoLists

/-!
# A load that fails half-way

Loading a file puts its sites and its countries into the tables one after the other. The
networks of a country are read only when its turn comes, and a country whose networks cannot
be read ends the load. What was put into the tables before stays there. So a failed load
leaves every answer as it was exactly when what it put there answers as the tables did.
-/

namespace OmniProxy.GeoLoading

open ByteStrings GeoFiles GeoLists PbReaders ProxyTargets RouteRules

/-- The last item of a list with a code in any case. -/
def lastCoded {α : Type} (items : List (String × α)) (code : String) : Option (String × α) :=
  items.reverse.find? (toAsciiLowercase ·.1 == toAsciiLowercase code)

/-- Inserting items in order leaves the last one with a code under it. -/
theorem inserts_lookup {α Value : Type} (value : α → Value) (items : List (String × α))
    (table : AList fun _ : String => Value) (code : String) :
    (items.foldl (fun table item => table.insert (toAsciiLowercase item.1) (value item.2))
        table).lookup (toAsciiLowercase code) =
      ((lastCoded items code).map fun item => value item.2).or
        (table.lookup (toAsciiLowercase code)) := by
  induction items using List.reverseRecOn with
  | nil => rfl
  | append_singleton items item inductionHypothesis =>
    rw [List.foldl_append, List.foldl_cons, List.foldl_nil, lastCoded, List.reverse_append,
      List.reverse_singleton, List.singleton_append, List.find?_cons]
    by_cases own : toAsciiLowercase item.1 = toAsciiLowercase code
    · rw [own, AList.lookup_insert, beq_self_eq_true]
      rfl
    · rw [AList.lookup_insert_ne (Ne.symm own), inductionHypothesis, beq_false_of_ne own]
      rfl

variable {library : RegexLibrary}

/-- The matcher that is made of the patterns of a site. -/
def siteMatcher (patterns : List (DomainPattern library.Regex)) : DomainMatcher library.Regex :=
  patterns.foldl DomainMatcher.insert DomainMatcher.new

/-- The matcher that is made of the networks of a country, when they can be read. -/
def countryMatcher (cidrs : List String) : IpMatcher :=
  (IpMatcher.fromCidrs cidrs).toOption.getD ⟨[], []⟩

/-- The countries in front of the first one whose networks cannot be read. -/
def readable (countries : List (String × List String)) : List (String × List String) :=
  countries.takeWhile fun country => (IpMatcher.fromCidrs country.2).toOption.isSome

/-- What a file holds: nothing if it cannot be read or parsed. -/
def filed (library : RegexLibrary) (file : Except String Bytes) : GeoLists library :=
  (file.toOption.bind fun data => (parseV2rayDat library data).toOption).getD ⟨[], []⟩

/-- The registry that a load leaves behind, whether it succeeds or not. -/
def leftBehind {α : Type} : EStateM.Result PbFault (GeoRegistry library) α → GeoRegistry library
  | .ok _ registry => registry
  | .error _ registry => registry

/-- Returning a value leaves behind what the action before it does. -/
theorem left_behind_pure {α β : Type} (action : Loading library α) (value : β)
    (registry : GeoRegistry library) :
    leftBehind ((action >>= fun _ => pure value) registry) = leftBehind (action registry) := by
  simp only [Bind.bind, EStateM.bind]
  cases action registry <;> rfl

/-- The site lists of a file are put into the registry one after the other. -/
theorem sites_installed (sites : List (String × List (DomainPattern library.Regex)))
    (registry : GeoRegistry library) :
    (sites.forM fun (code, pats) => GeoRegistry.installDomains code pats) registry =
      .ok () { registry with
        domains := sites.foldl (fun domains site =>
          domains.insert (toAsciiLowercase site.1) (siteMatcher site.2)) registry.domains } := by
  induction sites generalizing registry with
  | nil => rfl
  | cons site sites inductionHypothesis =>
    rw [List.forM_eq_forM, List.forM_cons]
    exact inductionHypothesis _

/-- Networks that cannot be read leave the tables alone. -/
theorem cidrs_refused {cidrs : List String} {error : String}
    (read : IpMatcher.fromCidrs cidrs = .error error) (code : String)
    (registry : GeoRegistry library) :
    GeoRegistry.installCidrs code cidrs registry = .error (.refused error) registry := by
  simp only [GeoRegistry.installCidrs, read]
  rfl

/-- Networks that can be read are put under their code. -/
theorem cidrs_installed {cidrs : List String} {matcher : IpMatcher}
    (read : IpMatcher.fromCidrs cidrs = .ok matcher) (code : String)
    (registry : GeoRegistry library) :
    GeoRegistry.installCidrs code cidrs registry =
      .ok () { registry with
        ips := registry.ips.insert (toAsciiLowercase code) (countryMatcher cidrs) } := by
  simp only [GeoRegistry.installCidrs, countryMatcher, read]
  rfl

/-- The countries are installed up to the first one that cannot be read. -/
theorem countries_left (countries : List (String × List String)) (registry : GeoRegistry library) :
    leftBehind ((countries.forM fun (code, cidrs) => GeoRegistry.installCidrs code cidrs)
        registry) =
      { registry with
        ips := (readable countries).foldl (fun ips country =>
          ips.insert (toAsciiLowercase country.1) (countryMatcher country.2)) registry.ips } := by
  induction countries generalizing registry with
  | nil => rfl
  | cons country countries inductionHypothesis =>
    rw [List.forM_eq_forM, List.forM_cons, readable, List.takeWhile_cons]
    cases read : IpMatcher.fromCidrs country.2 with
    | error error =>
      simp only [Bind.bind, EStateM.bind, cidrs_refused read]
      rfl
    | ok matcher =>
      rw [bind_returned (cidrs_installed read country.1 registry)]
      exact inductionHypothesis _

/-- A load leaves the sites of the file and its readable countries in the tables. -/
theorem load_left (path : String) (file : Except String Bytes) (registry : GeoRegistry library) :
    leftBehind (GeoRegistry.loadDat path file registry) =
      { domains := (filed library file).sites.foldl (fun domains site =>
          domains.insert (toAsciiLowercase site.1) (siteMatcher site.2)) registry.domains
        ips := (readable (filed library file).countries).foldl (fun ips country =>
          ips.insert (toAsciiLowercase country.1) (countryMatcher country.2)) registry.ips } := by
  cases file with
  | error error => rfl
  | ok data =>
    simp only [filed, Except.toOption, Option.bind_some]
    cases parsed : parseV2rayDat library data with
    | error fault =>
      simp only [GeoRegistry.loadDat, parsed]
      rfl
    | ok lists =>
      have sites := sites_installed lists.sites registry
      have countries := countries_left lists.countries
        { registry with
          domains := lists.sites.foldl (fun domains site =>
            domains.insert (toAsciiLowercase site.1) (siteMatcher site.2)) registry.domains }
      simp only [GeoRegistry.loadDat, parsed, Option.getD_some]
      rw [bind_returned sites, left_behind_pure]
      exact countries

/-- What a site of the file answers after the load: its last patterns, else as before. -/
theorem left_geosite (path : String) (file : Except String Bytes) (registry : GeoRegistry library)
    (code name : String) :
    (leftBehind (GeoRegistry.loadDat path file registry)).geositeMatches code name =
      ((lastCoded (filed library file).sites code).map fun site =>
        (siteMatcher site.2).matches library.isMatch name).getD
          (registry.geositeMatches code name) := by
  rw [load_left, GeoRegistry.geositeMatches, inserts_lookup, GeoRegistry.geositeMatches]
  cases lastCoded (filed library file).sites code <;> rfl

/-- And a country. -/
theorem left_geoip (path : String) (file : Except String Bytes) (registry : GeoRegistry library)
    (code : String) (addr : IpAddr) :
    (leftBehind (GeoRegistry.loadDat path file registry)).geoipContains code addr =
      ((lastCoded (readable (filed library file).countries) code).map fun country =>
        (countryMatcher country.2).matches addr).getD (registry.geoipContains code addr) := by
  rw [load_left, GeoRegistry.geoipContains, inserts_lookup, GeoRegistry.geoipContains]
  cases lastCoded (readable (filed library file).countries) code <;> rfl

/-- What the file puts into the tables answers as they do: under each code the last of its
sites, and the last of the countries in front of the first that cannot be read. -/
structure AnswersAlready (registry : GeoRegistry library) (file : Except String Bytes) : Prop where
  sites : ∀ code, ∀ site ∈ lastCoded (filed library file).sites code, ∀ name,
    (siteMatcher site.2).matches library.isMatch name = registry.geositeMatches code name
  countries : ∀ code, ∀ country ∈ lastCoded (readable (filed library file).countries) code,
    ∀ addr, (countryMatcher country.2).matches addr = registry.geoipContains code addr

/-- A file without a site whose first country cannot be read puts nothing there. -/
theorem first_refused_answers (registry : GeoRegistry library) (file : Except String Bytes)
    (noSite : (filed library file).sites = [])
    (refused : ∀ country ∈ (filed library file).countries.head?,
      ∃ error, IpMatcher.fromCidrs country.2 = .error error) : AnswersAlready registry file := by
  have empty : readable (filed library file).countries = [] := by
    rw [readable]
    cases countries : (filed library file).countries with
    | nil => rfl
    | cons country rest =>
      obtain ⟨error, read⟩ := refused country (by rw [countries]; rfl)
      rw [List.takeWhile_cons, read]
      rfl
  refine ⟨fun code site last => ?_, fun code country last => ?_⟩
  · rw [noSite] at last
    cases last
  · rw [empty] at last
    cases last

/-- The tables answer as before. -/
def SameAnswers (before after : GeoRegistry library) : Prop :=
  (∀ code name, after.geositeMatches code name = before.geositeMatches code name) ∧
    ∀ code addr, after.geoipContains code addr = before.geoipContains code addr

/-- Exactly when a failed load leaves every answer as it was. -/
theorem failed_load_unchanged_iff (path : String) (file : Except String Bytes)
    (registry after : GeoRegistry library) (fault : PbFault)
    (failed : GeoRegistry.loadDat path file registry = .error fault after) :
    SameAnswers registry after ↔ AnswersAlready registry file := by
  have left : leftBehind (GeoRegistry.loadDat path file registry) = after := by
    rw [failed]
    rfl
  subst left
  have kept {α : Type} (last : Option α) (answer : α → Bool) (before : Bool) :
      (last.map answer).getD before = before ↔ ∀ item ∈ last, answer item = before := by
    cases last <;> simp
  simp only [SameAnswers, left_geosite, left_geoip, kept]
  constructor
  · rintro ⟨sites, countries⟩
    exact ⟨fun code site last name => sites code name site last,
      fun code country last addr => countries code addr country last⟩
  · rintro ⟨sites, countries⟩
    exact ⟨fun code name site last => sites code site last name,
      fun code addr country last => countries code country last addr⟩

section Examples

/-- A country with one network and a country with a network of 40 bits. -/
def halfFile : Bytes :=
  [10, 13, 10, 1, 65, 18, 8, 10, 4, 1, 2, 3, 0, 16, 24,
   10, 13, 10, 1, 66, 18, 8, 10, 4, 2, 0, 0, 0, 16, 40]

/-- The text of a network. -/
def networkText (addr : Octets 4) (len : Nat) : String :=
  AddressDisplay.displayIp (.v4 addr) ++ ("/" ++ String.ofList (Nat.toDigits 10 len))

/-- The sample file parses although one of its prefixes is longer than an address. -/
theorem half_parsed :
    parseV2rayDat literalRegex halfFile =
      .ok ⟨[], [("A", [networkText ⟨[1, 2, 3, 0], rfl⟩ 24]),
        ("B", [networkText ⟨[2, 0, 0, 0], rfl⟩ 40])]⟩ := rfl

/-- The networks of the first country are read and those of the second are not. -/
theorem half_read :
    IpMatcher.fromCidrs [networkText ⟨[1, 2, 3, 0], rfl⟩ 24] =
        .ok ⟨[(⟨[1, 2, 3, 0], rfl⟩, 24)], []⟩ ∧
      IpMatcher.fromCidrs [networkText ⟨[2, 0, 0, 0], rfl⟩ 40] =
        .error "invalid ipv4 prefix length in 2.0.0.0/40" := by
  constructor <;> decide

/-- The tables with the first country alone. -/
def halfRegistry : GeoRegistry literalRegex where
  domains := ∅
  ips := AList.insert (toAsciiLowercase "A") ⟨[(⟨[1, 2, 3, 0], rfl⟩, 24)], []⟩ ∅

/-- The load stops at the prefix that is no network and keeps what it had put in. -/
theorem half_stops :
    GeoRegistry.loadDat "geoip.dat" (.ok halfFile) (GeoRegistry.new : GeoRegistry literalRegex) =
      .error (.refused "invalid ipv4 prefix length in 2.0.0.0/40") halfRegistry := by
  obtain ⟨first, second⟩ := half_read
  simp only [GeoRegistry.loadDat, half_parsed, List.forM_eq_forM, List.forM_nil, List.forM_cons,
    GeoRegistry.installCidrs, first, second]
  rfl

/-- The load of that file fails at the second country, and the first one stays. -/
theorem half_loaded :
    GeoRegistry.loadDat "geoip.dat" (.ok halfFile) (GeoRegistry.new : GeoRegistry literalRegex) =
        .error (.refused "invalid ipv4 prefix length in 2.0.0.0/40") halfRegistry ∧
      ¬SameAnswers GeoRegistry.new halfRegistry := by
  refine ⟨half_stops, fun same => ?_⟩
  have answered := same.2 "A" (.v4 ⟨[1, 2, 3, 9], rfl⟩)
  exact absurd answered (by decide)

/-- Exactly when that failed load changes nothing. -/
theorem failed_load_unchanged_example :
    SameAnswers GeoRegistry.new halfRegistry ↔
      AnswersAlready (GeoRegistry.new : GeoRegistry literalRegex) (.ok halfFile) :=
  failed_load_unchanged_iff "geoip.dat" (.ok halfFile) GeoRegistry.new halfRegistry _ half_stops

end Examples

end OmniProxy.GeoLoading
