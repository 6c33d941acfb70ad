import OmniProxy.GeoLoading
import OmniProxy.GuardedRuns

/-!
# Loads of geo lists

A registry is filled by loads of binary files and of text lists, in any order. A text list has
one pattern or network on a line; blank lines and comments are passed by, and a load that fails
puts nothing into the tables. After any loads each code is answered by the last list that one of
them has put there, in any case of its letters.
-/

namespace OmniProxy.GeoRuns

open AddressText ByteStrings GeoFiles GeoLists GeoLoading GuardedRuns PbReaders ProxyTargets
open RouteRules

section Lists

/-- A line without the carriage return in front of its line feed. -/
def dropReturn (line : List Char) : List Char :=
  if line.getLast? = some '\r' then line.dropLast else line

/-- The lines of a text. What follows the last line feed is one when it is not empty. -/
def lines (text : String) : List String :=
  let pieces := text.toList.splitOn '\n'
  (pieces.dropLast.map dropReturn ++ pieces.getLast?.toList.filter (· ≠ [])).map String.ofList

/-- The lines of a list that are neither blank nor comments. -/
def listedLines (text : String) : List String :=
  ((lines text).map trim).filter fun line => line ≠ "" && line.toList.head? ≠ some '#'

variable (library : RegexLibrary)

/-- The pattern on a line: a type and a value, or a name alone. -/
def linePattern (line : String) : Except String (DomainPattern library.Regex) :=
  let (t, v) := ((splitOnce ' ' line).map fun (a, b) => (trim a, trim b)).getD ("full", line)
  if t = "domain" ∨ t = "suffix" then .ok (.suffix v)
  else if t = "keyword" then .ok (.keyword v)
  else if t = "regex" then
    match library.new v with
    | .ok re => .ok (.regex re)
    | .error e => .error ("regex.compile: " ++ e)
  else .ok (.full v)

/-- The patterns of a text, or the error of the first line that has none. -/
def listPatterns (text : String) : Except String (List (DomainPattern library.Regex)) :=
  (listedLines text).mapM (linePattern library)

variable {library}

/-- Load a text list, of which the attempt to read it is given. -/
def loadListFile (path : String) (file : Except String String) (kind code : String) :
    Loading library Nat :=
  match file with
  | .error error => throw (.refused ("geo: read " ++ path ++ ": " ++ error))
  | .ok text =>
      if kind = "geosite" then
        match listPatterns library text with
        | .error error => throw (.refused error)
        | .ok pats => do
            GeoRegistry.installDomains code pats
            return pats.length
      else if kind = "geoip" then do
        GeoRegistry.installCidrs code (listedLines text)
        return (listedLines text).length
      else throw (.refused ("geo: unknown list kind '" ++ kind ++ "'"))

/-- A load of a file, with what the attempt to read it gives. -/
inductive Load where
  | dat (path : String) (file : Except String Bytes)
  | list (path : String) (file : Except String String) (kind code : String)

/-- The registry after a load, whether it succeeds or not. -/
def step (registry : GeoRegistry library) : Load → GeoRegistry library
  | .dat path file => leftBehind (GeoRegistry.loadDat path file registry)
  | .list path file kind code => leftBehind (loadListFile path file kind code registry)

end Lists

section Contents

variable (library : RegexLibrary)

/-- The sites that a load puts into the table. -/
def sitesOf : Load → List (String × List (DomainPattern library.Regex))
  | .dat _ file => (filed library file).sites
  | .list _ file kind code =>
      if kind = "geosite" then
        ((file.toOption.bind fun text => (listPatterns library text).toOption).map
          fun pats => (code, pats)).toList
      else []

/-- The countries that a load puts into the table. -/
def countriesOf : Load → List (String × List String)
  | .dat _ file => readable (filed library file).countries
  | .list _ file kind code =>
      if kind = "geoip" then
        readable (file.toOption.map fun text => (code, listedLines text)).toList
      else []

variable {library}

/-- The tables after some sites and countries are inserted in order. -/
def inserted (registry : GeoRegistry library)
    (sites : List (String × List (DomainPattern library.Regex)))
    (countries : List (String × List String)) : GeoRegistry library where
  domains := sites.foldl (fun domains site =>
    domains.insert (toAsciiLowercase site.1) (siteMatcher site.2)) registry.domains
  ips := countries.foldl (fun ips country =>
    ips.insert (toAsciiLowercase country.1) (countryMatcher country.2)) registry.ips

/-- A country is installed when its networks can be read. -/
theorem country_left (registry : GeoRegistry library) (code : String) (cidrs : List String) :
    leftBehind (GeoRegistry.installCidrs code cidrs registry) =
      inserted registry [] (readable [(code, cidrs)]) := by
  cases read : IpMatcher.fromCidrs cidrs with
  | error error =>
    have none_kept : readable [(code, cidrs)] = [] := by
      simp [readable, read, Except.toOption]
    rw [cidrs_refused read, none_kept]
    rfl
  | ok matcher =>
    have kept : readable [(code, cidrs)] = [(code, cidrs)] := by
      simp [readable, read, Except.toOption]
    rw [cidrs_installed read, kept]
    rfl

/-- A load inserts what it puts into the tables. -/
theorem step_inserts (registry : GeoRegistry library) (load : Load) :
    step registry load = inserted registry (sitesOf library load) (countriesOf library load) := by
  cases load with
  | dat path file => exact load_left path file registry
  | list path file kind code =>
    cases file with
    | error error =>
      simp only [sitesOf, countriesOf, Except.toOption, Option.bind_none, Option.map_none,
        Option.toList_none, ite_self, readable, List.takeWhile_nil]
      rfl
    | ok text =>
      simp only [step, loadListFile, sitesOf, countriesOf, Except.toOption, Option.bind_some,
        Option.map_some, Option.toList_some]
      by_cases site : kind = "geosite"
      · have other : kind ≠ "geoip" := by
          rw [site]
          decide
        rw [if_pos site, if_pos site, if_neg other]
        cases listPatterns library text <;> rfl
      · rw [if_neg site, if_neg site]
        by_cases country : kind = "geoip"
        · rw [if_pos country, if_pos country, left_behind_pure]
          exact country_left registry code _
        · rw [if_neg country, if_neg country]
          rfl

/-- Two inserts in sequence are one insert of both. -/
theorem inserted_append (registry : GeoRegistry library)
    (sites moreSites : List (String × List (DomainPattern library.Regex)))
    (countries moreCountries : List (String × List String)) :
    inserted (inserted registry sites countries) moreSites moreCountries =
      inserted registry (sites ++ moreSites) (countries ++ moreCountries) := by
  simp only [inserted, List.foldl_append]

/-- Loads insert what they put into the tables, one after the other. -/
theorem run_inserts (registry : GeoRegistry library) (loads : List Load) :
    run step registry loads =
      inserted registry (loads.flatMap (sitesOf library))
        (loads.flatMap (countriesOf library)) := by
  induction loads using List.reverseRecOn with
  | nil => rfl
  | append_singleton loads load inductionHypothesis =>
    rw [run_snoc, inductionHypothesis, step_inserts, inserted_append]
    simp only [List.flatMap_append, List.flatMap_singleton]

end Contents

section Answers

variable {library : RegexLibrary}

/-- A pattern matches a name in lower case. -/
def Matches : DomainPattern library.Regex → String → Prop
  | .full name, domain => toAsciiLowercase name = domain
  | .suffix name, domain =>
      domain = toAsciiLowercase name ∨ endsWith domain ("." ++ toAsciiLowercase name) = true
  | .keyword part, domain => contains domain (toAsciiLowercase part) = true
  | .regex expression, domain => library.isMatch expression domain = true

/-- A matcher with one more pattern matches what it matched and what the pattern matches. -/
theorem insert_matches_iff (matcher : DomainMatcher library.Regex)
    (pattern : DomainPattern library.Regex) (domain : String) :
    (matcher.insert pattern).matches library.isMatch domain = true ↔
      matcher.matches library.isMatch domain = true ∨
        Matches pattern (toAsciiLowercase domain) := by
  cases pattern <;>
    simp [DomainMatcher.insert, DomainMatcher.matches, Matches] <;> grind

/-- A site answers for the names that one of its patterns matches. -/
theorem site_matches_iff (patterns : List (DomainPattern library.Regex)) (domain : String) :
    (siteMatcher patterns).matches library.isMatch domain = true ↔
      ∃ pattern ∈ patterns, Matches pattern (toAsciiLowercase domain) := by
  induction patterns using List.reverseRecOn with
  | nil => simp [siteMatcher, DomainMatcher.new, DomainMatcher.matches]
  | append_singleton patterns pattern inductionHypothesis =>
    rw [siteMatcher, List.foldl_append, List.foldl_cons, List.foldl_nil, insert_matches_iff]
    rw [siteMatcher] at inductionHypothesis
    rw [inductionHypothesis]
    simp [or_and_right, exists_or]

/-- What a registry answers after some sites and countries were put into its tables. -/
structure AnswersFrom (registry : GeoRegistry library)
    (sites : List (String × List (DomainPattern library.Regex)))
    (countries : List (String × List String)) : Prop where
  geosite : ∀ code domain, registry.geositeMatches code domain = true ↔
    ∃ site, lastCoded sites code = some site ∧
      ∃ pattern ∈ site.2, Matches pattern (toAsciiLowercase domain)
  geoip : ∀ code addr, registry.geoipContains code addr = true ↔
    ∃ country, lastCoded countries code = some country ∧ ∃ cidr ∈ country.2, InCidr cidr addr

/-- The networks of a country that is kept can be read. -/
theorem readable_read {countries : List (String × List String)} {country : String × List String}
    (kept : country ∈ readable countries) :
    ∃ matcher, IpMatcher.fromCidrs country.2 = .ok matcher := by
  have read := List.mem_takeWhile_imp kept
  cases made : IpMatcher.fromCidrs country.2 with
  | error error => simp [made, Except.toOption] at read
  | ok matcher => exact ⟨matcher, rfl⟩

/-- So can those of every country that a load puts into the tables. -/
theorem countries_read {load : Load} {country : String × List String}
    (put : country ∈ countriesOf library load) :
    ∃ matcher, IpMatcher.fromCidrs country.2 = .ok matcher := by
  cases load with
  | dat path file => exact readable_read put
  | list path file kind code =>
    rw [countriesOf] at put
    split at put
    · exact readable_read put
    · cases put

/-- A country whose networks can be read answers for the addresses in them. -/
theorem country_matches_iff {cidrs : List String} {matcher : IpMatcher}
    (read : IpMatcher.fromCidrs cidrs = .ok matcher) (addr : IpAddr) :
    (countryMatcher cidrs).matches addr = true ↔ ∃ cidr ∈ cidrs, InCidr cidr addr := by
  rw [countryMatcher, read]
  exact (from_cidrs_spec cidrs matcher read).1 addr

/-- Tables that sites and countries were put into answer from them. -/
theorem inserted_answers (sites : List (String × List (DomainPattern library.Regex)))
    (countries : List (String × List String))
    (read : ∀ country ∈ countries, ∃ matcher, IpMatcher.fromCidrs country.2 = .ok matcher) :
    AnswersFrom (inserted (.new : GeoRegistry library) sites countries) sites countries where
  geosite code domain := by
    simp only [GeoRegistry.geositeMatches, inserted, GeoRegistry.new, inserts_lookup,
      AList.lookup_empty, Option.or_none]
    cases lastCoded sites code with
    | none => simp
    | some site => simp [site_matches_iff]
  geoip code addr := by
    simp only [GeoRegistry.geoipContains, inserted, GeoRegistry.new, inserts_lookup,
      AList.lookup_empty, Option.or_none]
    cases last : lastCoded countries code with
    | none => simp
    | some country =>
      have put := List.mem_reverse.mp (List.mem_of_find?_eq_some last)
      obtain ⟨matcher, networks⟩ := read country put
      simp [country_matches_iff networks]

/-- A text list that cannot be loaded puts nothing into the tables. -/
theorem failed_list_unchanged (path : String) (file : Except String String) (kind code : String)
    (registry after : GeoRegistry library) (fault : PbFault)
    (failed : loadListFile path file kind code registry = .error fault after) :
    after = registry := by
  cases file with
  | error error =>
    obtain ⟨-, rfl⟩ := EStateM.Result.error.inj failed
    rfl
  | ok text =>
    simp only [loadListFile] at failed
    by_cases site : kind = "geosite"
    · rw [if_pos site] at failed
      cases found : listPatterns library text with
      | error error =>
        rw [found] at failed
        obtain ⟨-, rfl⟩ := EStateM.Result.error.inj failed
        rfl
      | ok pats =>
        rw [found] at failed
        cases failed
    · rw [if_neg site] at failed
      by_cases country : kind = "geoip"
      · rw [if_pos country] at failed
        cases read : IpMatcher.fromCidrs (listedLines text) with
        | error error =>
          simp only [Bind.bind, EStateM.bind, cidrs_refused read] at failed
          obtain ⟨-, rfl⟩ := EStateM.Result.error.inj failed
          rfl
        | ok matcher =>
          simp only [Bind.bind, EStateM.bind, cidrs_installed read] at failed
          cases failed
      · rw [if_neg country] at failed
        obtain ⟨-, rfl⟩ := EStateM.Result.error.inj failed
        rfl

/-- After any loads of binary files and text lists, failed ones among them, each code is answered
by the last site and the last country that one of them has put into the tables under it, and a
text list that cannot be loaded puts nothing there. -/
theorem geo_loads_answer (library : RegexLibrary) (loads : List Load) :
    AnswersFrom (run step (.new : GeoRegistry library) loads) (loads.flatMap (sitesOf library))
        (loads.flatMap (countriesOf library)) ∧
      ∀ (path : String) (file : Except String String) (kind code : String) (fault : PbFault)
        (after : GeoRegistry library),
        loadListFile path file kind code (run step .new loads) = .error fault after →
          after = run step .new loads := by
  refine ⟨?_, fun path file kind code fault after failed =>
    failed_list_unchanged path file kind code _ after fault failed⟩
  rw [run_inserts]
  refine inserted_answers _ _ fun country put => ?_
  obtain ⟨load, -, put⟩ := List.mem_flatMap.mp put
  exact countries_read put

end Answers

end OmniProxy.GeoRuns
