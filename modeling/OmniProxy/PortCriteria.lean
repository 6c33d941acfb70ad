import OmniProxy.Routing

/-!
# The port criteria of an outbound

The ports and ranges of ports in a configuration are numbers of any size. A number of more
than 64 bits is passed over, and every other is reduced to sixteen bits before it becomes a
port. The result compares the ports a rule is compiled to match with the ports that are
written: they are the same exactly when the numbers that are no ports happen to change
nothing.
-/

namespace OmniProxy.PortCriteria

open JsonValues Outbounds RouteRules Routing RuntimeConfig

section Numbers

/-- How the parser keeps a natural number: as an integer if it has 64 bits, else rounded. -/
inductive Written : Nat → Json → Prop where
  | integer (value : UInt64) : Written value.toNat (.number (.posInt value))
  | rounded (value : Nat) (nearest : Float) (large : 2 ^ 64 ≤ value) :
      Written value (.number (.float nearest))

/-- A range of ports is written as an object with its two ends. -/
def RangeWritten (range : Nat × Nat) (element : Json) : Prop :=
  ∃ first last, element.get "from" = some first ∧ Written range.1 first ∧
    element.get "to" = some last ∧ Written range.2 last

/-- The ports are absent, a single number, or an array of numbers. -/
inductive PortsWritten : List Nat → Option Json → Prop where
  | absent : PortsWritten [] none
  | single {port : Nat} {element : Json} (written : Written port element) :
      PortsWritten [port] (some element)
  | listed {ports : List Nat} {elements : List Json}
      (written : List.Forall₂ Written ports elements) : PortsWritten ports (some (.array elements))

/-- The ranges are absent or an array. -/
inductive RangesWritten : List (Nat × Nat) → Option Json → Prop where
  | absent : RangesWritten [] none
  | listed {ranges : List (Nat × Nat)} {elements : List Json}
      (written : List.Forall₂ RangeWritten ranges elements) :
      RangesWritten ranges (some (.array elements))

/-- The port that is made of a number. -/
def kept (value : Nat) : Option UInt16 :=
  if value < 2 ^ 64 then some (UInt16.ofNat value) else none

/-- The range that is made of two numbers. -/
def keptRange (range : Nat × Nat) : Option (UInt16 × UInt16) := do
  let first ← kept range.1
  let last ← kept range.2
  return (first, last)

/-- A written port is read as its number modulo 2^16. -/
theorem written_kept {value : Nat} {element : Json} (written : Written value element) :
    element.asU64.map UInt64.toUInt16 = kept value := by
  cases written with
  | integer value =>
    have reduced : value.toUInt16 = UInt16.ofNat value.toNat := by
      rw [← UInt16.toNat_inj]
      simp
    rw [kept, if_pos value.toNat_lt, ← reduced]
    rfl
  | rounded value nearest large =>
    rw [kept, if_neg (by omega)]
    rfl

/-- A written range is read as its two numbers modulo 2^16. -/
theorem range_written_kept {range : Nat × Nat} {element : Json}
    (written : RangeWritten range element) : portRangeOf element = keptRange range := by
  obtain ⟨first, last, starts, startWritten, stops, stopWritten⟩ := written
  rw [keptRange, ← written_kept startWritten, ← written_kept stopWritten, portRangeOf, starts,
    stops, Option.bind_some, Option.bind_some]
  cases first.asU64 <;> cases last.asU64 <;> rfl

/-- Readers that agree on related items make the same lists of them. -/
theorem related_filter_map {α β γ : Type} {Related : α → β → Prop} {keep : α → Option γ}
    {read : β → Option γ} (agree : ∀ item element, Related item element → read element = keep item)
    {items : List α} {elements : List β} (related : List.Forall₂ Related items elements) :
    elements.filterMap read = items.filterMap keep := by
  induction related with
  | nil => rfl
  | cons first rest inductionHypothesis =>
    rw [List.filterMap_cons, List.filterMap_cons, agree _ _ first, inductionHypothesis]

/-- The ports of a configuration are those that are kept of what was written. -/
theorem ports_read {ports : List Nat} {given : Option Json} (written : PortsWritten ports given) :
    jsonU16Arr given = ports.filterMap kept := by
  cases written with
  | absent => rfl
  | single written =>
    have port := written_kept written
    cases written with
    | integer value =>
      rw [List.filterMap_cons, ← port]
      rfl
    | rounded value nearest large =>
      rw [List.filterMap_cons, ← port]
      rfl
  | listed written =>
    rw [jsonU16Arr, List.map_filterMap]
    have agree (value : Nat) (element : Json) (number : Written value element) :
        element.asU64.map UInt64.toUInt16 = kept value := written_kept number
    exact related_filter_map agree written

/-- The ranges of a configuration are those that are kept of what was written. -/
theorem ranges_read {ranges : List (Nat × Nat)} {given : Option Json}
    (written : RangesWritten ranges given) :
    ((given.bind Json.asArray).map (·.filterMap portRangeOf)).getD [] =
      ranges.filterMap keptRange := by
  cases written with
  | absent => rfl
  | listed written =>
    have agree (range : Nat × Nat) (element : Json) (both : RangeWritten range element) :
        portRangeOf element = keptRange range := range_written_kept both
    exact related_filter_map agree written

/-- A number is kept as a port exactly when it is below 2^64 and leaves that port. -/
theorem kept_iff (value : Nat) (port : UInt16) :
    kept value = some port ↔ value < 2 ^ 64 ∧ value % 65536 = port.toNat := by
  rw [kept]
  split_ifs with small
  · rw [Option.some.injEq, ← UInt16.toNat_inj, UInt16.toNat_ofNat', and_iff_right small]
  · exact iff_of_false (by simp) fun both => small both.1

end Numbers

section Meaning

variable (ports : List Nat) (ranges : List (Nat × Nat))

/-- A port that is listed or lies in a listed range, as written. -/
def Covered (port : Nat) : Prop :=
  port ∈ ports ∨ ∃ range ∈ ranges, range.1 ≤ port ∧ port ≤ range.2

/-- A port that some number below 2^64 leaves modulo 65536, or that lies between what the ends
of a range leave. -/
def LeftCovered (port : Nat) : Prop :=
  (∃ value ∈ ports, value < 2 ^ 64 ∧ value % 65536 = port) ∨
    ∃ range ∈ ranges, (range.1 < 2 ^ 64 ∧ range.2 < 2 ^ 64) ∧
      range.1 % 65536 ≤ port ∧ port ≤ range.2 % 65536

/-- The numbers that are no ports change nothing: what such a number leaves is listed anyway,
a range beyond the ports leaves only ports that are listed, and the ports that a range up to
such a number loses are left by something else. -/
structure ExcessHarmless : Prop where
  port : ∀ value ∈ ports, 65535 < value → value < 2 ^ 64 → Covered ports ranges (value % 65536)
  beyond : ∀ range ∈ ranges, 65535 < range.1 → range.1 < 2 ^ 64 → range.2 < 2 ^ 64 →
    ∀ port, range.1 % 65536 ≤ port → port ≤ range.2 % 65536 → Covered ports ranges port
  open_ended : ∀ range ∈ ranges, 65535 < range.2 → ∀ port ≤ 65535, range.1 ≤ port →
    (range.2 < 2 ^ 64 → range.2 % 65536 < port) → LeftCovered ports ranges port

/-- Without a number above 65535 nothing can change. -/
theorem excess_harmless (portsFit : ∀ value ∈ ports, value ≤ 65535)
    (rangesFit : ∀ range ∈ ranges, range.1 ≤ 65535 ∧ range.2 ≤ 65535) :
    ExcessHarmless ports ranges := by
  refine ⟨fun value member large => ?_, fun range member large => ?_, fun range member large => ?_⟩
  · exact absurd (portsFit value member) (by omega)
  · exact absurd (rangesFit range member).1 (by omega)
  · exact absurd (rangesFit range member).2 (by omega)

variable {ports ranges}

/-- What is left over is covered, unless an excess number leaves it. -/
theorem left_covered (harmless : ExcessHarmless ports ranges) (port : Nat)
    (left : LeftCovered ports ranges port) : Covered ports ranges port := by
  rcases left with ⟨value, member, small, rfl⟩ | ⟨range, member, ⟨first, last⟩, low, high⟩
  · by_cases fits : value ≤ 65535
    · rw [Nat.mod_eq_of_lt (by omega)]
      exact .inl member
    · exact harmless.port value member (by omega) small
  · by_cases fits : range.1 ≤ 65535
    · rw [Nat.mod_eq_of_lt (by omega)] at low
      exact .inr ⟨range, member, low, high.trans (Nat.mod_le _ _)⟩
    · exact harmless.beyond range member (by omega) first last port low high

/-- What is covered is left, unless an excess end takes it away. -/
theorem covered_left (harmless : ExcessHarmless ports ranges) (port : Nat) (fits : port ≤ 65535)
    (covered : Covered ports ranges port) : LeftCovered ports ranges port := by
  rcases covered with member | ⟨range, member, low, high⟩
  · exact .inl ⟨port, member, by omega, Nat.mod_eq_of_lt (by omega)⟩
  · by_cases within : range.2 ≤ 65535
    · refine .inr ⟨range, member, by omega, ?_⟩
      rw [Nat.mod_eq_of_lt (by omega), Nat.mod_eq_of_lt (by omega)]
      exact ⟨low, high⟩
    · by_cases reached : range.2 < 2 ^ 64 ∧ port ≤ range.2 % 65536
      · refine .inr ⟨range, member, ⟨by omega, reached.1⟩, ?_, reached.2⟩
        rw [Nat.mod_eq_of_lt (by omega)]
        exact low
      · exact harmless.open_ended range member (by omega) port fits low fun small => by
          by_contra other
          exact reached ⟨small, by omega⟩

/-- What is left is what is covered exactly when the excess is harmless. -/
theorem left_iff_covered_iff :
    (∀ port ≤ 65535, LeftCovered ports ranges port ↔ Covered ports ranges port) ↔
      ExcessHarmless ports ranges := by
  constructor
  · intro same
    have bounded (value : Nat) : value % 65536 ≤ 65535 := by omega
    refine ⟨fun value member _ small => ?_, fun range member _ first last port low high => ?_,
      fun range member _ port fits low _ => ?_⟩
    · exact (same _ (bounded value)).mp (.inl ⟨value, member, small, rfl⟩)
    · exact (same port (high.trans (bounded range.2))).mp
        (.inr ⟨range, member, ⟨first, last⟩, low, high⟩)
    · exact (same port fits).mpr (.inr ⟨range, member, low, by omega⟩)
  · intro harmless port fits
    exact ⟨left_covered harmless port, covered_left harmless port fits⟩

end Meaning

section Rules

/-- What a compiled rule matches is what the numbers leave. -/
theorem ports_match_left {library : RegexLibrary} {outbound : OutboundSpecWire}
    {rule : CompiledRule library.Regex}
    (holds : CompiledFrom library (ruleFromEntry outbound) rule) {ports : List Nat}
    {ranges : List (Nat × Nat)} (portsWritten : PortsWritten ports (outbound.rest.get "ports"))
    (rangesWritten : RangesWritten ranges (outbound.rest.get "port_ranges")) (port : UInt16) :
    rule.ports.matches port = true ↔ LeftCovered ports ranges port.toNat := by
  have singles : (ruleFromEntry outbound).ports = ports.filterMap kept := ports_read portsWritten
  have pairs : (ruleFromEntry outbound).portRanges = ranges.filterMap keptRange :=
    ranges_read rangesWritten
  rw [ports_match_iff holds, singles, pairs, LeftCovered]
  apply or_congr
  · simp only [List.mem_filterMap, kept_iff]
  · constructor
    · rintro ⟨⟨first, last⟩, member, low, high⟩
      obtain ⟨range, listed, made⟩ := List.mem_filterMap.mp member
      obtain ⟨start, starts, made⟩ := Option.bind_eq_some_iff.mp made
      obtain ⟨stop, stops, made⟩ := Option.bind_eq_some_iff.mp made
      obtain ⟨rfl, rfl⟩ := Prod.mk.inj (Option.some.inj made)
      obtain ⟨first, same⟩ := (kept_iff _ _).mp starts
      obtain ⟨last, other⟩ := (kept_iff _ _).mp stops
      refine ⟨range, listed, ⟨first, last⟩, ?_, ?_⟩
      · rw [same]
        exact UInt16.le_iff_toNat_le.mp low
      · rw [other]
        exact UInt16.le_iff_toNat_le.mp high
    · rintro ⟨range, listed, ⟨first, last⟩, low, high⟩
      refine ⟨(UInt16.ofNat range.1, UInt16.ofNat range.2), ?_, ?_, ?_⟩
      · refine List.mem_filterMap.mpr ⟨range, listed, ?_⟩
        rw [keptRange, kept, kept, if_pos first, if_pos last]
        rfl
      · rw [UInt16.le_iff_toNat_le, UInt16.toNat_ofNat']
        exact low
      · rw [UInt16.le_iff_toNat_le, UInt16.toNat_ofNat']
        exact high

/-- Exactly when ports keep their numbers. For every configuration the runtime starts on and
every outbound in it, the ports its entry matches are the written ones exactly when the
numbers that are no ports are harmless. -/
theorem port_criteria_kept_iff (env : Environment) (wire : RuntimeConfigWire)
    (runtime : CoreRuntime env.regex.Regex) (before later : List OutboundSpecWire)
    (outbound : OutboundSpecWire) (ports : List Nat) (ranges : List (Nat × Nat))
    (initialized : CoreRuntime.initialize env wire = .ok runtime)
    (split : wire.outbounds = before ++ outbound :: later)
    (portsWritten : PortsWritten ports (outbound.rest.get "ports"))
    (rangesWritten : RangesWritten ranges (outbound.rest.get "port_ranges")) :
    ∃ entry, runtime.router.entries[before.length]? = some entry ∧
      ((∀ port : UInt16,
          entry.rule.ports.matches port = true ↔ Covered ports ranges port.toNat) ↔
        ExcessHarmless ports ranges) := by
  have started := initialize_spec env wire runtime initialized
  obtain ⟨earlier, entry, after, entries, position, entryOf⟩ :=
    related_at_position before outbound later runtime.router.entries (split ▸ started.entries)
  refine ⟨entry, by simp [entries, ← position], ?_⟩
  have holds := compile_spec env.regex _ entry.rule entryOf.rule
  simp only [ports_match_left holds portsWritten rangesWritten]
  rw [← left_iff_covered_iff]
  constructor
  · intro same port fits
    have number : (UInt16.ofNat port).toNat = port := by
      rw [UInt16.toNat_ofNat', Nat.mod_eq_of_lt (by omega)]
    have here := same (UInt16.ofNat port)
    rwa [number] at here
  · intro same port
    exact same port.toNat (Nat.le_of_lt_succ port.toNat_lt)

/-- A Trojan outbound for a number that is no port. -/
def excessOnly : OutboundSpecWire :=
  { trojanOutbound with
    rest := [("password", .string "secret"), ("ports", .array [.number (.posInt 65616)])] }

/-- The router of a configuration with that outbound alone. -/
def excessRouter : Router String :=
  { trojanRouter with
    entries := [{ fallbackEntry "proxy" with
      rule := ⟨⟨[], [], [], []⟩, ⟨[], []⟩, [], [], ⟨[80], []⟩, [], true⟩ }] }

/-- The runtime starts on it, and its entry matches port 80. -/
theorem excess_port_reduced :
    CoreRuntime.initialize plainEnvironment (outboundsOnly [excessOnly]) =
        .ok ⟨[], excessRouter, none⟩ ∧
      PortsWritten [65616] (excessOnly.rest.get "ports") ∧
      RangesWritten [] (excessOnly.rest.get "port_ranges") ∧
      ∃ entry, excessRouter.entries[0]? = some entry ∧
        ¬∀ port : UInt16, entry.rule.ports.matches port = true ↔ Covered [65616] [] port.toNat := by
  refine ⟨rfl, .listed (.cons (.integer 65616) .nil), .absent, _, rfl, fun same => ?_⟩
  have web := (same 80).mp rfl
  rcases web with listed | ⟨range, nothing, -⟩
  · exact absurd listed (by decide)
  · cases nothing

/-- A port that is one keeps its number. -/
theorem port_criteria_kept_example :
    ∃ entry, webRouter.entries[0]? = some entry ∧
      ((∀ port : UInt16, entry.rule.ports.matches port = true ↔ Covered [443] [] port.toNat) ↔
        ExcessHarmless [443] []) :=
  port_criteria_kept_iff plainEnvironment (outboundsOnly [webOnly]) ⟨[], webRouter, none⟩ [] []
    webOnly [443] [] rfl rfl (.listed (.cons (.integer 443) .nil)) .absent

end Rules

end OmniProxy.PortCriteria
