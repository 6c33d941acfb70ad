import OmniProxy.Routing

/-!
# The outbound for datagrams

Datagrams go through the connector tagged `direct` if there is one, and only else is a
connector searched for that can carry them. A started runtime always has a connector with
that tag: its own, unless an outbound of the configuration took the tag. So it is the last
outbound under the tag that decides, and the others are never asked.
-/

namespace OmniProxy.UdpOutbounds

open Outbounds Routing RuntimeConfig

/-- The tag of an outbound's connector: two types have a fixed one. -/
def connectorTag (outbound : OutboundSpecWire) : String :=
  if isDirect outbound then "direct" else if isReject outbound then "reject" else outbound.tag

/-- The outbound has a type whose connector carries datagrams. -/
def carriesUdp (outbound : OutboundSpecWire) : Bool :=
  isDirect outbound || outbound.outboundType == "trojan" || outbound.outboundType == "vless"

/-- The last outbound whose connector has a tag. -/
def lastUnder (outbounds : List OutboundSpecWire) (key : String) : Option OutboundSpecWire :=
  outbounds.reverse.find? (connectorTag · == key)

/-- The connector of an outbound has the tag and the ability that its type says. -/
theorem built_as_typed (outbound : OutboundSpecWire) (connector : OutboundConnector)
    (built : buildConnector outbound = .ok (some connector)) :
    connector.tag = connectorTag outbound ∧ connector.supportsUdp = carriesUdp outbound := by
  simp only [connectorTag, carriesUdp, isDirect, isReject]
  unfold buildConnector at built
  simp only at built
  split at built
  case h_19 => simp at built
  all_goals
    rename_i type
    obtain rfl := Option.some.inj (Except.ok.inj built)
    simp [type, OutboundConnector.tag, OutboundConnector.supportsUdp]

/-- A search comes to the same for two conditions that agree on the list. -/
theorem find_agreeing {α : Type} {left right : α → Bool} (list : List α)
    (agree : ∀ item ∈ list, left item = right item) : list.find? left = list.find? right := by
  induction list with
  | nil => rfl
  | cons item list inductionHypothesis =>
    rw [List.find?_cons, List.find?_cons, agree item List.mem_cons_self,
      inductionHypothesis fun other member => agree other (List.mem_cons_of_mem item member)]

/-- The last connector with a tag is the connector of the last outbound under it. -/
theorem last_tagged_eq (outbounds : List OutboundSpecWire) (key : String)
    (connects : ∀ outbound ∈ outbounds, ∃ connector,
      buildConnector outbound = .ok (some connector)) :
    lastTagged outbounds key = (lastUnder outbounds key).bind ownConnector := by
  rw [lastTagged, lastUnder, ← List.filterMap_reverse, List.find?_filterMap]
  congr 1
  apply find_agreeing
  intro outbound member
  obtain ⟨connector, built⟩ := connects outbound (List.mem_reverse.mp member)
  rw [(own_connector_iff outbound connector).mpr built, Option.any_some,
    (built_as_typed outbound connector built).1]

/-- The connectors of the configuration that carry datagrams, tag by tag. -/
theorem last_tagged_carries_iff (outbounds : List OutboundSpecWire) (key : String)
    (connects : ∀ outbound ∈ outbounds, ∃ connector,
      buildConnector outbound = .ok (some connector)) :
    (∃ connector, lastTagged outbounds key = some connector ∧ connector.supportsUdp = true) ↔
      ∃ outbound, lastUnder outbounds key = some outbound ∧ carriesUdp outbound = true := by
  rw [last_tagged_eq outbounds key connects]
  cases last : lastUnder outbounds key with
  | none => simp
  | some outbound =>
    have member : outbound ∈ outbounds := List.mem_reverse.mp (List.mem_of_find?_eq_some last)
    obtain ⟨connector, built⟩ := connects outbound member
    have able := (built_as_typed outbound connector built).2
    simp [(own_connector_iff outbound connector).mpr built, able]

/-- Some connector of the router carries datagrams. -/
def SomeCarries {Regex : Type} (router : Router Regex) : Prop :=
  ∃ key connector, router.connectors.lookup key = some connector ∧ connector.supportsUdp = true

/-- The connector that is chosen for datagrams carries them. -/
def ChosenCarries {Regex : Type} (router : Router Regex) : Prop :=
  ∃ connector, router.firstUdpConnector = .ok connector ∧ connector.supportsUdp = true

section Started

variable (env : Environment) {wire : RuntimeConfigWire} {router : Router env.regex.Regex}

/-- What is chosen carries datagrams exactly when the outbound under `direct` does, or no
outbound took that tag. -/
theorem chosen_carries_iff (started : StartedFrom env wire router) :
    ChosenCarries router ↔
      ∀ outbound ∈ lastUnder wire.outbounds "direct", carriesUdp outbound = true := by
  obtain ⟨connector, found, chosen⟩ := first_udp_connector_direct env wire router started
  have carries := last_tagged_carries_iff wire.outbounds "direct" started.connects
  have stored := started.connectors "direct"
  rw [found, last_tagged_eq _ _ started.connects] at stored
  rw [last_tagged_eq _ _ started.connects] at carries
  simp only [ChosenCarries, chosen, Except.ok.injEq, exists_eq_left']
  cases last : lastUnder wire.outbounds "direct" with
  | none =>
    rw [last] at stored
    obtain rfl : connector = .direct := by simpa using stored
    simp [OutboundConnector.supportsUdp]
  | some outbound =>
    have member : outbound ∈ wire.outbounds :=
      List.mem_reverse.mp (List.mem_of_find?_eq_some last)
    obtain ⟨own, built⟩ := started.connects outbound member
    rw [last, Option.bind_some, (own_connector_iff outbound own).mpr built] at stored
    obtain rfl : connector = own := by simpa using stored
    rw [(built_as_typed outbound connector built).2]
    simp

/-- When an outbound took the tag `direct`, the connectors that carry datagrams are those of
outbounds that are the last under their tag. -/
theorem some_carries_iff (started : StartedFrom env wire router)
    (taken : lastUnder wire.outbounds "direct" ≠ none) :
    SomeCarries router ↔
      ∃ key outbound, lastUnder wire.outbounds key = some outbound ∧ carriesUdp outbound = true
    := by
  rw [SomeCarries]
  apply exists_congr
  intro key
  rw [← last_tagged_carries_iff wire.outbounds key started.connects, started.connectors key]
  cases tagged : lastTagged wire.outbounds key with
  | some connector => simp
  | none =>
    -- The only default that carries datagrams is not in the router.
    have other : key ≠ "direct" := by
      rintro rfl
      obtain ⟨outbound, last⟩ := Option.ne_none_iff_exists'.mp taken
      obtain ⟨connector, built⟩ := started.connects outbound
        (List.mem_reverse.mp (List.mem_of_find?_eq_some last))
      rw [last_tagged_eq _ _ started.connects, last, Option.bind_some,
        (own_connector_iff outbound connector).mpr built] at tagged
      cases tagged
    by_cases reject : key = "reject"
    · simp [reject, OutboundConnector.supportsUdp]
    · simp [other, reject]

/-- Exactly when the choice is sound: no outbound took the tag `direct`, the last that did
carries datagrams, or nothing in the router does. -/
theorem udp_choice_sound_iff (runtime : CoreRuntime env.regex.Regex)
    (initialized : CoreRuntime.initialize env wire = .ok runtime) :
    (SomeCarries runtime.router → ChosenCarries runtime.router) ↔
      (∀ outbound ∈ lastUnder wire.outbounds "direct", carriesUdp outbound = true) ∨
        ∀ key, ∀ outbound ∈ lastUnder wire.outbounds key, carriesUdp outbound = false := by
  have started := initialize_spec env wire runtime initialized
  rw [chosen_carries_iff env started]
  by_cases taken : lastUnder wire.outbounds "direct" = none
  · simp [taken]
  · have nothing : (∀ key, ∀ outbound ∈ lastUnder wire.outbounds key, carriesUdp outbound = false) ↔
        ¬SomeCarries runtime.router := by
      rw [some_carries_iff env started taken]
      simp
    rw [nothing, imp_iff_not_or, or_comm]

/-- An outbound of a type without datagrams under the tag `direct`. -/
def socksDirect : OutboundSpecWire where
  tag := "direct"
  outboundType := "socks"
  target := some ⟨some "example.org", some 1080⟩
  rest := []

/-- The router of that outbound and one through a Trojan server. -/
def socksDirectRouter : Router String where
  entries := [fallbackEntry "direct", fallbackEntry "proxy"]
  connectors :=
    ((AList.insert "direct" (.socks5 ⟨"direct", ⟨"example.org", 1080, none, none⟩⟩) ∅).insert
      "proxy" trojanConnector).insert "reject" .reject
  defaultTag := none
  geo := ⟨fun _ _ => false, fun _ _ => false⟩

/-- The runtime starts on it, the connector to the Trojan server carries datagrams, and the
one that is chosen does not. -/
theorem socks_direct_chosen :
    CoreRuntime.initialize plainEnvironment (outboundsOnly [socksDirect, trojanOutbound]) =
        .ok ⟨[], socksDirectRouter, none⟩ ∧
      SomeCarries socksDirectRouter ∧ ¬ChosenCarries socksDirectRouter := by
  refine ⟨rfl, ⟨"proxy", trojanConnector, rfl, rfl⟩, ?_⟩
  rintro ⟨connector, chosen, carries⟩
  obtain rfl : .socks5 ⟨"direct", ⟨"example.org", 1080, none, none⟩⟩ = connector :=
    Except.ok.inj chosen
  cases carries

/-- With the Trojan outbound alone the choice is sound. -/
theorem udp_choice_sound_example : ChosenCarries trojanRouter :=
  (@udp_choice_sound_iff plainEnvironment (outboundsOnly [trojanOutbound])
    ⟨[], trojanRouter, none⟩ rfl).mpr (.inl (by decide))
    ⟨"proxy", trojanConnector, rfl, rfl⟩

end Started

end OmniProxy.UdpOutbounds
