import OmniProxy.Outbounds
import OmniProxy.RouteRules
import Mathlib.Data.List.AList

/-!
# The router and the start of the runtime

The runtime goes through the outbounds in order. Each gives a connector, stored
under the connector's own tag, and an entry with the compiled route rule, stored
with the outbound's tag. A direct and a rejecting connector are added when no
connector has their tags. A connection takes the first entry with criteria that
matches it, else the first entry without criteria, and the action of an entry is
found under its tag.

The results follow the tags through the start: which connector is found under the
tag of an outbound, and exactly when it is the outbound's own. Then they follow
the criteria: when a criterion that is written in the configuration constrains the
entry, and when it disappears.

The regular expressions, the decoding of base-64 text, the name service and the
geo files are parameters, and so is what the node plans take from outside.
-/

namespace OmniProxy.Routing

open ByteStrings Connections ProxyTargets AddressText CheckedLoops JsonValues RuntimeConfig
open NodePlans Outbounds RouteRules

/-- What the start of the runtime takes from outside. -/
structure Environment extends NodeEnvironment where
  regex : RegexLibrary
  decodeBase64 : String → Except String Bytes
  newResolver : List String → Except String Unit
  loadGeoFiles : Members → GeoLookup

/-- What to do with a connection. -/
inductive RouteAction where
  | proxy (connector : OutboundConnector)
  | reject
  | hijack (response : Bytes)
deriving DecidableEq

/-- An action is looked up under a tag. -/
inductive EntryAction where
  | tag (name : String)

structure RouteEntry (Regex : Type) where
  rule : CompiledRule Regex
  action : EntryAction
  hijack : Option Bytes

/-- The connectors by tag. -/
abbrev Connectors := AList fun _ : String => OutboundConnector

structure Router (Regex : Type) where
  entries : List (RouteEntry Regex)
  connectors : Connectors
  defaultTag : Option String
  geo : GeoLookup

section Router

variable {Regex : Type} (isMatch : Regex → String → Bool)

/-- The host by which a connection is routed: the sniffed one, else the target's name. -/
def routedHost (target : ProxyTarget) (sniffedHost : Option String) : Option String :=
  sniffedHost.or (match target with
    | .domain host _ => some host
    | .tcp _ => none)

/-- The address of a target that has one. -/
def routedIp : ProxyTarget → Option IpAddr
  | .tcp addr => some addr.ip
  | .domain _ _ => none

/-- An entry with criteria that a connection meets. -/
def RouteEntry.applies (geo : GeoLookup) (target : ProxyTarget) (sniffedHost : Option String)
    (inboundTag : String) (entry : RouteEntry Regex) : Bool :=
  entry.rule.hasCriteria &&
    entry.rule.matches isMatch (routedHost target sniffedHost) (routedIp target) target.port
      (some inboundTag) geo

def Router.entryAction (router : Router Regex) (entry : RouteEntry Regex) : RouteAction :=
  match entry.hijack with
  | some response => .hijack response
  | none =>
      match entry.action with
      | .tag name =>
          match router.connectors.lookup name with
          | some connector => .proxy connector
          | none => .reject

/-- Without a response of its own an entry leads to the connector of its tag. -/
theorem entry_action_tag (router : Router Regex) (entry : RouteEntry Regex) (name : String)
    (noResponse : entry.hijack = none) (action : entry.action = .tag name) :
    router.entryAction entry = ((router.connectors.lookup name).map .proxy).getD .reject := by
  obtain ⟨rule, _, _⟩ := entry
  subst noResponse action
  simp only [Router.entryAction]
  cases router.connectors.lookup name <;> rfl

/-- Route a connection. -/
def Router.route (router : Router Regex) (target : ProxyTarget) (sniffedHost : Option String)
    (inboundTag : String) : RouteAction :=
  match router.entries.find? (RouteEntry.applies isMatch router.geo target sniffedHost inboundTag)
  with
  | some entry => router.entryAction entry
  | none =>
      match router.entries.find? (!·.rule.hasCriteria) with
      | some entry => router.entryAction entry
      | none =>
          match router.defaultTag.bind router.connectors.lookup with
          | some connector => .proxy connector
          | none => .reject

/-- The connector for datagrams: the one tagged `direct`, else any that can carry them. -/
def Router.firstUdpConnector (router : Router Regex) : Except IoError OutboundConnector :=
  match router.connectors.lookup "direct" with
  | some connector => .ok connector
  | none =>
      match (router.connectors.entries.map (·.2)).find? (·.supportsUdp) with
      | some connector => .ok connector
      | none => .error ⟨.unsupported, "no udp-capable outbound configured"⟩

/-- The entry at a position is the one a connection takes. -/
def Router.Selects (router : Router Regex) (target : ProxyTarget) (sniffedHost : Option String)
    (inboundTag : String) (index : Nat) : Prop :=
  ∃ before entry after, router.entries = before ++ entry :: after ∧ before.length = index ∧
    ((entry.applies isMatch router.geo target sniffedHost inboundTag = true ∧
        ∀ other ∈ before,
          other.applies isMatch router.geo target sniffedHost inboundTag = false) ∨
      (entry.rule.hasCriteria = false ∧ (∀ other ∈ before, other.rule.hasCriteria = true) ∧
        ∀ other ∈ router.entries,
          other.applies isMatch router.geo target sniffedHost inboundTag = false))

/-- A connection gets the action of the entry it takes. -/
theorem route_selected (router : Router Regex) (target : ProxyTarget)
    (sniffedHost : Option String) (inboundTag : String) (before after : List (RouteEntry Regex))
    (entry : RouteEntry Regex) (split : router.entries = before ++ entry :: after)
    (selects : router.Selects isMatch target sniffedHost inboundTag before.length) :
    router.route isMatch target sniffedHost inboundTag = router.entryAction entry := by
  obtain ⟨before', entry', after', split', length, taken⟩ := selects
  obtain ⟨rfl, same⟩ := List.append_inj (split.symm.trans split') length.symm
  obtain ⟨rfl, rfl⟩ := List.cons.inj same
  unfold Router.route
  rcases taken with ⟨applies, earlier⟩ | ⟨unconditional, earlier, others⟩
  · have found : router.entries.find?
        (RouteEntry.applies isMatch router.geo target sniffedHost inboundTag) = some entry := by
      rw [split, List.find?_eq_some_iff_append]
      exact ⟨applies, before, after, rfl, by simpa using earlier⟩
    simp [found]
  · have unmatched : router.entries.find?
        (RouteEntry.applies isMatch router.geo target sniffedHost inboundTag) = none := by
      simpa [List.find?_eq_none] using others
    have found : router.entries.find? (!·.rule.hasCriteria) = some entry := by
      rw [split, List.find?_eq_some_iff_append]
      exact ⟨by simp [unconditional], before, after, rfl, by simpa using earlier⟩
    simp [unmatched, found]

end Router

section Start

structure RouterBuilder (Regex : Type) where
  entries : List (RouteEntry Regex)
  connectors : Connectors

variable {Regex : Type}

def RouterBuilder.new : RouterBuilder Regex := ⟨[], ∅⟩

def RouterBuilder.addConnector (builder : RouterBuilder Regex) (connector : OutboundConnector) :
    RouterBuilder Regex :=
  { builder with connectors := builder.connectors.insert connector.tag connector }

def RouterBuilder.hasConnector (builder : RouterBuilder Regex) (tag : String) : Bool :=
  (builder.connectors.lookup tag).isSome

def RouterBuilder.build (builder : RouterBuilder Regex) (geo : GeoLookup) : Router Regex where
  entries := builder.entries
  connectors := builder.connectors
  defaultTag := none
  geo := geo

variable (env : Environment)

/-- The response of an entry: the decoded text, unless there is none or it is empty. -/
def decodeHijack : Option String → Except String (Option Bytes)
  | none => .ok none
  | some text =>
      if text.isEmpty then .ok none
      else do
        let bytes ← (env.decodeBase64 (trim text)).mapError
          ("route hijack response_base64 decode failed: " ++ ·)
        return if bytes.isEmpty then none else some bytes

def RouterBuilder.addRuleEntry (builder : RouterBuilder env.regex.Regex) (ast : RouteRuleAst)
    (tag : String) (hijackB64 : Option String) :
    Except String (RouterBuilder env.regex.Regex) := do
  let rule ← ast.compile env.regex
  let hijack ← decodeHijack env hijackB64
  return { builder with entries := builder.entries ++ [⟨rule, .tag tag, hijack⟩] }

/-- A range of ports, when both of its ends are unsigned numbers. -/
def portRangeOf (value : Json) : Option (UInt16 × UInt16) := do
  let first ← (value.get "from").bind Json.asU64
  let last ← (value.get "to").bind Json.asU64
  return (first.toUInt16, last.toUInt16)

/-- The route rule of an outbound. -/
def ruleFromEntry (outbound : OutboundSpecWire) : RouteRuleAst where
  domainSuffix := jsonStrArr (outbound.rest.get "domain_suffix")
  domainKeyword := jsonStrArr (outbound.rest.get "domain_keyword")
  domainRegex := jsonStrArr (outbound.rest.get "domain_regex")
  ipCidr := jsonStrArr (outbound.rest.get "ip_cidr")
  geoip := jsonStrArr (outbound.rest.get "geoip")
  geosite := jsonStrArr (outbound.rest.get "geosite")
  ports := jsonU16Arr (outbound.rest.get "ports")
  portRanges :=
    (((outbound.rest.get "port_ranges").bind Json.asArray).map
      (·.filterMap portRangeOf)).getD []
  inboundTags := jsonStrArr (outbound.rest.get "inbound_tags")

/-- The response text of an outbound, under either of its keys. -/
def hijackText (outbound : OutboundSpecWire) : Option String := do
  let members ← (outbound.rest.get "hijack").bind Json.asObject
  ((members.get "response_b64").or (members.get "response_base64")).bind Json.asStr

/-- Add the connector and the entry of an outbound. -/
def addOutbound (builder : RouterBuilder env.regex.Regex) (outbound : OutboundSpecWire) :
    Except String (RouterBuilder env.regex.Regex) := do
  let connector ← buildConnector outbound
  let builder := (connector.map builder.addConnector).getD builder
  builder.addRuleEntry env (ruleFromEntry outbound) outbound.tag (hijackText outbound)

/-- Add a connector unless its tag is in use. -/
def RouterBuilder.addDefault (builder : RouterBuilder Regex) (connector : OutboundConnector) :
    RouterBuilder Regex :=
  if !builder.hasConnector connector.tag then builder.addConnector connector else builder

inductive CoreError where
  | config (message : String)
  | assembly (message : String)

structure CoreRuntime (Regex : Type) where
  plans : List NodePlan
  router : Router Regex
  metricsPort : Option UInt16

/-- Build the resolver when the configuration lists servers. -/
def setUpResolver (wire : RuntimeConfigWire) : Except CoreError Unit :=
  match wire.defaultDns with
  | some servers =>
      if servers.isEmpty then .ok () else (env.newResolver servers).mapError .assembly
  | none => .ok ()

/-- Start the runtime on a configuration. -/
def CoreRuntime.initialize (wire : RuntimeConfigWire) :
    Except CoreError (CoreRuntime env.regex.Regex) := do
  (validate wire).mapError .config
  setUpResolver env wire
  let geo := env.loadGeoFiles wire.extra
  let builder ← (wire.outbounds.foldlM (addOutbound env) RouterBuilder.new).mapError .config
  let builder := builder.addDefault .direct
  let builder := builder.addDefault .reject
  let plans ← (buildNodePlans env.toNodeEnvironment wire).mapError .config
  return ⟨plans, builder.build geo, wire.metricsPort⟩

end Start

section Tags

variable (env : Environment)

/-- What the entry of an outbound holds. -/
structure EntryOf (outbound : OutboundSpecWire) (entry : RouteEntry env.regex.Regex) : Prop where
  rule : (ruleFromEntry outbound).compile env.regex = .ok entry.rule
  action : entry.action = .tag outbound.tag
  hijack : decodeHijack env (hijackText outbound) = .ok entry.hijack

/-- Adding an outbound stores its connector under the connector's tag and appends
its entry. -/
theorem add_outbound_spec (builder after : RouterBuilder env.regex.Regex)
    (outbound : OutboundSpecWire) (added : addOutbound env builder outbound = .ok after) :
    ∃ connector entry, buildConnector outbound = .ok (some connector) ∧
      EntryOf env outbound entry ∧
      after = ⟨builder.entries ++ [entry],
        builder.connectors.insert connector.tag connector⟩ := by
  obtain ⟨built, connects, added⟩ := (bind_ok_iff _ _ _).mp added
  obtain ⟨connector, rfl, -⟩ := build_connector_cases outbound built connects
  obtain ⟨rule, compiled, added⟩ := (bind_ok_iff _ _ _).mp added
  obtain ⟨hijack, decoded, added⟩ := (bind_ok_iff _ _ _).mp added
  simp only [pure, Except.pure, Except.ok.injEq] at added
  exact ⟨connector, ⟨rule, .tag outbound.tag, hijack⟩, connects, ⟨compiled, rfl, decoded⟩,
    added.symm⟩

/-- The connector of an outbound that has one. -/
def ownConnector (outbound : OutboundSpecWire) : Option OutboundConnector :=
  match buildConnector outbound with
  | .ok connector => connector
  | .error _ => none

/-- The last connector with a tag among those of a list of outbounds. -/
def lastTagged (outbounds : List OutboundSpecWire) (key : String) : Option OutboundConnector :=
  (outbounds.filterMap ownConnector).reverse.find? (·.tag == key)

/-- The state of the builder after some outbounds: an entry for each of them, and
under each tag the last connector that has it. -/
structure BuiltFrom (outbounds : List OutboundSpecWire)
    (builder : RouterBuilder env.regex.Regex) : Prop where
  connects : ∀ outbound ∈ outbounds, ∃ connector, buildConnector outbound = .ok (some connector)
  entries : List.Forall₂ (EntryOf env) outbounds builder.entries
  connectors : ∀ key, builder.connectors.lookup key = lastTagged outbounds key

/-- The entries of a router come from the outbounds in their order. -/
theorem outbounds_built (outbounds : List OutboundSpecWire)
    (builder : RouterBuilder env.regex.Regex)
    (built : outbounds.foldlM (addOutbound env) RouterBuilder.new = .ok builder) :
    BuiltFrom env outbounds builder := by
  refine fold_traced (addOutbound env) (BuiltFrom env) ?_ outbounds [] RouterBuilder.new builder
    ?_ built
  · rintro done outbound before after ⟨connects, entries, connectors⟩ added
    obtain ⟨connector, entry, built, entryOf, rfl⟩ :=
      add_outbound_spec env before after outbound added
    refine ⟨?_, List.rel_append entries (List.Forall₂.cons entryOf List.Forall₂.nil), ?_⟩
    · intro other member
      rcases List.mem_append.mp member with earlier | last
      · exact connects other earlier
      · rw [List.mem_singleton.mp last]
        exact ⟨connector, built⟩
    · intro key
      by_cases own : connector.tag = key
      · subst own
        simp [lastTagged, List.filterMap_append, ownConnector, built]
      · have different : key ≠ connector.tag := fun same => own same.symm
        rw [AList.lookup_insert_ne different, connectors key]
        simp [lastTagged, List.filterMap_append, ownConnector, built, own]
  · exact ⟨by simp, List.Forall₂.nil, by simp [lastTagged, RouterBuilder.new]⟩

/-- Adding a default connector leaves every tag in use as it is. -/
theorem add_default_lookup {Regex : Type} (builder : RouterBuilder Regex)
    (connector : OutboundConnector) (key : String) :
    (builder.addDefault connector).connectors.lookup key =
      (builder.connectors.lookup key).or (if key = connector.tag then some connector else none)
    := by
  unfold RouterBuilder.addDefault RouterBuilder.hasConnector
  cases stored : builder.connectors.lookup connector.tag with
  | some other =>
    by_cases own : key = connector.tag
    · subst own
      simp [stored]
    · simp [own]
  | none =>
    by_cases own : key = connector.tag
    · subst own
      simp [stored, RouterBuilder.addConnector]
    · simp [own, RouterBuilder.addConnector, AList.lookup_insert_ne own]

/-- What a started runtime holds: its configuration was accepted, its entries are
those of the outbounds, and under each tag stands the last connector that has it,
else the default of that tag. -/
structure StartedFrom (wire : RuntimeConfigWire) (router : Router env.regex.Regex) : Prop where
  accepted : validate wire = .ok ()
  connects : ∀ outbound ∈ wire.outbounds, ∃ connector,
    buildConnector outbound = .ok (some connector)
  entries : List.Forall₂ (EntryOf env) wire.outbounds router.entries
  connectors : ∀ key, router.connectors.lookup key =
    ((lastTagged wire.outbounds key).or (if key = "direct" then some .direct else none)).or
      (if key = "reject" then some .reject else none)
  noDefault : router.defaultTag = none

/-- A runtime that starts has a router built from its configuration. -/
theorem initialize_spec (wire : RuntimeConfigWire) (runtime : CoreRuntime env.regex.Regex)
    (initialized : CoreRuntime.initialize env wire = .ok runtime) :
    StartedFrom env wire runtime.router := by
  obtain ⟨⟨⟩, accepted, initialized⟩ := (bind_ok_iff _ _ _).mp initialized
  obtain ⟨-, -, initialized⟩ := (bind_ok_iff _ _ _).mp initialized
  obtain ⟨builder, built, initialized⟩ := (bind_ok_iff _ _ _).mp initialized
  obtain ⟨plans, -, initialized⟩ := (bind_ok_iff _ _ _).mp initialized
  simp only [pure, Except.pure, Except.ok.injEq] at initialized
  subst initialized
  have stored := outbounds_built env wire.outbounds builder ((map_error_ok_iff _ _ _).mp built)
  have kept (connector : OutboundConnector) (builder : RouterBuilder env.regex.Regex) :
      (builder.addDefault connector).entries = builder.entries := by
    unfold RouterBuilder.addDefault
    split <;> rfl
  refine ⟨(map_error_ok_iff _ _ _).mp accepted, stored.connects, ?_, fun key => ?_, rfl⟩
  · simpa [RouterBuilder.build, kept] using stored.entries
  · simp only [RouterBuilder.build, add_default_lookup, stored.connectors]
    rfl

/-- A connector is found under its own tag only. -/
theorem found_tag (wire : RuntimeConfigWire) (router : Router env.regex.Regex)
    (started : StartedFrom env wire router) (key : String) (connector : OutboundConnector)
    (found : router.connectors.lookup key = some connector) : connector.tag = key := by
  rw [started.connectors, Option.or_eq_some_iff, Option.or_eq_some_iff] at found
  rcases found with (last | ⟨-, direct⟩) | ⟨-, reject⟩
  · simpa using List.find?_some last
  · obtain ⟨rfl, rfl⟩ : key = "direct" ∧ OutboundConnector.direct = connector := by
      simpa using direct
    rfl
  · obtain ⟨rfl, rfl⟩ : key = "reject" ∧ OutboundConnector.reject = connector := by
      simpa using reject
    rfl

/-- Datagrams of a started runtime go through the connector tagged `direct`; there
always is one, so no other is searched for. -/
theorem first_udp_connector_direct (wire : RuntimeConfigWire) (router : Router env.regex.Regex)
    (started : StartedFrom env wire router) :
    ∃ connector, router.connectors.lookup "direct" = some connector ∧
      router.firstUdpConnector = .ok connector := by
  have stored := started.connectors "direct"
  have present : ∃ connector, router.connectors.lookup "direct" = some connector := by
    rw [stored]
    cases lastTagged wire.outbounds "direct" <;> simp
  obtain ⟨connector, found⟩ := present
  exact ⟨connector, found, by simp [Router.firstUdpConnector, found]⟩

/-- The outbound at a position gets its own connector by its tag: the two fixed
types only under their fixed tags, and every other type unless a later outbound of
a fixed type takes over the tag. -/
def KeepsItsTag (outbound : OutboundSpecWire) (later : List OutboundSpecWire) : Prop :=
  (isDirect outbound = true ∧ outbound.tag = "direct") ∨
  (isReject outbound = true ∧ outbound.tag = "reject") ∨
  (isDirect outbound = false ∧ isReject outbound = false ∧
    (outbound.tag = "direct" → ∀ other ∈ later, isDirect other = false) ∧
    (outbound.tag = "reject" → ∀ other ∈ later, isReject other = false))

/-- A connector of a later outbound under the tag of an earlier one belongs to a
fixed type, since tags are distinct. -/
theorem later_same_tag (before later : List OutboundSpecWire) (outbound other : OutboundSpecWire)
    (connector : OutboundConnector)
    (distinct : ((before ++ outbound :: later).map (·.tag)).Nodup) (member : other ∈ later)
    (built : buildConnector other = .ok (some connector)) (same : connector.tag = outbound.tag) :
    (isDirect other = true ∧ connector = .direct ∧ outbound.tag = "direct") ∨
      (isReject other = true ∧ connector = .reject ∧ outbound.tag = "reject") := by
  obtain ⟨_, ⟨⟩, kinds⟩ := build_connector_cases other _ built
  rcases kinds with ⟨direct, rfl⟩ | ⟨reject, rfl⟩ | ⟨-, -, -, -, own⟩
  · exact .inl ⟨direct, rfl, same.symm⟩
  · exact .inr ⟨reject, rfl, same.symm⟩
  · exfalso
    rw [List.map_append, List.map_cons, List.nodup_append, List.nodup_cons] at distinct
    exact distinct.2.1.1 (List.mem_map.mpr ⟨other, member, own.symm.trans same⟩)

/-- Of two lists in order the second decides first. -/
theorem last_tagged_append (before later : List OutboundSpecWire) (key : String) :
    lastTagged (before ++ later) key = (lastTagged later key).or (lastTagged before key) := by
  simp [lastTagged, List.filterMap_append, List.find?_append]

/-- The connector of an outbound is the one that building it gives. -/
theorem own_connector_iff (outbound : OutboundSpecWire) (connector : OutboundConnector) :
    ownConnector outbound = some connector ↔ buildConnector outbound = .ok (some connector) := by
  unfold ownConnector
  cases buildConnector outbound <;> simp

/-- A connector found in a list is that of one of its outbounds and has the tag. -/
theorem last_tagged_some (outbounds : List OutboundSpecWire) (key : String)
    (connector : OutboundConnector) (found : lastTagged outbounds key = some connector) :
    ∃ outbound ∈ outbounds, buildConnector outbound = .ok (some connector) ∧
      connector.tag = key := by
  have member := List.mem_of_find?_eq_some found
  rw [List.mem_reverse, List.mem_filterMap] at member
  obtain ⟨outbound, member, own⟩ := member
  exact ⟨outbound, member, (own_connector_iff outbound connector).mp own,
    by simpa using List.find?_some found⟩

/-- Nothing is found in a list exactly when none of its connectors has the tag. -/
theorem last_tagged_none_iff (outbounds : List OutboundSpecWire) (key : String) :
    lastTagged outbounds key = none ↔ ∀ outbound ∈ outbounds, ∀ connector,
      buildConnector outbound = .ok (some connector) → connector.tag ≠ key := by
  simp only [lastTagged, List.find?_eq_none, List.mem_reverse, List.mem_filterMap,
    own_connector_iff, beq_iff_eq]
  constructor
  · exact fun absent outbound member connector built =>
      absent connector ⟨outbound, member, built⟩
  · rintro absent connector ⟨outbound, member, built⟩
    exact absent outbound member connector built

/-- An outbound whose connector has the outbound's tag is found by it unless a
later connector has the same tag. -/
theorem lookup_own_tag (wire : RuntimeConfigWire) (router : Router env.regex.Regex)
    (started : StartedFrom env wire router) (before later : List OutboundSpecWire)
    (outbound : OutboundSpecWire) (connector : OutboundConnector)
    (split : wire.outbounds = before ++ outbound :: later)
    (built : buildConnector outbound = .ok (some connector))
    (own : connector.tag = outbound.tag) :
    router.connectors.lookup outbound.tag =
      some ((lastTagged later outbound.tag).getD connector) := by
  have alone : lastTagged [outbound] outbound.tag = some connector := by
    simp [lastTagged, ownConnector, built, own]
  have last : lastTagged wire.outbounds outbound.tag =
      some ((lastTagged later outbound.tag).getD connector) := by
    rw [split, List.append_cons, last_tagged_append, last_tagged_append, alone]
    cases lastTagged later outbound.tag <;> rfl
  rw [started.connectors, last]
  rfl

section Position

variable {wire : RuntimeConfigWire} {router : Router env.regex.Regex}
variable {before later : List OutboundSpecWire} {outbound : OutboundSpecWire}
variable {connector : OutboundConnector}

/-- Which later connectors take the tag of an outbound over. -/
theorem successor_fixed (distinct : ((before ++ outbound :: later).map (·.tag)).Nodup)
    (successor : OutboundConnector) (found : lastTagged later outbound.tag = some successor) :
    (successor = .direct ∧ outbound.tag = "direct") ∨
      (successor = .reject ∧ outbound.tag = "reject") := by
  obtain ⟨other, member, built, same⟩ := last_tagged_some later _ successor found
  exact (later_same_tag before later outbound other successor distinct member built
    same).imp And.right And.right

/-- No later connector takes the tag of an outbound over exactly when no later
outbound is of the fixed type with that tag. -/
theorem tag_free_iff (distinct : ((before ++ outbound :: later).map (·.tag)).Nodup) :
    lastTagged later outbound.tag = none ↔
      (outbound.tag = "direct" → ∀ other ∈ later, isDirect other = false) ∧
      (outbound.tag = "reject" → ∀ other ∈ later, isReject other = false) := by
  rw [last_tagged_none_iff]
  constructor
  · intro unused
    refine ⟨fun tag other member => ?_, fun tag other member => ?_⟩
    · cases direct : isDirect other with
      | false => rfl
      | true => exact absurd tag.symm (unused other member _ (build_direct other direct))
    · cases reject : isReject other with
      | false => rfl
      | true => exact absurd tag.symm (unused other member _ (build_reject other reject))
  · rintro ⟨noDirect, noReject⟩ other member successor built same
    rcases later_same_tag before later outbound other successor distinct member built same
      with ⟨direct, -, tag⟩ | ⟨reject, -, tag⟩
    · simp [noDirect tag other member] at direct
    · simp [noReject tag other member] at reject

/-- An outbound that keeps its tag has a connector with that tag. -/
theorem keeps_own_tag (built : buildConnector outbound = .ok (some connector))
    (kept : KeepsItsTag outbound later) : connector.tag = outbound.tag := by
  rcases kept with ⟨direct, tag⟩ | ⟨reject, tag⟩ | ⟨notDirect, notReject, -⟩
  · obtain ⟨⟩ := built.symm.trans (build_direct outbound direct)
    exact tag.symm
  · obtain ⟨⟩ := built.symm.trans (build_reject outbound reject)
    exact tag.symm
  · obtain ⟨_, ⟨⟩, kinds⟩ := build_connector_cases outbound _ built
    rcases kinds with ⟨direct, -⟩ | ⟨reject, -⟩ | ⟨-, -, -, -, own⟩
    · simp [notDirect] at direct
    · simp [notReject] at reject
    · exact own

/-- A connector with the tag of its outbound has no other successor under the tag
exactly when the outbound keeps it. A connector of a fixed type can only be followed
by an equal one; a connector of another type gives way to a later one of a fixed
type. -/
theorem own_successor_iff (distinct : ((before ++ outbound :: later).map (·.tag)).Nodup)
    (built : buildConnector outbound = .ok (some connector))
    (own : connector.tag = outbound.tag) :
    (lastTagged later outbound.tag).getD connector = connector ↔ KeepsItsTag outbound later := by
  have fixed := successor_fixed distinct
  obtain ⟨_, ⟨⟩, kinds⟩ := build_connector_cases outbound _ built
  rcases kinds with ⟨direct, rfl⟩ | ⟨reject, rfl⟩ | ⟨notDirect, notReject, differs, differs', -⟩
  · have kept : KeepsItsTag outbound later := .inl ⟨direct, own.symm⟩
    cases last : lastTagged later outbound.tag with
    | none => simp [kept]
    | some successor =>
      rcases fixed successor last with ⟨rfl, -⟩ | ⟨-, tag⟩
      · simp [kept]
      · simp [← own, OutboundConnector.tag] at tag
  · have kept : KeepsItsTag outbound later := .inr (.inl ⟨reject, own.symm⟩)
    cases last : lastTagged later outbound.tag with
    | none => simp [kept]
    | some successor =>
      rcases fixed successor last with ⟨-, tag⟩ | ⟨rfl, -⟩
      · simp [← own, OutboundConnector.tag] at tag
      · simp [kept]
  · have condition : KeepsItsTag outbound later ↔ lastTagged later outbound.tag = none := by
      simp [KeepsItsTag, notDirect, notReject, tag_free_iff distinct]
    rw [condition]
    cases last : lastTagged later outbound.tag with
    | none => simp
    | some successor =>
      rcases fixed successor last with ⟨rfl, -⟩ | ⟨rfl, -⟩
      · simp [differs.symm]
      · simp [differs'.symm]

/-- The connector found under the tag of an outbound is the outbound's own exactly
when it keeps its tag. -/
theorem own_connector_found_iff (started : StartedFrom env wire router)
    (split : wire.outbounds = before ++ outbound :: later)
    (built : buildConnector outbound = .ok (some connector)) :
    router.connectors.lookup outbound.tag = some connector ↔ KeepsItsTag outbound later := by
  have distinct : ((before ++ outbound :: later).map (·.tag)).Nodup :=
    split ▸ validate_distinct_tags wire started.accepted
  by_cases own : connector.tag = outbound.tag
  · rw [lookup_own_tag env wire router started before later outbound connector split built own,
      Option.some.injEq]
    exact own_successor_iff distinct built own
  · constructor
    · intro found
      exact absurd (found_tag env wire router started outbound.tag connector found) own
    · intro kept
      exact absurd (keeps_own_tag built kept) own

/-- Related lists are related at each position. -/
theorem related_at_position {α β : Type} {Related : α → β → Prop} (before : List α) (item : α)
    (later : List α) (others : List β)
    (related : List.Forall₂ Related (before ++ item :: later) others) :
    ∃ earlier other after, others = earlier ++ other :: after ∧
      earlier.length = before.length ∧ Related item other := by
  induction before generalizing others with
  | nil =>
    obtain ⟨other, after, here, -, rfl⟩ := List.forall₂_cons_left_iff.mp related
    exact ⟨[], other, after, rfl, rfl, here⟩
  | cons first before inductionHypothesis =>
    obtain ⟨head, rest, -, tail, rfl⟩ := List.forall₂_cons_left_iff.mp related
    obtain ⟨earlier, other, after, rfl, position, here⟩ := inductionHypothesis rest tail
    exact ⟨head :: earlier, other, after, rfl, by simp [position], here⟩

end Position

/-- Exactly when a selected outbound is used. For every configuration the runtime
starts on, every outbound without a response of its own and every connection that
takes its entry, the connection is given to the connector made from that outbound
exactly when the outbound keeps its tag. -/
theorem selected_outbound_proxied_iff (wire : RuntimeConfigWire)
    (runtime : CoreRuntime env.regex.Regex) (before later : List OutboundSpecWire)
    (outbound : OutboundSpecWire) (connector : OutboundConnector) (target : ProxyTarget)
    (sniffedHost : Option String) (inboundTag : String)
    (initialized : CoreRuntime.initialize env wire = .ok runtime)
    (split : wire.outbounds = before ++ outbound :: later)
    (built : buildConnector outbound = .ok (some connector))
    (unhijacked : decodeHijack env (hijackText outbound) = .ok none)
    (selects : runtime.router.Selects env.regex.isMatch target sniffedHost inboundTag
      before.length) :
    runtime.router.route env.regex.isMatch target sniffedHost inboundTag = .proxy connector ↔
      KeepsItsTag outbound later := by
  have started := initialize_spec env wire runtime initialized
  obtain ⟨earlier, entry, after, entries, position, entryOf⟩ :=
    related_at_position before outbound later runtime.router.entries (split ▸ started.entries)
  rw [route_selected env.regex.isMatch runtime.router target sniffedHost inboundTag earlier after
    entry entries (position ▸ selects)]
  have noResponse : entry.hijack = none := by
    simpa using (entryOf.hijack.symm.trans unhijacked)
  rw [← own_connector_found_iff env started split built]
  rw [entry_action_tag runtime.router entry outbound.tag noResponse entryOf.action]
  cases runtime.router.connectors.lookup outbound.tag <;> simp

section Examples

/-- An environment without geo tables, for configurations that name no file, no
server of the name service and no response. -/
def plainEnvironment : Environment where
  readFile path := .error path
  generateSelfSigned domain := .error domain
  sha224 bytes := bytes
  regex := literalRegex
  decodeBase64 text := .error text
  newResolver _ := .ok ()
  loadGeoFiles _ := ⟨fun _ _ => false, fun _ _ => false⟩

/-- A configuration of outbounds alone. -/
def outboundsOnly (outbounds : List OutboundSpecWire) : RuntimeConfigWire :=
  ⟨outbounds, [], [], none, none⟩

/-- The entry of an outbound without criteria. -/
def fallbackEntry (tag : String) : RouteEntry String where
  rule := ⟨⟨[], [], [], []⟩, ⟨[], []⟩, [], [], ⟨[], []⟩, [], false⟩
  action := .tag tag
  hijack := none

/-- An outbound through a Trojan server. -/
def trojanOutbound : OutboundSpecWire where
  tag := "proxy"
  outboundType := "trojan"
  target := some ⟨some "example.org", some 443⟩
  rest := [("password", .string "secret")]

/-- The connector of that outbound. -/
def trojanConnector : OutboundConnector :=
  .trojan ⟨"proxy", "example.org", 443, "secret", none, none, none⟩

/-- The router of a configuration with that outbound alone. -/
def trojanRouter : Router String where
  entries := [fallbackEntry "proxy"]
  connectors := ((AList.insert "proxy" trojanConnector ∅).insert "direct" .direct).insert
    "reject" .reject
  defaultTag := none
  geo := ⟨fun _ _ => false, fun _ _ => false⟩

/-- Every connection takes the only entry, and it leads to the outbound's server. -/
theorem selected_outbound_proxied_example :
    trojanRouter.route literalRegex.isMatch (.domain "example.com" 80) none "in" =
      .proxy trojanConnector :=
  (selected_outbound_proxied_iff plainEnvironment (outboundsOnly [trojanOutbound])
    ⟨[], trojanRouter, none⟩ [] [] trojanOutbound trojanConnector (.domain "example.com" 80) none
    "in" rfl rfl rfl rfl
    ⟨[], fallbackEntry "proxy", [], rfl, rfl, .inr ⟨rfl, by simp, by decide⟩⟩).mpr
    (.inr (.inr (by decide)))

/-- A direct outbound with a tag of its own. -/
def renamedDirect : OutboundSpecWire where
  tag := "out"
  outboundType := "direct"
  target := none
  rest := []

/-- The router of a configuration with that outbound alone. -/
def renamedRouter : Router String where
  entries := [fallbackEntry "out"]
  connectors := (AList.insert "direct" .direct ∅).insert "reject" .reject
  defaultTag := none
  geo := ⟨fun _ _ => false, fun _ _ => false⟩

/-- A direct outbound with a tag of its own turns into a rejection. -/
theorem renamed_direct_rejects :
    CoreRuntime.initialize plainEnvironment (outboundsOnly [renamedDirect]) =
        .ok ⟨[], renamedRouter, none⟩ ∧
      buildConnector renamedDirect = .ok (some .direct) ∧
      decodeHijack plainEnvironment (hijackText renamedDirect) = .ok none ∧
      renamedRouter.Selects literalRegex.isMatch (.domain "example.com" 80) none "in" 0 ∧
      renamedRouter.route literalRegex.isMatch (.domain "example.com" 80) none "in" = .reject :=
  ⟨rfl, rfl, rfl, ⟨[], fallbackEntry "out", [], rfl, rfl, .inr ⟨rfl, by simp, by decide⟩⟩, rfl⟩

end Examples

end Tags

section Criteria

/-- The kinds of criteria an outbound may list. -/
inductive Criterion where
  | domainSuffix
  | domainKeyword
  | domainRegex
  | ipCidr
  | geoip
  | geosite
  | ports
  | portRanges
  | inboundTags

/-- The key of a criterion in the configuration. -/
def Criterion.key : Criterion → String
  | domainSuffix => "domain_suffix"
  | domainKeyword => "domain_keyword"
  | domainRegex => "domain_regex"
  | ipCidr => "ip_cidr"
  | geoip => "geoip"
  | geosite => "geosite"
  | ports => "ports"
  | portRanges => "port_ranges"
  | inboundTags => "inbound_tags"

/-- An element has the shape that the reader of its criterion keeps: an unsigned
number for a port, an object with two unsigned numbers for a range of ports, and a
text for every other criterion. -/
def Criterion.keeps : Criterion → Json → Bool
  | ports, element => element.asU64.isSome
  | portRanges, element =>
      ((element.get "from").bind Json.asU64).isSome && ((element.get "to").bind Json.asU64).isSome
  | _, element => element.asStr.isSome

/-- A rule as written lists a criterion. -/
def mentions (ast : RouteRuleAst) : Criterion → Bool
  | .domainSuffix => !ast.domainSuffix.isEmpty
  | .domainKeyword => !ast.domainKeyword.isEmpty
  | .domainRegex => !ast.domainRegex.isEmpty
  | .ipCidr => !ast.ipCidr.isEmpty
  | .geoip => !ast.geoip.isEmpty
  | .geosite => !ast.geosite.isEmpty
  | .ports => !ast.ports.isEmpty
  | .portRanges => !ast.portRanges.isEmpty
  | .inboundTags => !ast.inboundTags.isEmpty

/-- A compiled rule holds something to match for a criterion. -/
def constrains {Regex : Type} (rule : CompiledRule Regex) : Criterion → Bool
  | .domainSuffix => !rule.domains.suffix.isEmpty
  | .domainKeyword => !rule.domains.keyword.isEmpty
  | .domainRegex => !rule.domains.regex.isEmpty
  | .ipCidr => !rule.ips.isEmpty
  | .geoip => !rule.geoip.isEmpty
  | .geosite => !rule.geosite.isEmpty
  | .ports => !rule.ports.exact.isEmpty
  | .portRanges => !rule.ports.ranges.isEmpty
  | .inboundTags => !rule.inboundTags.isEmpty

/-- A rule that lists a criterion has criteria. -/
theorem mentions_has_criteria (ast : RouteRuleAst) (criterion : Criterion)
    (listed : mentions ast criterion = true) : ast.hasCriteria = true := by
  cases criterion <;>
    simp_all [mentions, RouteRuleAst.hasCriteria]

/-- Compilation keeps each criterion. -/
theorem constrains_eq_mentions {library : RegexLibrary} {ast : RouteRuleAst}
    {rule : CompiledRule library.Regex} (holds : CompiledFrom library ast rule)
    (criterion : Criterion) : constrains rule criterion = mentions ast criterion := by
  cases criterion with
  | domainSuffix => simp [constrains, mentions, holds.suffix]
  | domainKeyword => simp [constrains, mentions, holds.keyword]
  | domainRegex =>
    have same : rule.domains.regex.isEmpty = ast.domainRegex.isEmpty := by
      rw [Bool.eq_iff_iff]
      simp [← List.length_eq_zero_iff, holds.regex.length_eq]
    simp [constrains, mentions, same]
  | ipCidr =>
    have same : rule.ips.isEmpty = ast.ipCidr.isEmpty := by
      rw [Bool.eq_iff_iff, (from_cidrs_spec ast.ipCidr rule.ips holds.ips).2, List.isEmpty_iff]
    simp [constrains, mentions, same]
  | geoip => simp [constrains, mentions, holds.geoip]
  | geosite => simp [constrains, mentions, holds.geosite]
  | ports =>
    have same : rule.ports.exact.isEmpty = ast.ports.isEmpty := by
      rw [Bool.eq_iff_iff]
      simp [List.eq_nil_iff_forall_not_mem, holds.exact]
    simp [constrains, mentions, same]
  | portRanges => simp [constrains, mentions, holds.ranges]
  | inboundTags => simp [constrains, mentions, holds.inboundTags]

/-- A reader that passes over elements returns something exactly when it keeps one. -/
theorem reader_keeps_iff {α : Type} (reader : Json → Option α) (elements : List Json) :
    (!(elements.filterMap reader).isEmpty) = true ↔
      ∃ element ∈ elements, (reader element).isSome = true := by
  induction elements with
  | nil => simp
  | cons first elements inductionHypothesis =>
    cases read : reader first with
    | none => simpa [read] using inductionHypothesis
    | some value => simp [read]

/-- A range of ports is read when both of its ends are. -/
theorem port_range_kept (element : Json) :
    (portRangeOf element).isSome = Criterion.portRanges.keeps element := by
  simp only [portRangeOf, Criterion.keeps]
  cases (element.get "from").bind Json.asU64 <;>
    cases (element.get "to").bind Json.asU64 <;> rfl

/-- The rule of an outbound lists a criterion that is written as an array exactly
when the reader keeps one of the elements. -/
theorem rule_mentions_iff (outbound : OutboundSpecWire) (criterion : Criterion)
    (elements : List Json) (written : outbound.rest.get criterion.key = some (.array elements)) :
    mentions (ruleFromEntry outbound) criterion = true ↔
      ∃ element ∈ elements, criterion.keeps element = true := by
  have texts := reader_keeps_iff Json.asStr elements
  have numbers := reader_keeps_iff Json.asU64 elements
  have ranges := reader_keeps_iff portRangeOf elements
  simp only [port_range_kept] at ranges
  cases criterion with
  | ports =>
    simp only [Criterion.key] at written
    simpa [mentions, ruleFromEntry, written, jsonU16Arr, Criterion.keeps] using numbers
  | portRanges =>
    simp only [Criterion.key] at written
    simpa [mentions, ruleFromEntry, written, Json.asArray] using ranges
  | _ =>
    simp only [Criterion.key] at written
    simpa [mentions, ruleFromEntry, written, jsonStrArr, Criterion.keeps] using texts

/-- Exactly when a written criterion constrains. For every configuration the
runtime starts on and every outbound with a criterion written as an array, the
entry of that outbound has criteria and is constrained by this one exactly when
the array has an element of the shape that the reader keeps. -/
theorem written_criterion_constrains_iff (env : Environment) (wire : RuntimeConfigWire)
    (runtime : CoreRuntime env.regex.Regex) (before later : List OutboundSpecWire)
    (outbound : OutboundSpecWire) (criterion : Criterion) (elements : List Json)
    (initialized : CoreRuntime.initialize env wire = .ok runtime)
    (split : wire.outbounds = before ++ outbound :: later)
    (written : outbound.rest.get criterion.key = some (.array elements)) :
    ∃ entry, runtime.router.entries[before.length]? = some entry ∧
      ((entry.rule.hasCriteria = true ∧ constrains entry.rule criterion = true) ↔
        ∃ element ∈ elements, criterion.keeps element = true) := by
  have started := initialize_spec env wire runtime initialized
  obtain ⟨earlier, entry, after, entries, position, entryOf⟩ :=
    related_at_position before outbound later runtime.router.entries (split ▸ started.entries)
  refine ⟨entry, by simp [entries, ← position], ?_⟩
  have holds := compile_spec env.regex _ entry.rule entryOf.rule
  rw [holds.hasCriteria, constrains_eq_mentions holds,
    ← rule_mentions_iff outbound criterion elements written, and_iff_right_iff_imp]
  exact mentions_has_criteria (ruleFromEntry outbound) criterion

/-- A Trojan outbound for one port, written as a number. -/
def webOnly : OutboundSpecWire :=
  { trojanOutbound with
    rest := [("password", .string "secret"), ("ports", .array [.number (.posInt 443)])] }

/-- The router of a configuration with that outbound alone. -/
def webRouter : Router String :=
  { trojanRouter with
    entries := [{ fallbackEntry "proxy" with
      rule := ⟨⟨[], [], [], []⟩, ⟨[], []⟩, [], [], ⟨[443], []⟩, [], true⟩ }] }

/-- A port written as a number constrains the entry. -/
theorem written_criterion_constrains_example :
    ∃ entry, webRouter.entries[0]? = some entry ∧
      ((entry.rule.hasCriteria = true ∧ constrains entry.rule .ports = true) ↔
        ∃ element ∈ [Json.number (.posInt 443)], Criterion.ports.keeps element = true) :=
  written_criterion_constrains_iff plainEnvironment (outboundsOnly [webOnly])
    ⟨[], webRouter, none⟩ [] [] webOnly .ports [.number (.posInt 443)] rfl rfl rfl

/-- A Trojan outbound for one port, written as a text. -/
def webOnlyText : OutboundSpecWire :=
  { trojanOutbound with
    rest := [("password", .string "secret"), ("ports", .array [.string "443"])] }

/-- A port written as a text disappears, and the outbound becomes the fallback for
every connection. -/
theorem text_port_matches_all :
    CoreRuntime.initialize plainEnvironment (outboundsOnly [webOnlyText]) =
        .ok ⟨[], trojanRouter, none⟩ ∧
      webOnlyText.rest.get Criterion.ports.key = some (.array [.string "443"]) ∧
      trojanRouter.entries[0]? = some (fallbackEntry "proxy") ∧
      (fallbackEntry "proxy").rule.hasCriteria = false ∧
      constrains (fallbackEntry "proxy").rule .ports = false :=
  ⟨rfl, rfl, rfl, rfl, rfl⟩

end Criteria

end OmniProxy.Routing
