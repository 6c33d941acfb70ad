import OmniProxy.AddressDisplay
import OmniProxy.Routing

/-!
# The tags of a running configuration

Validation collects the tags of the outbounds and of the nodes that have one, and
refuses a tag that is in use. A node without a tag is given a name only later, when
its plan is made, and that name is not compared with any other. The result says
exactly when all names are told apart all the same.
-/

namespace OmniProxy.NodeTags

open ByteStrings AddressText AddressDisplay CheckedLoops JsonValues RuntimeConfig NodePlans
open RouteRules Routing

/-- The name made for the node at a position. -/
def generatedTag (index : Nat) : String := "in-" ++ toString index

/-- The names made for different positions differ. -/
theorem generated_tag_injective (first second : Nat)
    (same : generatedTag first = generatedTag second) : first = second := by
  have characters := congrArg String.toList same
  simp only [generatedTag, String.toList_append] at characters
  have digits : Nat.toDigits 10 first = Nat.toDigits 10 second := by
    simpa [Nat.toString_eq_ofList_toDigits] using List.append_cancel_left characters
  rw [← Nat.ofDigitChars_ten_toDigits (n := first), digits, Nat.ofDigitChars_ten_toDigits]

/-- The name made for a position is not empty. -/
theorem generated_tag_nonempty (index : Nat) : generatedTag index ≠ "" := by
  intro empty
  have characters := congrArg String.toList empty
  simp [generatedTag] at characters

/-- The tag of the plan of the node at a position. -/
def planTag (index : Nat) (node : NodeConfigWire) : String :=
  if node.tag = "" then generatedTag index else node.tag

/-- No plan goes without a tag. -/
theorem plan_tag_nonempty (index : Nat) (node : NodeConfigWire) : planTag index node ≠ "" := by
  unfold planTag
  split
  · exact generated_tag_nonempty index
  · assumption

/-- A plan goes under its node's tag or the name made for its position. -/
theorem node_plan_tag (env : NodeEnvironment) (index : Nat) (node : NodeConfigWire)
    (plan : NodePlan) (built : nodePlan env index node = .ok plan) :
    plan.tag = planTag index node := by
  obtain ⟨listenAddrs, -, built⟩ := (bind_ok_iff _ _ _).mp built
  obtain ⟨proto, -, built⟩ := (bind_ok_iff _ _ _).mp built
  obtain ⟨tls, -, built⟩ := (bind_ok_iff _ _ _).mp built
  obtain ⟨mux, -, built⟩ := (bind_ok_iff _ _ _).mp built
  simp only [pure, Except.pure, Except.ok.injEq] at built
  subst built
  simp [planTag, generatedTag]

/-- The plan at a position is that of the node there. -/
theorem plan_at (env : NodeEnvironment) (wire : RuntimeConfigWire) (plans : List NodePlan)
    (built : buildNodePlans env wire = .ok plans) (index : Nat) :
    plans[index]?.map (·.tag) = wire.nodes[index]?.map (planTag index) := by
  have related := (map_ok_iff _ _ _).mp built
  have tags : plans.map (·.tag) =
      wire.nodes.zipIdx.map fun item => planTag item.2 item.1 := by
    rw [← List.forall₂_eq_eq_eq, List.forall₂_map_left_iff, List.forall₂_map_right_iff]
    exact related.flip.imp fun plan item made => node_plan_tag env item.2 item.1 plan made
  rw [← List.getElem?_map, tags]
  simp [Function.comp_def]

/-- What validation has established of the tags when it comes to an end. -/
structure ConfiguredTags (outboundTags : List String) (nodes : List NodeConfigWire)
    (tags : List String) : Prop where
  collected : ∀ tag, tag ∈ tags ↔ tag ∈ outboundTags ∨ tag ≠ "" ∧ ∃ node ∈ nodes, node.tag = tag
  distinct : nodes.Pairwise fun node later => node.tag ≠ "" → later.tag ≠ node.tag
  apart : ∀ node ∈ nodes, node.tag ≠ "" → node.tag ∉ outboundTags

/-- Checking one more node keeps the account of the tags. -/
theorem check_node_keeps (outboundTags : List String) (nodes : List NodeConfigWire)
    (node : NodeConfigWire) (before after : List String)
    (account : ConfiguredTags outboundTags nodes before)
    (checked : checkNode before node = .ok after) :
    ConfiguredTags outboundTags (nodes ++ [node]) after := by
  obtain ⟨-, -, checked⟩ := (bind_ok_iff _ _ _).mp checked
  by_cases untagged : node.tag = ""
  · have kept : before = after := by
      simpa [untagged, pure, Except.pure] using checked
    subst kept
    refine ⟨fun tag => ?_, List.pairwise_append.mpr ⟨account.distinct, by simp, ?_⟩, ?_⟩
    · rw [account.collected tag]
      have notHere : tag ≠ "" → node.tag ≠ tag := fun named same => named (same ▸ untagged)
      grind
    · intro earlier member later isLast tagged
      rw [List.mem_singleton.mp isLast, untagged]
      exact tagged.symm
    · intro other member tagged
      rcases List.mem_append.mp member with earlier | isLast
      · exact account.apart other earlier tagged
      · exact absurd (List.mem_singleton.mp isLast ▸ untagged) tagged
  · have tagged : node.tag.isEmpty = false := by simpa using untagged
    rw [tagged] at checked
    obtain ⟨fresh, checked⟩ := (check_ok_iff _ _ _ _).mp checked
    have added : before ++ [node.tag] = after := Except.ok.inj checked
    have unused : node.tag ∉ before := by simpa using fresh
    subst added
    rw [account.collected] at unused
    refine ⟨fun tag => ?_, List.pairwise_append.mpr ⟨account.distinct, by simp, ?_⟩, ?_⟩
    · rw [List.mem_append, account.collected tag, List.mem_singleton]
      grind
    · intro earlier member later isLast earlierTagged same
      rw [List.mem_singleton.mp isLast] at same
      exact unused (.inr ⟨untagged, earlier, member, same.symm⟩)
    · intro other member otherTagged
      rcases List.mem_append.mp member with earlier | isLast
      · exact account.apart other earlier otherTagged
      · rw [List.mem_singleton.mp isLast]
        exact fun used => unused (.inl used)

/-- An accepted configuration repeats no tag that is written in it. -/
theorem validate_tags (wire : RuntimeConfigWire) (accepted : validate wire = .ok ()) :
    ∃ tags, ConfiguredTags (wire.outbounds.map (·.tag)) wire.nodes tags := by
  obtain ⟨outboundTags, outbounds, rest⟩ := (bind_ok_iff _ _ _).mp accepted
  obtain ⟨rfl, -⟩ := outbound_tags_collected wire.outbounds outboundTags outbounds
  cases checked : wire.nodes.foldlM checkNode (wire.outbounds.map (·.tag)) with
  | error fault => simp [checked, discard, Functor.mapConst, Except.map] at rest
  | ok tags =>
    refine ⟨tags, ?_⟩
    have related := fold_traced checkNode
      (ConfiguredTags (wire.outbounds.map (·.tag)))
      (fun done node before after => check_node_keeps _ done node before after)
      wire.nodes [] _ tags ⟨by simp, .nil, by simp⟩ checked
    simpa using related

/-- The nodes and outbounds of a running configuration are told apart by their names:
no two plans share a tag, no plan has the tag of an outbound, and a rule whose
`inbound_tags` are tags of nodes applies only to the nodes that have one of them. -/
structure TagsUnique (wire : RuntimeConfigWire) (plans : List NodePlan) : Prop where
  distinct : (plans.map (·.tag)).Nodup
  apart : ∀ plan ∈ plans, ∀ outbound ∈ wire.outbounds, plan.tag ≠ outbound.tag
  named : ∀ {Regex : Type} (isMatch : Regex → String → Bool) (geo : GeoLookup)
    (target : ProxyTargets.ProxyTarget) (sniffedHost : Option String)
    (entry : RouteEntry Regex) (index : Nat) (plan : NodePlan),
    plans[index]? = some plan → entry.rule.inboundTags ≠ [] →
    (∀ tag ∈ entry.rule.inboundTags, ∃ node ∈ wire.nodes, node.tag = tag) →
    entry.applies isMatch geo target sniffedHost plan.tag = true →
    ∃ node, wire.nodes[index]? = some node ∧ node.tag ∈ entry.rule.inboundTags

/-- The name made for a node without a tag is the tag of an outbound or of another
node. -/
def GeneratedTagTaken (wire : RuntimeConfigWire) : Prop :=
  ∃ index node, wire.nodes[index]? = some node ∧ node.tag = "" ∧
    ((∃ outbound ∈ wire.outbounds, outbound.tag = generatedTag index) ∨
      ∃ other ∈ wire.nodes, other.tag = generatedTag index)

/-- A rule with `inbound_tags` applies only where one of them is the inbound's. -/
theorem applies_inbound_tag {Regex : Type} (isMatch : Regex → String → Bool) (geo : GeoLookup)
    (target : ProxyTargets.ProxyTarget) (sniffedHost : Option String)
    (entry : RouteEntry Regex) (tag : String) (listed : entry.rule.inboundTags ≠ [])
    (applies : entry.applies isMatch geo target sniffedHost tag = true) :
    tag ∈ entry.rule.inboundTags := by
  by_contra absent
  have nonempty : entry.rule.inboundTags.isEmpty = false := by simpa using listed
  obtain ⟨constrained, matched⟩ := Bool.and_eq_true_iff.mp applies
  simp [CompiledRule.matches, constrained, nonempty, absent] at matched

/-- Two nodes whose plans share a tag stand at one position, unless a name that was
made is taken. -/
theorem shared_tag_position {wire : RuntimeConfigWire} {tags : List String}
    (account : ConfiguredTags (wire.outbounds.map (·.tag)) wire.nodes tags)
    (free : ¬GeneratedTagTaken wire) (first second : Nat) (one other : NodeConfigWire)
    (atFirst : wire.nodes[first]? = some one) (atSecond : wire.nodes[second]? = some other)
    (same : planTag first one = planTag second other) : first = second := by
  unfold planTag at same
  split_ifs at same with untagged otherUntagged otherUntagged
  · exact generated_tag_injective first second same
  · exact absurd ⟨first, one, atFirst, untagged, .inr ⟨other, List.mem_of_getElem? atSecond,
      same.symm⟩⟩ free
  · exact absurd ⟨second, other, atSecond, otherUntagged, .inr ⟨one, List.mem_of_getElem? atFirst,
      same⟩⟩ free
  · obtain ⟨firstInside, rfl⟩ := List.getElem?_eq_some_iff.mp atFirst
    obtain ⟨secondInside, rfl⟩ := List.getElem?_eq_some_iff.mp atSecond
    have distinct := List.pairwise_iff_getElem.mp account.distinct
    rcases Nat.lt_trichotomy first second with earlier | here | later
    · exact absurd same.symm (distinct first second firstInside secondInside earlier untagged)
    · exact here
    · exact absurd same (distinct second first secondInside firstInside later otherUntagged)

/-- Plans with distinct tags stand at one position when they share a tag. -/
theorem tag_position {plans : List NodePlan} (distinct : (plans.map (·.tag)).Nodup)
    {first second : Nat} {one other : NodePlan} (atFirst : plans[first]? = some one)
    (atSecond : plans[second]? = some other) (same : one.tag = other.tag) : first = second := by
  have inside : first < (plans.map (·.tag)).length := by
    simpa using (List.getElem?_eq_some_iff.mp atFirst).1
  apply (List.getElem?_inj inside distinct).mp
  rw [List.getElem?_map, List.getElem?_map, atFirst, atSecond, Option.map_some, Option.map_some,
    same]

section Positions

variable {env : NodeEnvironment} {wire : RuntimeConfigWire} {plans : List NodePlan}
variable (built : buildNodePlans env wire = .ok plans)

include built

/-- A node at a position has a plan there, under its name. -/
theorem plan_of_node (index : Nat) (node : NodeConfigWire)
    (here : wire.nodes[index]? = some node) :
    ∃ plan, plans[index]? = some plan ∧ plan.tag = planTag index node := by
  have same := plan_at env wire plans built index
  rw [here] at same
  exact Option.map_eq_some_iff.mp same

/-- A plan at a position has a node there, whose name it bears. -/
theorem node_of_plan (index : Nat) (plan : NodePlan) (here : plans[index]? = some plan) :
    ∃ node, wire.nodes[index]? = some node ∧ plan.tag = planTag index node := by
  have same := plan_at env wire plans built index
  rw [here] at same
  obtain ⟨node, found, named⟩ := Option.map_eq_some_iff.mp same.symm
  exact ⟨node, found, named.symm⟩

/-- Without a taken name the plans have distinct tags. -/
theorem plan_tags_distinct {tags : List String}
    (account : ConfiguredTags (wire.outbounds.map (·.tag)) wire.nodes tags)
    (free : ¬GeneratedTagTaken wire) : (plans.map (·.tag)).Nodup := by
  apply List.nodup_iff_getElem?_ne_getElem?.mpr
  intro first second earlier inside same
  rw [List.length_map] at inside
  obtain ⟨one, atFirst, firstNamed⟩ :=
    node_of_plan built first plans[first] (List.getElem?_eq_getElem (by omega))
  obtain ⟨other, atSecond, secondNamed⟩ :=
    node_of_plan built second plans[second] (List.getElem?_eq_getElem inside)
  have together := shared_tag_position account free first second one other atFirst atSecond
  simp only [List.getElem?_map, List.getElem?_eq_getElem inside,
    List.getElem?_eq_getElem (Nat.lt_trans earlier inside), Option.map_some,
    Option.some.injEq] at same
  rw [← firstNamed, ← secondNamed] at together
  exact absurd (together same) (Nat.ne_of_lt earlier)

/-- A name that was made and is taken breaks the uniqueness. -/
theorem taken_not_unique (taken : GeneratedTagTaken wire) : ¬TagsUnique wire plans := by
  intro unique
  obtain ⟨index, node, here, untagged, taken⟩ := taken
  obtain ⟨plan, planned, named⟩ := plan_of_node built index node here
  rw [planTag, if_pos untagged] at named
  rcases taken with ⟨outbound, member, same⟩ | ⟨other, member, same⟩
  · exact unique.apart plan (List.mem_of_getElem? planned) outbound member
      (named.trans same.symm)
  · obtain ⟨position, atPosition⟩ := List.getElem?_of_mem member
    have tagged : other.tag ≠ "" := same ▸ generated_tag_nonempty index
    obtain ⟨second, secondPlanned, secondNamed⟩ := plan_of_node built position other atPosition
    rw [planTag, if_neg tagged, same] at secondNamed
    have together := tag_position unique.distinct secondPlanned planned
      (secondNamed.trans named.symm)
    subst together
    exact tagged (Option.some.inj (atPosition.symm.trans here) ▸ untagged)

variable {tags : List String}
  (account : ConfiguredTags (wire.outbounds.map (·.tag)) wire.nodes tags)
  (free : ¬GeneratedTagTaken wire)

include account free

/-- Without a taken name no plan has the tag of an outbound. -/
theorem plan_tags_apart (plan : NodePlan) (member : plan ∈ plans) (outbound : OutboundSpecWire)
    (outboundMember : outbound ∈ wire.outbounds) : plan.tag ≠ outbound.tag := by
  intro same
  obtain ⟨index, planned⟩ := List.getElem?_of_mem member
  obtain ⟨node, here, named⟩ := node_of_plan built index plan planned
  rw [named, planTag] at same
  split_ifs at same with untagged
  · exact free ⟨index, node, here, untagged, .inl ⟨outbound, outboundMember, same.symm⟩⟩
  · exact account.apart node (List.mem_of_getElem? here) untagged
      (List.mem_map.mpr ⟨outbound, outboundMember, same.symm⟩)

/-- Without a taken name a plan that bears the tag of a node is the plan of that node. -/
theorem plan_of_tag (index : Nat) (plan : NodePlan) (planned : plans[index]? = some plan)
    (node : NodeConfigWire) (member : node ∈ wire.nodes) (same : node.tag = plan.tag) :
    wire.nodes[index]? = some node := by
  obtain ⟨other, here, named⟩ := node_of_plan built index plan planned
  obtain ⟨position, atPosition⟩ := List.getElem?_of_mem member
  have tagged : node.tag ≠ "" := by
    rw [same, named]
    exact plan_tag_nonempty index other
  have together : position = index := by
    apply shared_tag_position account free position index node other atPosition here
    rw [← named, planTag, if_neg tagged, same]
  subst together
  exact atPosition

end Positions

/-- Exactly when the tags of a running configuration are unique: no name made for an
untagged node is in use elsewhere. -/
theorem tags_unique_iff (env : NodeEnvironment) (wire : RuntimeConfigWire)
    (plans : List NodePlan) (accepted : validate wire = .ok ())
    (built : buildNodePlans env wire = .ok plans) :
    TagsUnique wire plans ↔ ¬GeneratedTagTaken wire := by
  obtain ⟨tags, account⟩ := validate_tags wire accepted
  constructor
  · exact fun unique taken => taken_not_unique built taken unique
  · intro free
    refine ⟨?_, ?_, ?_⟩
    · exact plan_tags_distinct built account free
    · exact plan_tags_apart built account free
    · intro Regex isMatch geo target sniffedHost entry index plan planned listed configured applies
      have member :=
        applies_inbound_tag isMatch geo target sniffedHost entry plan.tag listed applies
      obtain ⟨node, nodeMember, nodeTag⟩ := configured plan.tag member
      exact ⟨node, plan_of_tag built account free index plan planned node nodeMember nodeTag,
        nodeTag ▸ member⟩

section Examples

/-- A SOCKS node on a port. -/
def socksNode (tag : String) (port : UInt16) : NodeConfigWire :=
  ⟨"socks", tag, none, some port, none, none, false, false, false, false, false, none, none, none,
    none, none, none, []⟩

/-- The plan of such a node. -/
def socksPlan (tag : String) (port : UInt16) : NodePlan :=
  ⟨tag, .socks ⟨none, none⟩, [⟨.v4 (zeroOctets 4), port⟩], none, .none, false, false, true, none⟩

/-- A configuration of nodes alone. -/
def nodesOnly (nodes : List NodeConfigWire) : RuntimeConfigWire := ⟨[], nodes, [], none, none⟩

/-- A node with a tag and one without are told apart. -/
theorem tags_unique_example :
    TagsUnique (nodesOnly [socksNode "home" 1080, socksNode "" 1081])
      [socksPlan "home" 1080, socksPlan "in-1" 1081] :=
  (tags_unique_iff plainEnvironment.toNodeEnvironment
    (nodesOnly [socksNode "home" 1080, socksNode "" 1081])
    [socksPlan "home" 1080, socksPlan "in-1" 1081] rfl rfl).mpr (by
      rintro ⟨index, node, here, untagged, ⟨_, ⟨⟩, -⟩ | ⟨other, member, same⟩⟩
      rcases List.mem_pair.mp member with rfl | rfl
      · have characters := congrArg String.toList same
        simp [socksNode, generatedTag] at characters
      · exact generated_tag_nonempty index same.symm)

/-- The first node has no tag and the second has the name made for the first. -/
theorem generated_tag_repeated :
    validate (nodesOnly [socksNode "" 1080, socksNode "in-0" 1081]) = .ok () ∧
      buildNodePlans plainEnvironment.toNodeEnvironment
          (nodesOnly [socksNode "" 1080, socksNode "in-0" 1081]) =
        .ok [socksPlan "in-0" 1080, socksPlan "in-0" 1081] ∧
      ¬TagsUnique (nodesOnly [socksNode "" 1080, socksNode "in-0" 1081])
        [socksPlan "in-0" 1080, socksPlan "in-0" 1081] := by
  refine ⟨rfl, rfl, fun unique => ?_⟩
  have distinct := unique.distinct
  simp [socksPlan] at distinct

end Examples

end OmniProxy.NodeTags
