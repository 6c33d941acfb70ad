import OmniProxy.Routing

/-!
# The decision of the router

A connection is given to the first entry with criteria that matches it, or else to the
first entry without criteria, or else it is rejected: a router that was built has no
default tag. So two orders of the entries route alike when they agree on the entries with
criteria that match, and on the entries without criteria. How entries of the two kinds are
mixed has no influence.
-/

namespace OmniProxy.RouteDecisions

open Connections ProxyTargets RouteRules Routing

/-- The item at an index is the first of those in a list for which something holds. -/
structure FirstAt {Item : Type} (holds : Item → Prop) (items : List Item) (index : Nat)
    (item : Item) : Prop where
  there : items[index]? = some item
  own : holds item
  earlier : ∀ before < index, ∀ other, items[before]? = some other → ¬holds other

/-- The first item that passes the test is the one that the search returns. -/
theorem FirstAt.found {Item : Type} {test : Item → Bool} {items : List Item} {index : Nat}
    {item : Item} (first : FirstAt (test · = true) items index item) :
    items.find? test = some item := by
  obtain ⟨below, there⟩ := List.getElem?_eq_some_iff.mp first.there
  rw [List.find?_eq_some_iff_getElem]
  refine ⟨first.own, index, below, there, ?_⟩
  intro before less
  have unheld := first.earlier before less _ (List.getElem?_eq_getElem (less.trans below))
  simpa using unheld

section Router

variable {Regex : Type} (isMatch : Regex → String → Bool)

/-- The rule of an entry matches a connection: by the sniffed host or else the name of the
target, and by the address of a target that has one. -/
def Matches (geo : GeoLookup) (target : ProxyTarget) (sniffedHost : Option String)
    (inboundTag : String) (entry : RouteEntry Regex) : Prop :=
  entry.rule.matches isMatch (routedHost target sniffedHost) (routedIp target) target.port
    (some inboundTag) geo = true

/-- What the router is to decide about a connection. -/
structure Decides (router : Router Regex) (target : ProxyTarget) (sniffedHost : Option String)
    (inboundTag : String) (action : RouteAction) : Prop where
  conditional : ∀ index entry,
    FirstAt (fun entry : RouteEntry Regex => entry.rule.hasCriteria = true ∧
      Matches isMatch router.geo target sniffedHost inboundTag entry) router.entries index entry →
    action = router.entryAction entry
  unconditional :
    (∀ entry ∈ router.entries, entry.rule.hasCriteria = true →
      ¬Matches isMatch router.geo target sniffedHost inboundTag entry) →
    ∀ index entry, FirstAt (fun entry : RouteEntry Regex => entry.rule.hasCriteria = false)
      router.entries index entry →
    action = router.entryAction entry
  otherwise :
    (∀ entry ∈ router.entries, entry.rule.hasCriteria = true ∧
      ¬Matches isMatch router.geo target sniffedHost inboundTag entry) →
    action = .reject

variable (builder : RouterBuilder Regex) (geo : GeoLookup) (target : ProxyTarget)
  (sniffedHost : Option String) (inboundTag : String)

/-- An entry applies exactly when its rule has criteria and they match. -/
theorem applies_iff (entry : RouteEntry Regex) :
    entry.applies isMatch geo target sniffedHost inboundTag = true ↔
      entry.rule.hasCriteria = true ∧
        Matches isMatch geo target sniffedHost inboundTag entry := by
  rw [RouteEntry.applies, Bool.and_eq_true, Matches]

/-- A built router has nothing to fall back on. -/
theorem build_route :
    (builder.build geo).route isMatch target sniffedHost inboundTag =
      match builder.entries.find? (RouteEntry.applies isMatch geo target sniffedHost inboundTag)
      with
      | some entry => (builder.build geo).entryAction entry
      | none => match builder.entries.find? (!·.rule.hasCriteria) with
        | some entry => (builder.build geo).entryAction entry
        | none => .reject := rfl

/-- The decision of a builder's router when the entries are others. -/
def routeAmong (entries : List (RouteEntry Regex)) : RouteAction :=
  (({ builder with entries } : RouterBuilder Regex).build geo).route isMatch target sniffedHost
    inboundTag

/-- The first pass is decided by the entries with criteria alone, and the second one by the
others. -/
theorem route_of_passes (entries others : List (RouteEntry Regex))
    (conditional :
      (entries.filter (·.rule.hasCriteria)).find?
          (RouteEntry.applies isMatch geo target sniffedHost inboundTag) =
        (others.filter (·.rule.hasCriteria)).find?
          (RouteEntry.applies isMatch geo target sniffedHost inboundTag))
    (unconditional : entries.filter (!·.rule.hasCriteria) =
      others.filter (!·.rule.hasCriteria)) :
    routeAmong isMatch builder geo target sniffedHost inboundTag entries =
      routeAmong isMatch builder geo target sniffedHost inboundTag others := by
  have criteria (entries : List (RouteEntry Regex)) :
      (entries.filter (·.rule.hasCriteria)).find?
          (RouteEntry.applies isMatch geo target sniffedHost inboundTag) =
        entries.find? (RouteEntry.applies isMatch geo target sniffedHost inboundTag) := by
    rw [List.find?_filter]
    congr 1
    funext entry
    simp [RouteEntry.applies]
  rw [criteria, criteria] at conditional
  have first := congrArg List.head? unconditional
  rw [List.head?_filter, List.head?_filter] at first
  rw [routeAmong, routeAmong, build_route, build_route, conditional, first]
  rfl

/-- An entry without criteria may stand before or after entries with criteria. -/
theorem route_moved (before among after : List (RouteEntry Regex)) (entry : RouteEntry Regex)
    (moved : entry.rule.hasCriteria = false)
    (passed : ∀ other ∈ among, other.rule.hasCriteria = true) :
    routeAmong isMatch builder geo target sniffedHost inboundTag
        (before ++ entry :: (among ++ after)) =
      routeAmong isMatch builder geo target sniffedHost inboundTag
        (before ++ among ++ entry :: after) := by
  have empty : among.filter (!·.rule.hasCriteria) = [] := by
    simpa [List.filter_eq_nil_iff] using passed
  apply route_of_passes
  · simp [moved]
  · simp [moved, empty]

/-- An entry with criteria that are not met may stand anywhere. -/
theorem route_inserted (before after : List (RouteEntry Regex)) (entry : RouteEntry Regex)
    (conditional : entry.rule.hasCriteria = true)
    (unmatched : ¬Matches isMatch geo target sniffedHost inboundTag entry) :
    routeAmong isMatch builder geo target sniffedHost inboundTag (before ++ entry :: after) =
      routeAmong isMatch builder geo target sniffedHost inboundTag (before ++ after) := by
  have unmet : ¬entry.applies isMatch geo target sniffedHost inboundTag = true := by
    rw [applies_iff]
    exact fun applies => unmatched applies.2
  apply route_of_passes
  · simp [conditional, List.find?_append, List.find?_cons_of_neg unmet]
  · simp [conditional]

/-- The router that was built decides as its rules say, the first one first. -/
theorem built_decides :
    Decides isMatch (builder.build geo) target sniffedHost inboundTag
      ((builder.build geo).route isMatch target sniffedHost inboundTag) where
  conditional index entry first := by
    have found : builder.entries.find?
        (RouteEntry.applies isMatch geo target sniffedHost inboundTag) = some entry := by
      refine FirstAt.found ⟨first.there, ?_, ?_⟩
      · exact (applies_iff ..).mpr first.own
      · intro before less other there
        rw [applies_iff]
        exact first.earlier before less other there
    rw [build_route, found]
  unconditional unmatched index entry first := by
    have missed : builder.entries.find?
        (RouteEntry.applies isMatch geo target sniffedHost inboundTag) = none := by
      refine List.find?_eq_none.mpr fun other member applies => ?_
      obtain ⟨conditional, matched⟩ := (applies_iff ..).mp applies
      exact unmatched other member conditional matched
    have found : builder.entries.find? (!·.rule.hasCriteria) = some entry := by
      refine FirstAt.found ⟨first.there, ?_, ?_⟩
      · simp [first.own]
      · intro before less other there
        simpa using first.earlier before less other there
    rw [build_route, missed, found]
  otherwise unmatched := by
    have missed : builder.entries.find?
        (RouteEntry.applies isMatch geo target sniffedHost inboundTag) = none := by
      refine List.find?_eq_none.mpr fun other member applies => ?_
      exact (unmatched other member).2 ((applies_iff ..).mp applies).2
    have absent : builder.entries.find? (!·.rule.hasCriteria) = none := by
      refine List.find?_eq_none.mpr fun other member unconditional => ?_
      simp [(unmatched other member).1] at unconditional
    rw [build_route, missed, absent]

/-- A router that was built gives a connection to the first entry with criteria that
matches it, else to the first entry without criteria, else it rejects it. So an entry
without criteria can be moved past entries with criteria, and an entry with criteria that
are not met can be added anywhere, without the decision changing. -/
theorem route_decision :
    Decides isMatch (builder.build geo) target sniffedHost inboundTag
        ((builder.build geo).route isMatch target sniffedHost inboundTag) ∧
      (∀ (before among after : List (RouteEntry Regex)) (entry : RouteEntry Regex),
        entry.rule.hasCriteria = false →
        (∀ other ∈ among, other.rule.hasCriteria = true) →
        routeAmong isMatch builder geo target sniffedHost inboundTag
            (before ++ entry :: (among ++ after)) =
          routeAmong isMatch builder geo target sniffedHost inboundTag
            (before ++ among ++ entry :: after)) ∧
      (∀ (before after : List (RouteEntry Regex)) (entry : RouteEntry Regex),
        entry.rule.hasCriteria = true →
        ¬Matches isMatch geo target sniffedHost inboundTag entry →
        routeAmong isMatch builder geo target sniffedHost inboundTag (before ++ entry :: after) =
          routeAmong isMatch builder geo target sniffedHost inboundTag (before ++ after)) :=
  ⟨built_decides isMatch builder geo target sniffedHost inboundTag,
    route_moved isMatch builder geo target sniffedHost inboundTag,
    route_inserted isMatch builder geo target sniffedHost inboundTag⟩

end Router

end OmniProxy.RouteDecisions
