import OmniProxy.Routing
import OmniProxy.Sniffing

/-!
# Proxied TCP connections

A connection is inspected, routed by the host that was found, and then carried out: dropped,
answered with a fixed response, or joined with a connection to the target. What was read
before, by the protocol of the inbound and by the inspector, is written to the target first,
and then both directions are copied.

Dialling, writing and copying come from outside. Writing writes octets in order and all of
them if it succeeds, and copying does so with what a stream still has.
-/

namespace OmniProxy.TcpRoutes

open ByteStrings Connections CheckedLoops Outbounds ProxyTargets RouteRules Routing Sniffing

section Execution

/-- A stream: what is still to come from its other side, and what was written to it. -/
structure Stream where
  arrivals : List Arrival
  written : Bytes

/-- What the execution of a connection takes from outside. A new connection has the arrivals
of its other side. -/
structure Network where
  connectTcp : OutboundConnector → ProxyTarget → Except IoError (List Arrival)
  writeAll : Stream → Bytes → Except IoError Unit × Stream
  shutdown : Stream → Except IoError Unit × Stream
  copyBidirectional : Stream → Stream → Except IoError (UInt64 × UInt64) × Stream × Stream

/-- Writing and copying as documented. -/
structure Network.Documented (net : Network) : Prop where
  writes : ∀ stream bytes, ∃ done, done <+: bytes ∧
    (net.writeAll stream bytes).2.written = stream.written ++ done ∧
    ((net.writeAll stream bytes).1 = .ok () → done = bytes)
  copies : ∀ client remote, ∃ done, done <+: arriving client.arrivals ∧
    (net.copyBidirectional client remote).2.2.written = remote.written ++ done ∧
    ∀ counts, (net.copyBidirectional client remote).1 = .ok counts →
      done = arriving client.arrivals

structure Counters where
  bytesUp : UInt64
  bytesDown : UInt64

def Counters.addUp (counters : Counters) (n : UInt64) : Counters :=
  { counters with bytesUp := counters.bytesUp + n }

def Counters.addDown (counters : Counters) (n : UInt64) : Counters :=
  { counters with bytesDown := counters.bytesDown + n }

/-- A connection that was carried out: its result, its streams and the counters. There is a
remote stream if it was proxied and the target reached. -/
structure Executed where
  result : Except IoError Unit
  client : Stream
  remote : Option Stream
  counters : Counters

/-- Join a client with the target it was connected to. -/
def joinStreams (net : Network) (counters : Counters) (client remote : Stream) : Executed :=
  match net.copyBidirectional client remote with
  | (.error error, client, remote) => ⟨.error error, client, some remote, counters⟩
  | (.ok (up, down), client, remote) =>
      ⟨.ok (), client, some remote, (counters.addUp up).addDown down⟩

def executeTcp (net : Network) (counters : Counters) (action : RouteAction) (client : Stream)
    (target : ProxyTarget) (preRead : Bytes) : Executed :=
  match action with
  | .reject => ⟨.ok (), client, none, counters⟩
  | .hijack response =>
      match net.writeAll client response with
      | (.error error, client) => ⟨.error error, client, none, counters⟩
      | (.ok _, client) =>
          let (result, client) := net.shutdown client
          ⟨result, client, none, counters⟩
  | .proxy connector =>
      match net.connectTcp connector target with
      | .error error => ⟨.error error, client, none, counters⟩
      | .ok arrivals =>
          if preRead.isEmpty then joinStreams net counters client ⟨arrivals, []⟩
          else
            match net.writeAll ⟨arrivals, []⟩ preRead with
            | (.error error, remote) => ⟨.error error, client, some remote, counters⟩
            | (.ok _, remote) => joinStreams net counters client remote

/-- What the connections of an inbound share. -/
structure PipelineShared (Regex : Type) where
  inboundTag : String
  counters : Counters
  router : Router Regex

section Routes

variable {Regex : Type} (isMatch : Regex → String → Bool) (net : Network)

def resolveAction (shared : PipelineShared Regex) (target : ProxyTarget)
    (sniffedHost : Option String) : RouteAction :=
  shared.router.route isMatch target sniffedHost shared.inboundTag

def domainOf : ProxyTarget → Option String
  | .domain host _ => some host
  | .tcp _ => none

/-- The action for a connection after its inspection. -/
def actionFor (shared : PipelineShared Regex) (target : ProxyTarget) (sniffed : SniffOutcome) :
    RouteAction :=
  resolveAction isMatch shared target (sniffed.host.or (domainOf target))

/-- Inspect, route and carry out a connection. -/
def runTcpRoute (shared : PipelineShared Regex) (client : Stream) (target : ProxyTarget)
    (preRead : Bytes) : Checked Executed := do
  let (sniffed, arrivals) ← inspectStream client.arrivals
  let action := actionFor isMatch shared target sniffed
  return executeTcp net shared.counters action { client with arrivals } target
    (preRead ++ sniffed.consumed)

end Routes

end Execution

section Delivery

variable {net : Network}

/-- The stream to the target takes what was read before, if there is anything. -/
inductive Forwarded (net : Network) (remote : Stream) (preRead : Bytes) : Stream → Prop where
  | nothing (empty : preRead = []) : Forwarded net remote preRead remote
  | all {after : Stream} (full : preRead ≠ [])
      (wrote : net.writeAll remote preRead = (.ok (), after)) : Forwarded net remote preRead after

/-- The network gives up on a proxied connection: writing what was read before fails, or the
copying after it. The connection fails with that error, and has the stream that was left. -/
inductive GivenUp (net : Network) (client remote : Stream) (preRead : Bytes) :
    IoError → Stream → Prop where
  | writing {error : IoError} {after : Stream} (full : preRead ≠ [])
      (failed : net.writeAll remote preRead = (.error error, after)) :
      GivenUp net client remote preRead error after
  | copying {error : IoError} {begun left after : Stream}
      (forwarded : Forwarded net remote preRead begun)
      (failed : net.copyBidirectional client begun = (.error error, left, after)) :
      GivenUp net client remote preRead error after

/-- A proxied connection carries octets to its target: it succeeds and all were written, or it
fails because the network gives up, and those in front of the error were written. -/
def Carries (net : Network) (client : Stream) (incoming : List Arrival) (preRead : Bytes)
    (executed : Executed) : Prop :=
  ∃ remote, executed.remote = some remote ∧
    (executed.result = .ok () ∧ remote.written = preRead ++ arriving client.arrivals ∨
      ∃ error, executed.result = .error error ∧
        GivenUp net client ⟨incoming, []⟩ preRead error remote ∧
        remote.written <+: preRead ++ arriving client.arrivals)

/-- Joining a client with a target that has taken what was read before carries the rest. -/
theorem join_carries (documented : net.Documented) (counters : Counters) {client begun : Stream}
    {incoming : List Arrival} {preRead : Bytes}
    (forwarded : Forwarded net ⟨incoming, []⟩ preRead begun) (written : begun.written = preRead) :
    Carries net client incoming preRead (joinStreams net counters client begun) := by
  obtain ⟨done, front, copied, complete⟩ := documented.copies client begun
  rw [written] at copied
  unfold joinStreams
  rcases copying : net.copyBidirectional client begun with ⟨error | ⟨up, down⟩, left, after⟩
  · rw [copying] at copied
    refine ⟨after, rfl, .inr ⟨error, rfl, .copying forwarded copying, ?_⟩⟩
    rw [copied]
    exact (List.prefix_append_right_inj preRead).mpr front
  · rw [copying] at copied complete
    refine ⟨after, rfl, .inl ⟨rfl, ?_⟩⟩
    rw [copied, complete _ rfl]

/-- A proxied connection whose target is reached carries what was read before and then what
the client still has. -/
theorem proxy_carries (documented : net.Documented) (counters : Counters)
    (connector : OutboundConnector) (client : Stream) (target : ProxyTarget) (preRead : Bytes)
    {incoming : List Arrival} (connected : net.connectTcp connector target = .ok incoming) :
    Carries net client incoming preRead
      (executeTcp net counters (.proxy connector) client target preRead) := by
  simp only [executeTcp, connected]
  split
  · next empty =>
    have none_read := List.isEmpty_iff.mp empty
    exact join_carries documented counters (.nothing none_read) none_read.symm
  · next some_read =>
    have full : preRead ≠ [] := fun empty => some_read (List.isEmpty_iff.mpr empty)
    obtain ⟨early, front, written, whole⟩ := documented.writes ⟨incoming, []⟩ preRead
    rcases wrote : net.writeAll ⟨incoming, []⟩ preRead with ⟨error | _, remote⟩
    · rw [wrote] at written
      refine ⟨remote, rfl, .inr ⟨error, rfl, .writing full wrote, ?_⟩⟩
      rw [show remote.written = early from written]
      exact front.trans (List.prefix_append ..)
    · rw [wrote] at written whole
      obtain rfl := whole rfl
      exact join_carries documented counters (.all full wrote) written

/-- Sniffing loses no octet. The target gets what the inbound had read and then the octets of
the client from the first one that was unread, in order: all of them and the connection
succeeds, or the network gives up and those in front of its error. -/
theorem sniffing_loses_nothing {Regex : Type} (isMatch : Regex → String → Bool)
    (documented : net.Documented) (shared : PipelineShared Regex) (client : Stream)
    (target : ProxyTarget) (preRead : Bytes) (sniffed : SniffOutcome) (rest : List Arrival)
    (inspected : inspectStream client.arrivals = .ok (sniffed, rest))
    (connector : OutboundConnector)
    (proxied : actionFor isMatch shared target sniffed = .proxy connector)
    (incoming : List Arrival) (connected : net.connectTcp connector target = .ok incoming) :
    ∃ executed remote, runTcpRoute isMatch net shared client target preRead = .ok executed ∧
      executed.remote = some remote ∧
      (executed.result = .ok () ∧ remote.written = preRead ++ arriving client.arrivals ∨
        ∃ error, executed.result = .error error ∧
          GivenUp net { client with arrivals := rest } ⟨incoming, []⟩
            (preRead ++ sniffed.consumed) error remote ∧
          remote.written <+: preRead ++ arriving client.arrivals) := by
  obtain ⟨remote, there, carried⟩ :=
    proxy_carries documented shared.counters connector { client with arrivals := rest } target
      (preRead ++ sniffed.consumed) connected
  have kept : preRead ++ sniffed.consumed ++ arriving rest =
      preRead ++ arriving client.arrivals := by
    rw [List.append_assoc, inspect_from_keeps inspected]
    rfl
  rw [kept] at carried
  refine ⟨_, remote, ?_, there, carried⟩
  rw [runTcpRoute, inspected]
  simp only [bind, Except.bind, proxied]
  rfl

/-- A network in which everything arrives. -/
def idealNetwork : Network where
  connectTcp _ _ := .ok []
  writeAll stream bytes := (.ok (), { stream with written := stream.written ++ bytes })
  shutdown stream := (.ok (), stream)
  copyBidirectional client remote :=
    (.ok (UInt64.ofNat (arriving client.arrivals).length,
        UInt64.ofNat (arriving remote.arrivals).length),
      ⟨[], client.written ++ arriving remote.arrivals⟩,
      ⟨[], remote.written ++ arriving client.arrivals⟩)

/-- The sample network behaves as documented. -/
theorem ideal_documented : idealNetwork.Documented where
  writes _ bytes := ⟨bytes, List.prefix_refl bytes, rfl, fun _ => rfl⟩
  copies client _ := ⟨_, List.prefix_refl (arriving client.arrivals), rfl, fun _ _ => rfl⟩

/-- The ideal network never gives up. -/
theorem ideal_goes_on {client remote after : Stream} {preRead : Bytes} {error : IoError} :
    ¬GivenUp idealNetwork client remote preRead error after := by
  rintro (⟨-, failed⟩ | ⟨-, failed⟩) <;> simp [idealNetwork] at failed

/-- A router that connects everything itself. -/
def directShared : PipelineShared String where
  inboundTag := "in"
  counters := ⟨0, 0⟩
  router := ⟨[], AList.insert "direct" .direct ∅, some "direct", fun _ _ => false, fun _ _ => false⟩

/-- The inspector reads two octets, nothing comes in time, and one more octet is copied. -/
theorem sniffing_loses_nothing_example :
    ∃ executed remote,
      runTcpRoute literalRegex.isMatch idealNetwork directShared
        ⟨[.octets ⟨[1, 2], by decide⟩, .quiet, .octets ⟨[3], by decide⟩], []⟩ (.domain "a" 80)
        [0] = .ok executed ∧ executed.remote = some remote ∧
      executed.result = .ok () ∧ remote.written = [0, 1, 2, 3] := by
  obtain ⟨executed, remote, ran, there, ⟨done, written⟩ | ⟨error, -, stopped, -⟩⟩ :=
    sniffing_loses_nothing literalRegex.isMatch ideal_documented directShared
      ⟨[.octets ⟨[1, 2], by decide⟩, .quiet, .octets ⟨[3], by decide⟩], []⟩ (.domain "a" 80) [0]
      ⟨none, "unknown", [1, 2]⟩ [.octets ⟨[3], by decide⟩] (by rfl) .direct (by rfl) [] rfl
  · exact ⟨executed, remote, ran, there, done, written⟩
  · exact absurd stopped ideal_goes_on

end Delivery

end OmniProxy.TcpRoutes
