import OmniProxy.TcpRoutes

/-!
# The traffic counters

A proxied connection delivers octets in both directions, and the counters are to grow
by their numbers. They are only added to when copying comes to an end without an error,
and then by what the copying has delivered; what was read before and written ahead of it
is not part of that.
-/

namespace OmniProxy.TrafficCounters

open ByteStrings Connections Outbounds ProxyTargets Routing Sniffing TcpRoutes

/-- Writing and copying as documented, with the copying counted: it delivers octets to
both sides and, when it ends without an error, returns their numbers. -/
structure Metered (net : Network) : Prop extends net.Documented where
  meters : ∀ client remote, ∃ up down,
    (net.copyBidirectional client remote).2.1.written = client.written ++ down ∧
    (net.copyBidirectional client remote).2.2.written = remote.written ++ up ∧
    ∀ counts, (net.copyBidirectional client remote).1 = .ok counts →
      counts = (UInt64.ofNat up.length, UInt64.ofNat down.length)

/-- The octets that were delivered to the remote side. -/
def deliveredUp (executed : Executed) : Nat :=
  (executed.remote.map (·.written.length)).getD 0

/-- The octets that were delivered to a client. -/
def deliveredDown (client : Stream) (executed : Executed) : Nat :=
  executed.client.written.length - client.written.length

/-- The counters grew by what was delivered. -/
structure Exact (before : Counters) (client : Stream) (executed : Executed) : Prop where
  up : executed.counters.bytesUp = before.bytesUp + UInt64.ofNat (deliveredUp executed)
  down : executed.counters.bytesDown =
    before.bytesDown + UInt64.ofNat (deliveredDown client executed)

/-- A number that counters of 64 bits do not notice: above all none. -/
def Unnoticed (count : Nat) : Prop := 2 ^ 64 ∣ count

/-- What copying leaves out of the counters is nothing: what was written ahead of it, and
when it fails also what it has delivered. -/
def CopyingCounted (net : Network) (client remote : Stream) : Prop :=
  match net.copyBidirectional client remote with
  | (.ok _, _, _) => Unnoticed remote.written.length
  | (.error _, after, remote) =>
      Unnoticed remote.written.length ∧
        Unnoticed (after.written.length - client.written.length)

/-- Nothing of a connection is left out of the counters. -/
def AllCounted (net : Network) (client : Stream) (incoming : List Arrival) (preRead : Bytes) :
    Prop :=
  if preRead.isEmpty then CopyingCounted net client ⟨incoming, []⟩
  else
    match net.writeAll ⟨incoming, []⟩ preRead with
    | (.ok _, remote) => CopyingCounted net client remote
    | (.error _, remote) => Unnoticed remote.written.length

/-- Adding an unnoticed number is adding nothing. -/
theorem add_unnoticed_iff (total : UInt64) (count : Nat) :
    total = total + UInt64.ofNat count ↔ Unnoticed count := by
  have zero : UInt64.ofNat count = 0 ↔ Unnoticed count := by
    rw [← UInt64.toNat_inj, UInt64.toNat_ofNat', Unnoticed, Nat.dvd_iff_mod_eq_zero]
    rfl
  rw [← zero, UInt64.left_eq_add]

/-- A counter that grew by a part is exact exactly when the rest is unnoticed. -/
theorem part_counted_iff (total : UInt64) (ahead counted : Nat) :
    total + UInt64.ofNat counted = total + UInt64.ofNat (ahead + counted) ↔ Unnoticed ahead := by
  rw [← add_unnoticed_iff (total + UInt64.ofNat counted) ahead, Nat.add_comm ahead,
    UInt64.ofNat_add, ← UInt64.add_assoc]

/-- The counters after copying are exact exactly when nothing was left out. -/
theorem joined_exact_iff {net : Network} (metered : Metered net) (counters : Counters)
    (client remote : Stream) :
    Exact counters client (joinStreams net counters client remote) ↔
      CopyingCounted net client remote := by
  obtain ⟨up, down, toClient, toRemote, counted⟩ := metered.meters client remote
  rcases copied : net.copyBidirectional client remote with ⟨error | counts, client', remote'⟩
  · have executed : joinStreams net counters client remote =
        ⟨.error error, client', some remote', counters⟩ := by
      rw [joinStreams, copied]
    rw [executed, CopyingCounted, copied]
    constructor
    · rintro ⟨up, down⟩
      exact ⟨(add_unnoticed_iff _ _).mp up, (add_unnoticed_iff _ _).mp down⟩
    · rintro ⟨up, down⟩
      exact ⟨(add_unnoticed_iff _ _).mpr up, (add_unnoticed_iff _ _).mpr down⟩
  · simp only [copied] at toClient toRemote counted
    obtain rfl := counted counts rfl
    have executed : joinStreams net counters client remote =
        ⟨.ok (), client', some remote', (counters.addUp (UInt64.ofNat up.length)).addDown
          (UInt64.ofNat down.length)⟩ := by
      rw [joinStreams, copied]
    have sent (result : Except IoError Unit) (after : Counters) :
        deliveredUp ⟨result, client', some remote', after⟩ =
          remote.written.length + up.length := by
      simp [deliveredUp, toRemote]
    have received (result : Except IoError Unit) (after : Counters) :
        deliveredDown client ⟨result, client', some remote', after⟩ = down.length := by
      simp [deliveredDown, toClient]
    rw [executed, CopyingCounted, copied]
    constructor
    · rintro ⟨exactUp, -⟩
      rw [sent] at exactUp
      exact (part_counted_iff _ _ _).mp exactUp
    · intro unnoticed
      refine ⟨?_, ?_⟩
      · rw [sent]
        exact (part_counted_iff counters.bytesUp _ _).mpr unnoticed
      · rw [received]
        rfl

/-- Exactly when the counters grow by what a proxied connection delivers: when nothing was
written to the remote side ahead of the copying and nothing was delivered by a copying or
a writing that failed. -/
theorem counters_exact_iff {net : Network} (metered : Metered net) (counters : Counters)
    (connector : OutboundConnector) (client : Stream) (target : ProxyTarget) (preRead : Bytes) :
    Exact counters client
        (executeTcp net counters (.proxy connector) client target preRead) ↔
      ∀ incoming, net.connectTcp connector target = .ok incoming →
        AllCounted net client incoming preRead := by
  cases connected : net.connectTcp connector target with
  | error error =>
    have executed : executeTcp net counters (.proxy connector) client target preRead =
        ⟨.error error, client, none, counters⟩ := by
      simp only [executeTcp, connected]
    rw [executed]
    refine iff_of_true ⟨?_, ?_⟩ (by simp)
    · simp [deliveredUp]
    · simp [deliveredDown]
  | ok incoming =>
    have only : (∀ other, (Except.ok incoming : Except IoError _) = .ok other →
        AllCounted net client other preRead) ↔ AllCounted net client incoming preRead := by
      simp
    rw [only, AllCounted]
    simp only [executeTcp, connected]
    split
    · exact joined_exact_iff metered counters client ⟨incoming, []⟩
    · rcases wrote : net.writeAll ⟨incoming, []⟩ preRead with ⟨error | _, remote⟩
      · constructor
        · rintro ⟨up, -⟩
          exact (add_unnoticed_iff _ _).mp up
        · intro unnoticed
          refine ⟨(add_unnoticed_iff _ _).mpr unnoticed, ?_⟩
          simp [deliveredDown]
      · exact joined_exact_iff metered counters client remote

section Examples

/-- The network in which everything arrives counts what it copies. -/
theorem ideal_metered : Metered idealNetwork where
  toDocumented := ideal_documented
  meters client remote := by
    refine ⟨_, _, rfl, rfl, fun counts counted => ?_⟩
    simpa [idealNetwork] using counted.symm

/-- Without octets that were read before, the three that are copied are counted. -/
theorem counters_exact_example :
    Exact ⟨5, 0⟩ ⟨[.octets ⟨[1, 2, 3], by decide⟩], []⟩
      (executeTcp idealNetwork ⟨5, 0⟩ (.proxy .direct) ⟨[.octets ⟨[1, 2, 3], by decide⟩], []⟩
        (.domain "a" 80) []) :=
  (counters_exact_iff ideal_metered ⟨5, 0⟩ .direct ⟨[.octets ⟨[1, 2, 3], by decide⟩], []⟩
    (.domain "a" 80) []).mpr fun incoming _ => ⟨0, rfl⟩

/-- Two octets are read by the inspector and one is copied: three reach the remote side
and the counter grows by one. -/
theorem sniffed_octets_uncounted :
    (executeTcp idealNetwork ⟨0, 0⟩ (.proxy .direct) ⟨[.octets ⟨[3], by decide⟩], []⟩
        (.domain "a" 80) [1, 2]).remote.map (·.written) = some [1, 2, 3] ∧
      (executeTcp idealNetwork ⟨0, 0⟩ (.proxy .direct) ⟨[.octets ⟨[3], by decide⟩], []⟩
        (.domain "a" 80) [1, 2]).counters.bytesUp = 1 ∧
      ¬Exact ⟨0, 0⟩ ⟨[.octets ⟨[3], by decide⟩], []⟩
        (executeTcp idealNetwork ⟨0, 0⟩ (.proxy .direct) ⟨[.octets ⟨[3], by decide⟩], []⟩
          (.domain "a" 80) [1, 2]) := by
  refine ⟨rfl, rfl, fun counted => ?_⟩
  exact absurd counted.up (by decide)

end Examples

end OmniProxy.TrafficCounters
