import Mathlib.Data.List.Perm.Basic

/-!
# Nets that carry datagrams

One direction of a net without order: everything that was sent is on its way until it
arrives or is lost, and any datagram on its way may be the next. Nothing arrives twice, and
what matters to a reader among the sent datagrams is found among those that arrived, were
lost or are on their way.

Nothing here refers to a particular program.
-/

namespace OmniProxy.DatagramNets

open scoped List

variable {Datagram Item : Type}

/-- A direction of a net, with the histories of what was sent, has arrived and was lost. -/
structure Net (Datagram : Type) where
  sent : List Datagram
  flying : List Datagram
  arrived : List Datagram
  lost : List Datagram

def Net.start : Net Datagram := ⟨[], [], [], []⟩

def Net.send (net : Net Datagram) (datagrams : List Datagram) : Net Datagram :=
  { net with sent := net.sent ++ datagrams, flying := net.flying ++ datagrams }

def Net.arrive (net : Net Datagram) (index : Nat) : Net Datagram :=
  { net with
    flying := net.flying.eraseIdx index
    arrived := net.arrived ++ net.flying[index]?.toList }

def Net.lose (net : Net Datagram) (index : Nat) : Net Datagram :=
  { net with
    flying := net.flying.eraseIdx index
    lost := net.lost ++ net.flying[index]?.toList }

/-- What is sent is noted behind what was sent before. -/
@[simp] theorem send_sent (net : Net Datagram) (datagrams : List Datagram) :
    (net.send datagrams).sent = net.sent ++ datagrams := rfl

/-- Sending is not arriving. -/
@[simp] theorem send_arrived (net : Net Datagram) (datagrams : List Datagram) :
    (net.send datagrams).arrived = net.arrived := rfl

/-- An arrival does not change what was sent. -/
@[simp] theorem arrive_sent (net : Net Datagram) (index : Nat) :
    (net.arrive index).sent = net.sent := rfl

/-- A loss does not change what was sent. -/
@[simp] theorem lose_sent (net : Net Datagram) (index : Nat) :
    (net.lose index).sent = net.sent := rfl

/-- A loss does not change what has arrived. -/
@[simp] theorem lose_arrived (net : Net Datagram) (index : Nat) :
    (net.lose index).arrived = net.arrived := rfl

/-- Nothing is added to what was sent, and nothing disappears. -/
def Net.Balanced (net : Net Datagram) : Prop :=
  net.sent.Perm (net.arrived ++ (net.lost ++ net.flying))

/-- Before anything is sent the net is balanced. -/
theorem start_balanced : (Net.start : Net Datagram).Balanced := List.Perm.refl _

/-- Sending keeps the net balanced: what is sent is on its way. -/
theorem send_balanced {net : Net Datagram} (balanced : net.Balanced) (datagrams : List Datagram) :
    (net.send datagrams).Balanced := by
  have more := balanced.append_right datagrams
  rwa [List.append_assoc, List.append_assoc] at more

/-- A datagram that is taken out of those on their way, if there is one at the place. -/
theorem taken_out (flying : List Datagram) (index : Nat) :
    flying.Perm (flying[index]?.toList ++ flying.eraseIdx index) := by
  by_cases inside : index < flying.length
  · rw [List.getElem?_eq_getElem inside]
    exact (List.getElem_cons_eraseIdx_perm inside).symm
  · rw [List.getElem?_eq_none (Nat.not_lt.mp inside),
      List.eraseIdx_of_length_le (Nat.not_lt.mp inside)]
    exact List.Perm.refl _

/-- An arrival keeps the net balanced: what was on its way has arrived. -/
theorem arrive_balanced {net : Net Datagram} (balanced : net.Balanced) (index : Nat) :
    (net.arrive index).Balanced := by
  have taken := taken_out net.flying index
  calc net.sent
    _ ~ net.arrived ++ (net.lost ++ net.flying) := balanced
    _ ~ net.arrived ++ (net.lost ++ (net.flying[index]?.toList ++ net.flying.eraseIdx index)) :=
        (taken.append_left _).append_left _
    _ ~ net.arrived ++ (net.flying[index]?.toList ++ (net.lost ++ net.flying.eraseIdx index)) := by
        apply List.Perm.append_left
        rw [← List.append_assoc, ← List.append_assoc]
        exact List.perm_append_comm.append_right _
    _ = (net.arrive index).arrived ++ ((net.arrive index).lost ++ (net.arrive index).flying) := by
        rw [← List.append_assoc]
        rfl

/-- A loss keeps the net balanced: what was on its way is lost. -/
theorem lose_balanced {net : Net Datagram} (balanced : net.Balanced) (index : Nat) :
    (net.lose index).Balanced := by
  have taken := taken_out net.flying index
  calc net.sent
    _ ~ net.arrived ++ (net.lost ++ net.flying) := balanced
    _ ~ net.arrived ++ (net.lost ++ (net.flying[index]?.toList ++ net.flying.eraseIdx index)) :=
        (taken.append_left _).append_left _
    _ = (net.lose index).arrived ++ ((net.lose index).lost ++ (net.lose index).flying) := by
        rw [← List.append_assoc net.lost]
        rfl

/-- What the sent datagrams mean is what those mean that have arrived, were lost or are on
their way. -/
theorem meaning_balanced {net : Net Datagram} (balanced : net.Balanced)
    (meaning : Datagram → Option Item) :
    (net.sent.filterMap meaning).Perm (net.arrived.filterMap meaning ++
      (net.lost ++ net.flying).filterMap meaning) := by
  rw [← List.filterMap_append]
  exact balanced.filterMap meaning

end OmniProxy.DatagramNets
