import OmniProxy.ByteStrings
import Mathlib.Data.Nat.ModEq
import Mathlib.Logic.Function.Iterate

/-!
# Counters stored as little-endian octets

Incrementing adds one to the first octet and carries into the next one exactly
when the sum wraps to zero. The stored value therefore advances by one modulo
256 to the width, and states reached by different numbers of increments below
that modulus are different. Overflow wraps silently; the distinctness law has
the bound that makes it irrelevant.

Nothing here refers to a particular program.
-/

namespace OmniProxy.CarryCounters

open ByteStrings

/-- Add one to the first octet and stop at the first sum that is not zero. -/
def increment : Bytes → Bytes
  | [] => []
  | octet :: rest => if octet + 1 ≠ 0 then (octet + 1) :: rest else (octet + 1) :: increment rest

/-- Incrementing a counter keeps its width. -/
@[simp] theorem increment_length (bytes : Bytes) : (increment bytes).length = bytes.length := by
  induction bytes with
  | nil => rfl
  | cons octet rest inductionHypothesis =>
    unfold increment
    split <;> simp [inductionHypothesis]

/-- One increment advances the stored value by one, modulo its width. Without a
carry the first digit grows; with one it wraps from 255 to 0 and the rest of the
digits advance by induction. -/
theorem increment_value (bytes : Bytes) :
    littleEndianValue (increment bytes) = (littleEndianValue bytes + 1) % 256 ^ bytes.length := by
  induction bytes with
  | nil => simp [increment, littleEndianValue]
  | cons octet rest inductionHypothesis =>
    have bound : littleEndianValue rest < 256 ^ rest.length := little_endian_value_bound rest
    have digit : octet.toNat < 256 := octet.toNat_lt
    have sum : (octet + 1).toNat = (octet.toNat + 1) % 256 := by simp
    by_cases carry : octet + 1 = 0
    · have last : octet.toNat = 255 := by
        have zero : (octet + 1).toNat = 0 := by rw [carry]; rfl
        omega
      have wrapped : increment (octet :: rest) = 0 :: increment rest := by simp [increment, carry]
      rw [wrapped, littleEndianValue, inductionHypothesis, littleEndianValue, List.length_cons,
        Nat.pow_succ, last, Nat.mul_comm (256 ^ rest.length) 256,
        show 255 + 256 * littleEndianValue rest + 1 = 256 * (littleEndianValue rest + 1) by omega,
        Nat.mul_mod_mul_left]
      simp
    · have small : octet.toNat + 1 < 256 := by
        by_contra large
        exact carry (UInt8.toNat_inj.mp (by rw [sum, UInt8.toNat_zero]; omega))
      have kept : increment (octet :: rest) = (octet + 1) :: rest := by simp [increment, carry]
      rw [kept, littleEndianValue, sum, Nat.mod_eq_of_lt small, littleEndianValue,
        List.length_cons, Nat.pow_succ, Nat.mod_eq_of_lt (by omega)]
      omega

/-- A run of increments advances the stored value by its length. -/
theorem increments_value (count : Nat) (bytes : Bytes) :
    littleEndianValue (increment^[count] bytes) =
      (littleEndianValue bytes + count) % 256 ^ bytes.length ∧
    (increment^[count] bytes).length = bytes.length := by
  induction count generalizing bytes with
  | zero =>
    exact ⟨(Nat.mod_eq_of_lt (little_endian_value_bound bytes)).symm, rfl⟩
  | succ count inductionHypothesis =>
    obtain ⟨value, length⟩ := inductionHypothesis (increment bytes)
    rw [Function.iterate_succ_apply, value, length, increment_length, increment_value,
      Nat.mod_add_mod]
    exact ⟨by rw [Nat.add_assoc, Nat.add_comm 1 count], rfl⟩

/-- Different numbers of increments below the modulus reach different states. -/
theorem increments_distinct (first second : Nat) (bytes : Bytes)
    (firstBound : first < 256 ^ bytes.length) (secondBound : second < 256 ^ bytes.length)
    (same : increment^[first] bytes = increment^[second] bytes) : first = second := by
  have values := congrArg littleEndianValue same
  rw [(increments_value first bytes).1, (increments_value second bytes).1] at values
  have congruent : first ≡ second [MOD 256 ^ bytes.length] := Nat.ModEq.add_left_cancel' _ values
  rwa [Nat.ModEq, Nat.mod_eq_of_lt firstBound, Nat.mod_eq_of_lt secondBound] at congruent

/-- The increment of a fixed-width counter. -/
def incrementOctets {width : Nat} (counter : Octets width) : Octets width :=
  ⟨increment counter.toList, by simp⟩

/-- Incrementing a counter of fixed width is incrementing its octets. -/
@[simp] theorem increment_octets_list {width : Nat} (counter : Octets width) :
    (incrementOctets counter).toList = increment counter.toList := rfl

/-- A run of increments of a fixed-width counter is the run on its octets. -/
theorem increment_octets_iterate {width : Nat} (count : Nat) (counter : Octets width) :
    (incrementOctets^[count] counter).toList = increment^[count] counter.toList := by
  induction count generalizing counter with
  | zero => rfl
  | succ count inductionHypothesis =>
    rw [Function.iterate_succ_apply, inductionHypothesis, Function.iterate_succ_apply,
      increment_octets_list]

/-- Fixed-width counters reached by different numbers of increments below the
modulus are different. -/
theorem increment_octets_distinct {width : Nat} (first second : Nat) (counter : Octets width)
    (firstBound : first < 256 ^ width) (secondBound : second < 256 ^ width)
    (same : incrementOctets^[first] counter = incrementOctets^[second] counter) :
    first = second := by
  have lists := congrArg List.Vector.toList same
  rw [increment_octets_iterate, increment_octets_iterate] at lists
  exact increments_distinct first second counter.toList (by simpa using firstBound)
    (by simpa using secondBound) lists

end OmniProxy.CarryCounters
