import OmniProxy.VmessHeaderOpening

/-!
# The arithmetic of the time window

Both readers of a header subtract the timestamp of the peer from the clock and take the
absolute value, in signed integers of 64 bits. A build that checks its arithmetic stops at
an overflow, and any other wraps around. The peer chooses the timestamp, so it can choose
one so early that the difference does not fit: a checked build stops at each of these, and
a wrapping build refuses them all but one, whose distance comes out as the least integer.
-/

namespace OmniProxy.VmessWindow

open ByteStrings CryptoPrimitives VmessCommand VmessHeader VmessHandshake VmessHeaderOpening

inductive Build where
  | checked
  | wrapping
deriving DecidableEq, Repr

/-- Subtraction; nothing is returned where the program stops. -/
def Build.sub : Build → Int64 → Int64 → Option Int64
  | checked, a, b =>
      if Int64.minValue.toInt ≤ a.toInt - b.toInt ∧ a.toInt - b.toInt ≤ Int64.maxValue.toInt then
        some (a - b)
      else none
  | wrapping, a, b => some (a - b)

/-- The absolute value. -/
def Build.abs : Build → Int64 → Option Int64
  | checked, a => if a = Int64.minValue then none else some a.abs
  | wrapping, a => some a.abs

/-- The check of the handshake: `(now - ts).abs() <= 120` accepts. -/
def handshakeAccepts (build : Build) (now ts : Int64) : Option Bool := do
  let difference ← build.sub now ts
  let distance ← build.abs difference
  return decide (distance ≤ 120)

/-- The check of the other reader: `(ts_now - ts).abs() > 120` refuses. -/
def openAccepts (build : Build) (tsNow ts : Int64) : Option Bool := do
  let difference ← build.sub tsNow ts
  let distance ← build.abs difference
  return !decide (120 < distance)

/-- A timestamp is at most 120 seconds from the clock. -/
def close (now ts : Int64) : Bool := decide ((now.toInt - ts.toInt).natAbs ≤ 120)

/-- In every build both checks accept exactly the timestamps that are close. -/
def ChecksExact (now ts : Int64) : Prop :=
  ∀ build, handshakeAccepts build now ts = some (close now ts) ∧
    openAccepts build now ts = some (close now ts)

/-- The check that refuses what is farther away accepts what the other check does. -/
theorem open_accepts_eq (build : Build) (now ts : Int64) :
    openAccepts build now ts = handshakeAccepts build now ts := by
  simp only [openAccepts, handshakeAccepts, ← decide_not, Int64.not_lt]

/-- A wrapping build decides as the model of the handshake does. -/
theorem wrapping_accepts (now ts : Int64) :
    handshakeAccepts .wrapping now ts = some (withinWindow now ts) := rfl

/-- A peer can place any timestamp in an authentication id, and whether it is accepted is
decided by the window. -/
theorem placed_timestamp (crypto : Primitives) (now ts : Int64) (key : Bytes)
    (randPart : Octets 4) (user : Octets 16) :
    (matchUser crypto now (createAuthId crypto key ts randPart) [user]).isSome =
      withinWindow now ts := by
  have placed := auth_id_timestamp_exact crypto (cmdKey user).toList ts randPart
  have same : createAuthId crypto key ts randPart =
      createAuthId crypto (cmdKey user).toList ts randPart := rfl
  rw [same, Bool.eq_iff_iff, Option.isSome_iff_exists]
  simp only [match_single_iff, InWindow, placed]
  simp

section Distances

variable {now ts : Int64}

/-- A difference that fits is the difference of the integers. -/
theorem difference_fits (nonneg : 0 ≤ now.toInt) (later : now.toInt - 2 ^ 63 < ts.toInt) :
    (now - ts).toInt = now.toInt - ts.toInt := by
  have most := ts.toInt_lt
  rw [Int64.toInt_sub, Int.bmod_eq_of_le (by omega) (by omega)]

/-- Unless the timestamp is too early, no build overflows and the decision is right. -/
theorem checks_exact_of_later (nonneg : 0 ≤ now.toInt)
    (later : now.toInt - 2 ^ 63 < ts.toInt) : ChecksExact now ts := by
  have most := ts.toInt_lt
  have difference := difference_fits nonneg later
  have least : Int64.minValue.toInt = -2 ^ 63 := by decide
  have greatest : Int64.maxValue.toInt = 2 ^ 63 - 1 := by decide
  have notLeast : now - ts ≠ Int64.minValue := by
    intro extreme
    rw [extreme, least] at difference
    omega
  have decision : withinWindow now ts = close now ts := by
    rw [close, Bool.eq_iff_iff, within_window_iff notLeast, difference, decide_eq_true_iff]
  intro build
  rw [open_accepts_eq, and_self, ← decision]
  cases build with
  | checked =>
    have fits : Int64.minValue.toInt ≤ now.toInt - ts.toInt ∧
        now.toInt - ts.toInt ≤ Int64.maxValue.toInt := by
      omega
    have subtracted : Build.checked.sub now ts = some (now - ts) := if_pos fits
    have absolute : Build.checked.abs (now - ts) = some (now - ts).abs := if_neg notLeast
    simp only [handshakeAccepts, subtracted, absolute, Option.bind_eq_bind, Option.bind_some]
    rfl
  | wrapping => rfl

/-- A timestamp that is too early stops a checked build. -/
theorem checked_stops (early : ts.toInt ≤ now.toInt - 2 ^ 63) :
    handshakeAccepts .checked now ts = none := by
  have greatest : Int64.maxValue.toInt = 2 ^ 63 - 1 := by decide
  have beyond : ¬(Int64.minValue.toInt ≤ now.toInt - ts.toInt ∧
      now.toInt - ts.toInt ≤ Int64.maxValue.toInt) := by
    omega
  have stopped : Build.checked.sub now ts = none := if_neg beyond
  simp only [handshakeAccepts, stopped]
  rfl

end Distances

/-- Exactly when the checks decide about a timestamp as they should: when it is later than
the clock less 2 ^ 63. -/
theorem checks_exact_iff (now ts : Int64) (nonneg : 0 ≤ now.toInt) :
    ChecksExact now ts ↔ now.toInt - 2 ^ 63 < ts.toInt := by
  refine ⟨fun exact => ?_, checks_exact_of_later nonneg⟩
  by_contra early
  have stops := checked_stops (Int.not_lt.mp early)
  rw [(exact .checked).1] at stops
  simp at stops

/-- A clock of today checks a stamp of today exactly. -/
theorem checks_exact_example :
    0 ≤ (1700000000 : Int64).toInt ∧
      (ChecksExact 1700000000 1700000100 ↔
        (1700000000 : Int64).toInt - 2 ^ 63 < (1700000100 : Int64).toInt) :=
  ⟨by decide, checks_exact_iff 1700000000 1700000100 (by decide)⟩

/-- A timestamp 2 ^ 63 seconds before the clock stops a checked build, and a wrapping build
accepts it. -/
theorem extreme_timestamp :
    (-9223372035154775808 : Int64).toInt = (1700000000 : Int64).toInt - 2 ^ 63 ∧
      handshakeAccepts .checked 1700000000 (-9223372035154775808) = none ∧
      handshakeAccepts .wrapping 1700000000 (-9223372035154775808) = some true ∧
      close 1700000000 (-9223372035154775808) = false ∧
      ¬ChecksExact 1700000000 (-9223372035154775808) := by
  refine ⟨by decide, by decide, by decide, by decide, fun exact => ?_⟩
  exact absurd (exact .checked).1 (by decide)

/-- Exactly when a wrapping build decides wrongly: when the difference is 2 ^ 63. -/
theorem wrapping_wrong_iff (now ts : Int64) (nonneg : 0 ≤ now.toInt)
    (small : now.toInt < 2 ^ 62) :
    withinWindow now ts ≠ close now ts ↔ ts.toInt = now.toInt - 2 ^ 63 := by
  by_cases later : now.toInt - 2 ^ 63 < ts.toInt
  · have right := (checks_exact_of_later nonneg later .wrapping).1
    rw [wrapping_accepts, Option.some.injEq] at right
    refine iff_of_false (fun wrong => wrong right) (by omega)
  · have most := ts.le_toInt
    have far : close now ts = false := by
      rw [close, decide_eq_false_iff_not]
      omega
    -- the difference comes out smaller by 2 ^ 64
    have wrapped : (now - ts).toInt = now.toInt - ts.toInt - 2 ^ 64 := by
      rw [Int64.toInt_sub, Int.bmod]
      split <;> omega
    rw [far, ne_eq, Bool.not_eq_false]
    by_cases extreme : now - ts = Int64.minValue
    · have least : Int64.minValue.toInt = -2 ^ 63 := by decide
      rw [extreme, least] at wrapped
      refine iff_of_true ?_ (by omega)
      rw [withinWindow, extreme]
      decide
    · have least : Int64.minValue.toInt = -2 ^ 63 := by decide
      refine iff_of_false ?_ ?_
      · rw [within_window_iff extreme, wrapped]
        omega
      · intro equal
        refine extreme (Int64.toInt_inj.mp ?_)
        rw [wrapped, least]
        omega

end OmniProxy.VmessWindow
