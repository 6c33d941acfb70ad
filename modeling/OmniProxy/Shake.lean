import OmniProxy.ByteStrings

/-!
# SHAKE128 and the size parser

The sponge holds twenty-five 64-bit lanes and a position inside its rate of 168
octets, and it remembers whether its input was closed. Absorbing xors octets
into the lanes and permutes whenever the rate is full; the first squeeze closes
the input with the padding of SHAKE. The size parser draws two octets at a time
from a sponge that absorbed a nonce. It masks chunk lengths and chooses padding
lengths, so two parsers in the same state always agree.
-/

namespace OmniProxy.Shake

open ByteStrings

/-- The lanes of the permutation, lane `x + 5 * y` in row `y` and column `x`. -/
abbrev Lanes := List.Vector UInt64 25

/-- Octets absorbed or squeezed between two permutations. -/
def rate : Nat := 168

/-- Round constants. -/
def roundConsts : List UInt64 :=
  [0x0000000000000001, 0x0000000000008082, 0x800000000000808a, 0x8000000080008000,
   0x000000000000808b, 0x0000000080000001, 0x8000000080008081, 0x8000000000008009,
   0x000000000000008a, 0x0000000000000088, 0x0000000080008009, 0x000000008000000a,
   0x000000008000808b, 0x800000000000008b, 0x8000000000008089, 0x8000000000008003,
   0x8000000000008002, 0x8000000000000080, 0x000000000000800a, 0x800000008000000a,
   0x8000000080008081, 0x8000000000008080, 0x0000000080000001, 0x8000000080008008]

/-- Rotation offsets by column and row. -/
def rhoOffsets : List (List UInt64) :=
  [[0, 36, 3, 41, 18], [1, 44, 10, 45, 2], [62, 6, 43, 15, 61], [28, 55, 25, 21, 56],
   [27, 20, 39, 8, 14]]

/-- Rotate a lane to the left; a count of zero leaves it alone. -/
def rotateLane (lane : UInt64) (count : UInt64) : UInt64 :=
  if count = 0 then lane else (lane <<< count) ||| (lane >>> (64 - count))

/-- The lane at an index. -/
def laneAt (lanes : List UInt64) (index : Nat) : UInt64 := lanes.getD index 0

/-- Column parities. -/
def columns (state : List UInt64) : List UInt64 :=
  (List.range 5).map fun x =>
    laneAt state x ^^^ laneAt state (x + 5) ^^^ laneAt state (x + 10) ^^^ laneAt state (x + 15) ^^^
      laneAt state (x + 20)

/-- Add to every lane the parities of the two neighbouring columns. -/
def theta (state : Lanes) : Lanes :=
  let c := columns state.toList
  let d := (List.range 5).map fun x =>
    laneAt c ((x + 4) % 5) ^^^ rotateLane (laneAt c ((x + 1) % 5)) 1
  List.Vector.ofFn fun index => laneAt state.toList index.val ^^^ laneAt d (index.val % 5)

/-- Rotate every lane and move it to its new place. -/
def rhoPi (state : Lanes) : Lanes :=
  (List.finRange 5).foldl (fun lanes x =>
    (List.finRange 5).foldl (fun b y =>
      let moved := rotateLane (laneAt state.toList (x.val + 5 * y.val))
        ((rhoOffsets.getD x.val []).getD y.val 0)
      b.set ⟨y.val + 5 * ((2 * x.val + 3 * y.val) % 5), by omega⟩ moved) lanes)
    (List.Vector.replicate 25 0)

/-- Combine every lane with the next two of its row. -/
def chi (b : Lanes) : Lanes :=
  List.Vector.ofFn fun index =>
    let x := index.val % 5
    let row := 5 * (index.val / 5)
    laneAt b.toList (x + row) ^^^
      (~~~laneAt b.toList ((x + 1) % 5 + row) &&& laneAt b.toList ((x + 2) % 5 + row))

/-- One round with its constant. -/
def keccakRound (state : Lanes) (rc : UInt64) : Lanes :=
  let next := chi (rhoPi (theta state))
  next.set 0 (laneAt next.toList 0 ^^^ rc)

/-- The permutation: twenty-four rounds. -/
def keccakF1600 (state : Lanes) : Lanes := roundConsts.foldl keccakRound state

/-- A sponge; its position never passes the rate. -/
structure Shake128 where
  state : Lanes
  pos : Nat
  finalized : Bool
  within : pos ≤ rate

/-- An empty sponge. -/
def Shake128.new : Shake128 := ⟨List.Vector.replicate 25 0, 0, false, by simp⟩

/-- Xor an octet into its place among the lanes. -/
def xorByte (state : Lanes) (idx : Nat) (byte : UInt8) : Lanes :=
  if inside : idx / 8 < 25 then
    state.set ⟨idx / 8, inside⟩
      (laneAt state.toList (idx / 8) ^^^ (byte.toUInt64 <<< UInt64.ofNat (idx % 8 * 8)))
  else state

/-- Absorb octets up to the rate, permute when it is full, and go on. The first
round may only permute, every later one absorbs an octet, so one round more than
there are octets suffices. -/
def Shake128.absorbLoop : Nat → Bytes → Shake128 → Shake128
  | 0, _, sponge => sponge
  | rounds + 1, data, sponge =>
      if data.isEmpty then sponge
      else
        let take := min (rate - sponge.pos) data.length
        let state := (data.take take).zipIdx.foldl
          (fun state (byte, i) => xorByte state (sponge.pos + i) byte) sponge.state
        if sponge.pos + take = rate then
          absorbLoop rounds (data.drop take)
            ⟨keccakF1600 state, 0, sponge.finalized, by simp⟩
        else
          absorbLoop rounds (data.drop take)
            ⟨state, sponge.pos + take, sponge.finalized, by
              have within := sponge.within
              omega⟩

/-- Absorb a string. -/
def Shake128.absorb (sponge : Shake128) (data : Bytes) : Shake128 :=
  Shake128.absorbLoop (data.length + 1) data sponge

/-- Close the input: the domain octet at the position, the final bit at the end
of the rate, and a permutation. -/
def Shake128.finalize (sponge : Shake128) : Shake128 :=
  ⟨keccakF1600 (xorByte (xorByte sponge.state sponge.pos 0x1F) (rate - 1) 0x80), 0, true, by simp⟩

/-- Take the next output octet, permuting first when the rate is used up. -/
def Shake128.squeezeByte (sponge : Shake128) : UInt8 × Shake128 :=
  let fresh : Shake128 :=
    if sponge.pos = rate then ⟨keccakF1600 sponge.state, 0, sponge.finalized, by simp⟩ else sponge
  have within : fresh.pos + 1 ≤ rate := by
    have bound := sponge.within
    simp only [fresh]
    split
    · simp [rate]
    · omega
  ((laneAt fresh.state.toList (fresh.pos / 8) >>> UInt64.ofNat (fresh.pos % 8 * 8)).toUInt8,
    ⟨fresh.state, fresh.pos + 1, fresh.finalized, within⟩)

/-- Squeeze octets from a closed sponge. -/
def Shake128.squeezeLoop : Nat → Shake128 → Bytes × Shake128
  | 0, sponge => ([], sponge)
  | count + 1, sponge =>
      let (octet, next) := sponge.squeezeByte
      let (octets, last) := squeezeLoop count next
      (octet :: octets, last)

/-- Squeeze octets, closing the input first if that has not happened yet. -/
def Shake128.squeeze (sponge : Shake128) (count : Nat) : Bytes × Shake128 :=
  Shake128.squeezeLoop count (if sponge.finalized then sponge else sponge.finalize)

example : (Shake128.new.squeeze 8).1 = [0x7f, 0x9c, 0x2b, 0xa4, 0xe8, 0x8f, 0x82, 0x7d] := by
  decide +kernel

/-- The source of size masks and padding lengths. -/
structure ShakeSizeParser where
  shake : Shake128

/-- A parser seeded by a nonce. -/
def ShakeSizeParser.new (nonce : Bytes) : ShakeSizeParser := ⟨Shake128.new.absorb nonce⟩

/-- The next 16-bit draw. -/
def ShakeSizeParser.next (parser : ShakeSizeParser) : UInt16 × ShakeSizeParser :=
  let (b, shake) := parser.shake.squeeze 2
  (ofBigEndian16 (b.getD 0 0) (b.getD 1 0), ⟨shake⟩)

/-- The next padding length, below sixty-four. -/
def ShakeSizeParser.nextPaddingLen (parser : ShakeSizeParser) : UInt16 × ShakeSizeParser :=
  let (draw, parser) := parser.next
  (draw % 64, parser)

/-- Mask a size by the next draw. -/
def ShakeSizeParser.encode (parser : ShakeSizeParser) (size : UInt16) : Bytes × ShakeSizeParser :=
  let (draw, parser) := parser.next
  (bigEndian16 (size ^^^ draw), parser)

/-- Unmask a size by the next draw. -/
def ShakeSizeParser.decode (parser : ShakeSizeParser) (high low : UInt8) :
    UInt16 × ShakeSizeParser :=
  let (draw, parser) := parser.next
  (ofBigEndian16 high low ^^^ draw, parser)

/-- Every padding length is below sixty-four. -/
theorem next_padding_len_bound (parser : ShakeSizeParser) :
    parser.nextPaddingLen.1.toNat < 64 := by
  simp only [ShakeSizeParser.nextPaddingLen, UInt16.toNat_mod]
  exact Nat.mod_lt _ (by decide)

/-- A parser in the same state unmasks what was masked, and both parsers move to
the same next state. -/
theorem decode_encode (parser : ShakeSizeParser) (size : UInt16) :
    ∃ high low, (parser.encode size).1 = [high, low] ∧
      parser.decode high low = (size, (parser.encode size).2) := by
  obtain ⟨high, low, octets, value⟩ := of_big_endian16_exact (size ^^^ parser.next.1)
  refine ⟨high, low, octets, ?_⟩
  simp only [ShakeSizeParser.decode, ShakeSizeParser.encode, value]
  rw [UInt16.xor_assoc, UInt16.xor_self, UInt16.xor_zero]

end OmniProxy.Shake
