import OmniProxy.ByteStrings

/-!
# Digests over blocks of sixty-four octets

A streaming digest keeps a chaining value, the number of octets received modulo
2^64, and the octets of the block being filled. That block is never full between
two octets. Finishing appends the octet 0x80, zeros until eight octets of the
block remain, and the message length in bits.

The same recurrence serves every digest of this shape; a digest supplies its
initial value, its compression of one block, the order of its length octets and
the output taken from the last chaining value. The keyed construction at the end
hashes twice with a padded key. No collision resistance is stated.

Nothing here refers to a particular program.
-/

namespace OmniProxy.StreamingDigests

open ByteStrings

/-- What distinguishes one digest from another. -/
structure BlockHash (H : Type) (outputLength : Nat) where
  initial : H
  compress : H → Octets 64 → H
  lengthOctets : UInt64 → Octets 8
  output : H → Octets outputLength

/-- A bit length as eight octets in network order. -/
def bigEndianLength (bitlen : UInt64) : Octets 8 := ⟨bigEndian 8 bitlen.toNat, by simp⟩

/-- A digest that has received some octets. -/
structure Hasher (H : Type) where
  chain : H
  len : UInt64
  buf : Bytes
  unfilled : buf.length < 64

variable {H : Type} {outputLength : Nat} (hash : BlockHash H outputLength)

/-- A digest that has received nothing. -/
def start : Hasher H := ⟨hash.initial, 0, [], by decide⟩

/-- Pass octets through the block: copy as many as fit, compress the block once
it is full, and go on with the rest. Every round copies at least one octet, so
as many rounds as there are octets suffice. -/
def absorb : Nat → Bytes → Hasher H → Hasher H
  | 0, _, hasher => hasher
  | rounds + 1, data, hasher =>
      if data.isEmpty then hasher
      else
        let take := min (64 - hasher.buf.length) data.length
        let filled := hasher.buf ++ data.take take
        if full : filled.length = 64 then
          absorb rounds (data.drop take)
            ⟨hash.compress hasher.chain ⟨filled, full⟩, hasher.len, [], by decide⟩
        else
          absorb rounds (data.drop take)
            ⟨hasher.chain, hasher.len, filled, by
              have unfilled := hasher.unfilled
              simp only [filled, take, List.length_append, List.length_take] at full ⊢
              omega⟩

/-- Count a piece of the message and pass it through the block. -/
def update (hasher : Hasher H) (data : Bytes) : Hasher H :=
  absorb hash data.length data { hasher with len := hasher.len + UInt64.ofNat data.length }

/-- Append zeros until the block holds fifty-six octets, at most `fuel` of them. -/
def padZeros : Nat → Hasher H → Hasher H
  | 0, hasher => hasher
  | fuel + 1, hasher =>
      if hasher.buf.length = 56 then hasher else padZeros fuel (update hash hasher [0])

/-- Append the padding and the bit length, then take the output. Sixty-four
zeros always reach the end of the padding. -/
def finalize (hasher : Hasher H) : Octets outputLength :=
  let bitlen := hasher.len * 8
  let padded := padZeros hash 64 (update hash hasher [0x80])
  hash.output (update hash padded (hash.lengthOctets bitlen).toList).chain

/-- The digest of a message given in parts. -/
def digest (parts : List Bytes) : Octets outputLength :=
  finalize hash (parts.foldl (update hash) (start hash))

/-- One octet moves the fill level by one, from the last place back to none. -/
theorem update_octet_fill (hasher : Hasher H) (octet : UInt8) :
    (update hash hasher [octet]).buf.length = (hasher.buf.length + 1) % 64 := by
  have unfilled := hasher.unfilled
  have room : min (64 - hasher.buf.length) 1 = 1 := by omega
  simp only [update, List.length_singleton, absorb, List.isEmpty_cons, Bool.false_eq_true,
    ↓reduceIte, room, List.take_succ_cons, List.take_zero, List.length_append]
  split
  · rename_i full
    simp [full]
  · simp only [List.length_append, List.length_singleton]
    omega

section Keyed

/-- A key as one block: a key longer than a block is replaced by its digest, and
the rest of the block is zero. -/
def paddedKey (key : Bytes) : Bytes :=
  let short := if 64 < key.length then (digest hash [key]).toList else key
  short ++ List.replicate (64 - short.length) 0

/-- The keyed digest: an inner digest under the key masked by 0x36 and an outer
one of it under the key masked by 0x5c. -/
def hmac (key data : Bytes) : Octets outputLength :=
  let k := paddedKey hash key
  let inner := digest hash [k.map (· ^^^ 0x36) ++ data]
  digest hash [k.map (· ^^^ 0x5c) ++ inner.toList]

end Keyed

end OmniProxy.StreamingDigests
