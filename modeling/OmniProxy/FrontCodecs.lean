import OmniProxy.ByteStrings

/-!
# Codecs that read their own encoding off the front

Such a codec reads an item off the front of some octets and says how many it has used. It
succeeds exactly when the encoding of an item that it can express is in front, with that item
and with the width of the encoding. So what is encoded is read back whatever follows it, no
part of an encoding is read, and what is read is the encoding of what it is read as.

Nothing here refers to a particular program.
-/

namespace OmniProxy.FrontCodecs

open ByteStrings

variable {Item Error : Type}

/-- A writer and a reader, with the items that the encoding can express. -/
structure FrontCodec (Item Error : Type) where
  encode : Item → Bytes
  decode : Bytes → Except Error (Item × Nat)
  expressible : Item → Prop
  decodes_iff : ∀ bytes item used, decode bytes = .ok (item, used) ↔
    expressible item ∧ used = (encode item).length ∧ encode item <+: bytes

namespace FrontCodec

variable (codec : FrontCodec Item Error)

/-- What is encoded is read back whole, whatever follows it. -/
theorem reads_encoded {item : Item} (good : codec.expressible item) (suffix : Bytes) :
    codec.decode (codec.encode item ++ suffix) = .ok (item, (codec.encode item).length) :=
  (codec.decodes_iff _ _ _).mpr ⟨good, rfl, List.prefix_append _ _⟩

/-- What is read is the encoding of what it is read as. -/
theorem encodes_read {bytes : Bytes} {item : Item} {used : Nat}
    (decoded : codec.decode bytes = .ok (item, used)) :
    used ≤ bytes.length ∧ codec.encode item = bytes.take used := by
  obtain ⟨-, rfl, front⟩ := (codec.decodes_iff _ _ _).mp decoded
  exact ⟨front.length_le, List.prefix_iff_eq_take.mp front⟩

/-- No encoding is in front of another one. -/
theorem encodings_apart {item other : Item} (good : codec.expressible item)
    (otherGood : codec.expressible other) (front : codec.encode other <+: codec.encode item) :
    other = item := by
  have itself := (codec.decodes_iff (codec.encode item) item _).mpr ⟨good, rfl, List.prefix_rfl⟩
  have instead := (codec.decodes_iff (codec.encode item) other _).mpr ⟨otherGood, rfl, front⟩
  rw [instead] at itself
  exact congrArg Prod.fst (Except.ok.inj itself)

/-- Part of an encoding is not read: what would be read of it is the encoding of another item,
in front of this one. -/
theorem fails_on_part {item : Item} (good : codec.expressible item) {part : Bytes}
    (front : part <+: codec.encode item) (lacking : part ≠ codec.encode item) :
    ∃ error, codec.decode part = .error error := by
  cases decoded : codec.decode part with
  | error error => exact ⟨error, rfl⟩
  | ok result =>
    obtain ⟨otherGood, -, there⟩ := (codec.decodes_iff part result.1 result.2).mp decoded
    have same := codec.encodings_apart good otherGood (there.trans front)
    rw [same] at there
    exact absurd (front.eq_of_length (Nat.le_antisymm front.length_le there.length_le)) lacking

end FrontCodec

end OmniProxy.FrontCodecs
