import OmniProxy.ByteStrings

/-!
# Fields with their length in front

A field is written as the number of its octets, in a known number of digits, followed by
the octets. As long as the number fits its digits, a field in front of other octets can be
told from them in one way only.

Nothing here refers to a particular program.
-/

namespace OmniProxy.CountedFields

open ByteStrings

/-- Some octets behind their number. -/
def counted (width : Nat) (content : Bytes) : Bytes := bigEndian width content.length ++ content

/-- A counted field takes its length and its content. -/
@[simp] theorem counted_length (width : Nat) (content : Bytes) :
    (counted width content).length = width + content.length := by
  rw [counted, List.length_append, big_endian_length]

/-- A number in front of other octets is told from them. -/
theorem number_inj {width number other : Nat} {rest left : Bytes} (fits : number < 256 ^ width)
    (otherFits : other < 256 ^ width)
    (same : bigEndian width number ++ rest = bigEndian width other ++ left) :
    number = other ∧ rest = left := by
  obtain ⟨digits, behind⟩ := List.append_inj same (by simp)
  have values := congrArg bigEndianValue digits
  rw [big_endian_value_fits width number fits, big_endian_value_fits width other otherFits]
    at values
  exact ⟨values, behind⟩

/-- A field in front of other octets is told from them. -/
theorem counted_inj {width : Nat} {content other rest left : Bytes}
    (fits : content.length < 256 ^ width) (otherFits : other.length < 256 ^ width)
    (same : counted width content ++ rest = counted width other ++ left) :
    content = other ∧ rest = left := by
  rw [counted, counted, List.append_assoc, List.append_assoc] at same
  obtain ⟨width, behind⟩ := number_inj fits otherFits same
  exact List.append_inj behind width

/-- A field counted in one octet has that octet in front. -/
theorem counted_one (content : Bytes) :
    counted 1 content = UInt8.ofNat content.length :: content := by
  simp [counted, bigEndian]

/-- So is a field behind a single octet with its length. -/
theorem octet_counted_inj {content other rest left : Bytes} (short : content.length ≤ 255)
    (otherShort : other.length ≤ 255)
    (same : UInt8.ofNat content.length :: (content ++ rest) =
      UInt8.ofNat other.length :: (other ++ left)) : content = other ∧ rest = left := by
  rw [← List.cons_append, ← List.cons_append, ← counted_one, ← counted_one] at same
  exact counted_inj (by omega) (by omega) same

/-- A number and as many octets as it says are a field. -/
theorem counted_front (width count : Nat) (octets : Bytes) (enough : count ≤ octets.length) :
    bigEndian width count ++ octets =
      counted width (octets.take count) ++ octets.drop count := by
  have size : (octets.take count).length = count := by
    rw [List.length_take]
    omega
  rw [counted, size, List.append_assoc, List.take_append_drop]

end OmniProxy.CountedFields
