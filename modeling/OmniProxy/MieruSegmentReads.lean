import OmniProxy.AuthenticatedCiphers
import OmniProxy.MieruRelay

/-!
# Segments read from a buffer that may end inside them

The body of a segment is its sealed metadata and, unless the payload is empty, the
payload sealed under the next nonce. With the whole body at the front of a buffer the
reader returns the payload and moves on by as many nonces as there are seals.

A buffer that ends inside the sealed metadata leaves the state alone. One that ends
later, but inside the sealed payload, does not: the reader returns an empty payload and
moves on by both nonces, as if it had opened the payload.
-/

namespace OmniProxy.MieruSegmentReads

open ByteStrings CarryCounters CryptoPrimitives SealedBoxes MieruSegments MieruRelay

variable (aead : Aead 32 24)

/-- A metadata block with the payload whose length it announces. -/
structure Segment where
  block : Octets metadataSize
  payload : Bytes
  announced : (parseMetadata block).payloadLen.toNat = payload.length

/-- The seals of a segment. -/
def Segment.seals (segment : Segment) : Nat := if segment.payload.isEmpty then 1 else 2

/-- The body of a segment, sealed under a nonce and the one after it. -/
def Segment.body (segment : Segment) (key : Octets 32) (nonce : Octets 24) : Option Bytes := do
  let encMeta ← cryptoSeal aead key nonce segment.block.toList
  if segment.payload.isEmpty then some encMeta
  else do
    let encPayload ← cryptoSeal aead key (incrementOctets nonce) segment.payload
    some (encMeta ++ encPayload)

/-- The nonce after a number of seals. -/
def nonceAfterSeals (nonce : Octets 24) : Nat → Octets 24
  | 0 => nonce
  | seals + 1 => nonceAfterSeals (incrementOctets nonce) seals

/-- A part of a body is no segment and leaves the nonce alone; the body with anything
behind it is one, whose seals are counted. -/
def AllOrNothing (state : SegmentState) (segment : Segment) (body front : Bytes) : Prop :=
  ((state.decryptSegment aead front false).1 = none ∧
      (state.decryptSegment aead front false).2.nonce = state.nonce) ∧
    ∀ more, ∃ md,
      (state.decryptSegment aead (body ++ more) false).1 = some (md, segment.payload) ∧
        (state.decryptSegment aead (body ++ more) false).2.nonce =
          nonceAfterSeals state.nonce segment.seals

section Bodies

variable (key : Octets 32) (nonce : Octets 24)

/-- Every segment has a body. Its metadata open whatever follows them, and so does the
payload if there is one. -/
theorem segment_body_exact (segment : Segment) :
    ∃ encMeta encPayload, segment.body aead key nonce = some (encMeta ++ encPayload) ∧
      encMeta.length = sealedMetadataSize ∧
      (∀ more, metadataAt aead key nonce (encMeta ++ more) =
        some (parseMetadata segment.block)) ∧
      (segment.payload = [] → encPayload = []) ∧
      (segment.payload ≠ [] → encPayload.length = segment.payload.length + tagSize ∧
        cryptoOpen aead key (incrementOctets nonce) encPayload = some segment.payload) := by
  obtain ⟨encMeta, sealedMeta, metaWidth, opens⟩ :=
    sealed_block_opens aead key nonce segment.block
  have fits : segment.payload.length ≤ sealLimit := by
    have small := (parseMetadata segment.block).payloadLen.toNat_lt
    rw [segment.announced] at small
    exact Nat.le_trans (Nat.le_of_lt small) (by decide)
  obtain ⟨encPayload, sealedPayload, width, opened⟩ :=
    aead.combine_exact key (incrementOctets nonce) [] segment.payload (by simp) fits
  rw [cryptoSeal] at sealedMeta
  by_cases empty : segment.payload = []
  · refine ⟨encMeta, [], ?_, metaWidth, opens, fun _ => rfl, fun filled => absurd empty filled⟩
    simp [Segment.body, cryptoSeal, sealedMeta, empty]
  · refine ⟨encMeta, encPayload, ?_, metaWidth, opens, fun blank => absurd blank empty,
      fun _ => ⟨width, opened⟩⟩
    simp [Segment.body, cryptoSeal, sealedMeta, sealedPayload, empty]

end Bodies

section Reads

variable (state : SegmentState)

/-- Too few octets for sealed metadata are no segment. -/
theorem decrypt_short (data : Bytes) (short : data.length < sealedMetadataSize) :
    state.decryptSegment aead data false = (none, state) := by
  simp [SegmentState.decryptSegment, short]

/-- Metadata that open in front of an incomplete payload, or of none, are taken for a
segment without payload. -/
theorem decrypt_without_payload (data : Bytes) (md : ParsedMetadata)
    (enough : sealedMetadataSize ≤ data.length)
    (found : metadataAt aead state.key state.nonce data = some md)
    (incomplete : md.payloadLen.toNat = 0 ∨ data.length < segmentEnd md) :
    state.decryptSegment aead data false =
      (some (md, []), { state with nonce := nonceAfter md state.nonce }) := by
  have skipped : ¬(0 < md.payloadLen.toNat ∧
      sealedMetadataSize + md.payloadLen.toNat + tagSize ≤ data.length) := by
    simp only [segmentEnd] at incomplete
    omega
  simp only [SegmentState.decryptSegment, Bool.false_and, Bool.false_eq_true, if_false,
    if_neg (Nat.not_lt.mpr enough), found, if_neg skipped, nonceAfter]

/-- Metadata in front of a payload that is there and opens are a segment with it. -/
theorem decrypt_with_payload (data : Bytes) (md : ParsedMetadata) (payload : Bytes)
    (found : metadataAt aead state.key state.nonce data = some md)
    (positive : 0 < md.payloadLen.toNat) (complete : segmentEnd md ≤ data.length)
    (opened : cryptoOpen aead state.key (incrementOctets state.nonce)
      ((data.drop sealedMetadataSize).take (md.payloadLen.toNat + tagSize)) = some payload) :
    state.decryptSegment aead data false =
      (some (md, payload), { state with nonce := nonceAfter md state.nonce }) := by
  have enough : ¬data.length < sealedMetadataSize := by
    simp only [segmentEnd] at complete
    omega
  have taken : 0 < md.payloadLen.toNat ∧
      sealedMetadataSize + md.payloadLen.toNat + tagSize ≤ data.length := ⟨positive, complete⟩
  simp only [SegmentState.decryptSegment, Bool.false_and, Bool.false_eq_true, if_false,
    if_neg enough, found, if_pos taken, opened, nonceAfter]

/-- The reader moves on by the seals of the segment. -/
theorem nonce_after_seals (segment : Segment) (nonce : Octets 24) :
    nonceAfter (parseMetadata segment.block) nonce = nonceAfterSeals nonce segment.seals := by
  rw [nonceAfter, Segment.seals, segment.announced]
  cases empty : segment.payload with
  | nil => rfl
  | cons octet payload => rfl

/-- With its whole body in front, a segment is read with its payload. -/
theorem decrypt_body (segment : Segment) (body more : Bytes)
    (sealed : segment.body aead state.key state.nonce = some body) :
    state.decryptSegment aead (body ++ more) false =
      (some (parseMetadata segment.block, segment.payload),
        { state with nonce := nonceAfterSeals state.nonce segment.seals }) := by
  obtain ⟨encMeta, encPayload, written, metaWidth, opens, bare, carried⟩ :=
    segment_body_exact aead state.key state.nonce segment
  obtain rfl := Option.some.inj (written.symm.trans sealed)
  have found := opens (encPayload ++ more)
  rw [← List.append_assoc] at found
  rw [← nonce_after_seals]
  by_cases empty : segment.payload = []
  · rw [empty]
    refine decrypt_without_payload aead state _ _ ?_ found (.inl ?_)
    · rw [List.append_assoc, List.length_append]
      omega
    · rw [segment.announced, empty, List.length_nil]
  · obtain ⟨width, opened⟩ := carried empty
    have positive : 0 < segment.payload.length := List.length_pos_of_ne_nil empty
    refine decrypt_with_payload aead state _ _ _ found ?_ ?_ ?_
    · rw [segment.announced]
      exact positive
    · rw [segmentEnd, segment.announced, List.length_append, List.length_append]
      omega
    · rw [segment.announced, List.append_assoc, List.drop_left' metaWidth,
        List.take_left' width, opened]

/-- A part of a body that has its sealed metadata is taken for a segment without
payload, and the reader moves on by all seals. -/
theorem decrypt_part (segment : Segment) (front missing : Bytes) (lacking : missing ≠ [])
    (sealed : segment.body aead state.key state.nonce = some (front ++ missing))
    (enough : sealedMetadataSize ≤ front.length) :
    state.decryptSegment aead front false = (some (parseMetadata segment.block, []),
      { state with nonce := nonceAfterSeals state.nonce segment.seals }) := by
  obtain ⟨encMeta, encPayload, written, metaWidth, opens, bare, carried⟩ :=
    segment_body_exact aead state.key state.nonce segment
  have whole : encMeta ++ encPayload = front ++ missing :=
    Option.some.inj (written.symm.trans sealed)
  have positive := List.length_pos_of_ne_nil lacking
  have width := congrArg List.length whole
  rw [List.length_append, List.length_append] at width
  have found :
      metadataAt aead state.key state.nonce front = some (parseMetadata segment.block) := by
    rw [← metadata_at_more aead _ _ front missing enough, ← whole]
    exact opens encPayload
  rw [← nonce_after_seals]
  refine decrypt_without_payload aead state front _ enough found (.inr ?_)
  by_cases empty : segment.payload = []
  · rw [bare empty, List.length_nil] at width
    omega
  · rw [segmentEnd, segment.announced]
    have sealedWidth := (carried empty).1
    omega

/-- Every segment has a body, and of its proper parts exactly those that end inside the
sealed metadata are left alone. -/
theorem all_or_nothing_iff (segment : Segment) :
    ∃ body, segment.body aead state.key state.nonce = some body ∧
      ∀ front missing, front ++ missing = body → missing ≠ [] →
        (AllOrNothing aead state segment body front ↔ front.length < sealedMetadataSize) := by
  obtain ⟨encMeta, encPayload, written, -⟩ :=
    segment_body_exact aead state.key state.nonce segment
  refine ⟨_, written, ?_⟩
  intro front missing whole lacking
  constructor
  · rintro ⟨⟨nothing, -⟩, -⟩
    by_contra enough
    rw [← whole] at written
    rw [decrypt_part aead state segment front missing lacking written (by omega)] at nothing
    simp at nothing
  · intro short
    refine ⟨?_, fun more => ?_⟩
    · rw [decrypt_short aead state front short]
      exact ⟨rfl, rfl⟩
    · rw [decrypt_body aead state segment _ more written]
      exact ⟨_, rfl, rfl⟩

/-- A data segment with a payload of two octets. -/
def twoOctets : Segment where
  block := buildMetadata ⟨protoDataS2c, 0, 0, 0, 0, 2, 0⟩
  payload := [0x68, 0x69]
  announced := by
    rw [parse_build_metadata]
    rfl

/-- The first 48 octets of that segment are taken for a segment without payload. -/
theorem sealed_metadata_consumed :
    ∃ body, twoOctets.body AuthenticatedCiphers.xchacha20Poly1305 (zeroOctets 32)
        (zeroOctets 24) = some body ∧
      ∃ front missing, front ++ missing = body ∧ missing ≠ [] ∧ front.length = 48 ∧
        ¬AllOrNothing AuthenticatedCiphers.xchacha20Poly1305
          ⟨zeroOctets 32, zeroOctets 24, 0⟩ twoOctets body front := by
  obtain ⟨encMeta, encPayload, written, metaWidth, -, -, carried⟩ := segment_body_exact
    AuthenticatedCiphers.xchacha20Poly1305 (zeroOctets 32) (zeroOctets 24) twoOctets
  have width : encPayload.length = 18 := (carried (by decide)).1
  have lacking : encPayload ≠ [] := List.ne_nil_of_length_pos (by omega)
  refine ⟨_, written, encMeta, encPayload, rfl, lacking, metaWidth, ?_⟩
  rintro ⟨⟨nothing, -⟩, -⟩
  rw [decrypt_part AuthenticatedCiphers.xchacha20Poly1305 ⟨zeroOctets 32, zeroOctets 24, 0⟩
    twoOctets encMeta encPayload lacking written (by rw [metaWidth])] at nothing
  simp at nothing

end Reads

end OmniProxy.MieruSegmentReads
