import OmniProxy.MieruRelay

/-!
# Read timing and the pump of a Mieru server

The server's pump opens the metadata at the front of its buffer as soon as its 48 octets
have arrived. It opens the payload only if all of the announced segment is there, but it
removes the octets of the segment in any case, and panics if the buffer ends before them.

Which segments the pump comes to depends on the stream alone: the first one starts the
stream, and another one starts where a complete segment ends whose payload opens. What
the cutting into reads decides is whether a read ends inside one of them, and that is
exactly when the pump panics. This holds for every stream and every cipher, whatever
sealed the segments. Of a list of segments that were sealed for the session, the pump
comes to every one.
-/

namespace OmniProxy.MieruReadPump

open ByteStrings CarryCounters SealedBoxes MieruSegments MieruRelay

variable (aead : Aead 32 24)

section Stream

/-- With this nonce at its front, the stream has a segment with these metadata at this
offset: every segment before it is complete and opens. -/
inductive SegmentAt (key : Octets 32) : Octets 24 → Bytes → Nat → ParsedMetadata → Prop where
  | first {nonce : Octets 24} {stream : Bytes} {md : ParsedMetadata}
      (opened : metadataAt aead key nonce stream = some md) : SegmentAt key nonce stream 0 md
  | later {nonce : Octets 24} {stream payload : Bytes} {md other : ParsedMetadata} {start : Nat}
      (opened : metadataAt aead key nonce stream = some md)
      (complete : segmentEnd md ≤ stream.length)
      (delivered : payloadAt aead key nonce md stream = some payload)
      (further : SegmentAt key (nonceAfter md nonce) (stream.drop (segmentEnd md)) start other) :
      SegmentAt key nonce stream (segmentEnd md + start) other

/-- The offsets at which reads end, the first of which starts at `offset`. -/
def readEnds : Nat → List Bytes → List Nat
  | _, [] => []
  | offset, piece :: pieces =>
      (offset + piece.length) :: readEnds (offset + piece.length) pieces

/-- Some read ends inside a segment, at or after the end of its sealed metadata. -/
def Interrupted (key : Octets 32) (nonce : Octets 24) (stream : Bytes) (ends : Nat → Prop) :
    Prop :=
  ∃ start md, SegmentAt aead key nonce stream start md ∧
    ∃ position, ends position ∧ start + sealedMetadataSize ≤ position ∧
      position < start + segmentEnd md

/-- A read ends behind the offset at which it starts. -/
theorem read_ends_from (offset : Nat) (pieces : List Bytes) (position : Nat)
    (member : position ∈ readEnds offset pieces) : offset ≤ position := by
  induction pieces generalizing offset with
  | nil => simp [readEnds] at member
  | cons piece pieces inductionHypothesis =>
    rcases List.mem_cons.mp member with rfl | member
    · omega
    · have beyond := inductionHypothesis _ member
      omega

/-- Reads that start further on end as much further on. -/
theorem read_ends_shift (shift offset : Nat) (pieces : List Bytes) (position : Nat) :
    shift + position ∈ readEnds (shift + offset) pieces ↔ position ∈ readEnds offset pieces := by
  induction pieces generalizing offset with
  | nil => simp [readEnds]
  | cons piece pieces inductionHypothesis =>
    simp only [readEnds, List.mem_cons, Nat.add_assoc, inductionHypothesis, Nat.add_left_cancel_iff]

/-- The payload of a complete segment is the same when more octets follow. -/
theorem payload_at_more (key : Octets 32) (nonce : Octets 24) (md : ParsedMetadata)
    (data more : Bytes) (complete : segmentEnd md ≤ data.length) :
    payloadAt aead key nonce md (data ++ more) = payloadAt aead key nonce md data := by
  simp only [segmentEnd] at complete
  rw [payloadAt, payloadAt, List.drop_append_of_le_length (by omega),
    List.take_append_of_le_length (by rw [List.length_drop]; omega)]

/-- Without metadata at the front there is no segment to interrupt. -/
theorem not_interrupted (key : Octets 32) (nonce : Octets 24) (stream : Bytes) (ends : Nat → Prop)
    (closed : metadataAt aead key nonce stream = none) :
    ¬Interrupted aead key nonce stream ends := by
  rintro ⟨start, md, segment, -⟩
  cases segment with
  | first opened => simp [closed] at opened
  | later opened => simp [closed] at opened

/-- A stream with metadata at its front is interrupted in its first segment, or in what
follows it if the first one is complete and opens. -/
theorem interrupted_iff (key : Octets 32) (nonce : Octets 24) (stream : Bytes) (ends : Nat → Prop)
    (md : ParsedMetadata) (found : metadataAt aead key nonce stream = some md) :
    Interrupted aead key nonce stream ends ↔
      (∃ position, ends position ∧ sealedMetadataSize ≤ position ∧ position < segmentEnd md) ∨
      (segmentEnd md ≤ stream.length ∧
        (∃ payload, payloadAt aead key nonce md stream = some payload) ∧
        Interrupted aead key (nonceAfter md nonce) (stream.drop (segmentEnd md))
          fun position => ends (segmentEnd md + position)) := by
  constructor
  · rintro ⟨start, other, segment, position, reached, after, before⟩
    cases segment with
    | first opened =>
      obtain rfl := Option.some.inj (found.symm.trans opened)
      exact .inl ⟨position, reached, by omega, by omega⟩
    | @later _ _ payload _ _ start opened complete delivered further =>
      obtain rfl := Option.some.inj (found.symm.trans opened)
      have shifted : segmentEnd md + (position - segmentEnd md) = position := by omega
      rw [← shifted] at reached
      exact .inr ⟨complete, ⟨payload, delivered⟩, start, other, further,
        position - segmentEnd md, reached, by omega, by omega⟩
  · rintro (⟨position, reached, after, before⟩ |
      ⟨complete, ⟨payload, delivered⟩, start, other, further, position, reached, after, before⟩)
    · exact ⟨0, md, .first found, position, reached, by omega, by omega⟩
    · exact ⟨_, other, .later found complete delivered further, _, reached, by omega, by omega⟩

/-- Reads that end behind a complete segment at the front interrupt the stream if it opens
and they interrupt what follows it. -/
theorem interrupted_behind_iff (key : Octets 32) (nonce : Octets 24) (buf : Bytes)
    (pieces : List Bytes) (md : ParsedMetadata) (found : metadataAt aead key nonce buf = some md)
    (complete : segmentEnd md ≤ buf.length) :
    Interrupted aead key nonce (buf ++ pieces.flatten)
        (fun position => position ∈ buf.length :: readEnds buf.length pieces) ↔
      (∃ payload, payloadAt aead key nonce md buf = some payload) ∧
        Interrupted aead key (nonceAfter md nonce) (buf.drop (segmentEnd md) ++ pieces.flatten)
          fun position => position ∈ (buf.drop (segmentEnd md)).length ::
            readEnds (buf.drop (segmentEnd md)).length pieces := by
  have long : sealedMetadataSize ≤ buf.length := by
    simp only [segmentEnd] at complete
    omega
  have front := metadata_at_more aead key nonce buf pieces.flatten long
  have missed : ¬∃ position, position ∈ buf.length :: readEnds buf.length pieces ∧
      sealedMetadataSize ≤ position ∧ position < segmentEnd md := by
    rintro ⟨position, member, -, inside⟩
    rcases List.mem_cons.mp member with rfl | member
    · omega
    · have beyond := read_ends_from _ _ _ member
      omega
  have whole : segmentEnd md ≤ (buf ++ pieces.flatten).length := by
    rw [List.length_append]
    omega
  have shorter : segmentEnd md + (buf.drop (segmentEnd md)).length = buf.length := by
    rw [List.length_drop]
    omega
  have ends : (fun position => segmentEnd md + position ∈ buf.length ::
      readEnds buf.length pieces) = fun position => position ∈ (buf.drop (segmentEnd md)).length ::
        readEnds (buf.drop (segmentEnd md)).length pieces := by
    funext position
    rw [← shorter, List.mem_cons, List.mem_cons, read_ends_shift, Nat.add_left_cancel_iff]
  rw [interrupted_iff aead key _ _ _ md (front.trans found), or_iff_right missed,
    payload_at_more aead key _ md _ _ complete, List.drop_append_of_le_length complete, ends]
  exact and_iff_right whole

/-- A read that ends before any metadata interrupts nothing. -/
theorem interrupted_cons_short (key : Octets 32) (nonce : Octets 24) (stream : Bytes)
    (position : Nat) (ends : List Nat) (short : position < sealedMetadataSize) :
    Interrupted aead key nonce stream (fun other => other ∈ position :: ends) ↔
      Interrupted aead key nonce stream fun other => other ∈ ends := by
  constructor
  · rintro ⟨start, md, segment, other, member, after, before⟩
    rcases List.mem_cons.mp member with rfl | member
    · omega
    · exact ⟨start, md, segment, other, member, after, before⟩
  · rintro ⟨start, md, segment, other, member, inside⟩
    exact ⟨start, md, segment, other, List.mem_cons_of_mem _ member, inside⟩

end Stream

section Pump

variable (key : Octets 32)

/-- A pump that has stopped reads nothing more. -/
theorem status_stopped (pieces : List Bytes) (pump : ServerPump) (status : PumpStatus)
    (stopped : status ≠ .running) (reached : pump.status = status) :
    (pieces.foldl (ServerPump.feed aead key) pump).status = status := by
  induction pieces with
  | nil => exact reached
  | cons piece pieces inductionHypothesis =>
    rw [List.foldl_cons, ServerPump.feed, if_pos (by rwa [reached]), inductionHypothesis]

/-- The rounds of a read and all further reads, if what the theorem says is known for the
further reads. A round that removes a segment leaves a shorter buffer. -/
theorem drained_panics_iff (pieces : List Bytes)
    (onward : ∀ pump : ServerPump, pump.status = .running →
      pump.buf.length < sealedMetadataSize →
      ((pieces.foldl (ServerPump.feed aead key) pump).status = .panicked ↔
        Interrupted aead key pump.nonce (pump.buf ++ pieces.flatten)
          fun position => position ∈ readEnds pump.buf.length pieces))
    (fuel : Nat) (pump : ServerPump) (running : pump.status = .running)
    (enough : pump.buf.length < fuel) :
    (pieces.foldl (ServerPump.feed aead key) (pump.drain aead key fuel)).status = .panicked ↔
      Interrupted aead key pump.nonce (pump.buf ++ pieces.flatten)
        fun position => position ∈ pump.buf.length :: readEnds pump.buf.length pieces := by
  induction fuel generalizing pump with
  | zero => omega
  | succ fuel inductionHypothesis =>
    rcases Nat.lt_or_ge pump.buf.length sealedMetadataSize with short | long
    · rw [server_drain_short aead key _ pump short, onward pump running short,
        interrupted_cons_short aead key _ _ _ _ short]
    have front := fun more => metadata_at_more aead key pump.nonce pump.buf more long
    rcases drain_round aead key fuel pump long with
      ⟨closed, same⟩ | ⟨md, found, ⟨short, same⟩ | ⟨complete, delivered⟩⟩
    · rw [same, status_stopped aead key pieces _ .returned (by decide) rfl]
      exact iff_of_false (by decide) (not_interrupted aead key _ _ _ (by rw [front, closed]))
    · rw [same, status_stopped aead key pieces _ .panicked (by decide) rfl,
        interrupted_iff aead key _ _ _ md (by rw [front, found])]
      exact iff_of_true rfl (.inl ⟨_, List.mem_cons_self, long, short⟩)
    -- the segment is complete, so only what follows it can be interrupted
    rw [interrupted_behind_iff aead key _ _ _ md found complete]
    rcases delivered with ⟨refused, same⟩ | ⟨payload, opened, same⟩
    · rw [same, status_stopped aead key pieces _ .returned (by decide) rfl]
      refine iff_of_false (by decide) ?_
      rintro ⟨⟨payload, opened⟩, -⟩
      simp [refused] at opened
    · have shorter : (pump.buf.drop (segmentEnd md)).length < fuel := by
        have positive : 0 < segmentEnd md := Nat.add_pos_right _ (by decide)
        rw [List.length_drop]
        omega
      rw [same]
      refine (inductionHypothesis _ ?_ shorter).trans ?_
      · exact running
      · exact ⟨fun further => ⟨⟨payload, opened⟩, further⟩, And.right⟩

/-- A running pump whose buffer is too short for metadata panics exactly when one of the
reads to come interrupts a segment. -/
theorem running_panics_iff (pieces : List Bytes) (pump : ServerPump)
    (running : pump.status = .running) (short : pump.buf.length < sealedMetadataSize) :
    (pieces.foldl (ServerPump.feed aead key) pump).status = .panicked ↔
      Interrupted aead key pump.nonce (pump.buf ++ pieces.flatten)
        fun position => position ∈ readEnds pump.buf.length pieces := by
  induction pieces generalizing pump with
  | nil =>
    refine iff_of_false (by rw [List.foldl_nil, running]; decide) ?_
    rintro ⟨-, -, -, position, member, -⟩
    simp [readEnds] at member
  | cons piece pieces inductionHypothesis =>
    have rounds := drained_panics_iff aead key pieces inductionHypothesis
      ((pump.buf ++ piece).length + 1) { pump with buf := pump.buf ++ piece } running
      (Nat.lt_succ_self _)
    have read : pump.feed aead key piece = ServerPump.drain aead key
        ((pump.buf ++ piece).length + 1) { pump with buf := pump.buf ++ piece } := by
      rw [ServerPump.feed, if_neg (by rw [running]; decide)]
    rw [List.foldl_cons, read, rounds, List.flatten_cons, ← List.append_assoc, readEnds,
      ← List.length_append]

/-- A stream makes the pump panic exactly when a read of it interrupts a segment. -/
theorem pump_panics_iff (nonce : Octets 24) (stream : Bytes) (pieces : List Bytes)
    (cut : CutOf stream pieces) :
    (pieces.foldl (ServerPump.feed aead key) ⟨[], nonce, [], .running⟩).status = .panicked ↔
      Interrupted aead key nonce stream fun position => position ∈ readEnds 0 pieces := by
  have panics := running_panics_iff aead key pieces ⟨[], nonce, [], .running⟩ rfl nothing_short
  rwa [List.nil_append, cut.1] at panics

end Pump

section SealedSegments

variable (key : Octets 32)

/-- Segments that open one after the other, the first one under this nonce. -/
inductive SealedFor : Octets 24 → List Bytes → Prop where
  | done {nonce : Octets 24} : SealedFor nonce []
  | segment {nonce : Octets 24} {segment payload : Bytes} {segments : List Bytes}
      {md : ParsedMetadata} (opened : metadataAt aead key nonce segment = some md)
      (delivered : payloadAt aead key nonce md segment = some payload)
      (size : segment.length = segmentEnd md)
      (others : SealedFor (nonceAfter md nonce) segments) : SealedFor nonce (segment :: segments)

/-- The segments that the pump comes to are all of them, so an interruption is a read that
ends inside one of them after its sealed metadata. -/
theorem interrupted_sealed_iff {nonce : Octets 24} {segments : List Bytes}
    (sealed : SealedFor aead key nonce segments) (ends : Nat → Prop) :
    Interrupted aead key nonce segments.flatten ends ↔
      ∃ before segment after position, segments = before ++ segment :: after ∧ ends position ∧
        before.flatten.length + sealedMetadataSize ≤ position ∧
        position < before.flatten.length + segment.length := by
  induction sealed generalizing ends with
  | done =>
    refine iff_of_false (not_interrupted aead key _ _ _ ?_) (by simp)
    simp [metadataAt, cryptoOpen, Aead.split, tagLength]
  | @segment nonce segment payload segments md opened delivered size others inductionHypothesis =>
    have long : sealedMetadataSize ≤ segment.length := by
      rw [size, segmentEnd]
      omega
    have front := metadata_at_more aead key nonce segment segments.flatten long
    have whole : segmentEnd md ≤ (segment ++ segments.flatten).length := by
      rw [List.length_append]
      omega
    rw [List.flatten_cons, interrupted_iff aead key _ _ _ md (front.trans opened),
      payload_at_more aead key _ md _ _ size.ge, List.drop_left' size, inductionHypothesis]
    constructor
    · rintro (⟨position, reached, after, before⟩ |
        ⟨-, -, before, other, after, position, rfl, reached, late, early⟩)
      · exact ⟨[], segment, segments, position, rfl, reached, by simpa using after,
          by simpa [size] using before⟩
      · refine ⟨segment :: before, other, after, _, rfl, reached, ?_, ?_⟩
        · rw [List.flatten_cons, List.length_append]
          omega
        · rw [List.flatten_cons, List.length_append]
          omega
    · rintro ⟨before, other, after, position, split, reached, late, early⟩
      rcases before with _ | ⟨first, before⟩
      · obtain ⟨rfl, rfl⟩ := List.cons.inj split
        exact .inl ⟨position, reached, by simpa using late, by simpa [size] using early⟩
      · obtain ⟨rfl, rfl⟩ := List.cons.inj split
        rw [List.flatten_cons, List.length_append] at late early
        have shifted : segmentEnd md + (position - segmentEnd md) = position := by omega
        rw [← shifted] at reached
        exact .inr ⟨whole, ⟨payload, delivered⟩, before, other, after, position - segmentEnd md,
          rfl, reached, by omega, by omega⟩

/-- Segments that were sealed for the session make the pump panic exactly when a read ends
inside one of them after its sealed metadata. -/
theorem sealed_panics_iff (nonce : Octets 24) (segments pieces : List Bytes)
    (sealed : SealedFor aead key nonce segments) (cut : CutOf segments.flatten pieces) :
    (pieces.foldl (ServerPump.feed aead key) ⟨[], nonce, [], .running⟩).status = .panicked ↔
      ∃ before segment after position, segments = before ++ segment :: after ∧
        position ∈ readEnds 0 pieces ∧ before.flatten.length + sealedMetadataSize ≤ position ∧
        position < before.flatten.length + segment.length := by
  rw [pump_panics_iff aead key nonce _ pieces cut, interrupted_sealed_iff aead key sealed]

/-- A sealed payload opens behind the octets of sealed metadata. -/
theorem sealed_payload_opens (nonce : Octets 24) (md : ParsedMetadata) (payload : Bytes)
    (size : payload.length = md.payloadLen.toNat) (nonempty : payload ≠ []) :
    ∃ encPayload, cryptoSeal aead key (incrementOctets (incrementOctets nonce)) payload =
        some encPayload ∧
      encPayload.length = md.payloadLen.toNat + tagSize ∧
      ∀ front : Bytes, front.length = sealedMetadataSize →
        payloadAt aead key nonce md (front ++ encPayload) = some payload := by
  have short : payload.length ≤ sealLimit := by
    have bound := md.payloadLen.toNat_lt
    simp only [sealLimit]
    omega
  obtain ⟨encPayload, sealedPayload, width, opened⟩ := aead.combine_exact key
    (incrementOctets (incrementOctets nonce)) [] payload (by simp) short
  have wide : encPayload.length = md.payloadLen.toNat + tagSize := by
    rw [width, size]
    rfl
  have positive : 0 < md.payloadLen.toNat := by
    rw [← size]
    exact List.length_pos_iff.mpr nonempty
  refine ⟨encPayload, sealedPayload, wide, fun front width => ?_⟩
  rw [payloadAt, if_pos positive, List.drop_left' width, List.take_of_length_le wide.le]
  exact opened

end SealedSegments

section Timing

/-- Exactly when the pump survives every read of a stream: no read ends inside a segment
after its sealed metadata, for any segment that the pump comes to. -/
theorem never_panics_iff (key : Octets 32) (nonce : Octets 24) (stream : Bytes) (pieces : List Bytes)
    (cut : CutOf stream pieces) :
    (pieces.foldl (ServerPump.feed aead key) ⟨[], nonce, [], .running⟩).status ≠ .panicked ↔
      ∀ start md, SegmentAt aead key nonce stream start md →
        ∀ position ∈ readEnds 0 pieces,
          position < start + sealedMetadataSize ∨ start + segmentEnd md ≤ position := by
  rw [ne_eq, pump_panics_iff aead key nonce stream pieces cut]
  constructor
  · intro safe start md segment position member
    by_contra inside
    exact safe ⟨start, md, segment, position, member, by omega, by omega⟩
  · rintro apart ⟨start, md, segment, position, member, after, before⟩
    rcases apart start md segment position member with early | late
    · omega
    · omega

/-- The metadata of a payload of two octets. -/
def twoOctets : ParsedMetadata := ⟨protoDataC2s, 1000, 0, 1, 0, 2, 0⟩

/-- The condition at a sealed segment that arrives in one read. -/
theorem never_panics_whole_segment :
    ∃ encMeta encPayload,
      cryptoSeal AuthenticatedCiphers.xchacha20Poly1305 (zeroOctets 32) (zeroOctets 24)
        (buildMetadata twoOctets).toList = some encMeta ∧
      cryptoSeal AuthenticatedCiphers.xchacha20Poly1305 (zeroOctets 32)
        (incrementOctets (incrementOctets (zeroOctets 24))) [0x68, 0x69] = some encPayload ∧
      CutOf (encMeta ++ encPayload) [encMeta ++ encPayload] ∧
      (([encMeta ++ encPayload].foldl
          (ServerPump.feed AuthenticatedCiphers.xchacha20Poly1305 (zeroOctets 32))
          ⟨[], zeroOctets 24, [], .running⟩).status ≠ .panicked ↔
        ∀ start md, SegmentAt AuthenticatedCiphers.xchacha20Poly1305 (zeroOctets 32)
            (zeroOctets 24) (encMeta ++ encPayload) start md →
          ∀ position ∈ readEnds 0 [encMeta ++ encPayload],
            position < start + sealedMetadataSize ∨ start + segmentEnd md ≤ position) := by
  obtain ⟨encMeta, sealedMeta, metaWidth, -⟩ := sealed_metadata_opens
    AuthenticatedCiphers.xchacha20Poly1305 (zeroOctets 32) (zeroOctets 24) twoOctets
  obtain ⟨encPayload, sealedPayload, payloadWidth, -⟩ := sealed_payload_opens
    AuthenticatedCiphers.xchacha20Poly1305 (zeroOctets 32) (zeroOctets 24) twoOctets [0x68, 0x69]
    rfl (by decide)
  have width : (encMeta ++ encPayload).length = 66 := by
    rw [List.length_append, metaWidth, payloadWidth]
    rfl
  have cut : CutOf (encMeta ++ encPayload) [encMeta ++ encPayload] := by
    refine ⟨List.flatten_singleton, ?_⟩
    intro piece member
    rw [List.mem_singleton.mp member]
    exact ⟨List.ne_nil_of_length_pos (by omega), by rw [width]; decide⟩
  exact ⟨encMeta, encPayload, sealedMeta, sealedPayload, cut, never_panics_iff
    AuthenticatedCiphers.xchacha20Poly1305 (zeroOctets 32) (zeroOctets 24) _ _ cut⟩

/-- A segment that was sealed for the session and arrives in two reads, its metadata and
the rest: the pump panics after the first of them, whatever the rest is. -/
theorem read_after_metadata_panics :
    ∃ encMeta encPayload,
      cryptoSeal AuthenticatedCiphers.xchacha20Poly1305 (zeroOctets 32) (zeroOctets 24)
        (buildMetadata twoOctets).toList = some encMeta ∧
      cryptoSeal AuthenticatedCiphers.xchacha20Poly1305 (zeroOctets 32)
        (incrementOctets (incrementOctets (zeroOctets 24))) [0x68, 0x69] = some encPayload ∧
      SealedFor AuthenticatedCiphers.xchacha20Poly1305 (zeroOctets 32) (zeroOctets 24)
        [encMeta ++ encPayload] ∧
      ∀ rest : Bytes, rest.length = encPayload.length →
        CutOf (encMeta ++ rest) [encMeta, rest] ∧
        ([encMeta, rest].foldl
          (ServerPump.feed AuthenticatedCiphers.xchacha20Poly1305 (zeroOctets 32))
          ⟨[], zeroOctets 24, [], .running⟩).status = .panicked := by
  obtain ⟨encMeta, sealedMeta, metaWidth, opened⟩ := sealed_metadata_opens
    AuthenticatedCiphers.xchacha20Poly1305 (zeroOctets 32) (zeroOctets 24) twoOctets
  obtain ⟨encPayload, sealedPayload, payloadWidth, delivered⟩ := sealed_payload_opens
    AuthenticatedCiphers.xchacha20Poly1305 (zeroOctets 32) (zeroOctets 24) twoOctets [0x68, 0x69]
    rfl (by decide)
  have segmentWidth : (encMeta ++ encPayload).length = segmentEnd twoOctets := by
    rw [List.length_append, metaWidth, payloadWidth]
    rfl
  refine ⟨encMeta, encPayload, sealedMeta, sealedPayload,
    .segment (opened encPayload) (delivered encMeta metaWidth) segmentWidth .done, ?_⟩
  intro rest restWidth
  rw [payloadWidth] at restWidth
  have cut : CutOf (encMeta ++ rest) [encMeta, rest] := by
    refine ⟨by simp, ?_⟩
    intro piece member
    rcases List.mem_cons.mp member with rfl | member
    · exact ⟨List.ne_nil_of_length_pos (by rw [metaWidth]; decide), by rw [metaWidth]; decide⟩
    · rw [List.mem_singleton.mp member]
      exact ⟨List.ne_nil_of_length_pos (by rw [restWidth]; decide), by rw [restWidth]; decide⟩
  refine ⟨cut, (pump_panics_iff AuthenticatedCiphers.xchacha20Poly1305 (zeroOctets 32)
    (zeroOctets 24) _ _ cut).mpr ?_⟩
  refine ⟨0, twoOctets, .first (opened rest), sealedMetadataSize, ?_, by omega, by decide⟩
  rw [readEnds, metaWidth, Nat.zero_add]
  exact List.mem_cons_self

end Timing

end OmniProxy.MieruReadPump
