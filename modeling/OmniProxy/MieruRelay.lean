import OmniProxy.MieruSegments

/-!
# The relay of an open Mieru session

Each side has a pump that encrypts what is written into segments and a pump that
decrypts what arrives. The reading pumps collect octets and look for sealed metadata
at the front as soon as there are enough for it. They take no account of the length
in front of a segment, nor of a payload that has not arrived: the server removes
octets that are not there and panics, the client removes what there is.

The keys and nonces of both sides are arbitrary. For the cutting into single octets
nothing is ever delivered, whatever the cipher makes of the octets.
-/

namespace OmniProxy.MieruRelay

open ByteStrings CarryCounters CryptoPrimitives SealedBoxes MieruSegments

section Pumps

variable (aead : Aead 32 24)

/-- The stream of a writing pump: the segments of the writes that are not empty. Each
write comes with the minute in which it is encrypted. -/
def writePump (protoType : UInt8) : SegmentState → List (UInt64 × Bytes) → Option Bytes
  | _, [] => some []
  | state, (epochMinute, data) :: writes =>
      if data.isEmpty then writePump protoType state writes
      else do
        let (segment, state) ← state.encryptSegment aead epochMinute protoType data false
        let later ← writePump protoType state writes
        some (segment ++ later)

/-- How a pump ended. -/
inductive PumpStatus where
  | running
  | returned
  | panicked
deriving DecidableEq

/-- The reading pump of the server with what it has sent on. -/
structure ServerPump where
  buf : Bytes
  nonce : Octets 24
  sent : List Bytes
  status : PumpStatus

/-- Take segments from the front while there are octets for sealed metadata. Each
round removes octets, so the number of rounds is bounded by their number. -/
def ServerPump.drain (key : Octets 32) : Nat → ServerPump → ServerPump
  | 0, pump => pump
  | fuel + 1, pump =>
      if pump.buf.length < sealedMetadataSize then pump
      else
        match metadataAt aead key pump.nonce pump.buf with
        | none => { pump with status := .returned }
        | some md =>
            let nonce := incrementOctets pump.nonce
            let payloadLen := md.payloadLen.toNat
            let payloadEnd := sealedMetadataSize + payloadLen + tagSize
            let payload :=
              if 0 < payloadLen ∧ payloadEnd ≤ pump.buf.length then
                cryptoOpen aead key (incrementOctets nonce)
                  ((pump.buf.drop sealedMetadataSize).take (payloadLen + tagSize))
              else some []
            match payload with
            | none => { pump with status := .returned }
            | some payload =>
                let next := if 0 < payloadLen then incrementOctets nonce else nonce
                if pump.buf.length < payloadEnd then
                  { pump with nonce := next, status := .panicked }
                else
                  ServerPump.drain key fuel
                    { pump with
                      buf := pump.buf.drop payloadEnd
                      nonce := next
                      sent := if payload.isEmpty then pump.sent else pump.sent ++ [payload] }

/-- One read of the server's pump. -/
def ServerPump.feed (key : Octets 32) (pump : ServerPump) (piece : Bytes) : ServerPump :=
  if pump.status ≠ .running then pump
  else
    let buf := pump.buf ++ piece
    ServerPump.drain aead key (buf.length + 1) { pump with buf }

/-- The octets that the server's pump sends on for a cutting of its input. -/
def serverDelivers (key : Octets 32) (nonce : Octets 24) (pieces : List Bytes) : Bytes :=
  (pieces.foldl (ServerPump.feed aead key) ⟨[], nonce, [], .running⟩).sent.flatten

/-- The reading pump of the client with what it has sent on. -/
structure ClientPump where
  buf : Bytes
  state : SegmentState
  sent : List Bytes

/-- Take segments from the front while there are octets for sealed metadata and a
segment is found. -/
def ClientPump.drain : Nat → ClientPump → ClientPump
  | 0, pump => pump
  | fuel + 1, pump =>
      if pump.buf.length < sealedMetadataSize then pump
      else
        match pump.state.decryptSegment aead pump.buf false with
        | (none, state) => { pump with state }
        | (some (md, payload), state) =>
            let consumed := sealedMetadataSize + md.payloadLen.toNat + tagSize
            ClientPump.drain fuel
              { buf := pump.buf.drop (min consumed pump.buf.length)
                state
                sent := if payload.isEmpty then pump.sent else pump.sent ++ [payload] }

/-- One read of the client's pump. -/
def ClientPump.feed (pump : ClientPump) (piece : Bytes) : ClientPump :=
  let buf := pump.buf ++ piece
  ClientPump.drain aead (buf.length + 1) { pump with buf }

/-- The octets that the client's pump sends on for a cutting of its input. -/
def clientDelivers (state : SegmentState) (pieces : List Bytes) : Bytes :=
  (pieces.foldl (ClientPump.feed aead) ⟨[], state, []⟩).sent.flatten

/-- The largest read of a pump. -/
def readLimit : Nat := 65536

/-- The pieces are reads of a stream: none is empty or larger than a read. -/
def CutOf (stream : Bytes) (pieces : List Bytes) : Prop :=
  pieces.flatten = stream ∧ ∀ piece ∈ pieces, piece ≠ [] ∧ piece.length ≤ readLimit

/-- A direction relays: the stream of the writes is delivered for every cutting. -/
def Relays (stream : Option Bytes) (delivers : List Bytes → Bytes)
    (writes : List (UInt64 × Bytes)) : Prop :=
  ∃ octets, stream = some octets ∧
    ∀ pieces, CutOf octets pieces → delivers pieces = (writes.map Prod.snd).flatten

end Pumps

section Rounds

variable (aead : Aead 32 24) (key : Octets 32)

/-- The octets of a segment as the pump counts them: the sealed metadata, the payload
and a tag. -/
def segmentEnd (md : ParsedMetadata) : Nat := sealedMetadataSize + md.payloadLen.toNat + tagSize

/-- The nonce after a segment. -/
def nonceAfter (md : ParsedMetadata) (nonce : Octets 24) : Octets 24 :=
  if 0 < md.payloadLen.toNat then incrementOctets (incrementOctets nonce)
  else incrementOctets nonce

/-- The payload of the segment at the front, if it opens. -/
def payloadAt (nonce : Octets 24) (md : ParsedMetadata) (data : Bytes) : Option Bytes :=
  if 0 < md.payloadLen.toNat then
    cryptoOpen aead key (incrementOctets (incrementOctets nonce))
      ((data.drop sealedMetadataSize).take (md.payloadLen.toNat + tagSize))
  else some []

/-- What one round of the server's pump does with enough octets for sealed metadata. -/
theorem drain_round (fuel : Nat) (pump : ServerPump)
    (enough : sealedMetadataSize ≤ pump.buf.length) :
    (metadataAt aead key pump.nonce pump.buf = none ∧
        pump.drain aead key (fuel + 1) = { pump with status := .returned }) ∨
      ∃ md, metadataAt aead key pump.nonce pump.buf = some md ∧
        ((pump.buf.length < segmentEnd md ∧ pump.drain aead key (fuel + 1) =
            { pump with nonce := nonceAfter md pump.nonce, status := .panicked }) ∨
          (segmentEnd md ≤ pump.buf.length ∧
            ((payloadAt aead key pump.nonce md pump.buf = none ∧
                pump.drain aead key (fuel + 1) = { pump with status := .returned }) ∨
              ∃ payload, payloadAt aead key pump.nonce md pump.buf = some payload ∧
                pump.drain aead key (fuel + 1) = ServerPump.drain aead key fuel
                  { pump with
                    buf := pump.buf.drop (segmentEnd md)
                    nonce := nonceAfter md pump.nonce
                    sent := if payload.isEmpty then pump.sent
                      else pump.sent ++ [payload] }))) := by
  rw [ServerPump.drain, if_neg (Nat.not_lt.mpr enough)]
  cases found : metadataAt aead key pump.nonce pump.buf with
  | none => exact .inl ⟨rfl, rfl⟩
  | some md =>
    refine .inr ⟨md, rfl, ?_⟩
    dsimp only
    rw [show sealedMetadataSize + md.payloadLen.toNat + tagSize = segmentEnd md from rfl]
    rcases Nat.lt_or_ge pump.buf.length (segmentEnd md) with short | complete
    · left
      have beyond : ¬(0 < md.payloadLen.toNat ∧ segmentEnd md ≤ pump.buf.length) := by omega
      simp only [if_neg beyond, if_pos short]
      exact ⟨short, rfl⟩
    · refine .inr ⟨complete, ?_⟩
      have same : (if 0 < md.payloadLen.toNat ∧ segmentEnd md ≤ pump.buf.length then
          cryptoOpen aead key (incrementOctets (incrementOctets pump.nonce))
            ((pump.buf.drop sealedMetadataSize).take (md.payloadLen.toNat + tagSize))
          else some []) = payloadAt aead key pump.nonce md pump.buf := by
        simp only [payloadAt, complete, and_true]
      rw [same]
      cases delivered : payloadAt aead key pump.nonce md pump.buf with
      | none => exact .inl ⟨rfl, rfl⟩
      | some payload =>
        refine .inr ⟨payload, rfl, ?_⟩
        simp only [if_neg (Nat.not_lt.mpr complete)]
        rfl

/-- A server without a whole sealed head in its buffer waits. -/
theorem server_drain_short (fuel : Nat) (pump : ServerPump)
    (short : pump.buf.length < sealedMetadataSize) : pump.drain aead key fuel = pump := by
  cases fuel with
  | zero => rfl
  | succ fuel => rw [ServerPump.drain, if_pos short]

end Rounds

section SingleOctets

variable (aead : Aead 32 24)

/-- The server's pump has sent nothing, and has too few octets if it still runs. -/
structure ServerQuiet (pump : ServerPump) : Prop where
  silent : pump.sent = []
  short : pump.status = .running → pump.buf.length < sealedMetadataSize

/-- One more octet leaves the server's pump quiet: with the octets of the metadata
alone it returns or panics. -/
theorem server_feed_octet (key : Octets 32) (pump : ServerPump) (octet : UInt8)
    (quiet : ServerQuiet pump) : ServerQuiet (pump.feed aead key [octet]) := by
  obtain ⟨silent, short⟩ := quiet
  unfold ServerPump.feed
  split
  · exact ⟨silent, short⟩
  · rename_i running
    have few := short (Decidable.not_not.mp running)
    have width : (pump.buf ++ [octet]).length ≤ sealedMetadataSize := by
      rw [List.length_append, List.length_singleton]
      omega
    rcases Nat.lt_or_ge (pump.buf ++ [octet]).length sealedMetadataSize with still | enough
    · rw [server_drain_short aead key _ _ still]
      exact ⟨silent, fun _ => still⟩
    · rcases drain_round aead key _ { pump with buf := pump.buf ++ [octet] } enough with
        ⟨-, same⟩ | ⟨md, -, ⟨-, same⟩ | ⟨complete, -⟩⟩
      · rw [same]
        exact ⟨silent, by simp⟩
      · rw [same]
        exact ⟨silent, by simp⟩
      · simp only [segmentEnd, tagSize] at complete
        omega

/-- The client's pump has sent nothing, and has too few octets or some that do not
open. -/
structure ClientQuiet (pump : ClientPump) : Prop where
  silent : pump.sent = []
  stuck : pump.buf.length < sealedMetadataSize ∨
    metadataAt aead pump.state.key pump.state.nonce pump.buf = none

/-- The metadata depends only on the octets it takes. -/
theorem metadata_at_more (key : Octets 32) (nonce : Octets 24) (data more : Bytes)
    (enough : sealedMetadataSize ≤ data.length) :
    metadataAt aead key nonce (data ++ more) = metadataAt aead key nonce data := by
  rw [metadataAt, metadataAt, List.take_append_of_le_length enough]

/-- An empty buffer is too short for a sealed head. -/
theorem nothing_short : ([] : Bytes).length < sealedMetadataSize := by
  decide

/-- A client without a whole sealed head in its buffer waits. -/
theorem client_drain_short (fuel : Nat) (pump : ClientPump)
    (short : pump.buf.length < sealedMetadataSize) : ClientPump.drain aead fuel pump = pump := by
  cases fuel with
  | zero => rfl
  | succ fuel => rw [ClientPump.drain, if_pos short]

/-- Without octets of a payload the client's segment has an empty one, and the state
keeps its key. -/
theorem decrypt_segment_bare (state : SegmentState) (data : Bytes)
    (size : data.length = sealedMetadataSize) :
    (metadataAt aead state.key state.nonce data = none ∧
        state.decryptSegment aead data false = (none, state)) ∨
      ∃ md after, state.decryptSegment aead data false = (some (md, []), after) := by
  have enough : ¬data.length < sealedMetadataSize := by omega
  cases found : metadataAt aead state.key state.nonce data with
  | none =>
    left
    simp only [SegmentState.decryptSegment, Bool.false_and, Bool.false_eq_true, if_false,
      if_neg enough, found, and_self]
  | some md =>
    right
    have beyond : ¬(0 < md.payloadLen.toNat ∧
        sealedMetadataSize + md.payloadLen.toNat + tagSize ≤ data.length) := by
      simp only [tagSize]
      omega
    simp only [SegmentState.decryptSegment, Bool.false_and, Bool.false_eq_true, if_false,
      if_neg enough, found, if_neg beyond]
    exact ⟨md, _, rfl⟩

/-- One more octet leaves the client's pump quiet: metadata that opens is removed
before its payload arrives, and metadata that does not open stays in front. -/
theorem client_feed_octet (pump : ClientPump) (octet : UInt8) (quiet : ClientQuiet aead pump) :
    ClientQuiet aead (pump.feed aead [octet]) := by
  obtain ⟨silent, stuck⟩ := quiet
  have width : (pump.buf ++ [octet]).length = pump.buf.length + 1 := by
    rw [List.length_append, List.length_singleton]
  unfold ClientPump.feed
  by_cases short : (pump.buf ++ [octet]).length < sealedMetadataSize
  · rw [client_drain_short aead _ _ short]
    exact ⟨silent, .inl short⟩
  · rw [ClientPump.drain, if_neg short]
    by_cases size : (pump.buf ++ [octet]).length = sealedMetadataSize
    · obtain ⟨closed, kept⟩ | ⟨md, after, opened⟩ :=
        decrypt_segment_bare aead pump.state (pump.buf ++ [octet]) size
      · simp only [kept]
        exact ⟨silent, .inr closed⟩
      · have covered : min (sealedMetadataSize + md.payloadLen.toNat + tagSize)
            (pump.buf ++ [octet]).length = (pump.buf ++ [octet]).length := by
          simp only [tagSize]
          omega
        simp only [opened, covered, List.drop_length, List.isEmpty_nil, if_true]
        rw [client_drain_short aead _ _ nothing_short]
        exact ⟨silent, .inl nothing_short⟩
    · have enough : sealedMetadataSize ≤ pump.buf.length := by omega
      have closed := stuck.resolve_left (Nat.not_lt.mpr enough)
      rw [← metadata_at_more aead _ _ _ [octet] enough] at closed
      have kept : pump.state.decryptSegment aead (pump.buf ++ [octet]) false =
          (none, pump.state) := by
        simp only [SegmentState.decryptSegment, Bool.false_and, Bool.false_eq_true, if_false,
          if_neg short, closed]
      simp only [kept]
      exact ⟨silent, .inr closed⟩

/-- The reads of a stream that arrives octet by octet. -/
def octetwise (stream : Bytes) : List Bytes := stream.map fun octet => [octet]

/-- Octets that arrive one by one are the stream that they were cut from. -/
theorem octetwise_cut (stream : Bytes) : CutOf stream (octetwise stream) := by
  constructor
  · induction stream with
    | nil => rfl
    | cons octet stream inductionHypothesis =>
      rw [octetwise, List.map_cons, List.flatten_cons, ← octetwise, inductionHypothesis]
      rfl
  · intro piece member
    obtain ⟨octet, -, rfl⟩ := List.mem_map.mp member
    refine ⟨List.cons_ne_nil _ _, ?_⟩
    rw [List.length_singleton]
    decide

/-- What every octet keeps, a stream that arrives octet by octet keeps. -/
theorem fold_octetwise {Pump : Type} {feed : Pump → Bytes → Pump} {Quiet : Pump → Prop}
    (each : ∀ pump octet, Quiet pump → Quiet (feed pump [octet])) (stream : Bytes) (pump : Pump)
    (quiet : Quiet pump) : Quiet ((octetwise stream).foldl feed pump) := by
  induction stream generalizing pump with
  | nil => exact quiet
  | cons octet stream inductionHypothesis =>
    exact inductionHypothesis _ (each pump octet quiet)

/-- The server delivers nothing of a stream that arrives octet by octet. -/
theorem server_delivers_octetwise (key : Octets 32) (nonce : Octets 24) (stream : Bytes) :
    serverDelivers aead key nonce (octetwise stream) = [] := by
  have initial : ServerQuiet ⟨[], nonce, [], .running⟩ :=
    ⟨rfl, fun _ => nothing_short⟩
  have final := fold_octetwise (server_feed_octet aead key) stream _ initial
  rw [serverDelivers, final.silent, List.flatten_nil]

/-- The client delivers nothing of a stream that arrives octet by octet. -/
theorem client_delivers_octetwise (state : SegmentState) (stream : Bytes) :
    clientDelivers aead state (octetwise stream) = [] := by
  have initial : ClientQuiet aead ⟨[], state, []⟩ :=
    ⟨rfl, .inl nothing_short⟩
  have final := fold_octetwise (client_feed_octet aead) stream _ initial
  rw [clientDelivers, final.silent, List.flatten_nil]

end SingleOctets

section Relay

variable (aead : Aead 32 24)

/-- The writes of an application: none is empty or larger than a payload. -/
def Writes (writes : List (UInt64 × Bytes)) : Prop :=
  ∀ write ∈ writes, write.2 ≠ [] ∧ write.2.length ≤ 65535

/-- A direction whose pump delivers nothing of single octets relays only if there is
nothing to relay. -/
theorem relays_iff_no_writes (stream : Option Bytes) (delivers : List Bytes → Bytes)
    (writes : List (UInt64 × Bytes)) (allowed : Writes writes)
    (unwritten : writes = [] → stream = some [])
    (nothing : delivers [] = [])
    (octets : ∀ stream, delivers (octetwise stream) = []) :
    Relays stream delivers writes ↔ writes = [] := by
  constructor
  · rintro ⟨stream, -, delivered⟩
    have empty := (octets stream).symm.trans (delivered _ (octetwise_cut stream))
    cases writes with
    | nil => rfl
    | cons write writes =>
      rw [List.map_cons, List.flatten_cons] at empty
      exact absurd (List.append_eq_nil_iff.mp empty.symm).1
        (allowed write List.mem_cons_self).1
  · rintro rfl
    refine ⟨[], unwritten rfl, ?_⟩
    rintro pieces ⟨whole, nonempty⟩
    cases pieces with
    | nil => exact nothing
    | cons piece pieces =>
      rw [List.flatten_cons] at whole
      exact absurd (List.append_eq_nil_iff.mp whole).1 (nonempty piece List.mem_cons_self).1

/-- A session: the states of the writing and of the reading pumps. -/
structure Session where
  clientWrites : SegmentState
  serverReadKey : Octets 32
  serverReadNonce : Octets 24
  serverWrites : SegmentState
  clientReads : SegmentState

/-- Both directions of a session relay what is written. -/
def Session.Relays (session : Session) (upload download : List (UInt64 × Bytes)) : Prop :=
  MieruRelay.Relays (writePump aead protoDataC2s session.clientWrites upload)
      (serverDelivers aead session.serverReadKey session.serverReadNonce) upload ∧
    MieruRelay.Relays (writePump aead protoDataS2c session.serverWrites download)
      (clientDelivers aead session.clientReads) download

/-- A session relays in both directions exactly if nothing is written. Whatever the
states are, a stream that arrives octet by octet is not delivered. -/
theorem session_relays_iff (session : Session) (upload download : List (UInt64 × Bytes))
    (uploads : Writes upload) (downloads : Writes download) :
    session.Relays aead upload download ↔ upload = [] ∧ download = [] := by
  have up := relays_iff_no_writes (writePump aead protoDataC2s session.clientWrites upload)
    (serverDelivers aead session.serverReadKey session.serverReadNonce) upload uploads
    (by rintro rfl; rfl) rfl
    (server_delivers_octetwise aead session.serverReadKey session.serverReadNonce)
  have down := relays_iff_no_writes (writePump aead protoDataS2c session.serverWrites download)
    (clientDelivers aead session.clientReads) download downloads
    (by rintro rfl; rfl) rfl (client_delivers_octetwise aead session.clientReads)
  exact and_congr up down

/-- A session that was opened with a key and nonces of zeros. The writing pumps are past
their first segments. -/
def zeroSession : Session where
  clientWrites := ⟨zeroOctets 32, incrementOctets (incrementOctets (zeroOctets 24)), 1⟩
  serverReadKey := zeroOctets 32
  serverReadNonce := zeroOctets 24
  serverWrites := ⟨zeroOctets 32, incrementOctets (zeroOctets 24), 1⟩
  clientReads := ⟨zeroOctets 32, zeroOctets 24, 0⟩

/-- The sample session relays exactly when nothing was written to it. -/
theorem zero_session_relays_iff :
    Writes [(1000, [0x68, 0x69])] ∧ Writes [] ∧
      (zeroSession.Relays AuthenticatedCiphers.xchacha20Poly1305 [(1000, [0x68, 0x69])] [] ↔
        [((1000 : UInt64), ([0x68, 0x69] : Bytes))] = [] ∧ ([] : List (UInt64 × Bytes)) = []) :=
  have uploads : Writes [(1000, [0x68, 0x69])] := by unfold Writes; decide
  have downloads : Writes [] := by unfold Writes; decide
  ⟨uploads, downloads, session_relays_iff AuthenticatedCiphers.xchacha20Poly1305 zeroSession
    [(1000, [0x68, 0x69])] [] uploads downloads⟩

/-- One write of two octets. Its segment is written, and of its octets, read one by
one, the server's pump delivers none. -/
theorem single_write_lost :
    Writes [(1000, [0x68, 0x69])] ∧
      ∃ stream, writePump AuthenticatedCiphers.xchacha20Poly1305 protoDataC2s
          zeroSession.clientWrites [(1000, [0x68, 0x69])] = some stream ∧
        CutOf stream (octetwise stream) ∧
        serverDelivers AuthenticatedCiphers.xchacha20Poly1305 zeroSession.serverReadKey
          zeroSession.serverReadNonce (octetwise stream) = [] ∧
        ¬zeroSession.Relays AuthenticatedCiphers.xchacha20Poly1305 [(1000, [0x68, 0x69])] [] := by
  refine ⟨by unfold Writes; decide, ?_⟩
  obtain ⟨encMeta, encPayload, after, -, -, written⟩ := encrypt_segment_exact
    AuthenticatedCiphers.xchacha20Poly1305 zeroSession.clientWrites 1000 protoDataC2s
    [0x68, 0x69] false (by decide)
  have stream := octetwise_cut (usizeToBeBytes (announcedLength [0x68, 0x69] false) ++
    (encMeta ++ encPayload))
  have lost := server_delivers_octetwise AuthenticatedCiphers.xchacha20Poly1305
    zeroSession.serverReadKey zeroSession.serverReadNonce
    (usizeToBeBytes (announcedLength [0x68, 0x69] false) ++ (encMeta ++ encPayload))
  have pumped : writePump AuthenticatedCiphers.xchacha20Poly1305 protoDataC2s
      zeroSession.clientWrites [(1000, [0x68, 0x69])] =
        some (usizeToBeBytes (announcedLength [0x68, 0x69] false) ++ (encMeta ++ encPayload)) := by
    simp [writePump, written]
  refine ⟨_, pumped, stream, lost, ?_⟩
  rintro ⟨⟨octets, pumped', delivered⟩, -⟩
  rw [pumped, Option.some.injEq] at pumped'
  subst pumped'
  have absurdity := lost.symm.trans (delivered _ stream)
  simp at absurdity

end Relay

end OmniProxy.MieruRelay
