import OmniProxy.IncrementalDecoding
import OmniProxy.UdpFrames

/-!
# Streams of datagram frames

The frames of the datagrams of a connection arrive in pieces that do not follow
the frames. A decoder is fed each piece and then asked for packets until it has
none. The Trojan decoder hands out every packet after the piece that completes its
frame: part of a frame is told apart from a broken one because an encoded address
is shorter than the length up to which an unreadable address counts as incomplete.

The VLESS decoder waits for two octets more than a frame has, and takes them with
the frame. A packet it hands out carries two octets that belong to the next frame,
so no list of packets other than the empty one is read back.
-/

namespace OmniProxy.UdpFrameStreams

open ByteStrings Connections ProxyTargets UdpFrames IncrementalDecoding

/-- A decoder of datagram frames, by the octets of its buffer. -/
def collector {Address : Type}
    (nextPacket : Decoder → Option (Except IoError (Address × Bytes)) × Decoder) :
    Collector UInt8 (Except IoError (Address × Bytes)) where
  State := Decoder
  feed := Decoder.feed
  next := nextPacket
  held decoder := decoder.buf.length

/-- A decoder whose stream has not ended, with the octets it holds. -/
def holding (buf : Bytes) : Decoder := ⟨buf, false⟩

/-- The decoder of datagram frames takes further octets behind those that it has. -/
theorem collector_holding {Address : Type}
    (nextPacket : Decoder → Option (Except IoError (Address × Bytes)) × Decoder) :
    Holding (collector nextPacket) holding where
  fed _ _ := rfl
  counted _ := rfl

/-- The packets are read back from the pieces: every packet is handed out after
the piece that completes its frame, in order, without an error, and the rest of the
decoder is as wanted. -/
def ReadBack {Address : Type}
    (nextPacket : Decoder → Option (Except IoError (Address × Bytes)) × Decoder)
    (encode : Address × Bytes → Bytes) (packets : List (Address × Bytes)) (pieces : List Bytes)
    (Final : Decoder → Prop) : Prop :=
  ∃ answers final,
    (collector nextPacket).decode pieces Decoder.new = some (answers, final) ∧
      answers.flatten = packets.map Except.ok ∧
      Prompt (fun packet => (encode packet).length) Except.ok packets pieces answers ∧
      Final final

/-- Whatever decodes promptly hands out all packets. -/
theorem prompt_flatten {Address : Type} {encode : Address × Bytes → Bytes}
    {packets : List (Address × Bytes)} {pieces : List Bytes}
    {answers : List (List (Except IoError (Address × Bytes)))}
    (cut : pieces.flatten = (packets.map encode).flatten)
    (prompt : Prompt (fun packet => (encode packet).length) Except.ok packets pieces answers) :
    answers.flatten = packets.map Except.ok := by
  have last := prompt.after pieces.length
  rwa [List.take_length, ← prompt.grouped, List.take_length, cut, arrived_all] at last

section TrojanFrames

/-- What follows the address in a Trojan frame. -/
def trojanBody (payload : Bytes) : Bytes :=
  [0x0D, 0x0A] ++ (bigEndian16 (UInt16.ofNat payload.length) ++ ([0x0D, 0x0A] ++ payload))

/-- A frame is its address and what the frame has behind it. -/
theorem trojan_encode_eq (addr : Socks5Addr) (payload : Bytes) :
    Trojan.encode addr payload = addr.encodeInto [] ++ trojanBody payload := by
  simp only [Trojan.encode, trojanBody, List.append_assoc]

/-- What stands behind the address takes six octets more than the payload. -/
theorem trojan_body_length (payload : Bytes) :
    (trojanBody payload).length = 6 + payload.length := by
  simp only [trojanBody, List.length_append, List.length_cons, List.length_nil,
    big_endian16_length]
  omega

/-- The length in a frame is the length of its payload. -/
theorem trojan_body_announces (payload rest : Bytes) (short : payload.length ≤ 65535) :
    (portAt (trojanBody payload ++ rest) 2).toNat = payload.length := by
  have announced : portAt (trojanBody payload ++ rest) 2 = UInt16.ofNat payload.length := by
    rw [trojanBody, List.append_assoc, List.append_assoc]
    exact port_at_append [0x0D, 0x0A] _ _ 2 rfl
  rw [announced, UInt16.toNat_ofNat']
  omega

/-- A frame at the front of the buffer is found whole. -/
theorem try_parse_whole (addr : Socks5Addr) (payload rest : Bytes)
    (named : addr.toProxyTarget.named) (short : payload.length ≤ 65535) :
    Trojan.tryParse (Trojan.encode addr payload ++ rest) =
      .ok addr payload (Trojan.encode addr payload).length := by
  have decoded := decode_encode_target addr.toProxyTarget named (trojanBody payload ++ rest)
  rw [from_to_proxy_target] at decoded
  have announced := trojan_body_announces payload rest short
  have width : (trojanBody payload ++ rest).length = 6 + payload.length + rest.length := by
    rw [List.length_append, trojan_body_length]
  have delimited : (trojanBody payload ++ rest).take 2 = [0x0D, 0x0A] := rfl
  have carried : ((trojanBody payload ++ rest).drop 6).take payload.length = payload := by
    have front : trojanBody payload ++ rest =
        ([0x0D, 0x0A] ++ bigEndian16 (UInt16.ofNat payload.length) ++ [0x0D, 0x0A]) ++
          (payload ++ rest) := by
      simp only [trojanBody, List.append_assoc]
    rw [front, List.drop_left' (by simp), List.take_left]
  rw [trojan_encode_eq, List.append_assoc, Trojan.tryParse]
  simp only [decoded, List.drop_left, delimited, width, announced, carried]
  rw [if_neg (by omega), if_neg (by simp), if_neg (by omega), if_neg (by omega),
    List.length_append, trojan_body_length, Nat.add_assoc]

/-- Part of a frame is incomplete. The cut is inside the address, where the octets
are too few to be called broken, or after it. -/
theorem try_parse_part (addr : Socks5Addr) (payload part missing : Bytes)
    (named : addr.toProxyTarget.named) (short : payload.length ≤ 65535)
    (framed : part ++ missing = Trojan.encode addr payload) (lacking : missing ≠ []) :
    Trojan.tryParse part = .need := by
  rw [trojan_encode_eq] at framed
  rcases List.append_eq_append_iff.mp framed with
    ⟨absent, address, -⟩ | ⟨beyond, rfl, body⟩
  · by_cases cut : absent = []
    · subst cut
      rw [List.append_nil] at address
      subst address
      have decoded := decode_encode_target addr.toProxyTarget named []
      rw [from_to_proxy_target, List.append_nil] at decoded
      rw [Trojan.tryParse]
      simp only [decoded, List.drop_length, List.length_nil]
      rw [if_pos (by omega)]
    · have spelled := address.symm
      rw [← from_to_proxy_target addr] at spelled
      obtain ⟨error, refused⟩ := decode_part addr.toProxyTarget named part absent spelled cut
      have bound := encode_into_length addr.toProxyTarget named
      rw [from_to_proxy_target, address, List.length_append] at bound
      rw [Trojan.tryParse]
      simp only [refused]
      rw [if_pos (by omega)]
  · have decoded := decode_encode_target addr.toProxyTarget named beyond
    rw [from_to_proxy_target] at decoded
    have width := congrArg List.length body
    rw [trojan_body_length, List.length_append] at width
    have positive := List.length_pos_of_ne_nil lacking
    rw [Trojan.tryParse]
    simp only [decoded, List.drop_left]
    by_cases delimiter : beyond.length < 2
    · rw [if_pos delimiter]
    · have delimited : beyond.take 2 = [0x0D, 0x0A] := by
        have front : (trojanBody payload).take 2 = [0x0D, 0x0A] := rfl
        rwa [body, List.take_append_of_le_length (by omega)] at front
      rw [if_neg delimiter, if_neg (by simp [delimited])]
      by_cases length : beyond.length < 4
      · rw [if_pos length]
      · have announced := trojan_body_announces payload [] short
        rw [List.append_nil, body, port_at_more beyond missing 2 (by omega)] at announced
        rw [if_neg length, announced, if_pos (by omega)]

/-- The Trojan decoder takes whole frames and waits for the rest of others. -/
theorem trojan_takes (packets : List (Socks5Addr × Bytes))
    (usable : ∀ packet ∈ packets,
      packet.1.toProxyTarget.named ∧ packet.2.length ≤ 65535) :
    Takes (collector Trojan.nextPacket) holding (fun packet => Trojan.encode packet.1 packet.2)
      Except.ok packets where
  nonempty packet _ := by
    rw [trojan_encode_eq]
    exact List.append_ne_nil_of_left_ne_nil (encode_into_nonempty packet.1) _
  whole packet member rest := by
    obtain ⟨named, short⟩ := usable packet member
    have parsed := try_parse_whole packet.1 packet.2 rest named short
    simp only [collector, Trojan.nextPacket, holding, Bool.and_false, parsed,
      List.drop_left, Bool.false_eq_true, if_false]
  part packet member carried missing framed lacking := by
    obtain ⟨named, short⟩ := usable packet member
    have parsed := try_parse_part packet.1 packet.2 carried missing named short framed lacking
    simp only [collector, Trojan.nextPacket, holding, Bool.and_false, parsed,
      Bool.false_eq_true, if_false]
  idle := rfl

/-- The encoding of a packet of the Trojan protocol. -/
def trojanFrame (packet : Socks5Addr × Bytes) : Bytes := Trojan.encode packet.1 packet.2

/-- However the frames of a list of packets are cut into pieces, the Trojan decoder
hands out the packets in order, each after the piece with its last octet, without
an error, and holds nothing at the end. -/
theorem trojan_packets_read_back (packets : List (Socks5Addr × Bytes)) (pieces : List Bytes)
    (usable : ∀ packet ∈ packets,
      packet.1.toProxyTarget.named ∧ packet.2.length ≤ 65535)
    (cut : pieces.flatten = (packets.map trojanFrame).flatten) :
    ReadBack Trojan.nextPacket trojanFrame packets pieces fun final => final.buf = [] := by
  obtain ⟨answers, decoded, prompt⟩ :=
    decode_frames (collector_holding Trojan.nextPacket) packets pieces
      (trojan_takes packets usable) cut
  exact ⟨answers, holding [], decoded, prompt_flatten cut prompt, prompt, rfl⟩

/-- Two packets to the domains "a" and "b", cut inside both addresses. -/
theorem two_trojan_packets_read_back :
    ReadBack Trojan.nextPacket trojanFrame [(.domain "a" 53, [7]), (.domain "b" 53, [])]
      [[0x03, 1, 0x61], [0, 53, 0x0D, 0x0A, 0, 1, 0x0D, 0x0A, 7, 0x03],
        [1, 0x62, 0, 53, 0x0D, 0x0A, 0, 0, 0x0D, 0x0A]] fun final => final.buf = [] :=
  trojan_packets_read_back _ _ (by decide) (by decide)

end TrojanFrames

section VlessFrames

/-- The encoding of a packet of the VLESS protocol. -/
def vlessFrame (packet : ProxyTarget × Bytes) : Bytes := Vless.encode packet.1 packet.2

/-- A frame of the VLESS protocol announces the length of its data. -/
theorem vless_frame_announces (target : ProxyTarget) (data rest : Bytes)
    (short : data.length ≤ 65535) :
    (portAt (Vless.encode target data ++ rest) 0).toNat = data.length := by
  have announced : portAt (Vless.encode target data ++ rest) 0 = UInt16.ofNat data.length := by
    rw [Vless.encode, List.append_assoc, List.append_assoc, List.append_assoc]
    exact port_at_append [] _ _ 0 rfl
  rw [announced, UInt16.toNat_ofNat']
  omega

/-- A decoder of the VLESS protocol without an answer keeps what it holds. -/
theorem vless_waits (decoder after : Decoder) (asked : Vless.nextPacket decoder = (none, after)) :
    after = decoder := by
  unfold Vless.nextPacket at asked
  split at asked
  · exact (Prod.mk.inj asked).2.symm
  · simp only at asked
    split at asked
    · split at asked
      · simp at asked
      · exact (Prod.mk.inj asked).2.symm
    · split at asked <;> simp at asked

/-- The length of an address is told by its tag and the octet after it. -/
theorem frame_addr_len_take (buf : Bytes) (count : Nat) (enough : 2 ≤ count) :
    Vless.frameAddrLen (buf.take count) = Vless.frameAddrLen buf := by
  obtain ⟨more, rfl⟩ : ∃ more, count = more + 2 := ⟨count - 2, by omega⟩
  rcases buf with _ | ⟨tag, _ | ⟨len, rest⟩⟩ <;> rfl

/-- The data of a frame starts right after its address and port. -/
theorem frame_target_offset (frame : Bytes) (target : ProxyTarget) (offset : Nat)
    (long : 4 ≤ frame.length) (found : Vless.frameTarget frame = .ok (target, offset)) :
    offset = 2 + Vless.frameAddrLen (frame.drop 2) := by
  obtain ⟨first, second, tag, len, rest, rfl⟩ :
      ∃ first second tag len rest, frame = first :: second :: tag :: len :: rest := by
    rcases frame with _ | ⟨first, _ | ⟨second, _ | ⟨tag, _ | ⟨len, rest⟩⟩⟩⟩
    iterate 4 simp at long
    exact ⟨first, second, tag, len, rest, rfl⟩
  simp only [Vless.frameTarget, List.getD_cons_succ, List.getD_cons_zero] at found
  simp only [List.drop_succ_cons, List.drop_zero, Vless.frameAddrLen]
  by_cases v4 : tag = 0x01
  · rw [if_pos v4] at found ⊢
    simp only [Except.ok.injEq, Prod.mk.injEq] at found
    omega
  rw [if_neg v4] at found ⊢
  by_cases named : tag = 0x02
  · rw [if_pos named] at found
    rw [if_neg (by simp [named]), if_pos named]
    simp only [Except.ok.injEq, Prod.mk.injEq] at found
    omega
  rw [if_neg named] at found
  by_cases v6 : tag = 0x03
  · rw [if_pos v6] at found ⊢
    simp only [Except.ok.injEq, Prod.mk.injEq] at found
    omega
  · rw [if_neg v6] at found
    simp at found

/-- A packet taken carries two octets more than its frame announces, for each kind
of address. -/
theorem vless_surplus (decoder after : Decoder) (target : ProxyTarget) (data : Bytes)
    (taken : Vless.nextPacket decoder = (some (.ok (target, data)), after)) :
    3 ≤ decoder.buf.length ∧ data.length = (portAt decoder.buf 0).toNat + 2 := by
  unfold Vless.nextPacket at taken
  split at taken
  · simp at taken
  rename_i enough
  simp only at taken
  split at taken
  · split at taken <;> simp at taken
  rename_i complete
  split at taken
  · simp at taken
  rename_i found offset framed
  simp only [Prod.mk.injEq, Option.some.injEq, Except.ok.injEq] at taken
  have starts := frame_target_offset _ _ _ (by rw [List.length_take]; omega) framed
  rw [List.drop_take, frame_addr_len_take _ _ (by omega)] at starts
  refine ⟨by omega, ?_⟩
  rw [← taken.1.2, List.length_drop, List.length_take, Nat.min_eq_left (by omega)]
  omega

/-- On the first octets of a stream that begins with a packet's frame the decoder
either waits or answers something else than that packet. -/
theorem vless_never_first (packet : ProxyTarget × Bytes) (rest : Bytes)
    (short : packet.2.length ≤ 65535) (carried later : Bytes)
    (cut : carried ++ later = vlessFrame packet ++ rest) :
    Vless.nextPacket (holding carried) = (none, holding carried) ∨
      ∃ answer after, Vless.nextPacket (holding carried) = (some answer, after) ∧
        answer ≠ .ok packet := by
  rcases asked : Vless.nextPacket (holding carried) with ⟨_ | answer, after⟩
  · left
    rw [vless_waits _ _ asked]
  · refine .inr ⟨answer, after, rfl, ?_⟩
    rintro rfl
    obtain ⟨long, surplus⟩ := vless_surplus _ after packet.1 packet.2 asked
    have announced := vless_frame_announces packet.1 packet.2 rest short
    rw [← vlessFrame, ← cut, port_at_more carried later 0 (by simp only [holding] at long; omega)]
      at announced
    simp only [holding] at surplus
    omega

/-- Cut anywhere, the frames of a list of packets are read back by the VLESS decoder
exactly when there are none. The first answer on any others is not the first packet. -/
theorem vless_packets_read_back_iff (packets : List (ProxyTarget × Bytes)) (pieces : List Bytes)
    (usable : ∀ packet ∈ packets, packet.1.fits ∧ packet.2.length ≤ 65535)
    (cut : pieces.flatten = (packets.map vlessFrame).flatten) :
    ReadBack Vless.nextPacket vlessFrame packets pieces (fun _ => True) ↔ packets = [] := by
  constructor
  · rintro ⟨answers, final, decoded, handed, -, -⟩
    cases packets with
    | nil => rfl
    | cons packet packets =>
      have short := (usable packet List.mem_cons_self).2
      have other := first_answer (collector_holding Vless.nextPacket) (· ≠ .ok packet) _
        (vless_never_first packet (packets.map vlessFrame).flatten short) pieces [] answers final
        (by simpa using cut) decoded (.ok packet) (by simp [handed])
      exact absurd rfl other
  · rintro rfl
    have takes : Takes (collector Vless.nextPacket) holding vlessFrame Except.ok [] :=
      ⟨by simp, by simp, by simp, rfl⟩
    obtain ⟨answers, decoded, prompt⟩ :=
      decode_frames (collector_holding Vless.nextPacket) [] pieces takes cut
    exact ⟨answers, holding [], decoded, prompt_flatten cut prompt, prompt, trivial⟩

/-- No packets are read back from one empty piece, and two packets are not read back
when both frames arrive at once. -/
theorem vless_packets_read_back_cases :
    ReadBack Vless.nextPacket vlessFrame [] [[]] (fun _ => True) ∧
      ¬ReadBack Vless.nextPacket vlessFrame [(.domain "a" 53, [7]), (.domain "b" 53, [8])]
        [vlessFrame (.domain "a" 53, [7]) ++ vlessFrame (.domain "b" 53, [8])] (fun _ => True) := by
  constructor
  · exact (vless_packets_read_back_iff [] [[]] (by simp) rfl).mpr rfl
  · intro readBack
    have empty := (vless_packets_read_back_iff _ _ (by decide) (by simp)).mp readBack
    simp at empty

/-- One packet to the domain "a" is not read back from its frame: the decoder waits
for two more octets and hands out nothing. -/
theorem one_vless_packet_withheld :
    (collector Vless.nextPacket).decode [vlessFrame (.domain "a" 53, [7])] Decoder.new =
        some ([[]], holding (vlessFrame (.domain "a" 53, [7]))) ∧
      ¬ReadBack Vless.nextPacket vlessFrame [(.domain "a" 53, [7])]
        [vlessFrame (.domain "a" 53, [7])] (fun _ => True) := by
  have withheld : (collector Vless.nextPacket).decode [vlessFrame (.domain "a" 53, [7])]
      Decoder.new = some ([[]], holding (vlessFrame (.domain "a" 53, [7]))) := by
    rfl
  refine ⟨withheld, ?_⟩
  rintro ⟨answers, final, decoded, handed, -, -⟩
  rw [withheld] at decoded
  obtain ⟨rfl, -⟩ := Prod.mk.inj (Option.some.inj decoded)
  simp at handed

end VlessFrames

end OmniProxy.UdpFrameStreams
