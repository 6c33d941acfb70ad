import OmniProxy.AddressReads
import OmniProxy.FrontCodecs
import OmniProxy.UdpFrames
import OmniProxy.Utf8Text

/-!
# The codec of SOCKS addresses

An address that has an IP address, or a domain of between 1 and 255 octets, is read back from
its tagged form whatever follows, and no part of that form is read. Nothing else is read
either: what the reader accepts is the form of the address that it returns. Datagrams and
targets carry such addresses and give them back.
-/

namespace OmniProxy.AddressCodec

open ByteStrings Connections ProxyTargets AddressReads FrontCodecs UdpFrames Utf8Text

/-- The address has an IP address, or a domain of between 1 and 255 octets. -/
def named : Socks5Addr → Prop
  | .v4 _ _ => True
  | .v6 _ _ => True
  | .domain host _ => 1 ≤ host.utf8ByteSize ∧ host.utf8ByteSize ≤ 255

instance (addr : Socks5Addr) : Decidable (named addr) :=
  match addr with
  | .v4 _ _ => inferInstanceAs (Decidable True)
  | .v6 _ _ => inferInstanceAs (Decidable True)
  | .domain host _ =>
      inferInstanceAs (Decidable (1 ≤ host.utf8ByteSize ∧ host.utf8ByteSize ≤ 255))

/-- The target made from an address is named by its header exactly when the address is. -/
theorem named_target (addr : Socks5Addr) : addr.toProxyTarget.named ↔ named addr := by
  cases addr <;> rfl

section Reading

/-- Long enough octets are a host of a given width, a port and what follows. -/
theorem host_and_port (count : Nat) (bytes : Bytes) (long : count + 2 ≤ bytes.length) :
    ∃ host port rest, host.length = count ∧ bytes = host ++ (bigEndian16 port ++ rest) := by
  have width : (bytes.take (count + 2)).length = count + 2 := List.length_take_of_le long
  refine ⟨(bytes.take (count + 2)).take count, portAt (bytes.take (count + 2)) count,
    bytes.drop (count + 2), ?_, ?_⟩
  · rw [List.length_take, width]
    omega
  · rw [← List.append_assoc, split_at_port _ count width, List.take_append_drop]

variable {body : Bytes} {addr : Socks5Addr} {used : Nat}

/-- The IPv4 branch reads an IP address and a port that are in front. -/
theorem decode_v4_reads (decoded : Socks5Addr.decodeV4 body = .ok (addr, used)) :
    ∃ ip port rest, addr = .v4 ip port ∧ used = 7 ∧
      body = ip.toList ++ (bigEndian16 port ++ rest) := by
  have long : 4 + 2 ≤ body.length := by
    by_contra short
    rw [Socks5Addr.decodeV4] at decoded
    split_ifs at decoded
    exact absurd short (by omega)
  obtain ⟨host, port, rest, width, rfl⟩ := host_and_port 4 body long
  have read := decode_v4_encoded ⟨host, width⟩ port rest
  rw [List.Vector.toList_mk, decoded] at read
  obtain ⟨rfl, rfl⟩ := Prod.mk.inj (Except.ok.inj read)
  exact ⟨⟨host, width⟩, port, rest, rfl, rfl, rfl⟩

/-- The IPv6 branch reads an IP address and a port that are in front. -/
theorem decode_v6_reads (decoded : Socks5Addr.decodeV6 body = .ok (addr, used)) :
    ∃ ip port rest, addr = .v6 ip port ∧ used = 19 ∧
      body = ip.toList ++ (bigEndian16 port ++ rest) := by
  have long : 16 + 2 ≤ body.length := by
    by_contra short
    rw [Socks5Addr.decodeV6, dif_pos (by omega)] at decoded
    cases decoded
  obtain ⟨host, port, rest, width, rfl⟩ := host_and_port 16 body long
  have read := decode_v6_encoded ⟨host, width⟩ port rest
  rw [List.Vector.toList_mk, decoded] at read
  obtain ⟨rfl, rfl⟩ := Prod.mk.inj (Except.ok.inj read)
  exact ⟨⟨host, width⟩, port, rest, rfl, rfl, rfl⟩

/-- A domain that is not UTF-8 is refused. -/
theorem decode_domain_no_text (len : UInt8) {octets : Bytes} (port : UInt16) (rest : Bytes)
    (width : octets.length = len.toNat) (noText : fromUtf8 octets = none) :
    ∃ error, Socks5Addr.decodeDomain (len :: (octets ++ (bigEndian16 port ++ rest))) =
      .error error := by
  rw [Socks5Addr.decodeDomain, if_neg (by simp)]
  simp only [List.getD_cons_zero, List.drop_one, List.tail_cons]
  by_cases unusable : len.toNat = 0 ∨ maxDomainLen < len.toNat
  · rw [if_pos unusable]
    exact ⟨_, rfl⟩
  · rw [if_neg unusable, if_neg (by simp [width]; omega), ← width, List.take_left, noText]
    exact ⟨_, rfl⟩

/-- The domain branch reads a length, as many octets of text and a port that are in front. -/
theorem decode_domain_reads (decoded : Socks5Addr.decodeDomain body = .ok (addr, used)) :
    ∃ host port rest, addr = .domain host port ∧ named addr ∧
      used = 1 + 1 + host.utf8ByteSize + 2 ∧
      body = UInt8.ofNat host.utf8ByteSize :: asBytes host ++ (bigEndian16 port ++ rest) := by
  rcases body with _ | ⟨len, body⟩
  · cases decoded
  obtain ⟨usable, long⟩ : ¬(len.toNat = 0 ∨ maxDomainLen < len.toNat) ∧
      len.toNat + 2 ≤ body.length := by
    rw [Socks5Addr.decodeDomain, if_neg (by simp)] at decoded
    simp only [List.getD_cons_zero] at decoded
    split_ifs at decoded with unusable short
    rw [List.length_cons] at short
    exact ⟨unusable, by omega⟩
  obtain ⟨octets, port, rest, width, rfl⟩ := host_and_port len.toNat body long
  cases text : fromUtf8 octets with
  | none =>
    obtain ⟨error, refused⟩ := decode_domain_no_text len port rest width text
    rw [refused] at decoded
    cases decoded
  | some host =>
    have spelled := from_utf8_some octets host text
    have size : host.utf8ByteSize = len.toNat := by
      rw [← as_bytes_length, spelled, width]
    have bounded : 1 ≤ host.utf8ByteSize ∧ host.utf8ByteSize ≤ 255 := by
      have octet := len.toNat_lt
      omega
    have told : UInt8.ofNat host.utf8ByteSize = len := by
      rw [size, UInt8.ofNat_toNat]
    have read := decode_domain_encoded host port rest bounded.1 bounded.2
    rw [spelled, told, List.cons_append, decoded] at read
    obtain ⟨rfl, rfl⟩ := Prod.mk.inj (Except.ok.inj read)
    exact ⟨host, port, rest, rfl, bounded, rfl, by rw [spelled, told, List.cons_append]⟩

/-- What is read is the tagged form of the address, in front of what follows. The cases are the
branches of the tag. -/
theorem decode_reads {buf : Bytes} (decoded : Socks5Addr.decode buf = .ok (addr, used)) :
    named addr ∧ used = (addr.encodeInto []).length ∧ addr.encodeInto [] <+: buf := by
  rcases buf with _ | ⟨tag, body⟩
  · cases decoded
  have nonempty : 1 ≤ body.length := by
    by_contra empty
    rw [Socks5Addr.decode, if_pos (by rw [List.length_cons]; omega)] at decoded
    cases decoded
  rw [decode_tagged tag body nonempty] at decoded
  split_ifs at decoded with four domain six
  · obtain ⟨ip, port, rest, rfl, rfl, rfl⟩ := decode_v4_reads decoded
    refine ⟨trivial, by simp [Socks5Addr.encodeInto], rest, ?_⟩
    simp [Socks5Addr.encodeInto, four]
  · obtain ⟨host, port, rest, rfl, good, rfl, rfl⟩ := decode_domain_reads decoded
    refine ⟨good, ?_, rest, ?_⟩
    · simp [Socks5Addr.encodeInto]
      omega
    · simp [Socks5Addr.encodeInto, domain]
  · obtain ⟨ip, port, rest, rfl, rfl, rfl⟩ := decode_v6_reads decoded
    refine ⟨trivial, by simp [Socks5Addr.encodeInto], rest, ?_⟩
    simp [Socks5Addr.encodeInto, six]

/-- And every such form is read. -/
theorem decode_iff (buf : Bytes) (addr : Socks5Addr) (used : Nat) :
    Socks5Addr.decode buf = .ok (addr, used) ↔
      named addr ∧ used = (addr.encodeInto []).length ∧ addr.encodeInto [] <+: buf := by
  constructor
  · exact decode_reads
  · rintro ⟨good, rfl, rest, rfl⟩
    have read := decode_encode_target addr.toProxyTarget ((named_target addr).mpr good) rest
    rwa [from_to_proxy_target] at read

end Reading

section Codec

/-- The writer and the reader of addresses. -/
def addressCodec : FrontCodec Socks5Addr String where
  encode addr := addr.encodeInto []
  decode := Socks5Addr.decode
  expressible := named
  decodes_iff := decode_iff

/-- An address is appended to what has been written. -/
theorem encode_into_appends (buf : Bytes) (addr : Socks5Addr) :
    addr.encodeInto buf = buf ++ addr.encodeInto [] := by
  cases addr <;> simp [Socks5Addr.encodeInto]

/-- A datagram gives back its address and its data. -/
theorem parse_encoded {addr : Socks5Addr} (good : named addr) (data : Bytes) :
    parseUdpPacket (encodeUdpPacket addr data) = .ok (addr, data) := by
  have positive := List.length_pos_of_ne_nil (encode_into_nonempty addr)
  have framed : encodeUdpPacket addr data = 0 :: 0 :: 0 :: (addr.encodeInto [] ++ data) := by
    rw [encodeUdpPacket, encode_into_appends]
    rfl
  have behind : (addr.encodeInto [] ++ data).drop (addr.encodeInto []).length = data :=
    List.drop_left
  have width : (0 :: 0 :: 0 :: (addr.encodeInto [] ++ data) : Bytes).length =
      3 + (addr.encodeInto []).length + data.length := by
    rw [List.length_cons, List.length_cons, List.length_cons, List.length_append]
    omega
  have read : Socks5Addr.decode ((0 :: 0 :: 0 :: (addr.encodeInto [] ++ data)).drop 3) =
      .ok (addr, (addr.encodeInto []).length) :=
    addressCodec.reads_encoded good data
  rw [framed, parseUdpPacket, if_neg (by omega), if_neg (by simp), read]
  dsimp only
  rw [if_neg (by rw [width]; exact Nat.not_lt.mpr (Nat.le_add_right _ _)), ← List.drop_drop]
  exact congrArg (fun rest => Except.ok (addr, rest)) behind

/-- For all addresses and all octets: an address that has an IP address, or a domain of between 1
and 255 octets, is read back whatever follows, no part of its form is read, and a datagram gives
it back; what is read is the form of what it is read as; addresses and targets are two names of
the same. -/
theorem address_codec :
    (∀ addr, named addr →
      (∀ suffix, Socks5Addr.decode (addr.encodeInto [] ++ suffix) =
        .ok (addr, (addr.encodeInto []).length)) ∧
      (∀ part, part <+: addr.encodeInto [] → part ≠ addr.encodeInto [] →
        ∃ error, Socks5Addr.decode part = .error error) ∧
      ∀ data, parseUdpPacket (encodeUdpPacket addr data) = .ok (addr, data)) ∧
    (∀ bytes addr used, Socks5Addr.decode bytes = .ok (addr, used) →
      used ≤ bytes.length ∧ addr.encodeInto [] = bytes.take used) ∧
    (∀ target, (Socks5Addr.fromProxyTarget target).toProxyTarget = target) ∧
    ∀ addr, Socks5Addr.fromProxyTarget addr.toProxyTarget = addr := by
  refine ⟨fun addr good => ⟨?_, ?_, ?_⟩, fun bytes addr used decoded => ?_, ?_, ?_⟩
  · exact addressCodec.reads_encoded good
  · exact fun part front lacking => addressCodec.fails_on_part good front lacking
  · exact parse_encoded good
  · exact addressCodec.encodes_read decoded
  · exact to_from_proxy_target
  · exact from_to_proxy_target

/-- An address of two letters in front of one octet. -/
theorem address_codec_two_letters :
    named (.domain "ab" 80) ∧
      Socks5Addr.decode ((Socks5Addr.domain "ab" 80).encodeInto [] ++ [7]) =
        .ok (.domain "ab" 80, ((Socks5Addr.domain "ab" 80).encodeInto []).length) :=
  ⟨by decide, (address_codec.1 (.domain "ab" 80) (by decide)).1 [7]⟩

end Codec

end OmniProxy.AddressCodec
