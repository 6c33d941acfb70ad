import OmniProxy.ByteStrings
import Mathlib.Data.List.GetD

/-!
# Targets and their SOCKS5 encoding

A target is a socket address or a domain name with a port. Socket addresses are
an IP address and a port; the flow label and scope of an IPv6 socket address are
not represented. The SOCKS5 form tags each kind of address, and a domain carries
its length in one octet: writing reduces the length modulo 256, and reading
refuses a length of zero. Addresses whose domain has between 1 and 255 octets
are therefore exactly the ones that survive a round trip.
-/

namespace OmniProxy.ProxyTargets

open ByteStrings

/-- An IP address as its octets in network order. -/
inductive IpAddr where
  | v4 (octets : Octets 4)
  | v6 (octets : Octets 16)
deriving DecidableEq

/-- An IP address with a port. -/
structure SocketAddr where
  ip : IpAddr
  port : UInt16
deriving DecidableEq

/-- Where a connection should go. -/
inductive ProxyTarget where
  | tcp (addr : SocketAddr)
  | domain (host : String) (port : UInt16)
deriving DecidableEq

/-- The port of a target. -/
def ProxyTarget.port : ProxyTarget → UInt16
  | tcp addr => addr.port
  | domain _ port => port

/-- The target has an IP address, or a domain of at most 255 octets. -/
def ProxyTarget.fits : ProxyTarget → Prop
  | tcp _ => True
  | domain host _ => host.utf8ByteSize ≤ 255

/-- The target has an IP address, or a domain of between 1 and 255 octets. -/
def ProxyTarget.named : ProxyTarget → Prop
  | tcp _ => True
  | domain host _ => 1 ≤ host.utf8ByteSize ∧ host.utf8ByteSize ≤ 255

instance (target : ProxyTarget) : Decidable target.fits :=
  match target with
  | .tcp _ => inferInstanceAs (Decidable True)
  | .domain host _ => inferInstanceAs (Decidable (host.utf8ByteSize ≤ 255))

instance (target : ProxyTarget) : Decidable target.named :=
  match target with
  | .tcp _ => inferInstanceAs (Decidable True)
  | .domain host _ =>
      inferInstanceAs (Decidable (1 ≤ host.utf8ByteSize ∧ host.utf8ByteSize ≤ 255))

/-- Addresses of the SOCKS5 protocol. -/
inductive Socks5Addr where
  | v4 (ip : Octets 4) (port : UInt16)
  | v6 (ip : Octets 16) (port : UInt16)
  | domain (host : String) (port : UInt16)
deriving DecidableEq

/-- The longest domain the reader accepts. -/
def maxDomainLen : Nat := 255

/-- Append the tagged form of an address to a buffer. -/
def Socks5Addr.encodeInto (buf : Bytes) : Socks5Addr → Bytes
  | v4 ip port => buf ++ [0x01] ++ ip.toList ++ bigEndian16 port
  | v6 ip port => buf ++ [0x04] ++ ip.toList ++ bigEndian16 port
  | domain host port =>
      buf ++ [0x03] ++ [UInt8.ofNat (asBytes host).length] ++ asBytes host ++ bigEndian16 port

/-- Two octets at an offset as a 16-bit integer in network order. -/
def portAt (bytes : Bytes) (offset : Nat) : UInt16 :=
  ofBigEndian16 (bytes.getD offset 0) (bytes.getD (offset + 1) 0)

/-- Read an IPv4 address after its tag, with the octets used including the tag. -/
def Socks5Addr.decodeV4 (rest : Bytes) : Except String (Socks5Addr × Nat) :=
  if rest.length < 4 then .error "socks5: IPv4 address too short"
  else if short : rest.length < 6 then .error "socks5: IPv4 address too short"
  else .ok (.v4 (octetsOf 4 rest (by omega)) (portAt rest 4), 7)

/-- Read a domain after its tag, with the octets used including the tag. -/
def Socks5Addr.decodeDomain (rest : Bytes) : Except String (Socks5Addr × Nat) :=
  if rest.isEmpty then .error "socks5: domain length missing"
  else
    let dl := (rest.getD 0 0).toNat
    if dl = 0 ∨ maxDomainLen < dl then .error "socks5: domain too short"
    else if rest.length < 1 + dl + 2 then .error "socks5: domain too short"
    else
      match fromUtf8 ((rest.drop 1).take dl) with
      | none => .error "socks5: domain not UTF-8"
      | some d => .ok (.domain d (portAt rest (1 + dl)), 1 + 1 + dl + 2)

/-- Read an IPv6 address after its tag, with the octets used including the tag. -/
def Socks5Addr.decodeV6 (rest : Bytes) : Except String (Socks5Addr × Nat) :=
  if short : rest.length < 16 + 2 then .error "socks5: IPv6 address too short"
  else .ok (.v6 (octetsOf 16 rest (by omega)) (portAt rest 16), 19)

/-- Read an address and the number of octets it used. -/
def Socks5Addr.decode (buf : Bytes) : Except String (Socks5Addr × Nat) :=
  if buf.length < 2 then .error "socks5: empty address buffer"
  else
    let atyp := buf.getD 0 0
    let rest := buf.drop 1
    if atyp = 0x01 then decodeV4 rest
    else if atyp = 0x03 then decodeDomain rest
    else if atyp = 0x04 then decodeV6 rest
    else .error "socks5: unknown address type"

/-- The target an address names. -/
def Socks5Addr.toProxyTarget : Socks5Addr → ProxyTarget
  | v4 ip port => .tcp ⟨.v4 ip, port⟩
  | v6 ip port => .tcp ⟨.v6 ip, port⟩
  | domain host port => .domain host port

/-- The address of a target. -/
def Socks5Addr.fromProxyTarget : ProxyTarget → Socks5Addr
  | .tcp ⟨.v4 ip, port⟩ => v4 ip port
  | .tcp ⟨.v6 ip, port⟩ => v6 ip port
  | .domain host port => domain host port

/-- A target survives the way to an address and back. -/
@[simp] theorem to_from_proxy_target (target : ProxyTarget) :
    (Socks5Addr.fromProxyTarget target).toProxyTarget = target := by
  rcases target with ⟨ip | ip, port⟩ | ⟨host, port⟩ <;> rfl

/-- An address survives the way to a target and back. -/
@[simp] theorem from_to_proxy_target (addr : Socks5Addr) :
    Socks5Addr.fromProxyTarget addr.toProxyTarget = addr := by
  cases addr <;> rfl

/-- The port after a prefix of known length is read back. -/
theorem port_at_append (front rest : Bytes) (port : UInt16) (offset : Nat)
    (width : front.length = offset) :
    portAt (front ++ (bigEndian16 port ++ rest)) offset = port := by
  obtain ⟨high, low, octets, value⟩ := of_big_endian16_exact port
  subst width
  simp [portAt, octets, value]

/-- An array in front of a string is read back. -/
theorem octets_of_append {n : Nat} (front : Octets n) (rest : Bytes)
    (enough : n ≤ (front.toList ++ rest).length) :
    octetsOf n (front.toList ++ rest) enough = front := by
  obtain ⟨bytes, width⟩ := front
  exact Subtype.ext (by simp [octetsOf, List.Vector.toList, ← width])

/-- Two octets that are there are read the same when more octets follow. -/
theorem port_at_more (bytes more : Bytes) (offset : Nat) (there : offset + 2 ≤ bytes.length) :
    portAt (bytes ++ more) offset = portAt bytes offset := by
  rw [portAt, portAt, List.getD_append _ _ _ _ (by omega), List.getD_append _ _ _ _ (by omega)]

/-- An array that is there is read the same when more octets follow. -/
theorem octets_of_more (n : Nat) (bytes more : Bytes) (there : n ≤ bytes.length)
    (enough : n ≤ (bytes ++ more).length) :
    octetsOf n (bytes ++ more) enough = octetsOf n bytes there :=
  Subtype.ext (by simp [octetsOf, List.take_append_of_le_length there])

/-- The encoding of a target with a usable name is never empty. -/
theorem encode_into_nonempty (addr : Socks5Addr) : addr.encodeInto [] ≠ [] := by
  cases addr <;> simp [Socks5Addr.encodeInto]

/-- An encoded address with a usable name fits a few hundred octets. -/
theorem encode_into_length (target : ProxyTarget) (named : target.named) :
    ((Socks5Addr.fromProxyTarget target).encodeInto []).length ≤ 259 := by
  rcases target with ⟨ip | ip, port⟩ | ⟨host, port⟩
  · simp [Socks5Addr.fromProxyTarget, Socks5Addr.encodeInto]
  · simp [Socks5Addr.fromProxyTarget, Socks5Addr.encodeInto]
  · obtain ⟨-, short⟩ := named
    simp only [Socks5Addr.fromProxyTarget, Socks5Addr.encodeInto, List.nil_append,
      List.length_append, List.length_singleton, as_bytes_length, big_endian16_length]
    omega

/-- An encoded IPv4 address is read back by its branch. -/
theorem decode_v4_encoded (ip : Octets 4) (port : UInt16) (rest : Bytes) :
    Socks5Addr.decodeV4 (ip.toList ++ (bigEndian16 port ++ rest)) = .ok (.v4 ip port, 7) := by
  have length : (ip.toList ++ (bigEndian16 port ++ rest)).length = 6 + rest.length := by
    rw [List.length_append, List.length_append, big_endian16_length, List.Vector.toList_length]
    omega
  rw [Socks5Addr.decodeV4, if_neg (by omega), dif_neg (by omega), octets_of_append,
    port_at_append ip.toList rest port 4 ip.toList_length]

/-- An encoded IPv6 address is read back by its branch. -/
theorem decode_v6_encoded (ip : Octets 16) (port : UInt16) (rest : Bytes) :
    Socks5Addr.decodeV6 (ip.toList ++ (bigEndian16 port ++ rest)) = .ok (.v6 ip port, 19) := by
  have length : (ip.toList ++ (bigEndian16 port ++ rest)).length = 18 + rest.length := by
    rw [List.length_append, List.length_append, big_endian16_length, List.Vector.toList_length]
    omega
  rw [Socks5Addr.decodeV6, dif_neg (by omega), octets_of_append,
    port_at_append ip.toList rest port 16 ip.toList_length]

/-- An encoded domain of a usable length is read back by its branch. -/
theorem decode_domain_encoded (host : String) (port : UInt16) (rest : Bytes)
    (positive : 1 ≤ host.utf8ByteSize) (short : host.utf8ByteSize ≤ 255) :
    Socks5Addr.decodeDomain (UInt8.ofNat host.utf8ByteSize :: asBytes host ++
      (bigEndian16 port ++ rest)) = .ok (.domain host port, 1 + 1 + host.utf8ByteSize + 2) := by
  have tag : (UInt8.ofNat host.utf8ByteSize).toNat = host.utf8ByteSize := by
    rw [UInt8.toNat_ofNat']
    omega
  have width : (UInt8.ofNat host.utf8ByteSize :: asBytes host).length = 1 + host.utf8ByteSize := by
    rw [List.length_cons, as_bytes_length, Nat.add_comm]
  have length : (UInt8.ofNat host.utf8ByteSize :: asBytes host ++
      (bigEndian16 port ++ rest)).length = 1 + host.utf8ByteSize + 2 + rest.length := by
    rw [List.length_append, width, List.length_append, big_endian16_length]
    omega
  have spelled : fromUtf8 ((asBytes host ++ (bigEndian16 port ++ rest)).take
      host.utf8ByteSize) = some host := by
    rw [← as_bytes_length, List.take_left, from_utf8_as_bytes]
  have usable : ¬(host.utf8ByteSize = 0 ∨ maxDomainLen < host.utf8ByteSize) := by
    simp only [maxDomainLen]
    omega
  have ported := port_at_append (UInt8.ofNat host.utf8ByteSize :: asBytes host) rest port _ width
  simp only [List.cons_append] at length ported ⊢
  simp only [Socks5Addr.decodeDomain, List.isEmpty_cons, List.getD_cons_zero, tag, length,
    ported, List.drop_one, List.tail_cons, spelled]
  rw [if_neg (by decide), if_neg usable, if_neg (by omega)]

/-- An address whose tag is followed by anything is read by the branch of the tag. -/
theorem decode_tagged (tag : UInt8) (body : Bytes) (nonempty : 1 ≤ body.length) :
    Socks5Addr.decode (tag :: body) =
      if tag = 0x01 then Socks5Addr.decodeV4 body
      else if tag = 0x03 then Socks5Addr.decodeDomain body
      else if tag = 0x04 then Socks5Addr.decodeV6 body
      else .error "socks5: unknown address type" := by
  rw [Socks5Addr.decode, if_neg (by rw [List.length_cons]; omega)]
  rfl

/-- An IPv4 address that is read used octets that were there, and is read the same
when more follow. -/
theorem decode_v4_more (body more : Bytes) (addr : Socks5Addr) (used : Nat)
    (decoded : Socks5Addr.decodeV4 body = .ok (addr, used)) :
    used ≤ body.length + 1 ∧ Socks5Addr.decodeV4 (body ++ more) = .ok (addr, used) := by
  unfold Socks5Addr.decodeV4 at decoded ⊢
  have long : 6 ≤ body.length := by
    by_contra short
    split at decoded
    · simp at decoded
    · rw [dif_pos (by omega)] at decoded
      simp at decoded
  rw [if_neg (by omega), dif_neg (by omega)] at decoded
  rw [if_neg (by rw [List.length_append]; omega), dif_neg (by rw [List.length_append]; omega),
    octets_of_more 4 body more (by omega), port_at_more body more 4 (by omega), decoded]
  simp only [Except.ok.injEq, Prod.mk.injEq] at decoded
  exact ⟨by omega, rfl⟩

/-- A domain that is read used octets that were there, and is read the same when
more follow. -/
theorem decode_domain_more (body more : Bytes) (addr : Socks5Addr) (used : Nat)
    (decoded : Socks5Addr.decodeDomain body = .ok (addr, used)) :
    used ≤ body.length + 1 ∧ Socks5Addr.decodeDomain (body ++ more) = .ok (addr, used) := by
  rcases body with _ | ⟨len, body⟩
  · simp [Socks5Addr.decodeDomain] at decoded
  simp only [Socks5Addr.decodeDomain, List.cons_append, List.isEmpty_cons, List.getD_cons_zero,
    List.drop_one, List.tail_cons, Bool.false_eq_true, if_false] at decoded ⊢
  split at decoded
  · simp at decoded
  rename_i usable
  split at decoded
  · simp at decoded
  rename_i long
  rw [List.length_cons] at long
  have spelled : (body ++ more).take len.toNat = body.take len.toNat :=
    List.take_append_of_le_length (by omega)
  have ported : portAt (len :: (body ++ more)) (1 + len.toNat) =
      portAt (len :: body) (1 + len.toNat) :=
    port_at_more (len :: body) more _ (by rw [List.length_cons]; omega)
  rw [if_neg usable, if_neg (by rw [List.length_cons, List.length_append]; omega), spelled,
    ported, decoded]
  split at decoded
  · simp at decoded
  · simp only [Except.ok.injEq, Prod.mk.injEq] at decoded
    rw [List.length_cons]
    exact ⟨by omega, rfl⟩

/-- An IPv6 address that is read used octets that were there, and is read the same
when more follow. -/
theorem decode_v6_more (body more : Bytes) (addr : Socks5Addr) (used : Nat)
    (decoded : Socks5Addr.decodeV6 body = .ok (addr, used)) :
    used ≤ body.length + 1 ∧ Socks5Addr.decodeV6 (body ++ more) = .ok (addr, used) := by
  unfold Socks5Addr.decodeV6 at decoded ⊢
  have long : 18 ≤ body.length := by
    by_contra short
    rw [dif_pos (by omega)] at decoded
    simp at decoded
  rw [dif_neg (by omega)] at decoded
  rw [dif_neg (by rw [List.length_append]; omega), octets_of_more 16 body more (by omega),
    port_at_more body more 16 (by omega), decoded]
  simp only [Except.ok.injEq, Prod.mk.injEq] at decoded
  exact ⟨by omega, rfl⟩

/-- An address that is read used octets that were there, and is read the same when
more follow. -/
theorem decode_more (buf more : Bytes) (addr : Socks5Addr) (used : Nat)
    (decoded : Socks5Addr.decode buf = .ok (addr, used)) :
    used ≤ buf.length ∧ Socks5Addr.decode (buf ++ more) = .ok (addr, used) := by
  rcases buf with _ | ⟨tag, body⟩
  · simp [Socks5Addr.decode] at decoded
  have nonempty : 1 ≤ body.length := by
    by_contra empty
    rw [Socks5Addr.decode, if_pos (by rw [List.length_cons]; omega)] at decoded
    simp at decoded
  rw [List.cons_append, decode_tagged _ _ (by rw [List.length_append]; omega), List.length_cons]
  rw [decode_tagged _ _ nonempty] at decoded
  by_cases v4 : tag = 0x01
  · rw [if_pos v4] at decoded ⊢
    exact decode_v4_more body more addr used decoded
  rw [if_neg v4] at decoded ⊢
  by_cases named : tag = 0x03
  · rw [if_pos named] at decoded ⊢
    exact decode_domain_more body more addr used decoded
  rw [if_neg named] at decoded ⊢
  by_cases v6 : tag = 0x04
  · rw [if_pos v6] at decoded ⊢
    exact decode_v6_more body more addr used decoded
  · rw [if_neg v6] at decoded
    simp at decoded

/-- An encoded address is read back whole, whatever follows it, when its domain
has a usable length. Each kind of address meets its own branch. -/
theorem decode_encode_target (target : ProxyTarget) (named : target.named) (rest : Bytes) :
    Socks5Addr.decode ((Socks5Addr.fromProxyTarget target).encodeInto [] ++ rest) =
      .ok (Socks5Addr.fromProxyTarget target,
        ((Socks5Addr.fromProxyTarget target).encodeInto []).length) := by
  rcases target with ⟨ip | ip, port⟩ | ⟨host, port⟩
  · simp only [Socks5Addr.fromProxyTarget, Socks5Addr.encodeInto, List.nil_append,
      List.append_assoc, List.cons_append]
    rw [decode_tagged _ _ (by rw [List.length_append, ip.toList_length]; omega), if_pos rfl,
      decode_v4_encoded, List.length_cons, List.length_append, ip.toList_length,
      big_endian16_length]
  · simp only [Socks5Addr.fromProxyTarget, Socks5Addr.encodeInto, List.nil_append,
      List.append_assoc, List.cons_append]
    rw [decode_tagged _ _ (by rw [List.length_append, ip.toList_length]; omega),
      if_neg (by decide), if_neg (by decide), if_pos rfl, decode_v6_encoded, List.length_cons,
      List.length_append, ip.toList_length, big_endian16_length]
  · obtain ⟨positive, short⟩ := named
    have decoded := decode_domain_encoded host port rest positive short
    simp only [Socks5Addr.fromProxyTarget, Socks5Addr.encodeInto, as_bytes_length,
      List.nil_append, List.append_assoc, List.cons_append] at decoded ⊢
    rw [decode_tagged _ _ (by rw [List.length_cons]; omega), if_neg (by decide), if_pos rfl,
      decoded, List.length_cons, List.length_cons, List.length_append, as_bytes_length,
      big_endian16_length]
    congr 2
    omega

/-- Part of an encoded address is never read as an address: it would be read the
same with the rest of the octets, and using all of them. -/
theorem decode_part (target : ProxyTarget) (named : target.named) (part missing : Bytes)
    (framed : part ++ missing = (Socks5Addr.fromProxyTarget target).encodeInto [])
    (lacking : missing ≠ []) : ∃ error, Socks5Addr.decode part = .error error := by
  cases decoded : Socks5Addr.decode part with
  | error error => exact ⟨error, rfl⟩
  | ok result =>
    obtain ⟨used_bound, whole⟩ := decode_more part missing result.1 result.2 decoded
    have encoded := decode_encode_target target named []
    rw [List.append_nil, ← framed, whole] at encoded
    simp only [Except.ok.injEq, Prod.mk.injEq] at encoded
    have positive := List.length_pos_of_ne_nil lacking
    rw [encoded.2, List.length_append] at used_bound
    omega

end OmniProxy.ProxyTargets
