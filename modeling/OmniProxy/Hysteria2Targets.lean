import OmniProxy.Hysteria2Wire
import OmniProxy.AddressDisplay
import OmniProxy.Utf8Text
import Mathlib.Data.List.TakeWhile

/-!
# Targets of Hysteria2 requests

The client writes a target as host and port, with brackets around a host that has
a colon, and sends the text in a request. The server reads the request and takes
the text apart: it drops the opening brackets, splits at the last colon and reads
the part before it as an IP address if it can. The closing bracket of an IPv6
address stays behind on the host, so the server takes every IPv6 address for a
domain. A text whose length does not survive on the wire is cut to something
shorter or not read at all.
-/

namespace OmniProxy.Hysteria2Targets

open ByteStrings Connections ProxyTargets AddressText AddressDisplay Utf8Text Hysteria2Wire

section Texts

/-- The host of a target. -/
def host : ProxyTarget → String
  | .tcp addr => displayIp addr.ip
  | .domain host _ => host

/-- The text of a target in a request. -/
def addrStr (targetHost : String) (targetPort : UInt16) : String :=
  if targetHost.toList.contains ':' && targetHost.toList.head? != some '[' then
    String.ofList ('[' :: targetHost.toList ++ ']' :: ':' :: Nat.toDigits 10 targetPort.toNat)
  else String.ofList (targetHost.toList ++ ':' :: Nat.toDigits 10 targetPort.toNat)

/-- Read a whole text as a port. -/
def parsePort (text : String) : Option UInt16 :=
  match parseUnsigned 0xFFFF text with
  | .ok port => some (UInt16.ofNat port)
  | .error _ => none

/-- The target of a host that may be an IP address. -/
def namedTarget (h : String) (port : UInt16) : ProxyTarget :=
  match parseIpAddr h with
  | .ok ip => .tcp ⟨ip, port⟩
  | .error _ => .domain h port

/-- Read the text of a request as a target. A text that starts with a closing
bracket is taken apart on its own: what stands before the port there is the bracket
and colons, one octet each. -/
def parseHyAddr (addr : String) : Option ProxyTarget :=
  let addr := addr.toList.dropWhile (· == '[')
  match addr with
  | ']' :: rest =>
      let rest := rest.dropWhile (· == ':')
      (parsePort (String.ofList rest)).bind fun port =>
        let host := addr.take (addr.length - rest.length - 1)
        match parseSocketAddr (String.ofList
          ('[' :: host ++ ']' :: ':' :: Nat.toDigits 10 port.toNat)) with
        | .ok addr => some (.tcp addr)
        | .error _ => none
  | _ =>
      (rsplitOnce ':' (String.ofList addr)).bind fun (h, p) =>
        (parsePort p).map fun port => namedTarget h port

/-- The target that the server takes from the request for a target. -/
def requestTarget (target : ProxyTarget) : Option ProxyTarget :=
  match decodeTcpRequest (encodeTcpRequest (addrStr (host target) target.port)) with
  | .ok (addr, _) => parseHyAddr addr
  | .error _ => none

/-- An IP address, or a domain that is no IP address, has no colon and no bracket
and fits a request. -/
def Addressable : ProxyTarget → Prop
  | .tcp _ => True
  | .domain host port =>
      (∀ ip, parseIpAddr host ≠ .ok ip) ∧
        (∀ char ∈ host.toList, char ≠ ':' ∧ char ≠ '[' ∧ char ≠ ']') ∧
        (addrStr host port).utf8ByteSize ≤ maxAddressLength

/-- The targets that the server takes for what they are. -/
def Understood : ProxyTarget → Prop
  | .tcp ⟨.v4 _, _⟩ => True
  | .tcp ⟨.v6 _, _⟩ => False
  | .domain host port => SurvivingLength (addrStr host port).utf8ByteSize

/-- A written port is read back. -/
theorem parse_port_written (port : UInt16) :
    parsePort (String.ofList (Nat.toDigits 10 port.toNat)) = some port := by
  rw [parsePort, parse_unsigned_written 0xFFFF port.toNat (Nat.le_of_lt_succ port.toNat_lt)]
  simp only [UInt16.ofNat_toNat]

/-- The digits of a port have no colon. -/
theorem port_digits_plain (port : Nat) : ':' ∉ Nat.toDigits 10 port :=
  fun member => absurd (decimal_digits port ':' member) (by decide)

/-- A text that does not start with a bracket is split at its last colon. -/
theorem parse_hy_addr_plain (host digits : List Char) (last : ':' ∉ digits)
    (open_absent : host.head? ≠ some '[') (close_absent : host.head? ≠ some ']') :
    parseHyAddr (String.ofList (host ++ ':' :: digits)) =
      (parsePort (String.ofList digits)).map fun port => namedTarget (String.ofList host) port := by
  have kept : (host ++ ':' :: digits).dropWhile (· == '[') = host ++ ':' :: digits := by
    cases host with
    | nil => rfl
    | cons first host =>
      rw [List.cons_append, List.dropWhile_cons_of_neg]
      simpa using open_absent
  rw [parseHyAddr, String.toList_ofList, kept]
  split
  · rename_i rest spelled
    cases host with
    | nil => simp at spelled
    | cons first host => simp_all
  · rw [rsplit_once_last ':' host digits last]
    rfl

/-- Opening brackets are dropped. -/
theorem parse_hy_addr_bracket (text : List Char) :
    parseHyAddr (String.ofList ('[' :: text)) = parseHyAddr (String.ofList text) := by
  rw [parseHyAddr, parseHyAddr, String.toList_ofList, String.toList_ofList,
    List.dropWhile_cons_of_pos (by decide)]

end Texts

section Requests

/-- The digits of a port are at most five ASCII characters. -/
theorem port_digits_ascii (port : UInt16) :
    (∀ char ∈ Nat.toDigits 10 port.toNat, char.toNat < 128) ∧
      (Nat.toDigits 10 port.toNat).length ≤ 5 := by
  constructor
  · intro char member
    exact address_char_ascii char
      (digits_written 10 port.toNat (by decide) (by decide) char member)
  · have bound : port.toNat < 65536 := port.toNat_lt
    exact (Nat.length_toDigits_le_iff (by decide) (by decide)).mpr (by omega)

/-- A host without a colon is written without brackets. -/
theorem addr_str_plain (host : String) (port : UInt16) (plain : ':' ∉ host.toList) :
    addrStr host port =
      String.ofList (host.toList ++ ':' :: Nat.toDigits 10 port.toNat) := by
  have absent : host.toList.contains ':' = false := by simpa using plain
  rw [addrStr, absent, Bool.false_and]
  rfl

/-- The octets of a host, a colon and ASCII characters. -/
theorem plain_bytes (host digits : List Char) (ascii : ∀ char ∈ digits, char.toNat < 128) :
    asBytes (String.ofList (host ++ ':' :: digits)) =
      asBytes (String.ofList host) ++ 0x3A :: digits.map fun char => UInt8.ofNat char.toNat := by
  have colon : String.utf8EncodeChar ':' = [0x3A] := encode_ascii ':' (by decide)
  rw [← as_bytes_ascii digits ascii, as_bytes_of_list, as_bytes_of_list, as_bytes_of_list,
    List.flatMap_append, List.flatMap_cons, colon, List.singleton_append]

/-- The text of a host that is read back on the server. -/
theorem request_target_plain (host : String) (port : UInt16) (plain : ':' ∉ host.toList)
    (open_absent : host.toList.head? ≠ some '[') (close_absent : host.toList.head? ≠ some ']') :
    parseHyAddr (addrStr host port) = some (namedTarget host port) := by
  rw [addr_str_plain host port plain,
    parse_hy_addr_plain _ _ (port_digits_plain port.toNat) open_absent close_absent,
    parse_port_written, Option.map_some, String.ofList_toList]

/-- A host with a colon is written in brackets. -/
theorem addr_str_bracketed (host : String) (port : UInt16) (colon : ':' ∈ host.toList)
    (unbracketed : host.toList.head? ≠ some '[') :
    addrStr host port = String.ofList
      ('[' :: (host.toList ++ [']'] ++ ':' :: Nat.toDigits 10 port.toNat)) := by
  have present : host.toList.contains ':' = true := by simpa using colon
  have other : (host.toList.head? != some '[') = true := by simpa using unbracketed
  rw [addrStr, present, other, List.append_assoc]
  rfl

/-- Every IPv4 address is understood. -/
theorem ipv4_understood (ip : Octets 4) (port : UInt16) :
    requestTarget (.tcp ⟨.v4 ip, port⟩) = some (.tcp ⟨.v4 ip, port⟩) := by
  obtain ⟨chars, short⟩ := display_ipv4_written ip
  obtain ⟨digits, few⟩ := port_digits_ascii port
  have spelled : (displayIp (.v4 ip)).toList = displayIpv4 ip := String.toList_ofList
  have plain : ':' ∉ (displayIp (.v4 ip)).toList := by
    rw [spelled]
    exact display_ipv4_plain ip
  have size : 0 < (addrStr (displayIp (.v4 ip)) port).utf8ByteSize ∧
      (addrStr (displayIp (.v4 ip)) port).utf8ByteSize < 64 := by
    rw [addr_str_plain _ _ plain, spelled, ← as_bytes_length, plain_bytes _ _ digits,
      as_bytes_ascii _ fun char member => address_char_ascii char (chars char member)]
    simp only [List.length_append, List.length_cons, List.length_map]
    omega
  have unbracketed (bracket : Char) (outside : ¬isAddressChar bracket) :
      (displayIp (.v4 ip)).toList.head? ≠ some bracket := by
    rw [spelled]
    exact fun first => outside (chars bracket (List.mem_of_head? first))
  have decoded := decode_encode_tcp_request (addrStr (displayIp (.v4 ip)) port)
    size.1 (by simp only [maxAddressLength]; omega) (.inl size.2)
  rw [requestTarget]
  simp only [host, ProxyTarget.port, decoded]
  rw [request_target_plain _ _ plain (unbracketed '[' (by decide)) (unbracketed ']' (by decide)),
    namedTarget, parse_ip_written_ipv4]

/-- No address has a closing bracket. -/
theorem bracket_foreign : Foreign ']' := by
  refine ⟨?_, by decide, by decide⟩
  intro radix
  rw [toDigit, if_neg (by decide), if_neg (by decide), if_neg (by decide)]
  rfl

/-- Every IPv6 address is taken for a domain that ends in a bracket. -/
theorem ipv6_taken_for_domain (ip : Octets 16) (port : UInt16) :
    requestTarget (.tcp ⟨.v6 ip, port⟩) =
      some (.domain (String.ofList (displayIpv6 ip ++ [']'])) port) := by
  obtain ⟨chars, colon, short⟩ := display_ipv6_written ip
  obtain ⟨digits, few⟩ := port_digits_ascii port
  have spelled : (displayIp (.v6 ip)).toList = displayIpv6 ip := String.toList_ofList
  have unbracketed (bracket : Char) (outside : ¬isAddressChar bracket) :
      (displayIpv6 ip ++ [']']).head? ≠ some bracket := by
    rw [List.head?_append_of_ne_nil _ (List.ne_nil_of_mem colon)]
    exact fun first => outside (chars bracket (List.mem_of_head? first))
  have text := addr_str_bracketed (displayIp (.v6 ip)) port (by rw [spelled]; exact colon) (by
    rw [spelled, ← List.head?_append_of_ne_nil _ (List.ne_nil_of_mem colon)]
    exact unbracketed '[' (by decide))
  rw [spelled] at text
  have ascii : ∀ char ∈ '[' :: (displayIpv6 ip ++ [']']), char.toNat < 128 := by
    intro char member
    simp only [List.mem_cons, List.mem_append, List.not_mem_nil, or_false] at member
    rcases member with rfl | member | rfl
    · decide
    · exact address_char_ascii char (chars char member)
    · decide
  have size : 0 < (addrStr (displayIp (.v6 ip)) port).utf8ByteSize ∧
      (addrStr (displayIp (.v6 ip)) port).utf8ByteSize < 64 := by
    rw [text, ← List.cons_append, ← as_bytes_length, plain_bytes _ _ digits,
      as_bytes_ascii _ ascii]
    simp only [List.length_append, List.length_cons, List.length_map, List.length_nil]
    omega
  have decoded := decode_encode_tcp_request (addrStr (displayIp (.v6 ip)) port)
    size.1 (by simp only [maxAddressLength]; omega) (.inl size.2)
  rw [requestTarget]
  simp only [host, ProxyTarget.port, decoded]
  rw [text, parse_hy_addr_bracket,
    parse_hy_addr_plain _ _ (port_digits_plain port.toNat) (unbracketed '[' (by decide))
      (unbracketed ']' (by decide)),
    parse_port_written, Option.map_some, namedTarget,
    parse_ip_foreign bracket_foreign _ (by simp)]

/-- Only a text with a colon is taken for a domain. -/
theorem colon_of_domain (addr : String) (name : String) (port : UInt16)
    (parsed : parseHyAddr addr = some (.domain name port)) : ':' ∈ addr.toList := by
  by_contra absent
  rw [parseHyAddr] at parsed
  simp only at parsed
  split at parsed
  · obtain ⟨found, -, read⟩ := Option.bind_eq_some_iff.mp parsed
    split at read <;> simp at read
  · have nowhere : ':' ∉ (String.ofList (addr.toList.dropWhile (· == '['))).toList := by
      rw [String.toList_ofList]
      exact fun member => absent ((List.dropWhile_sublist _).mem member)
    rw [rsplit_once_none ':' _ nowhere] at parsed
    simp at parsed

/-- A target named after a host is that domain only for the same host. -/
theorem named_target_domain (h name : String) (found port : UInt16)
    (named : namedTarget h found = .domain name port) : h = name := by
  rw [namedTarget] at named
  split at named
  · simp at named
  · exact (ProxyTarget.domain.inj named).1

/-- A host without its first characters, cut somewhere behind, is not taken for the
whole host. Cut inside the host, it has no colon; cut behind the colon, its host is
shorter. -/
theorem cut_domain_misunderstood (name digits : List Char) (port : UInt16) (taken kept : Nat)
    (plain : ∀ char ∈ name, char ≠ ':' ∧ char ≠ '[' ∧ char ≠ ']') (nonempty : name ≠ [])
    (some_taken : 1 ≤ taken) (ascii : ∀ char ∈ digits, char.toNat < 128) (last : ':' ∉ digits) :
    parseHyAddr (fromUtf8Lossy ((asBytes (String.ofList (name.drop taken)) ++
        0x3A :: digits.map fun char => UInt8.ofNat char.toNat).take kept)) ≠
      some (.domain (String.ofList name) port) := by
  intro understood
  have inside (char : Char) (member : char ∈ name.drop taken) :=
    plain char (List.mem_of_mem_drop member)
  have colon := lossy_ascii_mem _ ':' (by decide) (by decide)
    (colon_of_domain _ _ _ understood)
  by_cases short : kept ≤ (asBytes (String.ofList (name.drop taken))).length
  · rw [List.take_append_of_le_length short] at colon
    have present := ascii_octet_mem _ ':' (by decide) (List.mem_of_mem_take colon)
    exact (inside ':' present).1 rfl
  · obtain ⟨more, rfl⟩ : ∃ more, kept =
        (asBytes (String.ofList (name.drop taken))).length + (more + 1) :=
      ⟨kept - (asBytes (String.ofList (name.drop taken))).length - 1, by omega⟩
    have whole : (asBytes (String.ofList (name.drop taken)) ++
        0x3A :: digits.map fun char => UInt8.ofNat char.toNat).take
          ((asBytes (String.ofList (name.drop taken))).length + (more + 1)) =
        asBytes (String.ofList (name.drop taken ++ ':' :: digits.take more)) := by
      rw [plain_bytes _ _ fun char member => ascii char (List.mem_of_mem_take member),
        List.take_length_add_append, List.take_succ_cons, List.map_take]
    have unbracketed (bracket : Char) (outside : bracket = '[' ∨ bracket = ']') :
        (name.drop taken).head? ≠ some bracket := by
      intro first
      have other := inside bracket (List.mem_of_head? first)
      exact outside.elim other.2.1 other.2.2
    rw [whole, from_utf8_lossy_as_bytes,
      parse_hy_addr_plain _ _ (fun member => last (List.mem_of_mem_take member))
        (unbracketed '[' (.inl rfl)) (unbracketed ']' (.inr rfl))] at understood
    obtain ⟨found, -, named⟩ := Option.map_eq_some_iff.mp understood
    have same := String.ofList_inj.mp (named_target_domain _ _ _ _ named)
    have shorter := congrArg List.length same
    have positive := List.length_pos_of_ne_nil nonempty
    rw [List.length_drop] at shorter
    omega

/-- A domain whose length does not survive is not understood: what the server reads
lacks the first characters of the host, or it lacks the colon. -/
theorem short_domain_misunderstood (name : String) (port : UInt16)
    (usable : Addressable (.domain name port)) (low : 64 ≤ (addrStr name port).utf8ByteSize)
    (high : (addrStr name port).utf8ByteSize < 256) :
    requestTarget (.domain name port) ≠ some (.domain name port) := by
  obtain ⟨-, plain, -⟩ := usable
  obtain ⟨digits, few⟩ := port_digits_ascii port
  have colonless : ':' ∉ name.toList := fun member => (plain ':' member).1 rfl
  have text := addr_str_plain name port colonless
  have octets := plain_bytes name.toList _ digits
  rw [← text] at octets
  intro understood
  rw [requestTarget] at understood
  simp only [host, ProxyTarget.port] at understood
  split at understood
  · rename_i found left decoded
    obtain ⟨taken, kept, some_taken, few_taken, small, rfl⟩ :=
      misread_address _ found left low high decoded
    have width : 58 ≤ (asBytes (String.ofList name.toList)).length := by
      have total := congrArg List.length octets
      rw [as_bytes_length, List.length_append, List.length_cons, List.length_map] at total
      omega
    have nonempty : name.toList ≠ [] := by
      intro empty
      rw [empty] at width
      exact absurd width (by decide)
    rw [octets, List.take_append_of_le_length (by omega)] at small
    rw [octets, List.drop_append_of_le_length (by omega),
      drop_low_octets taken _ small] at understood
    have misunderstood := cut_domain_misunderstood name.toList _ port taken kept plain nonempty
      some_taken digits (port_digits_plain port.toNat)
    rw [String.ofList_toList] at misunderstood
    exact misunderstood understood
  · simp at understood

/-- A domain whose length survives is understood. -/
theorem domain_understood (name : String) (port : UInt16)
    (usable : Addressable (.domain name port))
    (surviving : SurvivingLength (addrStr name port).utf8ByteSize) :
    requestTarget (.domain name port) = some (.domain name port) := by
  obtain ⟨literal, plain, fits⟩ := usable
  have colonless : ':' ∉ name.toList := fun member => (plain ':' member).1 rfl
  have positive : 0 < (addrStr name port).utf8ByteSize := by
    rw [addr_str_plain name port colonless, ← as_bytes_length,
      plain_bytes _ _ (port_digits_ascii port).1, List.length_append, List.length_cons]
    omega
  have named : namedTarget name port = .domain name port := by
    rw [namedTarget]
    split
    · rename_i ip parsed
      exact absurd parsed (literal ip)
    · rfl
  rw [requestTarget]
  simp only [host, ProxyTarget.port, decode_encode_tcp_request _ positive fits surviving]
  rw [request_target_plain name port colonless
    (fun first => (plain '[' (List.mem_of_head? first)).2.1 rfl)
    (fun first => (plain ']' (List.mem_of_head? first)).2.2 rfl), named]

/-- Exactly which targets the server takes from their request: IPv4 addresses, and
domains whose text has a length that survives on the wire. -/
theorem request_target_iff (target : ProxyTarget) (usable : Addressable target) :
    requestTarget target = some target ↔ Understood target := by
  rcases target with ⟨ip | ip, port⟩ | ⟨name, port⟩
  · exact iff_of_true (ipv4_understood ip port) trivial
  · refine iff_of_false ?_ id
    rw [ipv6_taken_for_domain]
    simp
  · constructor
    · intro understood
      by_contra lost
      simp only [Understood, SurvivingLength, not_or, Nat.not_lt, Nat.not_le] at lost
      exact short_domain_misunderstood name port usable lost.1 lost.2 understood
    · exact domain_understood name port usable

/-- The domain "a.example" is understood. -/
theorem example_domain_understood :
    Addressable (.domain "a.example" 443) ∧
      requestTarget (.domain "a.example" 443) = some (.domain "a.example" 443) := by
  have usable : Addressable (.domain "a.example" 443) := by
    have refused : parseIpAddr "a.example" = .error "invalid IP address syntax" := by decide
    have plain : "a.example".toList.all
        fun char => decide (char ≠ ':' ∧ char ≠ '[' ∧ char ≠ ']') := by decide
    refine ⟨?_, fun char member => of_decide_eq_true (List.all_eq_true.mp plain char member),
      by decide⟩
    rw [refused]
    simp
  exact ⟨usable, (request_target_iff _ usable).mpr (.inl (by decide))⟩

/-- The loopback address of IPv6. -/
def ipv6Loopback : Octets 16 := ⟨[0, 0, 0, 0, 0, 0, 0, 0, 0, 0, 0, 0, 0, 0, 0, 1], rfl⟩

/-- The loopback address of IPv6 is taken for a domain. -/
theorem loopback_taken_for_domain :
    Addressable (.tcp ⟨.v6 ipv6Loopback, 443⟩) ∧
      requestTarget (.tcp ⟨.v6 ipv6Loopback, 443⟩) = some (.domain "::1]" 443) ∧
      requestTarget (.tcp ⟨.v6 ipv6Loopback, 443⟩) ≠ some (.tcp ⟨.v6 ipv6Loopback, 443⟩) := by
  have taken : requestTarget (.tcp ⟨.v6 ipv6Loopback, 443⟩) = some (.domain "::1]" 443) :=
    (ipv6_taken_for_domain ipv6Loopback 443).trans (by decide)
  refine ⟨trivial, taken, ?_⟩
  rw [taken]
  simp

end Requests

end OmniProxy.Hysteria2Targets
