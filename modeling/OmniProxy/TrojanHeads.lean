import OmniProxy.AddressReads
import OmniProxy.Hysteria2Targets

/-!
# The head of a Trojan request

A head is the hash of the password in hexadecimal digits, a line end, a command, the
target's address and another line end. The writer takes any target, and the length of
a domain goes into one octet. The result says which targets are read back, with
nothing of what follows the head taken or left behind.
-/

namespace OmniProxy.TrojanHeads

open ByteStrings Connections ProxyTargets AddressReads Hysteria2Wire Hysteria2Targets
open AddressText AddressDisplay Utf8Text

/-- A line end. -/
def lineEnd : Bytes := [0x0D, 0x0A]

/-- Two texts that agree up to the case of ASCII letters. -/
def eqIgnoreAsciiCase (left right : String) : Prop :=
  toAsciiLowercase left = toAsciiLowercase right

instance (left right : String) : Decidable (eqIgnoreAsciiCase left right) :=
  inferInstanceAs (Decidable (toAsciiLowercase left = toAsciiLowercase right))

def readAddr : Io Socks5Addr := do
  let atyp ← readExact 1
  readTagged (.ofText "trojan: unknown address type") (atyp.getD 0 0)

/-- Compare the hash with the expected one, when one is expected. -/
def checkHash (hash : String) : Option String → Io Unit
  | some expect =>
      rejectIf (¬eqIgnoreAsciiCase hash expect) (.ofText "trojan: authentication failed")
  | none => pure ()

/-- Read a head: its command and its target. -/
def readRequestHead (expectHashHex : Option String) : Io (UInt8 × ProxyTarget) := do
  let head ← readExact (56 + 2)
  let hash := fromUtf8Lossy (head.take 56)
  rejectIf (head.drop 56 ≠ lineEnd) (.ofText "trojan: malformed request")
  checkHash hash expectHashHex
  let cmd ← readExact 1
  let addr ← readAddr
  let tail ← readExact 2
  rejectIf (tail ≠ lineEnd) (.ofText "trojan: malformed request tail")
  return (cmd.getD 0 0, addr.toProxyTarget)

/-- Write a head. -/
def encodeRequestHead (cmd : UInt8) (target : ProxyTarget) (hashHex : String) : Bytes :=
  (Socks5Addr.fromProxyTarget target).encodeInto (asBytes hashHex ++ lineEnd ++ [cmd]) ++ lineEnd

/-- The check passes on a hash that agrees with the expected one. -/
theorem check_hash_yields_iff (hash : String) (expected : Option String) (conn after : Conn)
    (value : Unit) :
    (checkHash hash expected).run conn = .ok value after ↔
      (∀ expect ∈ expected, eqIgnoreAsciiCase hash expect) ∧ conn = after := by
  cases expected with
  | none => simp [checkHash]
  | some expect => simp [checkHash, reject_if_yields_iff]

/-- A head that is read has each of its parts in front of what it leaves. -/
theorem read_head_yields_iff (expected : Option String) (conn after : Conn) (cmd : UInt8)
    (target : ProxyTarget) :
    (readRequestHead expected).run conn = .ok (cmd, target) after ↔
      ∃ hash atyp body addr, hash.length = 56 ∧
        (∀ expect ∈ expected, eqIgnoreAsciiCase (fromUtf8Lossy hash) expect) ∧
        Tagged atyp body addr ∧ addr.toProxyTarget = target ∧
        conn.incoming = hash ++ (lineEnd ++ (cmd :: atyp :: (body ++ (lineEnd ++ after.incoming))))
        ∧ after.written = conn.written := by
  simp only [readRequestHead, readAddr, bind_yields_iff, read_exact_yields_iff,
    reject_if_yields_iff, check_hash_yields_iff, read_tagged_yields_iff, pure_yields_iff, ne_eq,
    not_not]
  constructor
  · rintro ⟨head, first, ⟨width, arrived, silent⟩, _, _, ⟨ended, rfl⟩, _, _, ⟨agrees, rfl⟩,
      command, second, ⟨one, commandArrived, commandSilent⟩, addr, third,
      ⟨tag, fourth, ⟨oneTag, tagArrived, tagSilent⟩, body, tagged, bodyArrived, bodySilent⟩,
      tail, fifth, ⟨two, tailArrived, tailSilent⟩, _, _, ⟨closed, rfl⟩, made, rfl⟩
    obtain ⟨octet, rfl⟩ := List.length_eq_one_iff.mp one
    obtain ⟨atyp, rfl⟩ := List.length_eq_one_iff.mp oneTag
    obtain ⟨rfl, rfl⟩ := Prod.mk.inj made
    refine ⟨head.take 56, atyp, body, addr, ?_, agrees, tagged, rfl, ?_, ?_⟩
    · rw [List.length_take]
      omega
    · rw [arrived, commandArrived, tagArrived, bodyArrived, tailArrived, closed, ← ended,
        ← List.append_assoc (head.take 56), List.take_append_drop]
      simp
    · rw [tailSilent, bodySilent, tagSilent, commandSilent, silent]
  · rintro ⟨hash, atyp, body, addr, width, agrees, tagged, made, arrived, silent⟩
    let rest := body ++ (lineEnd ++ after.incoming)
    refine ⟨hash ++ lineEnd, ⟨cmd :: atyp :: rest, conn.written⟩, ⟨?_, ?_, rfl⟩, (), _,
      ⟨?_, rfl⟩, (), _, ⟨?_, rfl⟩, [cmd], ⟨atyp :: rest, conn.written⟩, ⟨rfl, rfl, rfl⟩, addr,
      ⟨lineEnd ++ after.incoming, conn.written⟩,
      ⟨[atyp], ⟨rest, conn.written⟩, ⟨rfl, rfl, rfl⟩, body, tagged, rfl, rfl⟩,
      lineEnd, after, ⟨rfl, rfl, silent⟩, (), _, ⟨rfl, rfl⟩, ?_, rfl⟩
    · simp [width, lineEnd]
    · rw [arrived, List.append_assoc]
    · rw [← width, List.drop_left]
    · rw [← width, List.take_left]
      exact agrees
    · simp [made]

/-- The address in a head: its tag and the octets after it. -/
theorem encode_into_split (buf : Bytes) (target : ProxyTarget) :
    ∃ atyp body, (Socks5Addr.fromProxyTarget target).encodeInto buf = buf ++ (atyp :: body) ∧
      (target.fits → Tagged atyp body (Socks5Addr.fromProxyTarget target)) ∧
      ∀ host port, target = .domain host port → body.length = host.utf8ByteSize + 3 := by
  rcases target with ⟨ip | ip, port⟩ | ⟨host, port⟩
  · refine ⟨0x01, ip.toList ++ bigEndian16 port, ?_, fun _ => .v4 ip port, ?_⟩
    · simp [Socks5Addr.fromProxyTarget, Socks5Addr.encodeInto]
    · rintro host port ⟨⟩
  · refine ⟨0x04, ip.toList ++ bigEndian16 port, ?_, fun _ => .v6 ip port, ?_⟩
    · simp [Socks5Addr.fromProxyTarget, Socks5Addr.encodeInto]
    · rintro host port ⟨⟩
  · refine ⟨0x03, UInt8.ofNat (asBytes host).length :: asBytes host ++ bigEndian16 port, ?_, ?_, ?_⟩
    · simp [Socks5Addr.fromProxyTarget, Socks5Addr.encodeInto]
    · intro short
      have tagged := Tagged.domain (asBytes host) port (by simpa [ProxyTarget.fits] using short)
      rwa [from_utf8_lossy_as_bytes] at tagged
    · rintro name number ⟨rfl, rfl⟩
      simp only [List.cons_append, List.length_cons, List.length_append, as_bytes_length,
        big_endian16_length]

/-- The address that is read as a domain takes at most 258 octets after its tag. -/
theorem tagged_domain_length (atyp : UInt8) (body : Bytes) (host : String) (port : UInt16)
    (tagged : Tagged atyp body (.domain host port)) : body.length ≤ 258 := by
  generalize shown : Socks5Addr.domain host port = addr at tagged
  cases tagged with
  | v4 => cases shown
  | domain octets number short =>
    simp only [List.cons_append, List.length_cons, List.length_append, big_endian16_length]
    omega
  | v6 => cases shown

/-- A target that is read right before what follows its head has a domain of at most 255
octets: a longer one is written with a length from which the reader stops too early. -/
theorem read_back_fits (cmd : UInt8) (target : ProxyTarget) (hashHex : String)
    (expected : Option String) (payload written : Bytes) (width : hashHex.utf8ByteSize = 56)
    (survives : (readRequestHead expected).run
        ⟨encodeRequestHead cmd target hashHex ++ payload, written⟩ =
      .ok (cmd, target) ⟨payload, written⟩) : target.fits := by
  obtain ⟨atyp, body, encoded, -, long⟩ :=
    encode_into_split (asBytes hashHex ++ lineEnd ++ [cmd]) target
  obtain ⟨hash, tag, other, addr, hashWidth, -, read, made, arrived, -⟩ :=
    (read_head_yields_iff _ _ _ _ _).mp survives
  have lengths := congrArg List.length arrived
  simp only [encodeRequestHead, encoded, List.length_append, List.length_cons, as_bytes_length,
    width, hashWidth, List.length_nil] at lengths
  rcases target with ⟨ip, port⟩ | ⟨host, port⟩
  · trivial
  · have domain : addr = .domain host port := by
      rw [← from_to_proxy_target addr, made]
      rfl
    have bounded := tagged_domain_length tag other host port (domain ▸ read)
    have whole := long host port rfl
    change host.utf8ByteSize ≤ 255
    omega

/-- Exactly which targets survive a head: an address, or a domain of at most 255 octets.
For every other target the reader does not come to an end with that target right
before what follows the head. -/
theorem head_survives_iff (cmd : UInt8) (target : ProxyTarget) (hashHex : String)
    (expected : Option String) (payload written : Bytes) (width : hashHex.utf8ByteSize = 56)
    (agrees : ∀ expect ∈ expected, eqIgnoreAsciiCase hashHex expect) :
    (readRequestHead expected).run ⟨encodeRequestHead cmd target hashHex ++ payload, written⟩ =
        .ok (cmd, target) ⟨payload, written⟩ ↔ target.fits := by
  constructor
  · exact read_back_fits cmd target hashHex expected payload written width
  · intro fits
    obtain ⟨atyp, body, encoded, tagged, -⟩ :=
      encode_into_split (asBytes hashHex ++ lineEnd ++ [cmd]) target
    rw [read_head_yields_iff]
    refine ⟨asBytes hashHex, atyp, body, _, width, ?_, tagged fits, to_from_proxy_target target,
      ?_, rfl⟩
    · simpa using agrees
    · rw [encodeRequestHead, encoded]
      simp

section Examples

/-- A text of 56 digits. -/
def zeroHash : String := String.ofList (List.replicate 56 '0')

/-- A target with a short name survives. -/
theorem head_survives_example :
    (readRequestHead (some zeroHash)).run
        ⟨encodeRequestHead 1 (.domain "example.com" 443) zeroHash ++ [1, 2, 3], []⟩ =
      .ok (1, .domain "example.com" 443) ⟨[1, 2, 3], []⟩ :=
  (head_survives_iff 1 (.domain "example.com" 443) zeroHash (some zeroHash) [1, 2, 3] []
    (by decide) (by simp [eqIgnoreAsciiCase])).mpr (by decide)

/-- A name of underscores. -/
def underscores (count : Nat) : String := String.ofList (List.replicate count '_')

/-- Each underscore is one octet. -/
theorem underscores_size (count : Nat) : (underscores count).utf8ByteSize = count := by
  have ascii : ∀ char ∈ List.replicate count '_', char.toNat < 128 := by
    intro char member
    rw [List.eq_of_mem_replicate member]
    decide
  rw [underscores, ← as_bytes_length, as_bytes_ascii _ ascii]
  simp

/-- No address has an underscore. -/
theorem underscore_foreign : Foreign '_' := by
  refine ⟨?_, by decide, by decide⟩
  intro radix
  rw [toDigit, if_neg (by decide), if_neg (by decide), if_neg (by decide)]
  rfl

/-- A server can take a name of underscores from a request. -/
theorem underscores_addressable (count : Nat) (port : UInt16) (positive : 0 < count)
    (bounded : count ≤ 2000) :
    Addressable (.domain (underscores count) port) ∧
      count ≤ (addrStr (underscores count) port).utf8ByteSize := by
  have only : ∀ char ∈ (underscores count).toList, char = '_' := by
    intro char member
    simp only [underscores, String.toList_ofList] at member
    exact List.eq_of_mem_replicate member
  have member : '_' ∈ (underscores count).toList := by
    simp [underscores, Nat.pos_iff_ne_zero.mp positive]
  have colonless : ':' ∉ (underscores count).toList := fun colon => by
    simpa using only ':' colon
  have size : (addrStr (underscores count) port).utf8ByteSize =
      count + (1 + (Nat.toDigits 10 port.toNat).length) := by
    rw [addr_str_plain _ port colonless, ← as_bytes_length,
      plain_bytes _ _ (port_digits_ascii port).1, String.ofList_toList, List.length_append,
      as_bytes_length, underscores_size, List.length_cons, List.length_map]
    omega
  have digits := (port_digits_ascii port).2
  refine ⟨⟨?_, ?_, ?_⟩, by omega⟩
  · intro ip
    rw [parse_ip_foreign underscore_foreign _ member]
    simp
  · intro char present
    rw [only char present]
    decide
  · rw [size, maxAddressLength]
    omega

/-- A server takes a name of 300 octets from a request and hands it on, and the head
written for it is not read back, whatever follows it. -/
theorem long_name_lost :
    requestTarget (.domain (underscores 300) 443) = some (.domain (underscores 300) 443) ∧
      ∀ payload, (readRequestHead none).run
          ⟨encodeRequestHead 1 (.domain (underscores 300) 443) zeroHash ++ payload, []⟩ ≠
        .ok (1, .domain (underscores 300) 443) ⟨payload, []⟩ := by
  obtain ⟨usable, long⟩ := underscores_addressable 300 443 (by decide) (by decide)
  refine ⟨domain_understood _ 443 usable (.inr (by omega)), fun payload survives => ?_⟩
  have fits := read_back_fits 1 (.domain (underscores 300) 443) zeroHash none payload []
    (by decide) survives
  rw [ProxyTarget.fits, underscores_size] at fits
  omega

end Examples

end OmniProxy.TrojanHeads
