import OmniProxy.Connections
import OmniProxy.ProxyTargets

/-!
# Reading an address from a connection

Two protocols read the tagged form of an address octet by octet from the connection.
Unlike the reader of a whole buffer they take a domain of any length, also an empty
one, and replace what is not UTF-8 in it. The octets that are read, and the address
they stand for, are given as a relation.
-/

namespace OmniProxy.AddressReads

open ByteStrings Connections ProxyTargets

/-- Read the address after its tag; what an unknown tag is answered with differs. -/
def readTagged (unknown : IoError) (atyp : UInt8) : Io Socks5Addr :=
  if atyp = 0x01 then do
    let b ← readArray 6
    return .v4 (octetsOf 4 b.toList (by simp)) (portAt b.toList 4)
  else if atyp = 0x03 then do
    let dl ← readExact 1
    let dl := (dl.getD 0 0).toNat
    let b ← readExact (dl + 2)
    return .domain (fromUtf8Lossy (b.take dl)) (portAt b dl)
  else if atyp = 0x04 then do
    let b ← readArray 18
    return .v6 (octetsOf 16 b.toList (by simp)) (portAt b.toList 16)
  else throw unknown

/-- The octets after a tag that stand for an address. -/
inductive Tagged : UInt8 → Bytes → Socks5Addr → Prop where
  | v4 (ip : Octets 4) (port : UInt16) : Tagged 0x01 (ip.toList ++ bigEndian16 port) (.v4 ip port)
  | domain (host : Bytes) (port : UInt16) (short : host.length ≤ 255) :
      Tagged 0x03 (UInt8.ofNat host.length :: host ++ bigEndian16 port)
        (.domain (fromUtf8Lossy host) port)
  | v6 (ip : Octets 16) (port : UInt16) : Tagged 0x04 (ip.toList ++ bigEndian16 port) (.v6 ip port)

/-- What ends with two octets ends with the port they denote. -/
theorem split_at_port (bytes : Bytes) (count : Nat) (width : bytes.length = count + 2) :
    bytes.take count ++ bigEndian16 (portAt bytes count) = bytes := by
  have tail : (bytes.drop count).length = 2 := by
    rw [List.length_drop]
    omega
  obtain ⟨high, low, octets⟩ := List.length_eq_two.mp tail
  have front : (bytes.take count).length = count := by
    rw [List.length_take]
    omega
  have joined : bytes.take count ++ [high, low] = bytes := by
    rw [← octets, List.take_append_drop]
  have port : portAt bytes count = ofBigEndian16 high low := by
    rw [portAt, ← joined]
    simp [front]
  rw [port, big_endian16_of, joined]

/-- An address of a fixed width with its port is read when it is in front. -/
theorem read_fixed_iff (count : Nat) (make : Octets count → UInt16 → Socks5Addr)
    (conn after : Conn) (addr : Socks5Addr) :
    (do
      let b ← readArray (count + 2)
      return make (octetsOf count b.toList (b.toList_length.ge.trans' (Nat.le_add_right count 2)))
        (portAt b.toList count) :
        Io Socks5Addr).run conn = .ok addr after ↔
      ∃ ip port, make ip port = addr ∧
        conn.incoming = ip.toList ++ bigEndian16 port ++ after.incoming ∧
        after.written = conn.written := by
  simp only [bind_yields_iff, read_array_yields_iff, pure_yields_iff]
  constructor
  · rintro ⟨bytes, reached, ⟨arrived, silent⟩, made, rfl⟩
    refine ⟨_, _, made, ?_, silent⟩
    rw [arrived, octetsOf, List.Vector.toList_mk,
      split_at_port bytes.toList count bytes.toList_length]
  · rintro ⟨ip, port, made, arrived, silent⟩
    refine ⟨⟨ip.toList ++ bigEndian16 port, by simp⟩, after, ⟨?_, silent⟩, ?_, rfl⟩
    · simpa using arrived
    · have ported := port_at_append ip.toList [] port count ip.toList_length
      rw [List.append_nil] at ported
      simp only [List.Vector.toList_mk, octets_of_append, ported, made]

/-- A domain with its port is read when its length is in front of it. -/
theorem read_domain_iff (conn after : Conn) (addr : Socks5Addr) :
    (do
      let dl ← readExact 1
      let dl := (dl.getD 0 0).toNat
      let b ← readExact (dl + 2)
      return .domain (fromUtf8Lossy (b.take dl)) (portAt b dl) :
        Io Socks5Addr).run conn = .ok addr after ↔
      ∃ host port, host.length ≤ 255 ∧ .domain (fromUtf8Lossy host) port = addr ∧
        conn.incoming = UInt8.ofNat host.length :: host ++ bigEndian16 port ++ after.incoming ∧
        after.written = conn.written := by
  simp only [bind_yields_iff, read_exact_yields_iff, pure_yields_iff]
  constructor
  · rintro ⟨front, reached, ⟨one, arrived, silent⟩, bytes, last, ⟨width, rest, quiet⟩, made, rfl⟩
    obtain ⟨dl, rfl⟩ := List.length_eq_one_iff.mp one
    simp only [List.getD_cons_zero] at width made
    have bounded : dl.toNat < 256 := dl.toNat_lt
    have long : (bytes.take dl.toNat).length = dl.toNat := by
      rw [List.length_take]
      omega
    refine ⟨bytes.take dl.toNat, portAt bytes dl.toNat, by omega, made, ?_, quiet.trans silent⟩
    rw [arrived, rest, long, UInt8.ofNat_toNat]
    simp only [List.cons_append, List.nil_append, split_at_port bytes dl.toNat width]
  · rintro ⟨host, port, short, made, arrived, silent⟩
    have tag : (UInt8.ofNat host.length).toNat = host.length := by
      rw [UInt8.toNat_ofNat']
      omega
    refine ⟨[UInt8.ofNat host.length],
      ⟨host ++ bigEndian16 port ++ after.incoming, conn.written⟩, ⟨rfl, ?_, rfl⟩,
      host ++ bigEndian16 port, after, ⟨?_, rfl, silent⟩, ?_, rfl⟩
    · simpa using arrived
    · simp [tag]
    · have ported := port_at_append host [] port host.length rfl
      rw [List.append_nil] at ported
      simp only [List.getD_cons_zero, tag, List.take_left, ported, made]

/-- Reading after a tag takes exactly the octets that stand for the address. -/
theorem read_tagged_yields_iff (unknown : IoError) (atyp : UInt8) (conn after : Conn)
    (addr : Socks5Addr) :
    (readTagged unknown atyp).run conn = .ok addr after ↔
      ∃ body, Tagged atyp body addr ∧ conn.incoming = body ++ after.incoming ∧
        after.written = conn.written := by
  unfold readTagged
  split_ifs with four domain six
  · subst four
    rw [read_fixed_iff 4 Socks5Addr.v4]
    constructor
    · rintro ⟨ip, port, rfl, arrived, silent⟩
      exact ⟨_, .v4 ip port, arrived, silent⟩
    · rintro ⟨body, tagged, arrived, silent⟩
      cases tagged with
      | v4 ip port => exact ⟨ip, port, rfl, arrived, silent⟩
  · subst domain
    rw [read_domain_iff]
    constructor
    · rintro ⟨host, port, short, rfl, arrived, silent⟩
      exact ⟨_, .domain host port short, arrived, silent⟩
    · rintro ⟨body, tagged, arrived, silent⟩
      cases tagged with
      | domain host port short => exact ⟨host, port, short, rfl, arrived, silent⟩
  · subst six
    rw [read_fixed_iff 16 Socks5Addr.v6]
    constructor
    · rintro ⟨ip, port, rfl, arrived, silent⟩
      exact ⟨_, .v6 ip port, arrived, silent⟩
    · rintro ⟨body, tagged, arrived, silent⟩
      cases tagged with
      | v6 ip port => exact ⟨ip, port, rfl, arrived, silent⟩
  · constructor
    · intro read
      simp at read
    · rintro ⟨_, tagged, -⟩
      cases tagged with
      | v4 => exact absurd rfl four
      | domain => exact absurd rfl domain
      | v6 => exact absurd rfl six

end OmniProxy.AddressReads
