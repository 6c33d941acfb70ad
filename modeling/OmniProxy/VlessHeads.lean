import OmniProxy.Connections
import OmniProxy.ProxyTargets

/-!
# The head of a VLESS request

A head is a version, the identifier of a user, a block of addons, a command, a port and an
address. The writer takes any target and any addons, and puts the length of each into one
octet; the reader refuses addons that begin with 1. The octets the reader takes are given as
a relation. So every head that is written for a short domain and for addons the reader knows
is read back with nothing behind it touched, and a server takes exactly the heads of its
users with one of two commands.
-/

namespace OmniProxy.VlessHeads

open ByteStrings Connections ProxyTargets

def cmdTcp : UInt8 := 0x01
def cmdUdp : UInt8 := 0x02
def cmdMux : UInt8 := 0x03

def atypV4 : UInt8 := 0x01
def atypDomain : UInt8 := 0x02
def atypV6 : UInt8 := 0x03

/-- An error of this protocol. -/
def ioerr (message : String) : IoError := .ofText message

/-- The same target at another port. -/
def withPort : ProxyTarget → UInt16 → ProxyTarget
  | .tcp addr, port => .tcp { addr with port := port }
  | .domain host _, port => .domain host port

/-- The tag of an address and its octets. -/
def encodeAddress : ProxyTarget → Bytes
  | .tcp ⟨.v4 ip, _⟩ => [atypV4] ++ ip.toList
  | .tcp ⟨.v6 ip, _⟩ => [atypV6] ++ ip.toList
  | .domain host _ => [atypDomain] ++ [UInt8.ofNat (asBytes host).length] ++ asBytes host

/-- Write a head. -/
def encodeRequest (uuid : Octets 16) (cmd : UInt8) (target : ProxyTarget) (addons : Bytes) :
    Bytes :=
  [0] ++ uuid.toList ++ [UInt8.ofNat addons.length] ++ addons ++ [cmd] ++
    bigEndian16 target.port ++ encodeAddress target

/-- Read the addons that were announced and drop them. -/
def readAddons (alen : UInt8) : Io Unit :=
  if 0 < alen then do
    let addons ← readExact alen.toNat
    rejectIf (addons.head? = some 0x01) (ioerr "vless: flow addon requires vision support")
  else pure ()

/-- Read the address after its tag. -/
def readAddr (atyp : UInt8) (port : UInt16) : Io Socks5Addr :=
  if atyp = atypV4 then do
    let b ← readArray 4
    return .v4 b port
  else if atyp = atypDomain then do
    let dl ← readExact 1
    let rest ← readExact (dl.getD 0 0).toNat
    return .domain (fromUtf8Lossy rest) port
  else if atyp = atypV6 then do
    let ip ← readArray 16
    return .v6 ip port
  else throw (ioerr "vless: unknown address type")

/-- Read a head: the user, the command and the target. -/
def readRequestHead : Io (Octets 16 × UInt8 × ProxyTarget) := do
  let ver ← readExact 1
  rejectIf (ver.getD 0 0 ≠ 0) (ioerr "vless: unsupported version")
  let uuid ← readArray 16
  let alen ← readExact 1
  readAddons (alen.getD 0 0)
  let cmd ← readExact 1
  let portb ← readExact 2
  let port := portAt portb 0
  let atyp ← readExact 1
  let addr ← readAddr (atyp.getD 0 0) port
  return (uuid, cmd.getD 0 0, withPort addr.toProxyTarget port)

def writeResponse : Io Unit := writeAll [0x00, 0x00]

structure VlessInboundConfig where
  allowedUuids : List (Octets 16)

/-- What a server takes; the stream goes on with what the head left. -/
inductive Accepted where
  | tcp (target : ProxyTarget)
  | udp
deriving DecidableEq

/-- Answer a known command. -/
def respond (cmd : UInt8) (target : ProxyTarget) : Io Accepted :=
  if cmd = cmdTcp then do
    writeResponse
    return .tcp target
  else if cmd = cmdUdp then do
    writeResponse
    return .udp
  else throw (ioerr "vless: unsupported command")

def handshake (cfg : VlessInboundConfig) : Io Accepted := do
  let (uuid, cmd, target) ← readRequestHead
  rejectIf (uuid ∉ cfg.allowedUuids) (ioerr "vless: authentication failed")
  respond cmd target

section Reading

/-- The octets after a tag that stand for an address. -/
inductive Tagged (port : UInt16) : UInt8 → Bytes → Socks5Addr → Prop where
  | v4 (ip : Octets 4) : Tagged port atypV4 ip.toList (.v4 ip port)
  | domain (host : Bytes) (short : host.length ≤ 255) :
      Tagged port atypDomain (UInt8.ofNat host.length :: host) (.domain (fromUtf8Lossy host) port)
  | v6 (ip : Octets 16) : Tagged port atypV6 ip.toList (.v6 ip port)

/-- Addons the reader takes. -/
def Plain (addons : Bytes) : Prop := addons.length ≤ 255 ∧ addons.head? ≠ some 0x01

instance (addons : Bytes) : Decidable (Plain addons) :=
  inferInstanceAs (Decidable (addons.length ≤ 255 ∧ addons.head? ≠ some 0x01))

/-- Streams with a head in front. -/
inductive HeadOf (uuid : Octets 16) (cmd : UInt8) (target : ProxyTarget) (rest : Bytes) :
    Bytes → Prop where
  | made (addons : Bytes) (port : UInt16) (atyp : UInt8) (body : Bytes) (addr : Socks5Addr)
      (plain : Plain addons) (tagged : Tagged port atyp body addr)
      (named : addr.toProxyTarget = target) :
      HeadOf uuid cmd target rest
        ([0] ++ uuid.toList ++ [UInt8.ofNat addons.length] ++ addons ++ [cmd] ++
          bigEndian16 port ++ [atyp] ++ body ++ rest)

/-- A length in one octet is read back when it fits. -/
theorem length_octet {bytes : Bytes} (short : bytes.length ≤ 255) :
    (UInt8.ofNat bytes.length).toNat = bytes.length := by
  rw [UInt8.toNat_ofNat']
  omega

/-- Addons of the announced length are taken when they are plain. -/
theorem read_addons_yields_iff (alen : UInt8) (conn after : Conn) (value : Unit) :
    (readAddons alen).run conn = .ok value after ↔
      ∃ addons, alen = UInt8.ofNat addons.length ∧ Plain addons ∧
        conn.incoming = addons ++ after.incoming ∧ after.written = conn.written := by
  have bounded : alen.toNat < 256 := alen.toNat_lt
  rw [readAddons]
  split_ifs with some
  · simp only [bind_yields_iff, read_exact_yields_iff, reject_if_yields_iff]
    constructor
    · rintro ⟨addons, reached, ⟨width, arrived, silent⟩, known, rfl⟩
      refine ⟨addons, ?_, ⟨by omega, known⟩, arrived, silent⟩
      rw [width, UInt8.ofNat_toNat]
    · rintro ⟨addons, rfl, ⟨short, known⟩, arrived, silent⟩
      exact ⟨addons, after, ⟨(length_octet short).symm, arrived, silent⟩, known, rfl⟩
  · have zero : alen.toNat = 0 := by
      rw [UInt8.lt_iff_toNat_lt] at some
      exact Nat.eq_zero_of_not_pos some
    rw [pure_yields_iff]
    constructor
    · rintro ⟨-, rfl⟩
      refine ⟨[], ?_, ⟨by decide, by decide⟩, rfl, rfl⟩
      rw [← UInt8.ofNat_toNat (x := alen), zero]
      rfl
    · rintro ⟨addons, rfl, ⟨short, -⟩, arrived, silent⟩
      rw [length_octet short] at zero
      obtain rfl := List.eq_nil_of_length_eq_zero zero
      obtain ⟨incoming, written⟩ := conn
      obtain ⟨left, sent⟩ := after
      cases arrived
      cases silent
      exact ⟨rfl, rfl⟩

/-- An address is read when it is in front. -/
theorem read_addr_yields_iff (atyp : UInt8) (port : UInt16) (conn after : Conn)
    (addr : Socks5Addr) :
    (readAddr atyp port).run conn = .ok addr after ↔
      ∃ body, Tagged port atyp body addr ∧ conn.incoming = body ++ after.incoming ∧
        after.written = conn.written := by
  rw [readAddr]
  split_ifs with four domain six
  · subst four
    simp only [bind_yields_iff, read_array_yields_iff, pure_yields_iff]
    constructor
    · rintro ⟨ip, reached, ⟨arrived, silent⟩, rfl, rfl⟩
      exact ⟨_, .v4 ip, arrived, silent⟩
    · rintro ⟨body, tagged, arrived, silent⟩
      cases tagged with
      | v4 ip => exact ⟨ip, after, ⟨arrived, silent⟩, rfl, rfl⟩
  · subst domain
    simp only [bind_yields_iff, read_exact_yields_iff, pure_yields_iff]
    constructor
    · rintro ⟨front, reached, ⟨one, arrived, silent⟩, host, last, ⟨width, rest, quiet⟩, rfl, rfl⟩
      obtain ⟨dl, rfl⟩ := List.length_eq_one_iff.mp one
      simp only [List.getD_cons_zero] at width
      have bounded : dl.toNat < 256 := dl.toNat_lt
      refine ⟨_, .domain host (by omega), ?_, quiet.trans silent⟩
      rw [arrived, rest, width, UInt8.ofNat_toNat]
      rfl
    · rintro ⟨body, tagged, arrived, silent⟩
      cases tagged with
      | domain host short =>
        refine ⟨[UInt8.ofNat host.length], ⟨host ++ after.incoming, conn.written⟩,
          ⟨rfl, arrived, rfl⟩, host, after, ⟨?_, rfl, silent⟩, rfl, rfl⟩
        rw [List.getD_cons_zero, length_octet short]
  · subst six
    simp only [bind_yields_iff, read_array_yields_iff, pure_yields_iff]
    constructor
    · rintro ⟨ip, reached, ⟨arrived, silent⟩, rfl, rfl⟩
      exact ⟨_, .v6 ip, arrived, silent⟩
    · rintro ⟨body, tagged, arrived, silent⟩
      cases tagged with
      | v6 ip => exact ⟨ip, after, ⟨arrived, silent⟩, rfl, rfl⟩
  · constructor
    · intro read
      simp at read
    · rintro ⟨_, tagged, -⟩
      cases tagged with
      | v4 => exact absurd rfl four
      | domain => exact absurd rfl domain
      | v6 => exact absurd rfl six

/-- The address that is read has the port in front of it already. -/
theorem tagged_port {port : UInt16} {atyp : UInt8} {body : Bytes} {addr : Socks5Addr}
    (tagged : Tagged port atyp body addr) :
    withPort addr.toProxyTarget port = addr.toProxyTarget := by
  cases tagged <;> rfl

/-- The reader takes a head exactly when the stream has one in front. -/
theorem read_head_iff (stream written : Bytes) (uuid : Octets 16) (cmd : UInt8)
    (target : ProxyTarget) (after : Conn) :
    readRequestHead.run ⟨stream, written⟩ = .ok (uuid, cmd, target) after ↔
      HeadOf uuid cmd target after.incoming stream ∧ after.written = written := by
  simp only [readRequestHead, bind_yields_iff, read_exact_yields_iff, reject_if_yields_iff,
    read_array_yields_iff, read_addons_yields_iff, read_addr_yields_iff, pure_yields_iff, ne_eq,
    not_not]
  constructor
  · rintro ⟨ver, first, ⟨one, arrived, silent⟩, _, _, ⟨current, rfl⟩, user, second,
      ⟨userArrived, userSilent⟩, alen, third, ⟨oneLength, alenArrived, alenSilent⟩, _, fourth,
      ⟨addons, announced, plain, addonsArrived, addonsSilent⟩, command, fifth,
      ⟨oneCommand, commandArrived, commandSilent⟩, portb, sixth, ⟨two, portArrived, portSilent⟩,
      tag, seventh, ⟨oneTag, tagArrived, tagSilent⟩, addr, last,
      ⟨body, tagged, bodyArrived, bodySilent⟩, made, rfl⟩
    obtain ⟨version, rfl⟩ := List.length_eq_one_iff.mp one
    obtain ⟨length, rfl⟩ := List.length_eq_one_iff.mp oneLength
    obtain ⟨octet, rfl⟩ := List.length_eq_one_iff.mp oneCommand
    obtain ⟨atyp, rfl⟩ := List.length_eq_one_iff.mp oneTag
    obtain ⟨high, low, rfl⟩ := List.length_eq_two.mp two
    simp only [List.getD_cons_zero] at current announced tagged made
    obtain ⟨rfl, rfl, rfl⟩ : user = uuid ∧ octet = cmd ∧ _ = target := by
      simpa only [Prod.mk.injEq] using made
    have head : HeadOf user octet (withPort addr.toProxyTarget (portAt [high, low] 0))
        last.incoming _ :=
      .made addons (portAt [high, low] 0) atyp body addr plain tagged (tagged_port tagged).symm
    have port : bigEndian16 (portAt [high, low] 0) = [high, low] := big_endian16_of high low
    refine ⟨?_, by rw [bodySilent, tagSilent, portSilent, commandSilent, addonsSilent, alenSilent,
      userSilent, silent]⟩
    convert head using 1
    rw [arrived, userArrived, alenArrived, addonsArrived, commandArrived, portArrived, tagArrived,
      bodyArrived, current, announced, port]
    simp only [List.append_assoc]
  · rintro ⟨⟨addons, port, atyp, body, addr, plain, tagged, rfl⟩, silent⟩
    have announced : portAt (bigEndian16 port) 0 = port := by
      have ported := port_at_append [] [] port 0 rfl
      rwa [List.nil_append, List.append_nil] at ported
    let behind := body ++ after.incoming
    let fields := [cmd] ++ (bigEndian16 port ++ ([atyp] ++ behind))
    refine ⟨[0], ⟨uuid.toList ++ ([UInt8.ofNat addons.length] ++ (addons ++ fields)), written⟩,
      ⟨rfl, ?_, rfl⟩, (), _, ⟨rfl, rfl⟩, uuid,
      ⟨[UInt8.ofNat addons.length] ++ (addons ++ fields), written⟩, ⟨rfl, rfl⟩,
      [UInt8.ofNat addons.length], ⟨addons ++ fields, written⟩, ⟨rfl, rfl, rfl⟩, (),
      ⟨fields, written⟩, ⟨addons, rfl, plain, rfl, rfl⟩, [cmd],
      ⟨bigEndian16 port ++ ([atyp] ++ behind), written⟩, ⟨rfl, rfl, rfl⟩, bigEndian16 port,
      ⟨[atyp] ++ behind, written⟩, ⟨big_endian16_length port, rfl, rfl⟩, [atyp],
      ⟨behind, written⟩, ⟨rfl, rfl, rfl⟩, addr, after, ⟨body, ?_, rfl, silent⟩, ?_, rfl⟩
    · simp only [fields, behind, List.append_assoc]
    · rwa [announced]
    · rw [announced, tagged_port tagged]
      rfl

/-- A head that is written for a short target and plain addons is a head of the grammar. -/
theorem encode_request_head (uuid : Octets 16) (cmd : UInt8) (target : ProxyTarget)
    (addons payload : Bytes) (fits : target.fits) (plain : Plain addons) :
    HeadOf uuid cmd target payload (encodeRequest uuid cmd target addons ++ payload) := by
  have made (atyp : UInt8) (body : Bytes) (addr : Socks5Addr)
      (address : encodeAddress target = [atyp] ++ body)
      (tagged : Tagged target.port atyp body addr) (named : addr.toProxyTarget = target) :
      HeadOf uuid cmd target payload (encodeRequest uuid cmd target addons ++ payload) := by
    have head : HeadOf uuid cmd target payload _ :=
      .made addons target.port atyp body addr plain tagged named
    rw [encodeRequest, address]
    simpa only [List.append_assoc] using head
  rcases target with ⟨ip | ip, port⟩ | ⟨host, port⟩
  · exact made _ _ _ rfl (.v4 ip) rfl
  · exact made _ _ _ rfl (.v6 ip) rfl
  · have tagged : Tagged port atypDomain _ _ := .domain (asBytes host) fits
    rw [from_utf8_lossy_as_bytes] at tagged
    exact made _ _ _ rfl tagged rfl

end Reading

section Serving

/-- What a command asks for, if it is known. -/
def acceptedAs (cmd : UInt8) (target : ProxyTarget) : Option Accepted :=
  if cmd = cmdTcp then some (.tcp target)
  else if cmd = cmdUdp then some .udp
  else none

/-- A command is accepted exactly when it is one of the two that are known. -/
theorem accepted_as_some_iff (cmd : UInt8) (target : ProxyTarget) :
    (∃ accepted, acceptedAs cmd target = some accepted) ↔ cmd = cmdTcp ∨ cmd = cmdUdp := by
  rw [acceptedAs]
  split_ifs with tcp udp
  · exact ⟨fun _ => .inl tcp, fun _ => ⟨_, rfl⟩⟩
  · exact ⟨fun _ => .inr udp, fun _ => ⟨_, rfl⟩⟩
  · simp [tcp, udp]

/-- A known command is answered with two octets. -/
theorem respond_yields_iff (cmd : UInt8) (target : ProxyTarget) (conn after : Conn)
    (accepted : Accepted) :
    (respond cmd target).run conn = .ok accepted after ↔
      acceptedAs cmd target = some accepted ∧
        { conn with written := conn.written ++ [0, 0] } = after := by
  rw [respond, acceptedAs]
  split_ifs with tcp udp
  · simp only [writeResponse, bind_yields_iff, write_all_yields_iff, pure_yields_iff,
      Option.some.injEq]
    constructor
    · rintro ⟨_, _, answered, same, reached⟩
      exact ⟨same, answered.trans reached⟩
    · rintro ⟨same, answered⟩
      exact ⟨(), _, rfl, same, answered⟩
  · simp only [writeResponse, bind_yields_iff, write_all_yields_iff, pure_yields_iff,
      Option.some.injEq]
    constructor
    · rintro ⟨_, _, answered, same, reached⟩
      exact ⟨same, answered.trans reached⟩
    · rintro ⟨same, answered⟩
      exact ⟨(), _, rfl, same, answered⟩
  · simp

/-- A server takes a stream exactly when a head of one of its users with a known command is in
front, and answers it with two octets. -/
theorem handshake_iff (cfg : VlessInboundConfig) (stream written : Bytes) (accepted : Accepted)
    (after : Conn) :
    (handshake cfg).run ⟨stream, written⟩ = .ok accepted after ↔
      ∃ uuid cmd target, HeadOf uuid cmd target after.incoming stream ∧
        uuid ∈ cfg.allowedUuids ∧ acceptedAs cmd target = some accepted ∧
        after.written = written ++ [0, 0] := by
  simp only [handshake, bind_yields_iff, reject_if_yields_iff, respond_yields_iff, not_not]
  constructor
  · rintro ⟨⟨uuid, cmd, target⟩, reached, ran, _, _, ⟨known, rfl⟩, taken, rfl⟩
    obtain ⟨head, silent⟩ := (read_head_iff stream written uuid cmd target reached).mp ran
    exact ⟨uuid, cmd, target, head, known, taken, by rw [silent]⟩
  · rintro ⟨uuid, cmd, target, head, known, taken, answered⟩
    have ran := (read_head_iff stream written uuid cmd target ⟨after.incoming, written⟩).mpr
      ⟨head, rfl⟩
    refine ⟨(uuid, cmd, target), _, ran, (), _, ⟨known, rfl⟩, taken, ?_⟩
    rw [← answered]

/-- Every head for a short target and plain addons is read back with what follows it left, and
a server takes it exactly when the user is one of its own and the command is one of two. -/
theorem request_round_trip (uuid : Octets 16) (cmd : UInt8) (target : ProxyTarget)
    (addons payload written : Bytes) (fits : target.fits) (plain : Plain addons)
    (cfg : VlessInboundConfig) :
    readRequestHead.run ⟨encodeRequest uuid cmd target addons ++ payload, written⟩ =
        .ok (uuid, cmd, target) ⟨payload, written⟩ ∧
      ((∃ accepted after,
          (handshake cfg).run ⟨encodeRequest uuid cmd target addons ++ payload, written⟩ =
            .ok accepted after) ↔
        uuid ∈ cfg.allowedUuids ∧ (cmd = cmdTcp ∨ cmd = cmdUdp)) := by
  have head := encode_request_head uuid cmd target addons payload fits plain
  have read := (read_head_iff _ written uuid cmd target ⟨payload, written⟩).mpr ⟨head, rfl⟩
  refine ⟨read, ?_⟩
  rw [← accepted_as_some_iff cmd target]
  constructor
  · rintro ⟨accepted, after, taken⟩
    obtain ⟨user, command, named, other, known, asked, -⟩ :=
      (handshake_iff cfg _ written accepted after).mp taken
    -- What is in front is read in one way only.
    have again := (read_head_iff _ written user command named ⟨after.incoming, written⟩).mpr
      ⟨other, rfl⟩
    obtain ⟨⟨rfl, rfl, rfl⟩, -⟩ : (uuid = user ∧ cmd = command ∧ target = named) ∧ _ := by
      simpa only [EStateM.Result.ok.injEq, Prod.mk.injEq] using read.symm.trans again
    exact ⟨known, accepted, asked⟩
  · rintro ⟨known, accepted, asked⟩
    exact ⟨accepted, ⟨payload, written ++ [0, 0]⟩,
      (handshake_iff cfg _ written accepted _).mpr ⟨uuid, cmd, target, head, known, asked, rfl⟩⟩

/-- A head with addons for a name and the server that knows its user. -/
theorem request_round_trip_example :
    let uuid : Octets 16 := ⟨List.replicate 16 0xAB, rfl⟩
    readRequestHead.run ⟨encodeRequest uuid 2 (.domain "example.com" 53) [9, 1] ++ [5, 6], []⟩ =
        .ok (uuid, 2, .domain "example.com" 53) ⟨[5, 6], []⟩ ∧
      ((∃ accepted after,
          (handshake ⟨[uuid]⟩).run
              ⟨encodeRequest uuid 2 (.domain "example.com" 53) [9, 1] ++ [5, 6], []⟩ =
            .ok accepted after) ↔
        uuid ∈ [uuid] ∧ ((2 : UInt8) = cmdTcp ∨ (2 : UInt8) = cmdUdp)) :=
  request_round_trip _ 2 (.domain "example.com" 53) [9, 1] [5, 6] [] (by decide) (by decide) _

end Serving

end OmniProxy.VlessHeads
