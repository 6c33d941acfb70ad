import OmniProxy.RuntimeConfig
import OmniProxy.ShadowsocksStream

/-!
# Plans of the inbound nodes

Each node of a configuration becomes a plan: its tag, its protocol with the
credentials, the addresses it listens on, its certificates, the transport around
it and its multiplexer. A node without a tag is named after its position. The
first fault stops the whole construction.

Reading files, making self-signed certificates and hashing a password with SHA-224
are parameters.
-/

namespace OmniProxy.NodePlans

open ByteStrings ProxyTargets AddressText CheckedLoops JsonValues RuntimeConfig Digests
open ShadowsocksStream (SsInboundConfig)

/-- A certificate chain with its key. -/
structure ServerCertMaterial where
  certPem : Bytes
  keyPem : Bytes

/-- What the construction takes from outside: files, self-signed certificates and
the hash of a password. -/
structure NodeEnvironment where
  readFile : String → Except String Bytes
  generateSelfSigned : String → Except String ServerCertMaterial
  sha224 : Bytes → Bytes

/-- The settings of a node about its certificates. -/
structure TlsSpecView where
  certMode : Option String
  certDomain : Option String
  certFile : Option String
  keyFile : Option String
  certContent : Option String
  keyContent : Option String

def specView : Option TlsInboundSpecWire → TlsSpecView
  | some spec => ⟨spec.certMode, spec.certDomain, spec.certFile, spec.keyFile, spec.certContent,
      spec.keyContent⟩
  | none => ⟨none, none, none, none, none, none⟩

/-- A multiplexer. -/
inductive MuxKind where
  | smux
  | yamux
deriving DecidableEq

def MuxKind.parse (name : String) : Option MuxKind :=
  match toAsciiLowercase name with
  | "smux" => some smux
  | "yamux" => some yamux
  | _ => none

structure SocksInboundConfig where
  username : Option String
  password : Option String

structure TlsServerSetup where
  materialCert : Bytes
  materialKey : Bytes
  alpn : List String

/-- The protocol of a plan. -/
inductive InboundProto where
  | socks (config : SocksInboundConfig)
  | trojan (passwordHash : String)
  | shadowsocks (config : SsInboundConfig)
  | vless (users : List (Octets 16))
  | vmess (users : List (Octets 16))
  | hysteria2 (password : String) (tls : Option TlsServerSetup)
  | anytls (password : String)
  | naive
  | mieru (username password : String)

/-- The transport around a protocol. -/
inductive WrapTransport where
  | none
  | ws (path host : Option String) (maxConcurrentStreams : Option UInt32)
  | httpUp (path host : Option String)
  | grpc (serviceName : String)
  | h2 (path host : Option String)

structure NodePlan where
  tag : String
  proto : InboundProto
  listenAddrs : List SocketAddr
  tls : Option TlsServerSetup
  wrap : WrapTransport
  acceptProxyProtocol : Bool
  acceptUdpProxyProtocol : Bool
  udpEnabled : Bool
  inboundMux : Option MuxKind

section Construction

variable (env : NodeEnvironment)

/-- The certificates that the settings of a node name. -/
def resolveTlsPems (spec : TlsSpecView) (emailPresent : Bool) :
    Except String ServerCertMaterial :=
  let given (value : Option String) : String := value.getD ""
  match spec.certMode with
  | some "file" =>
      if (given spec.certFile).isEmpty || (given spec.keyFile).isEmpty then
        .error "cert_mode=file requires cert_file and key_file paths"
      else do
        let cert ← (env.readFile (given spec.certFile)).mapError
          ("cert: failed to read " ++ given spec.certFile ++ ": " ++ ·)
        let key ← (env.readFile (given spec.keyFile)).mapError
          ("cert: failed to read " ++ given spec.keyFile ++ ": " ++ ·)
        return ⟨cert, key⟩
  | some "content" =>
      if (given spec.certContent).isEmpty then .error "cert_mode=content requires cert_content"
      else if (given spec.keyContent).isEmpty then .error "cert_mode=content requires key_content"
      else .ok ⟨asBytes (given spec.certContent), asBytes (given spec.keyContent)⟩
  | some "self" =>
      if (given spec.certDomain).isEmpty then .error "cert_mode=self requires cert_domain"
      else (env.generateSelfSigned (given spec.certDomain)).mapError ("cert.generate: " ++ ·)
  | some "acme" =>
      if !emailPresent then .error "acme.email must not be empty"
      else .error "acme: no DNS provider configured in this build"
  | other => .error ("cert: unsupported cert_mode: " ++ other.getD "")

/-- The certificates of a node that asks for them, with the protocols it names. -/
def tlsServerSetup (node : NodeConfigWire) (alpn : TlsInboundSpecWire → List String) :
    Except String (Option TlsServerSetup) :=
  match node.tls with
  | none => .ok none
  | some spec =>
      if spec.enabled || spec.certMode.isSome then do
        let material ← resolveTlsPems env (specView node.tls) false
        return some ⟨material.certPem, material.keyPem, alpn spec⟩
      else .ok none

/-- The ports of an inclusive range. -/
def portsOf (range : PortRangeWire) : List UInt16 :=
  (List.range' range.first.toNat (range.last.toNat + 1 - range.first.toNat)).map UInt16.ofNat

/-- Add the ports of a range, which may not run backwards. -/
def addRange (ports : List UInt16) (range : PortRangeWire) : Except String (List UInt16) :=
  if range.last < range.first then
    .error ("invalid port range " ++ toString range.first ++ "-" ++ toString range.last)
  else .ok (ports ++ portsOf range)

/-- The address a node listens on: all addresses unless it names one. -/
def listenIp (node : NodeConfigWire) : Except String IpAddr :=
  match node.listen.filter (!·.isEmpty) with
  | none => .ok (.v4 (zeroOctets 4))
  | some text =>
      (parseIpAddr (trimMatches (· == '[') (· == ']') text)).mapError
        ("invalid listen address '" ++ text ++ "': " ++ ·)

def expandListenAddrs (node : NodeConfigWire) : Except String (List SocketAddr) := do
  let ip ← listenIp node
  let ports ← (node.portRanges.getD []).foldlM addRange
    (node.port.toList ++ node.ports.getD [])
  if ports.isEmpty then .error "missing listen_port"
  else return ports.map (SocketAddr.mk ip)

def strField (fields : Members) (key : String) : Option String :=
  (fields.get key).bind Json.asStr

/-- A text that an inbound cannot do without. -/
def requiredField (fields : Members) (proto key : String) : Except String String :=
  match strField fields key with
  | some value => .ok value
  | none => .error (proto ++ " inbound requires a non-empty '" ++ key ++ "'")

/-- The texts among the users of a node. -/
def userTexts (fields : Members) : List String :=
  match fields.get "users" with
  | some (.array elements) => elements.filterMap Json.asStr
  | _ => []

/-- Read user identities and require at least one. -/
def parseUsers (proto : String) (invalid : String → String) (texts : List String) :
    Except String (List (Octets 16)) := do
  let users ← texts.mapM fun text =>
    match parseUuid text with
    | some user => .ok user
    | none => .error (invalid text)
  if users.isEmpty then .error (proto ++ " inbound requires at least one user uuid")
  else return users

/-- The protocol of a node. -/
def inboundProto (node : NodeConfigWire) : Except String InboundProto :=
  let fields := node.protocol
  match node.type with
  | "socks" | "socks5" => .ok (.socks ⟨none, none⟩)
  | "trojan" => do
      let password ← requiredField fields "trojan" "password"
      return .trojan (hexEncode (env.sha224 (asBytes password)))
  | "shadowsocks" | "ss" => do
      let method ← requiredField fields "shadowsocks" "method"
      let password ← requiredField fields "shadowsocks" "password"
      return .shadowsocks ⟨method, password⟩
  | "vmess" => do
      let users ← parseUsers "vmess" (fun text => "vmess: invalid UUID '" ++ text ++ "'")
        (userTexts fields ++ (strField fields "uuid").toList)
      return .vmess users
  | "hysteria2" | "hy2" => do
      let password ← requiredField fields "hysteria2" "password"
      let tls ← tlsServerSetup env node fun _ => ["h3"]
      return .hysteria2 password tls
  | "naive" => .ok .naive
  | "mieru" => do
      let username ← requiredField fields "mieru" "username"
      let password ← requiredField fields "mieru" "password"
      return .mieru username password
  | "anytls" => do
      let password ← requiredField fields "anytls" "password"
      return .anytls password
  | "vless" => do
      let users ← parseUsers "vless"
        (fun text => "vmess: invalid UUID in extra[\"users\"] array: " ++ text)
        ((strField fields "uuid").toList ++ userTexts fields)
      return .vless users
  | other => .error ("inbound protocol '" ++ other ++ "' not yet implemented")

/-- The transport of a node; of several only the first kind is used. -/
def wrapTransport (node : NodeConfigWire) : WrapTransport :=
  match node.ws, node.httpup, node.grpc, node.h2 with
  | some spec, _, _, _ => .ws spec.path spec.host spec.maxConcurrentStreams
  | none, some spec, _, _ => .httpUp spec.path spec.host
  | none, none, some spec, _ => .grpc (spec.serviceName.getD "GunService")
  | none, none, none, some spec => .h2 spec.path spec.host
  | none, none, none, none => .none

/-- The multiplexer of a node. -/
def inboundMux (node : NodeConfigWire) : Except String (Option MuxKind) :=
  if node.muxEnabled then
    let kind := (node.mux.bind (·.kind)).getD "smux"
    match MuxKind.parse kind with
    | some parsed => .ok (some parsed)
    | none => .error ("mux kind '" ++ kind ++ "' not yet supported")
  else .ok none

/-- The plan of the node at a position. -/
def nodePlan (index : Nat) (node : NodeConfigWire) : Except String NodePlan := do
  let tag := if node.tag.isEmpty then "in-" ++ toString index else node.tag
  let listenAddrs ← expandListenAddrs node
  let proto ← inboundProto env node
  let tls ← tlsServerSetup env node fun spec => spec.alpn.getD []
  let inboundMux ← inboundMux node
  return {
    tag, proto, listenAddrs, tls, wrap := wrapTransport node
    acceptProxyProtocol := node.acceptProxyProtocol || node.enableProxyProtocol
    acceptUdpProxyProtocol := node.acceptUdpProxyProtocol || node.enableUdpProxyProtocol
    udpEnabled := true
    inboundMux }

def buildNodePlans (wire : RuntimeConfigWire) : Except String (List NodePlan) :=
  wire.nodes.zipIdx.mapM fun (node, index) => nodePlan env index node

/-- Each node has its plan at its own position. -/
theorem built_plan_at (wire : RuntimeConfigWire) (plans : List NodePlan)
    (built : buildNodePlans env wire = .ok plans) (index : Nat) (node : NodeConfigWire)
    (plan : NodePlan) (here : wire.nodes[index]? = some node)
    (planned : plans[index]? = some plan) : nodePlan env index node = .ok plan := by
  have related := (map_ok_iff _ _ _).mp built
  obtain ⟨inside, rfl⟩ := List.getElem?_eq_some_iff.mp here
  obtain ⟨stored, rfl⟩ := List.getElem?_eq_some_iff.mp planned
  have made := related.get (i := index) (by simpa using inside) stored
  simpa using made

end Construction

end OmniProxy.NodePlans
