import OmniProxy.NodePlans
import OmniProxy.VmessHandshake

/-!
# Outbound connectors

An outbound of the configuration becomes a connector of its type. Two connectors
have fixed tags, the direct and the rejecting one; every other connector carries
the tag, the server and the credentials of its outbound. The sessions that a
connector pools are left out; of a pool of multiplexed sessions only its kind is
kept.

The results say what tag a connector has and that its type is that of the outbound.
-/

namespace OmniProxy.Outbounds

open ByteStrings JsonValues RuntimeConfig NodePlans
open ShadowsocksStream (SsOutboundConfig)
open VmessHandshake (TargetedOutboundConfig VmessOutboundConfig)

structure TlsClientSpec where
  skipVerify : Bool
  alpn : List String
  sniOverride : Option String
deriving DecidableEq

structure TransportSpec where
  kind : String
  path : Option String
  host : Option String
  serviceName : Option String
deriving DecidableEq

structure TrojanConnector where
  tagName : String
  server : String
  port : UInt16
  password : String
  tls : Option TlsClientSpec
  transport : Option TransportSpec
  muxPool : Option MuxKind
deriving DecidableEq

structure SsConnector where
  tagName : String
  config : SsOutboundConfig
deriving DecidableEq

structure VlessOutboundConfig where
  server : String
  serverPort : UInt16
  uuid : String
deriving DecidableEq

structure VlessConnector where
  tagName : String
  config : VlessOutboundConfig
  tls : Option TlsClientSpec
  transport : Option TransportSpec
  muxPool : Option MuxKind
deriving DecidableEq

structure VmessConnector where
  muxPool : Option MuxKind
  tagName : String
  config : VmessOutboundConfig
  tls : Option TlsClientSpec
deriving DecidableEq

structure Hysteria2Connector where
  tagName : String
  server : String
  port : UInt16
  password : String
  insecure : Bool
  sni : Option String
deriving DecidableEq

structure NaiveConnector where
  tagName : String
  server : String
  port : UInt16
  insecure : Bool
  sni : Option String
deriving DecidableEq

structure AnytlsConnector where
  tagName : String
  server : String
  port : UInt16
  password : String
  tls : Option TlsClientSpec
  insecure : Bool
  sni : Option String
deriving DecidableEq

structure MieruOutboundConfig where
  server : String
  port : UInt16
  username : String
  password : String
deriving DecidableEq

structure MieruConnector where
  tagName : String
  config : MieruOutboundConfig
deriving DecidableEq

structure SocksOutboundConfig where
  server : String
  serverPort : UInt16
  username : Option String
  password : Option String
deriving DecidableEq

structure Socks5Connector where
  tagName : String
  config : SocksOutboundConfig
deriving DecidableEq

structure HttpConnectConnector where
  tagName : String
  server : String
  port : UInt16
  username : Option String
  password : Option String
deriving DecidableEq

/-- A connector of any type. -/
inductive OutboundConnector where
  | direct
  | reject
  | trojan (connector : TrojanConnector)
  | shadowsocks (connector : SsConnector)
  | vless (connector : VlessConnector)
  | vmess (connector : VmessConnector)
  | hysteria2 (connector : Hysteria2Connector)
  | naive (connector : NaiveConnector)
  | anytls (connector : AnytlsConnector)
  | mieru (connector : MieruConnector)
  | socks5 (connector : Socks5Connector)
  | httpConnect (connector : HttpConnectConnector)
deriving DecidableEq

/-- The tag under which a connector is found. -/
def OutboundConnector.tag : OutboundConnector → String
  | direct => "direct"
  | reject => "reject"
  | trojan connector => connector.tagName
  | shadowsocks connector => connector.tagName
  | vless connector => connector.tagName
  | vmess connector => connector.tagName
  | hysteria2 connector => connector.tagName
  | naive connector => connector.tagName
  | anytls connector => connector.tagName
  | mieru connector => connector.tagName
  | socks5 connector => connector.tagName
  | httpConnect connector => connector.tagName

def OutboundConnector.supportsUdp : OutboundConnector → Bool
  | direct | trojan _ | vless _ => true
  | _ => false

def tlsObjOf (outbound : OutboundSpecWire) : Option Members :=
  (outbound.rest.get "tls").bind Json.asObject

def tlsObjAndInsecure (outbound : OutboundSpecWire) : Bool :=
  (((tlsObjOf outbound).bind (·.get "insecure")).bind Json.asBool).getD false

/-- The server name of a TLS object, under either of its keys. -/
def serverName (members : Members) : Option String :=
  ((members.get "server_name").or (members.get "sni")).bind Json.asStr

def tlsObjSni (outbound : OutboundSpecWire) : Option String :=
  (tlsObjOf outbound).bind serverName

/-- The texts of an array, or a single text; anything else is passed over. -/
def jsonStrArr : Option Json → List String
  | some (.array elements) => elements.filterMap Json.asStr
  | some (.string text) => [text]
  | _ => []

/-- The unsigned numbers of an array, or a single one, reduced to sixteen bits;
anything else is passed over. -/
def jsonU16Arr : Option Json → List UInt16
  | some (.array elements) => (elements.filterMap Json.asU64).map UInt64.toUInt16
  | some (.number number) => ((Json.number number).asU64.map UInt64.toUInt16).toList
  | _ => []

def parseTlsClientSpec (value : Option Json) : Option TlsClientSpec := do
  let members ← value.bind Json.asObject
  let enabled := ((members.get "enabled").bind Json.asBool).getD true
  if !enabled && decide (members.length ≤ 1) then none
  else some {
    skipVerify :=
      (((members.get "insecure").or (members.get "skip_verify")).bind Json.asBool).getD false
    alpn := jsonStrArr (members.get "alpn")
    sniOverride := serverName members }

def TransportSpec.parse (value : Option Json) : Option TransportSpec := do
  let members ← value.bind Json.asObject
  let text (key : String) : Option String := (members.get key).bind Json.asStr
  let kind := (text "type").getD "tcp"
  if kind = "tcp" || kind.isEmpty then none
  else some {
    kind
    path := text "path"
    host := ((members.get "host").or (members.get "host_header")).bind Json.asStr
    serviceName := text "service_name" }

/-- The pool of multiplexed sessions that an outbound asks for. -/
def muxPoolOf (outbound : OutboundSpecWire) : Option MuxKind := do
  let members ← (outbound.rest.get "mux").bind Json.asObject
  let enabled := ((members.get "enabled").bind Json.asBool).getD true
  if !enabled then none
  else MuxKind.parse (((members.get "kind").bind Json.asStr).getD "smux")

/-- The connector of an outbound. -/
def buildConnector (outbound : OutboundSpecWire) : Except String (Option OutboundConnector) :=
  let server := (outbound.target.bind (·.server)).getD ""
  let port := (outbound.target.bind (·.serverPort)).getD 0
  let given (key : String) : String := (outbound.text key).getD ""
  let tls := parseTlsClientSpec (outbound.rest.get "tls")
  let transport := TransportSpec.parse (outbound.rest.get "transport")
  let muxPool := muxPoolOf outbound
  let tagName := outbound.tag
  let insecure := tlsObjAndInsecure outbound
  let sni := tlsObjSni outbound
  match outbound.outboundType with
  | "direct" => .ok (some .direct)
  | "reject" | "block" => .ok (some .reject)
  | "trojan" => .ok (some (.trojan
      { tagName, server, port, password := given "password", tls, transport, muxPool }))
  | "shadowsocks" | "ss" => .ok (some (.shadowsocks
      { tagName, config := ⟨server, port, given "method", given "password"⟩ }))
  | "vless" => .ok (some (.vless
      { tagName, config := ⟨server, port, given "uuid"⟩, tls, transport, muxPool }))
  | "vmess" => .ok (some (.vmess
      { muxPool, tagName, tls
        config := ⟨⟨server, port⟩, given "uuid", (outbound.text "security").getD "auto"⟩ }))
  | "hysteria2" | "hy2" => .ok (some (.hysteria2
      { tagName, insecure, sni, server, port, password := given "password" }))
  | "naive" => .ok (some (.naive { tagName, server, port, insecure, sni }))
  | "anytls" => .ok (some (.anytls
      { tagName, tls, insecure, sni, server, port, password := given "password" }))
  | "mieru" => .ok (some (.mieru
      { tagName, config := ⟨server, port, given "username", given "password"⟩ }))
  | "socks" | "socks5" => .ok (some (.socks5
      { tagName
        config := ⟨server, port, outbound.text "username", outbound.text "password"⟩ }))
  | "http" | "httpconnect" | "httpproxy" => .ok (some (.httpConnect
      { tagName, server, port, username := outbound.text "username"
        password := outbound.text "password" }))
  | other => .error ("config validation failed for outbound " ++ outbound.tag ++
      ": protocol '" ++ other ++ "' not yet implemented")

/-- An outbound of the type that connects without a proxy. -/
def isDirect (outbound : OutboundSpecWire) : Bool :=
  outbound.outboundType == "direct"

/-- An outbound of the type that refuses connections, under either of its names. -/
def isReject (outbound : OutboundSpecWire) : Bool :=
  outbound.outboundType == "reject" || outbound.outboundType == "block"

/-- What an outbound's connector is: one of the two fixed connectors for the two
fixed types, and for every other type a connector of its own with its tag. -/
theorem build_connector_cases (outbound : OutboundSpecWire) (built : Option OutboundConnector)
    (succeeded : buildConnector outbound = .ok built) :
    ∃ connector, built = some connector ∧
      ((isDirect outbound = true ∧ connector = .direct) ∨
        (isReject outbound = true ∧ connector = .reject) ∨
        (isDirect outbound = false ∧ isReject outbound = false ∧
          connector ≠ .direct ∧ connector ≠ .reject ∧ connector.tag = outbound.tag)) := by
  unfold buildConnector at succeeded
  simp only [isDirect, isReject]
  split at succeeded
  case h_19 => simp at succeeded
  all_goals
    rename_i type
    obtain rfl := Except.ok.inj succeeded
    exact ⟨_, rfl, by simp [type, OutboundConnector.tag]⟩

/-- A direct outbound gives the direct connector, whatever its other fields. -/
theorem build_direct (outbound : OutboundSpecWire) (direct : isDirect outbound = true) :
    buildConnector outbound = .ok (some .direct) := by
  have type : outbound.outboundType = "direct" := by simpa [isDirect] using direct
  simp [buildConnector, type]

/-- A rejecting outbound gives the rejecting connector, whatever its other fields. -/
theorem build_reject (outbound : OutboundSpecWire) (reject : isReject outbound = true) :
    buildConnector outbound = .ok (some .reject) := by
  have type : outbound.outboundType = "reject" ∨ outbound.outboundType = "block" := by
    simpa [isReject] using reject
  rcases type with type | type <;> simp [buildConnector, type]

end OmniProxy.Outbounds
