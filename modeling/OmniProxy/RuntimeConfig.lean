import OmniProxy.JsonValues
import OmniProxy.AddressText
import OmniProxy.CheckedLoops

/-!
# The runtime configuration and its validation

A configuration lists outbounds and nodes. An outbound has a tag, a type, an
optional server and further members that its type and its route rule read. A node
has a tag, a type, its listening addresses and ports, and settings for multiplexing,
certificates and transports.

Validation goes through the outbounds and then the nodes and stops at the first
fault. Every accepted outbound has a tag, and no two have the same one.

Fields that no modelled function reads are left out, as is the reading of the
configuration from its file.
-/

namespace OmniProxy.RuntimeConfig

open JsonValues AddressText CheckedLoops

structure TargetSpecWire where
  server : Option String
  serverPort : Option UInt16

structure OutboundSpecWire where
  tag : String
  outboundType : String
  target : Option TargetSpecWire
  rest : Members

structure PortRangeWire where
  first : UInt16
  last : UInt16

structure MuxSpecWire where
  kind : Option String

structure InboundRealitySpecWire where
  shortIds : List String

structure TlsInboundSpecWire where
  enabled : Bool
  certMode : Option String
  certDomain : Option String
  certFile : Option String
  keyFile : Option String
  certContent : Option String
  keyContent : Option String
  alpn : Option (List String)
  reality : Option InboundRealitySpecWire

structure WsSpecWire where
  path : Option String
  host : Option String
  maxConcurrentStreams : Option UInt32

structure H2SpecWire where
  path : Option String
  host : Option String

structure GrpcSpecWire where
  serviceName : Option String

structure HttpupSpecWire where
  path : Option String
  host : Option String

/-- A node; the members of its protocol are those without a field of their own. -/
structure NodeConfigWire where
  type : String
  tag : String
  listen : Option String
  port : Option UInt16
  ports : Option (List UInt16)
  portRanges : Option (List PortRangeWire)
  acceptProxyProtocol : Bool
  enableProxyProtocol : Bool
  acceptUdpProxyProtocol : Bool
  enableUdpProxyProtocol : Bool
  muxEnabled : Bool
  mux : Option MuxSpecWire
  tls : Option TlsInboundSpecWire
  ws : Option WsSpecWire
  h2 : Option H2SpecWire
  grpc : Option GrpcSpecWire
  httpup : Option HttpupSpecWire
  protocol : Members

/-- The configuration; of the name service only the list of servers is kept. -/
structure RuntimeConfigWire where
  outbounds : List OutboundSpecWire
  nodes : List NodeConfigWire
  extra : Members
  defaultDns : Option (List String)
  metricsPort : Option UInt16

def requireNonempty (spec field : String) (value : Option String) : Except String Unit :=
  if value.any fun text => !(trim text).isEmpty then .ok ()
  else .error (spec ++ " outbound requires a non-empty '" ++ field ++ "'")

def validateTarget (proto : String) : Option TargetSpecWire → Except String Unit
  | none => .error ("protocol " ++ proto ++ " requires target.server and target.server_port")
  | some target =>
      if (target.server.map String.isEmpty).getD true || target.serverPort.isNone then
        .error ("protocol " ++ proto ++ " requires target.server and target.server_port")
      else .ok ()

/-- A text among the further members of an outbound. -/
def OutboundSpecWire.text (outbound : OutboundSpecWire) (key : String) : Option String :=
  (outbound.rest.get key).bind Json.asStr

/-- Check that an outbound names a server and has the credentials of its protocol. -/
def requireCredentials (outbound : OutboundSpecWire) (proto : String) (fields : List String) :
    Except String Unit := do
  validateTarget proto outbound.target
  fields.forM fun field => requireNonempty proto field (outbound.text field)

def validateOutbound (outbound : OutboundSpecWire) : Except String Unit :=
  match outbound.outboundType with
  | "trojan" => requireCredentials outbound "trojan" ["password"]
  | "vless" => requireCredentials outbound "vless" ["uuid"]
  | "vmess" => requireCredentials outbound "vmess" ["uuid"]
  | "shadowsocks" => requireCredentials outbound "shadowsocks" ["method", "password"]
  | "anytls" => requireCredentials outbound "anytls" ["password"]
  | "mieru" => requireCredentials outbound "mieru" ["username", "password"]
  | "" => .error "outbound protocol cannot be empty"
  | _ => .ok ()

/-- An even number of hexadecimal digits. -/
def hexDecodeCheck (text : String) : Bool :=
  text.utf8ByteSize % 2 == 0 && text.toList.all fun char => (toDigit 16 char).isSome

/-- Whether an optional text is missing or empty. -/
def missing (value : Option String) : Bool := (value.map String.isEmpty).getD true

def validateCertMode (tls : TlsInboundSpecWire) : Except String Unit :=
  match tls.certMode with
  | none | some "" => .ok ()
  | some "file" =>
      if missing tls.certFile || missing tls.keyFile then
        .error "cert_mode=file requires cert_file and key_file paths"
      else .ok ()
  | some "content" =>
      if missing tls.certContent then .error "cert_mode=content requires cert_content"
      else if missing tls.keyContent then .error "cert_mode=content requires key_content"
      else .ok ()
  | some "self" =>
      if missing tls.certDomain then .error "cert_mode=self requires cert_domain" else .ok ()
  | some other => .error ("cert: unsupported cert_mode: " ++ other)

def validateTls (tls : TlsInboundSpecWire) : Except String Unit := do
  validateCertMode tls
  match tls.reality with
  | none => return ()
  | some reality =>
      reality.shortIds.forM fun shortId =>
        if !hexDecodeCheck shortId then
          .error ("reality.short_ids entry '" ++ shortId ++ "' is not valid hex")
        else .ok ()

def validateNode (node : NodeConfigWire) : Except String Unit :=
  if node.type = "" then .error "protocol cannot be empty"
  else if !node.muxEnabled && node.mux.any fun mux => mux.kind.isSome then
    .error "mux is disabled but a mux kind is configured"
  else
    match node.tls with
    | none => .ok ()
    | some tls => validateTls tls

/-- The prefix of the errors about an outbound or an inbound. -/
def faultPrefix (kind label : String) : String :=
  "config validation failed for " ++ kind ++ " " ++ label ++ ": "

/-- The name under which an entry is reported. -/
def label (tag : String) : String := if tag.isEmpty then "<untagged>" else tag

/-- The error about a tag that is in use. -/
def duplicateTag (kind tag : String) : String :=
  faultPrefix kind tag ++ "duplicate tag (tags must be unique across inbounds and outbounds)"

/-- Check an outbound against the tags before it and add its own. -/
def checkOutbound (tags : List String) (outbound : OutboundSpecWire) :
    Except String (List String) := do
  (validateOutbound outbound).mapError (faultPrefix "outbound" (label outbound.tag) ++ ·)
  if outbound.tag.isEmpty then
    .error "config validation failed for outbound <untagged>: outbound tag cannot be empty"
  else if tags.contains outbound.tag then .error (duplicateTag "outbound" outbound.tag)
  else return tags ++ [outbound.tag]

/-- Check a node against the tags before it; a node may have no tag. -/
def checkNode (tags : List String) (node : NodeConfigWire) : Except String (List String) := do
  (validateNode node).mapError (faultPrefix "inbound" (label node.tag) ++ ·)
  if node.tag.isEmpty then return tags
  else if tags.contains node.tag then .error (duplicateTag "inbound" node.tag)
  else return tags ++ [node.tag]

def validate (wire : RuntimeConfigWire) : Except String Unit := do
  let tags ← wire.outbounds.foldlM checkOutbound []
  discard (wire.nodes.foldlM checkNode tags)

/-- The tags collected from the outbounds are theirs, in order, and distinct. -/
theorem outbound_tags_collected (outbounds : List OutboundSpecWire) (tags : List String)
    (checked : outbounds.foldlM checkOutbound [] = .ok tags) :
    tags = outbounds.map (·.tag) ∧ tags.Nodup := by
  have related := fold_traced checkOutbound
    (fun done (tags : List String) => tags = done.map (·.tag) ∧ tags.Nodup)
    ?_ outbounds [] [] tags (by simp) checked
  · simpa using related
  · rintro done outbound before after ⟨rfl, distinct⟩ stepped
    obtain ⟨-, -, stepped⟩ := (bind_ok_iff _ _ _).mp stepped
    obtain ⟨-, stepped⟩ := (check_ok_iff _ _ _ _).mp stepped
    obtain ⟨fresh, stepped⟩ := (check_ok_iff _ _ _ _).mp stepped
    simp only [pure, Except.pure, Except.ok.injEq] at stepped
    subst stepped
    refine ⟨by simp, List.nodup_append.mpr ⟨distinct, by simp, ?_⟩⟩
    simpa using fresh

/-- The outbounds of an accepted configuration have distinct tags. -/
theorem validate_distinct_tags (wire : RuntimeConfigWire) (accepted : validate wire = .ok ()) :
    (wire.outbounds.map (·.tag)).Nodup := by
  obtain ⟨tags, checked, -⟩ := (bind_ok_iff _ _ _).mp accepted
  obtain ⟨rfl, distinct⟩ := outbound_tags_collected wire.outbounds tags checked
  exact distinct

end OmniProxy.RuntimeConfig
