import OmniProxy.NodePlans

/-!
# Authentication of a Hysteria2 connection

A node is configured with a password. For each of its addresses a server is
configured with that password and bound; the listener keeps only its endpoint. On
each connection it takes HTTP/3 requests one after another. A request other than
`POST` to host `hysteria` and path `/auth`, or one whose `Hysteria-Auth` header is
missing, unreadable or empty, is skipped. Any other request is answered, and the
connection then serves streams and datagrams.

The HTTP/3 library delivers the requests of a connection in order, ends it, or
fails; whether a response can be sent is part of a delivery. The QUIC endpoint
and its certificates come from libraries. The results say exactly which
deliveries authenticate a connection, and when that implies the password.
-/

namespace OmniProxy.Hysteria2Auth

open ByteStrings CheckedLoops Connections ProxyTargets NodePlans RuntimeConfig

/-- The configuration of a server. -/
structure Hysteria2ServerConfig where
  listen : SocketAddr
  password : String
  tlsMaterial : ServerCertMaterial

/-- A bound listener; the endpoint is the library's. -/
structure Hysteria2Listener (Endpoint : Type) where
  endpoint : Endpoint

/-- The library calls that bind an endpoint: the TLS configuration for a list of
protocols, and the endpoint at an address. -/
structure QuicLibrary (TlsConfig Endpoint : Type) where
  buildRustlsServerConfig : ServerCertMaterial → List String → Except String TlsConfig
  endpointServer : TlsConfig → SocketAddr → Except String Endpoint

/-- An error of this protocol. -/
def ioErr (message : String) : IoError := .ofText ("hysteria2: " ++ message)

/-- Bind a listener. The password of the configuration is not used. -/
def Hysteria2Listener.bind {TlsConfig Endpoint : Type} (quic : QuicLibrary TlsConfig Endpoint)
    (cfg : Hysteria2ServerConfig) : Except IoError (Hysteria2Listener Endpoint) :=
  match quic.buildRustlsServerConfig cfg.tlsMaterial ["h3"] with
  | .error message => .error (ioErr message)
  | .ok serverCfg =>
      match quic.endpointServer serverCfg cfg.listen with
      | .error message => .error (ioErr message)
      | .ok endpoint => .ok ⟨endpoint⟩

/-- The server configuration for an address: the plan's certificates, or
self-signed ones when it has none. -/
def serverConfig (env : NodeEnvironment) (password : String) (tls : Option TlsServerSetup)
    (addr : SocketAddr) : Except String Hysteria2ServerConfig := do
  let material ←
    match tls with
    | some setup => .ok ⟨setup.materialCert, setup.materialKey⟩
    | none => env.generateSelfSigned "hysteria.local"
  return ⟨addr, password, material⟩

/-- The listeners of a plan, one for each of its addresses when its protocol is
this one. -/
def hysteria2Listeners {TlsConfig Endpoint : Type} (env : NodeEnvironment)
    (quic : QuicLibrary TlsConfig Endpoint) (plan : NodePlan) :
    Except String (List (Hysteria2Listener Endpoint)) :=
  match plan.proto with
  | .hysteria2 password tls =>
      plan.listenAddrs.mapM fun addr => do
        let cfg ← serverConfig env password tls addr
        (Hysteria2Listener.bind quic cfg).mapError (·.message)
  | _ => .ok []

/-- An HTTP/3 request as it was sent. -/
structure Request where
  method : String
  scheme : Option String
  host : Option String
  path : String
  headers : List (String × Bytes)

/-- What the library delivers: a request together with whether a response to it
can be sent, a request that cannot be resolved, the end of the connection, or a
failure of it. -/
inductive Arrival where
  | request (req : Request) (responseSent : Bool)
  | unresolved
  | none
  | failed

/-- The first value of a header; names are compared without regard to case. -/
def Request.header (req : Request) (name : String) : Option Bytes :=
  (req.headers.find? fun (key, _) => toAsciiLowercase key == toAsciiLowercase name).map Prod.snd

/-- The text of a header value, when all of it is visible ASCII or tabs. -/
def toStr (value : Bytes) : Option String :=
  if value.all fun octet => (32 ≤ octet && octet < 127) || octet == 9 then fromUtf8 value
  else none

/-- Whether a request asks for authentication. -/
def Request.isAuth (req : Request) : Bool :=
  req.method == "POST" && req.host == some "hysteria" && req.path == "/auth"

/-- The credential of a request, empty when there is none to read. -/
def Request.auth (req : Request) : String :=
  ((req.header "Hysteria-Auth").bind toStr).getD ""

/-- A connection before its authentication, after it, or given up. -/
inductive Phase where
  | waiting
  | authenticated
  | closed
deriving DecidableEq, Repr

/-- The loop's reaction to one delivery. Once the loop has ended, nothing more is
taken. -/
def step (phase : Phase) (arrival : Arrival) : Phase :=
  match phase, arrival with
  | .waiting, .request req responseSent =>
      if !req.isAuth then .waiting
      else if req.auth.isEmpty then .waiting
      else if !responseSent then .closed
      else .authenticated
  | .waiting, .unresolved => .closed
  | .waiting, .none => .closed
  | .waiting, .failed => .closed
  | .authenticated, _ => .authenticated
  | .closed, _ => .closed

/-- The authentication of one connection to a listener. -/
def Hysteria2Listener.authenticate {Endpoint : Type} (_listener : Hysteria2Listener Endpoint)
    (arrivals : List Arrival) : Phase := arrivals.foldl step .waiting

/-- A delivery that the loop passes over. -/
def Arrival.skipped : Arrival → Bool
  | request req _ => !req.isAuth || req.auth.isEmpty
  | _ => false

/-- A delivery that authenticates a waiting connection. -/
def Arrival.admitted : Arrival → Bool
  | request req responseSent => req.isAuth && !req.auth.isEmpty && responseSent
  | _ => false

/-- The request is `POST https://hysteria/auth` with the password as its credential. -/
def Arrival.presents (password : String) : Arrival → Bool
  | request req _ =>
      req.method == "POST" && req.scheme == some "https" && req.host == some "hysteria" &&
        req.path == "/auth" && req.header "Hysteria-Auth" == some (asBytes password)
  | _ => false

/-- The first delivery that is not skipped is admitted. -/
def AdmitsFirst (arrivals : List Arrival) : Prop :=
  ∃ before arrival after, arrivals = before ++ arrival :: after ∧
    (∀ earlier ∈ before, earlier.skipped = true) ∧ arrival.admitted = true

/-- What one delivery does to a waiting connection. -/
theorem step_waiting (arrival : Arrival) :
    step .waiting arrival =
      if arrival.skipped then .waiting
      else if arrival.admitted then .authenticated
      else .closed := by
  cases arrival with
  | request req responseSent =>
    simp only [step, Arrival.skipped, Arrival.admitted]
    by_cases isAuth : req.isAuth = true
    · by_cases empty : req.auth.isEmpty = true
      · simp [isAuth, empty]
      · cases responseSent <;> simp [isAuth, empty]
    · simp [isAuth]
  | unresolved => rfl
  | none => rfl
  | failed => rfl

/-- A delivery that authenticates is not passed over. -/
theorem admitted_not_skipped (arrival : Arrival) (admitted : arrival.admitted = true) :
    arrival.skipped = false := by
  cases arrival with
  | request req responseSent =>
    simp only [Arrival.admitted, Bool.and_eq_true, Bool.not_eq_true'] at admitted
    simp [Arrival.skipped, admitted.1.1, admitted.1.2]
  | unresolved => rfl
  | none => rfl
  | failed => rfl

/-- Deliveries after the loop has ended change nothing. -/
theorem run_ended (phase : Phase) (arrivals : List Arrival) (ended : phase ≠ .waiting) :
    arrivals.foldl step phase = phase := by
  induction arrivals with
  | nil => rfl
  | cons arrival arrivals inductionHypothesis =>
    cases phase with
    | waiting => exact absurd rfl ended
    | authenticated => simpa [step] using inductionHypothesis
    | closed => simpa [step] using inductionHypothesis

/-- A connection is authenticated exactly when its first delivery that is not
skipped is admitted. Skipped deliveries leave the loop where it is, and the first
other one ends it. -/
theorem run_authenticated_iff (arrivals : List Arrival) :
    arrivals.foldl step .waiting = .authenticated ↔ AdmitsFirst arrivals := by
  induction arrivals with
  | nil =>
    constructor
    · intro impossible
      simp at impossible
    · rintro ⟨before, arrival, after, split, -⟩
      simp at split
  | cons arrival arrivals inductionHypothesis =>
    rw [List.foldl_cons, step_waiting]
    by_cases skipped : arrival.skipped = true
    · rw [if_pos skipped, inductionHypothesis]
      constructor
      · rintro ⟨before, first, after, rfl, each, admitted⟩
        refine ⟨arrival :: before, first, after, rfl, ?_, admitted⟩
        intro earlier member
        rcases List.mem_cons.mp member with rfl | member
        · exact skipped
        · exact each earlier member
      · rintro ⟨before, first, after, split, each, admitted⟩
        cases before with
        | nil =>
          obtain ⟨rfl, rfl⟩ := List.cons.inj split
          rw [admitted_not_skipped arrival admitted] at skipped
          exact absurd skipped Bool.false_ne_true
        | cons head before =>
          obtain ⟨rfl, rfl⟩ := List.cons.inj split
          exact ⟨before, first, after, rfl, fun earlier member =>
            each earlier (List.mem_cons_of_mem _ member), admitted⟩
    · rw [if_neg skipped]
      constructor
      · intro reached
        by_cases admitted : arrival.admitted = true
        · exact ⟨[], arrival, arrivals, rfl, by simp, admitted⟩
        · rw [if_neg admitted, run_ended .closed arrivals (by decide)] at reached
          simp at reached
      · rintro ⟨before, first, after, split, each, admitted⟩
        cases before with
        | nil =>
          obtain ⟨rfl, rfl⟩ := List.cons.inj split
          rw [if_pos admitted, run_ended .authenticated arrivals (by decide)]
        | cons head before =>
          obtain ⟨rfl, rfl⟩ := List.cons.inj split
          exact absurd (each arrival List.mem_cons_self) skipped

/-- The protocol of a node that this one is chosen for has the node's password. -/
theorem chosen_password {env : NodeEnvironment} {node : NodeConfigWire} {password : String}
    {tls : Option TlsServerSetup} (chosen : inboundProto env node = .ok (.hysteria2 password tls)) :
    strField node.protocol "password" = some password := by
  unfold inboundProto at chosen
  have read (required : requiredField node.protocol "hysteria2" "password" = .ok password) :
      strField node.protocol "password" = some password := by
    rw [requiredField] at required
    split at required
    · next there => rw [there, Except.ok.inj required]
    · cases required
  split at chosen
  all_goals
    simp only [bind_ok_iff, pure, Except.pure, Except.ok.injEq, reduceCtorEq, and_false,
      exists_false] at chosen
  -- the two names of the protocol are left
  all_goals
    obtain ⟨found, required, setup, -, same⟩ := chosen
    rw [(InboundProto.hysteria2.inj same).1] at required
    exact read required

/-- A plan has the protocol that was chosen for its node. -/
theorem planned_proto {env : NodeEnvironment} {index : Nat} {node : NodeConfigWire}
    {plan : NodePlan} (planned : nodePlan env index node = .ok plan) :
    inboundProto env node = .ok plan.proto := by
  obtain ⟨addrs, -, planned⟩ := (bind_ok_iff _ _ _).mp planned
  obtain ⟨proto, chosen, planned⟩ := (bind_ok_iff _ _ _).mp planned
  obtain ⟨tls, -, planned⟩ := (bind_ok_iff _ _ _).mp planned
  obtain ⟨mux, -, planned⟩ := (bind_ok_iff _ _ _).mp planned
  rw [chosen, ← Except.ok.inj planned]

/-- A server is configured with the password of its plan. -/
theorem server_password {env : NodeEnvironment} {password : String} {tls : Option TlsServerSetup}
    {addr : SocketAddr} {cfg : Hysteria2ServerConfig}
    (set : serverConfig env password tls addr = .ok cfg) : cfg.password = password := by
  unfold serverConfig at set
  split at set
  all_goals
    obtain ⟨material, -, same⟩ := (bind_ok_iff _ _ _).mp set
    rw [← Except.ok.inj same]

/-- A listener of a node was bound from a configuration with the node's password. -/
theorem listener_configured {TlsConfig Endpoint : Type} {env : NodeEnvironment}
    {quic : QuicLibrary TlsConfig Endpoint} {index : Nat} {node : NodeConfigWire}
    {password : String} {plan : NodePlan} {listeners : List (Hysteria2Listener Endpoint)}
    {listener : Hysteria2Listener Endpoint}
    (configured : strField node.protocol "password" = some password)
    (planned : nodePlan env index node = .ok plan)
    (bound : hysteria2Listeners env quic plan = .ok listeners) (member : listener ∈ listeners) :
    ∃ cfg : Hysteria2ServerConfig, cfg.password = password ∧
      Hysteria2Listener.bind quic cfg = .ok listener := by
  rw [hysteria2Listeners] at bound
  split at bound
  · next found tls proto =>
    have chosen := planned_proto planned
    rw [proto] at chosen
    obtain rfl := Option.some.inj ((chosen_password chosen).symm.trans configured)
    obtain ⟨addr, -, made⟩ := mapped_from bound member
    obtain ⟨cfg, set, made⟩ := (bind_ok_iff _ _ _).mp made
    exact ⟨cfg, server_password set, (map_error_ok_iff _ _ _).mp made⟩
  · rw [← Except.ok.inj bound] at member
    cases member

/-- Exactly when authentication implies the password. For every node with a password, every
listener of its plan, which was bound from a configuration with that password, and every
sequence of deliveries, the implication holds if a request presents the password, or if the first
delivery that is not skipped is not admitted; in all other cases the connection is
authenticated without it. -/
theorem authenticated_by_password_iff {TlsConfig Endpoint : Type} (env : NodeEnvironment)
    (quic : QuicLibrary TlsConfig Endpoint) (index : Nat) (node : NodeConfigWire)
    (password : String) (plan : NodePlan) (listeners : List (Hysteria2Listener Endpoint))
    (listener : Hysteria2Listener Endpoint) (arrivals : List Arrival)
    (configured : strField node.protocol "password" = some password)
    (planned : nodePlan env index node = .ok plan)
    (bound : hysteria2Listeners env quic plan = .ok listeners) (member : listener ∈ listeners) :
    (∃ cfg : Hysteria2ServerConfig, cfg.password = password ∧
        Hysteria2Listener.bind quic cfg = .ok listener) ∧
      ((listener.authenticate arrivals = .authenticated →
          ∃ arrival ∈ arrivals, arrival.presents password = true) ↔
        (∃ arrival ∈ arrivals, arrival.presents password = true) ∨ ¬AdmitsFirst arrivals) := by
  refine ⟨listener_configured configured planned bound member, ?_⟩
  rw [Hysteria2Listener.authenticate, run_authenticated_iff, imp_iff_not_or, or_comm]

section SecretNode

/-- Files and certificates for a node that needs neither. -/
def plainEnvironment : NodeEnvironment where
  readFile path := .error path
  generateSelfSigned domain := .ok ⟨asBytes domain, asBytes domain⟩
  sha224 bytes := bytes

/-- A library whose endpoints are their addresses. -/
def loopbackQuic : QuicLibrary ServerCertMaterial SocketAddr where
  buildRustlsServerConfig material _ := .ok material
  endpointServer _ addr := .ok addr

/-- A node with the password `secret`. -/
def secretNode : NodeConfigWire where
  type := "hysteria2"
  tag := "hy"
  listen := none
  port := some 443
  ports := none
  portRanges := none
  acceptProxyProtocol := false
  enableProxyProtocol := false
  acceptUdpProxyProtocol := false
  enableUdpProxyProtocol := false
  muxEnabled := false
  mux := none
  tls := none
  ws := none
  h2 := none
  grpc := none
  httpup := none
  protocol := [("password", .string "secret")]

/-- Its plan. -/
def secretPlan : NodePlan where
  tag := "hy"
  proto := .hysteria2 "secret" none
  listenAddrs := [⟨.v4 (zeroOctets 4), 443⟩]
  tls := none
  wrap := .none
  acceptProxyProtocol := false
  acceptUdpProxyProtocol := false
  udpEnabled := true
  inboundMux := none

/-- The listener on its only address. -/
def secretListener : Hysteria2Listener SocketAddr := ⟨⟨.v4 (zeroOctets 4), 443⟩⟩

/-- An authentication request with a given credential. -/
def authRequest (credential : String) : Request where
  method := "POST"
  scheme := some "https"
  host := some "hysteria"
  path := "/auth"
  headers := [("hysteria-auth", asBytes credential)]

/-- The sample node is planned with its secret. -/
theorem secret_planned : nodePlan plainEnvironment 0 secretNode = .ok secretPlan := rfl

/-- The planned listener is bound with its secret. -/
theorem secret_bound :
    hysteria2Listeners plainEnvironment loopbackQuic secretPlan = .ok [secretListener] := rfl

/-- A connection that presents the password is one on which authentication implies it. -/
theorem authenticated_by_password_example :
    nodePlan plainEnvironment 0 secretNode = .ok secretPlan ∧
      hysteria2Listeners plainEnvironment loopbackQuic secretPlan = .ok [secretListener] ∧
      (secretListener.authenticate [.request (authRequest "secret") true] = .authenticated →
        ∃ arrival ∈ [Arrival.request (authRequest "secret") true],
          arrival.presents "secret" = true) :=
  ⟨secret_planned, secret_bound,
    (authenticated_by_password_iff plainEnvironment loopbackQuic 0 secretNode "secret" secretPlan
      [secretListener] secretListener [.request (authRequest "secret") true] rfl secret_planned
      secret_bound (by simp)).2.mpr (Or.inl (by decide))⟩

/-- A wrong credential authenticates a connection to a node with a password. -/
theorem wrong_password_authenticates :
    strField secretNode.protocol "password" = some "secret" ∧
      nodePlan plainEnvironment 0 secretNode = .ok secretPlan ∧
      hysteria2Listeners plainEnvironment loopbackQuic secretPlan = .ok [secretListener] ∧
      secretListener.authenticate [.request (authRequest "wrong") true] = .authenticated ∧
      ¬∃ arrival ∈ [Arrival.request (authRequest "wrong") true],
        arrival.presents "secret" = true :=
  ⟨rfl, secret_planned, secret_bound, by decide, by decide⟩

end SecretNode

end OmniProxy.Hysteria2Auth
