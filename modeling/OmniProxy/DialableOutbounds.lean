import OmniProxy.Routing

/-!
# Outbounds that can be dialed

Validation names the types of outbounds whose server and credentials it checks; the
construction of connectors has a list of types of its own, with more names in it, and
fills what is not configured with empty values. The result compares the two lists:
every connector that dials a server has what it needs exactly when the outbounds of
the types that validation passes over are written completely.
-/

namespace OmniProxy.DialableOutbounds

open AddressText CheckedLoops JsonValues RuntimeConfig Outbounds Routing

/-- The server that a connector dials, when it dials one. -/
def dialedServer : OutboundConnector → Option (String × UInt16)
  | .direct | .reject => none
  | .trojan connector => some (connector.server, connector.port)
  | .shadowsocks connector => some (connector.config.server, connector.config.serverPort)
  | .vless connector => some (connector.config.server, connector.config.serverPort)
  | .vmess connector => some (connector.config.base.server, connector.config.base.serverPort)
  | .hysteria2 connector => some (connector.server, connector.port)
  | .naive connector => some (connector.server, connector.port)
  | .anytls connector => some (connector.server, connector.port)
  | .mieru connector => some (connector.config.server, connector.config.port)
  | .socks5 connector => some (connector.config.server, connector.config.serverPort)
  | .httpConnect connector => some (connector.server, connector.port)

/-- The login that a client sends when it has a user name. -/
def loginOf (username password : Option String) : List String :=
  match username with
  | some name => [name, password.getD ""]
  | none => []

/-- The credentials that the protocol of a connector sends. -/
def sentCredentials : OutboundConnector → List String
  | .direct | .reject | .naive _ => []
  | .trojan connector => [connector.password]
  | .shadowsocks connector => [connector.config.method, connector.config.password]
  | .vless connector => [connector.config.uuid]
  | .vmess connector => [connector.config.uuid]
  | .hysteria2 connector => [connector.password]
  | .anytls connector => [connector.password]
  | .mieru connector => [connector.config.username, connector.config.password]
  | .socks5 connector => loginOf connector.config.username connector.config.password
  | .httpConnect connector => loginOf connector.username connector.password

/-- A text with more than white space in it. -/
def NonBlank (text : String) : Prop := (trim text).isEmpty = false

/-- A connector has a server, the port that its outbound names, and no blank
credential. -/
structure Dialable (outbound : OutboundSpecWire) (connector : OutboundConnector)
    (server : String) (port : UInt16) : Prop where
  server : server ≠ ""
  port : outbound.target.bind (·.serverPort) = some port
  credentials : ∀ credential ∈ sentCredentials connector, NonBlank credential

/-- Every connector made from the outbounds that dials a server can do so. -/
def AllDialable (wire : RuntimeConfigWire) : Prop :=
  ∀ outbound ∈ wire.outbounds, ∀ connector server port,
    buildConnector outbound = .ok (some connector) →
    dialedServer connector = some (server, port) → Dialable outbound connector server port

/-- The members of an outbound that hold the credentials of its protocol, for every
type whose connector dials a server. -/
def credentialFields (outbound : OutboundSpecWire) : Option (List String) :=
  let login := if (outbound.text "username").isSome then ["username", "password"] else []
  match outbound.outboundType with
  | "trojan" | "hysteria2" | "hy2" | "anytls" => some ["password"]
  | "shadowsocks" | "ss" => some ["method", "password"]
  | "vless" | "vmess" => some ["uuid"]
  | "mieru" => some ["username", "password"]
  | "naive" => some []
  | "socks" | "socks5" | "http" | "httpconnect" | "httpproxy" => some login
  | _ => none

/-- The types of outbounds whose server and credentials validation checks. -/
def checkedTypes : List String := ["trojan", "vless", "vmess", "shadowsocks", "anytls", "mieru"]

/-- An outbound names a server and a port, and the listed members are texts that are
not blank. -/
structure Complete (outbound : OutboundSpecWire) (fields : List String) : Prop where
  server : ∃ server, outbound.target.bind (·.server) = some server ∧ server ≠ ""
  port : ∃ port, outbound.target.bind (·.serverPort) = some port
  credentials : ∀ field ∈ fields, ∃ text, outbound.text field = some text ∧ NonBlank text

/-- What a connector holds of its outbound: the server and the port, or their empty
values, and the credentials in the members of its type. -/
theorem connector_holds (outbound : OutboundSpecWire) (connector : OutboundConnector)
    (built : buildConnector outbound = .ok (some connector)) :
    match credentialFields outbound with
    | none => dialedServer connector = none
    | some fields =>
        dialedServer connector = some ((outbound.target.bind (·.server)).getD "",
          (outbound.target.bind (·.serverPort)).getD 0) ∧
        sentCredentials connector = fields.map fun field => (outbound.text field).getD "" := by
  unfold buildConnector at built
  split at built
  case h_19 => simp at built
  all_goals
    rename_i type
    obtain rfl := Option.some.inj (Except.ok.inj built)
    simp [credentialFields, type, dialedServer, sentCredentials]
  all_goals cases login : outbound.text "username" <;> simp [loginOf, login]

/-- A member is a text that is not blank exactly when its value, empty by default, is
not blank. -/
theorem given_nonblank_iff (given : Option String) :
    NonBlank (given.getD "") ↔ ∃ text, given = some text ∧ NonBlank text := by
  cases given with
  | none =>
    have blank : (trim "").isEmpty = true := by decide
    simp [NonBlank, blank]
  | some text => simp

/-- A connector that dials can do so exactly when its outbound is complete. -/
theorem dialable_iff_complete (outbound : OutboundSpecWire) (connector : OutboundConnector)
    (server : String) (port : UInt16) (fields : List String)
    (built : buildConnector outbound = .ok (some connector))
    (dials : dialedServer connector = some (server, port))
    (listed : credentialFields outbound = some fields) :
    Dialable outbound connector server port ↔ Complete outbound fields := by
  have holds := connector_holds outbound connector built
  rw [listed] at holds
  obtain ⟨dialed, sent⟩ := holds
  obtain ⟨rfl, rfl⟩ := Prod.mk.inj (Option.some.inj (dials.symm.trans dialed))
  have credentials : (∀ credential ∈ sentCredentials connector, NonBlank credential) ↔
      ∀ field ∈ fields, ∃ text, outbound.text field = some text ∧ NonBlank text := by
    simp only [sent, List.forall_mem_map, given_nonblank_iff]
  constructor
  · rintro ⟨server, port, nonBlank⟩
    refine ⟨?_, ⟨_, port⟩, credentials.mp nonBlank⟩
    cases named : outbound.target.bind (·.server) with
    | none => simp [named] at server
    | some text => exact ⟨text, rfl, by simpa [named] using server⟩
  · rintro ⟨⟨text, named, nonempty⟩, ⟨port, configured⟩, nonBlank⟩
    refine ⟨?_, ?_, credentials.mpr nonBlank⟩
    · simpa [named] using nonempty
    · simp [configured]

/-- A text passes the check for blank ones exactly when it is there and not blank. -/
theorem require_nonempty_iff (proto field : String) (given : Option String) :
    requireNonempty proto field given = .ok () ↔
      ∃ text, given = some text ∧ NonBlank text := by
  unfold requireNonempty
  cases given with
  | none => simp
  | some text => simp [NonBlank]

/-- A target passes its check exactly when it has a server and a port. -/
theorem validate_target_iff (proto : String) (target : Option TargetSpecWire) :
    validateTarget proto target = .ok () ↔
      (∃ server, target.bind (·.server) = some server ∧ server ≠ "") ∧
        ∃ port, target.bind (·.serverPort) = some port := by
  unfold validateTarget
  cases target with
  | none => simp
  | some target =>
    obtain ⟨server, port⟩ := target
    cases server <;> cases port <;> simp

/-- The check that validation makes for a type it names finds an outbound complete. -/
theorem require_credentials_iff (outbound : OutboundSpecWire) (proto : String)
    (fields : List String) :
    requireCredentials outbound proto fields = .ok () ↔ Complete outbound fields := by
  have credentials : (fields.forM fun field =>
        requireNonempty proto field (outbound.text field)) = .ok ⟨⟩ ↔
      ∀ field ∈ fields, ∃ text, outbound.text field = some text ∧ NonBlank text := by
    rw [all_checked_iff]
    exact forall₂_congr fun field _ => require_nonempty_iff proto field (outbound.text field)
  unfold requireCredentials
  rw [bind_ok_iff]
  constructor
  · rintro ⟨⟨⟩, target, rest⟩
    obtain ⟨server, port⟩ := (validate_target_iff proto outbound.target).mp target
    exact ⟨server, port, credentials.mp rest⟩
  · rintro ⟨server, port, nonBlank⟩
    exact ⟨⟨⟩, (validate_target_iff proto outbound.target).mpr ⟨server, port⟩,
      credentials.mpr nonBlank⟩

/-- Validation finds every outbound of a type it checks complete. -/
theorem checked_complete (outbound : OutboundSpecWire) (fields : List String)
    (accepted : validateOutbound outbound = .ok ())
    (checked : outbound.outboundType ∈ checkedTypes)
    (listed : credentialFields outbound = some fields) : Complete outbound fields := by
  simp only [checkedTypes, List.mem_cons, List.not_mem_nil, or_false] at checked
  rcases checked with type | type | type | type | type | type <;>
    simp only [validateOutbound, type] at accepted <;>
    simp only [credentialFields, type, Option.some.injEq] at listed <;>
    exact listed ▸ (require_credentials_iff outbound _ _).mp accepted

/-- Every outbound of an accepted configuration has passed its check. -/
theorem outbounds_validated (wire : RuntimeConfigWire) (accepted : validate wire = .ok ()) :
    ∀ outbound ∈ wire.outbounds, validateOutbound outbound = .ok () := by
  obtain ⟨tags, outbounds, -⟩ := (bind_ok_iff _ _ _).mp accepted
  have related := fold_traced checkOutbound
    (fun done _ => ∀ outbound ∈ done, validateOutbound outbound = .ok ())
    ?_ wire.outbounds [] [] tags (by simp) outbounds
  · simpa using related
  · intro done outbound before after earlier stepped
    obtain ⟨⟨⟩, passed, -⟩ := (bind_ok_iff _ _ _).mp stepped
    have validated := (map_error_ok_iff _ _ _).mp passed
    simpa [or_imp, forall_and, validated] using earlier

/-- Exactly when all outbounds of a started runtime can be dialed: those of the types
that validation passes over, under their main name or another, are written completely. -/
theorem all_dialable_iff (env : Environment) (wire : RuntimeConfigWire)
    (runtime : CoreRuntime env.regex.Regex)
    (initialized : CoreRuntime.initialize env wire = .ok runtime) :
    AllDialable wire ↔ ∀ outbound ∈ wire.outbounds, outbound.outboundType ∉ checkedTypes →
      ∀ fields, credentialFields outbound = some fields → Complete outbound fields := by
  obtain ⟨accepted, connects, -, -, -⟩ := initialize_spec env wire runtime initialized
  constructor
  · intro dialable outbound member unchecked fields listed
    obtain ⟨connector, built⟩ := connects outbound member
    have holds := connector_holds outbound connector built
    rw [listed] at holds
    exact (dialable_iff_complete outbound connector _ _ fields built holds.1 listed).mp
      (dialable outbound member connector _ _ built holds.1)
  · intro complete outbound member connector server port built dials
    have holds := connector_holds outbound connector built
    cases listed : credentialFields outbound with
    | none =>
      rw [listed] at holds
      simp [dials] at holds
    | some fields =>
      apply (dialable_iff_complete outbound connector server port fields built dials listed).mpr
      by_cases checked : outbound.outboundType ∈ checkedTypes
      · exact checked_complete outbound fields (outbounds_validated wire accepted outbound member)
          checked listed
      · exact complete outbound member checked fields listed

section Examples

/-- The Trojan outbound alone can be dialed. -/
theorem all_dialable_example : AllDialable (outboundsOnly [trojanOutbound]) := by
  apply (all_dialable_iff plainEnvironment (outboundsOnly [trojanOutbound])
    ⟨[], trojanRouter, none⟩ rfl).mpr
  intro outbound member unchecked
  rw [List.mem_singleton.mp member] at unchecked
  exact absurd (by decide) unchecked

/-- A Shadowsocks outbound under its short name, with nothing configured. -/
def bareShadowsocks : OutboundSpecWire where
  tag := "out"
  outboundType := "ss"
  target := none
  rest := []

/-- The runtime starts on it, and its connector dials port zero of no server with an
empty password. -/
theorem bare_shadowsocks_accepted :
    (∃ runtime, CoreRuntime.initialize plainEnvironment (outboundsOnly [bareShadowsocks]) =
        .ok runtime) ∧
      buildConnector bareShadowsocks =
        .ok (some (.shadowsocks ⟨"out", ⟨"", 0, "", ""⟩⟩)) ∧
      ¬AllDialable (outboundsOnly [bareShadowsocks]) := by
  refine ⟨⟨_, rfl⟩, rfl, fun dialable => ?_⟩
  exact (dialable bareShadowsocks (List.mem_singleton_self _) _ "" 0 rfl rfl).server rfl

end Examples

end OmniProxy.DialableOutbounds
