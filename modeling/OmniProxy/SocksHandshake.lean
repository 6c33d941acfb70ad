import OmniProxy.AddressReads
import OmniProxy.CountedFields
import OmniProxy.NodePlans

/-!
# The SOCKS handshake and its credentials

A client offers methods, and the server chooses one. With credentials configured it
chooses the method for user names and passwords and checks both; without them it
chooses the method without authentication. A request follows.

The plan of a SOCKS node is made without credentials, whatever the node's
configuration says. The result says which client streams are accepted on account of
this though their client never authenticated.
-/

namespace OmniProxy.SocksHandshake

open ByteStrings Connections ProxyTargets AddressReads JsonValues CheckedLoops RuntimeConfig
open CountedFields NodePlans

/-- The version of the protocol. -/
def version : UInt8 := 0x05

inductive Method where
  | noAuth
  | gssApi
  | userPass
  | noAcceptable

def Method.toU8 : Method → UInt8
  | noAuth => 0x00
  | gssApi => 0x01
  | userPass => 0x02
  | noAcceptable => 0xFF

def Method.fromU8 (code : UInt8) : Option Method :=
  if code = 0x00 then some noAuth
  else if code = 0x01 then some gssApi
  else if code = 0x02 then some userPass
  else none

inductive Command where
  | connect
  | bind
  | udpAssociate
deriving DecidableEq

def Command.fromU8 (code : UInt8) : Option Command :=
  if code = 0x01 then some connect
  else if code = 0x02 then some bind
  else if code = 0x03 then some udpAssociate
  else none

def Command.toU8 : Command → UInt8
  | connect => 0x01
  | bind => 0x02
  | udpAssociate => 0x03

/-- What a handshake ends with: a target to connect to, or an association for datagrams.
The stream is the connection as the handshake leaves it. -/
inductive Accepted where
  | tcp (target : ProxyTarget)
  | udpAssociate
deriving DecidableEq

def readGreeting : Io Bytes := do
  let first ← readExact 2
  rejectIf (first.getD 0 0 ≠ version) ⟨.invalidData, "socks5: unsupported version"⟩
  let nmethods := (first.getD 1 0).toNat
  rejectIf (nmethods = 0) ⟨.invalidData, "socks5: no methods offered"⟩
  readExact nmethods

def writeMethodChoice (method : Method) : Io Unit := writeAll [version, method.toU8]

def readRequest : Io (Command × Socks5Addr) := do
  let head ← readExact 4
  rejectIf (head.getD 0 0 ≠ version) ⟨.invalidData, "socks5: unsupported version"⟩
  let cmd ← orThrow ⟨.invalidData, "socks5: unknown command"⟩ (Command.fromU8 (head.getD 1 0))
  let addr ← readTagged ⟨.invalidData, "socks5: unknown address type"⟩ (head.getD 3 0)
  return (cmd, addr)

def repSucceeded : UInt8 := 0x00

def repCommandNotSupported : UInt8 := 0x07

def writeReply (rep : UInt8) : Option Socks5Addr → Io Unit
  | some bind => writeAll (bind.encodeInto [version, rep, 0x00])
  | none => writeAll [version, rep, 0x00, 0x01, 0, 0, 0, 0, 0, 0]

/-- Read a user name and a password and compare them with the configured ones. -/
def authenticate (cfg : SocksInboundConfig) : Io Unit := do
  let hdr ← readExact 2
  rejectIf (hdr.getD 0 0 ≠ 0x01) (.ofText "socks5: bad subnegotiation version")
  let user ← readExact (hdr.getD 1 0).toNat
  let plen ← readExact 1
  let pass ← readExact (plen.getD 0 0).toNat
  let ok := cfg.username = some (fromUtf8Lossy user) ∧ cfg.password = some (fromUtf8Lossy pass)
  writeAll [0x01, if ok then 0 else 1]
  rejectIf (¬ok) (.ofText "socks5: authentication failed")

/-- Serve the request after the methods are settled. -/
def serveRequest : Io Accepted := do
  let (cmd, addr) ← readRequest
  match cmd with
  | .connect => do
      writeReply repSucceeded (some addr)
      return .tcp addr.toProxyTarget
  | .udpAssociate => return .udpAssociate
  | .bind => do
      writeReply repCommandNotSupported none
      throw (.ofText "socks5: BIND not supported")

/-- The method that the server chooses of those offered, if one will do. -/
def chooseMethod (cfg : SocksInboundConfig) (methods : Bytes) : Option Method :=
  if cfg.username.isSome && methods.contains 0x02 then some .userPass
  else if !cfg.username.isSome && methods.contains 0x00 then some .noAuth
  else none

def handshake (cfg : SocksInboundConfig) : Io Accepted := do
  let methods ← readGreeting
  match chooseMethod cfg methods with
  | none => do
      writeMethodChoice .noAcceptable
      throw (.ofText "socks5: no acceptable auth method offered")
  | some chosen => do
      writeMethodChoice chosen
      if cfg.username.isSome then authenticate cfg
      serveRequest

/-- The greeting of a client that offers methods. -/
def greetingOf (methods : Bytes) : Bytes :=
  version :: UInt8.ofNat methods.length :: methods

/-- The octets of a request. -/
inductive RequestForm : Bytes → Command → Socks5Addr → Prop where
  | intro {code reserved atyp : UInt8} {body : Bytes} {cmd : Command} {addr : Socks5Addr}
      (known : Command.fromU8 code = some cmd) (address : Tagged atyp body addr) :
      RequestForm (version :: code :: reserved :: atyp :: body) cmd addr

/-- The octets of a user name and a password, each with its length in front. -/
def subnegotiationOf (user pass : Bytes) : Bytes :=
  0x01 :: UInt8.ofNat user.length :: user ++ UInt8.ofNat pass.length :: pass

/-- Octets with their number in front, as one octet tells it. -/
theorem counted_front (count : UInt8) (octets : Bytes) (width : octets.length = count.toNat) :
    UInt8.ofNat octets.length = count ∧ octets.length ≤ 255 := by
  have bounded : count.toNat < 256 := count.toNat_lt
  exact ⟨by rw [width, UInt8.ofNat_toNat], by omega⟩

/-- One octet tells a number of octets up to 255. -/
theorem count_told (octets : Bytes) (short : octets.length ≤ 255) :
    (UInt8.ofNat octets.length).toNat = octets.length := by
  rw [UInt8.toNat_ofNat']
  omega

/-- Reading a greeting returns the methods it offers. -/
theorem read_greeting_yields_iff (conn after : Conn) (methods : Bytes) :
    readGreeting.run conn = .ok methods after ↔
      methods ≠ [] ∧ methods.length ≤ 255 ∧
        conn.incoming = greetingOf methods ++ after.incoming ∧ after.written = conn.written := by
  simp only [readGreeting, bind_yields_iff, read_exact_yields_iff, reject_if_yields_iff]
  constructor
  · rintro ⟨first, reached, ⟨two, arrived, silent⟩, _, _, ⟨same, rfl⟩, _, _, ⟨something, rfl⟩,
      width, rest, quiet⟩
    obtain ⟨ver, count, rfl⟩ := List.length_eq_two.mp two
    obtain ⟨told, short⟩ := counted_front count methods width
    have ver : ver = version := by simpa using same
    refine ⟨?_, short, ?_, quiet.trans silent⟩
    · rintro rfl
      exact something width.symm
    · rw [arrived, rest, greetingOf, told, ver]
      simp
  · rintro ⟨nonempty, short, arrived, silent⟩
    have told := count_told methods short
    refine ⟨[version, UInt8.ofNat methods.length], ⟨methods ++ after.incoming, conn.written⟩,
      ⟨rfl, ?_, rfl⟩, (), _, ⟨by simp, rfl⟩, (), _, ⟨?_, rfl⟩, ?_, rfl, silent⟩
    · rw [arrived, greetingOf]
      simp
    · simpa [told] using nonempty
    · simp [told]

/-- Reading a request takes exactly its octets. -/
theorem read_request_yields_iff (conn after : Conn) (cmd : Command) (addr : Socks5Addr) :
    readRequest.run conn = .ok (cmd, addr) after ↔
      ∃ request, RequestForm request cmd addr ∧ conn.incoming = request ++ after.incoming ∧
        after.written = conn.written := by
  simp only [readRequest, bind_yields_iff, read_exact_yields_iff, reject_if_yields_iff,
    or_throw_yields_iff, read_tagged_yields_iff, pure_yields_iff]
  constructor
  · rintro ⟨head, reached, ⟨four, arrived, silent⟩, _, _, ⟨same, rfl⟩, _, _, ⟨known, rfl⟩,
      _, last, ⟨body, address, rest, quiet⟩, made, rfl⟩
    obtain ⟨rfl, rfl⟩ := Prod.mk.inj made
    match head, four with
    | [ver, code, reserved, atyp], _ =>
      have ver : ver = version := by simpa using same
      refine ⟨version :: code :: reserved :: atyp :: body, .intro known address, ?_,
        quiet.trans silent⟩
      rw [arrived, rest, ver]
      simp
  · rintro ⟨_, ⟨known, address⟩, arrived, silent⟩
    rename_i code reserved atyp body
    exact ⟨[version, code, reserved, atyp], ⟨body ++ after.incoming, conn.written⟩,
      ⟨rfl, arrived, rfl⟩, (), _, ⟨by simp, rfl⟩, cmd, _, ⟨known, rfl⟩, addr, after,
      ⟨body, address, rfl, silent⟩, rfl, rfl⟩

/-- A request is served when it asks for a connection or for datagrams. -/
theorem serve_request_accepts_iff (conn : Conn) :
    (∃ value after, serveRequest.run conn = .ok value after) ↔
      ∃ request cmd addr rest, RequestForm request cmd addr ∧ cmd ≠ .bind ∧
        conn.incoming = request ++ rest := by
  simp only [serveRequest, bind_yields_iff]
  constructor
  · rintro ⟨value, after, ⟨cmd, addr⟩, reached, read, served⟩
    obtain ⟨request, form, arrived, -⟩ := (read_request_yields_iff conn reached cmd addr).mp read
    refine ⟨request, cmd, addr, reached.incoming, form, ?_, arrived⟩
    rintro rfl
    simp [writeReply] at served
  · rintro ⟨request, cmd, addr, rest, form, served, arrived⟩
    have read := (read_request_yields_iff conn ⟨rest, conn.written⟩ cmd addr).mpr
      ⟨request, form, arrived, rfl⟩
    cases cmd with
    | connect => exact ⟨_, _, (.connect, addr), _, read, rfl⟩
    | bind => exact absurd rfl served
    | udpAssociate => exact ⟨_, _, (.udpAssociate, addr), _, read, rfl⟩

/-- A client stream that offers the method without authentication and goes on with a
request. -/
def OpenRequest (incoming : Bytes) : Prop :=
  ∃ methods request cmd addr rest, (0x00 : UInt8) ∈ methods ∧ methods.length ≤ 255 ∧
    RequestForm request cmd addr ∧ cmd ≠ .bind ∧
    incoming = greetingOf methods ++ (request ++ rest)

/-- An accepting handshake has read a greeting, chosen a method of it and gone on. -/
theorem handshake_yields_iff (cfg : SocksInboundConfig) (conn after : Conn) (value : Accepted) :
    (handshake cfg).run conn = .ok value after ↔
      ∃ methods reached chosen, readGreeting.run conn = .ok methods reached ∧
        chooseMethod cfg methods = some chosen ∧
        (do if cfg.username.isSome then authenticate cfg
            serveRequest : Io Accepted).run
          ⟨reached.incoming, reached.written ++ [version, chosen.toU8]⟩ = .ok value after := by
  simp only [handshake, bind_yields_iff readGreeting]
  constructor
  · rintro ⟨methods, reached, greeted, served⟩
    cases chosen : chooseMethod cfg methods with
    | none => simp [chosen, writeMethodChoice] at served
    | some method =>
      rw [chosen] at served
      exact ⟨methods, reached, method, greeted, chosen, served⟩
  · rintro ⟨methods, reached, method, greeted, chosen, served⟩
    refine ⟨methods, reached, greeted, ?_⟩
    rw [chosen]
    exact served

/-- Without credentials the handshake accepts exactly the streams without
authentication. -/
theorem open_handshake_accepts_iff (password : Option String) (incoming written : Bytes) :
    (∃ value after, (handshake ⟨none, password⟩).run ⟨incoming, written⟩ = .ok value after) ↔
      OpenRequest incoming := by
  simp only [handshake_yields_iff, read_greeting_yields_iff]
  constructor
  · rintro ⟨value, after, methods, reached, chosen, ⟨-, short, arrived, -⟩, chose, served⟩
    have offered : (0x00 : UInt8) ∈ methods := by
      by_contra absent
      simp [chooseMethod, absent] at chose
    obtain ⟨request, cmd, addr, rest, form, asks, requested⟩ :=
      (serve_request_accepts_iff _).mp ⟨value, after, served⟩
    refine ⟨methods, request, cmd, addr, rest, offered, short, form, asks, ?_⟩
    rw [arrived, ← requested]
  · rintro ⟨methods, request, cmd, addr, rest, offered, short, form, asks, rfl⟩
    have chose : chooseMethod ⟨none, password⟩ methods = some .noAuth := by
      simp [chooseMethod, offered]
    obtain ⟨value, after, served⟩ :=
      (serve_request_accepts_iff ⟨request ++ rest, written ++ [version, 0x00]⟩).mpr
        ⟨request, cmd, addr, rest, form, asks, rfl⟩
    exact ⟨value, after, methods, ⟨request ++ rest, written⟩, .noAuth,
      ⟨List.ne_nil_of_mem offered, short, rfl, rfl⟩, chose, served⟩

/-- The exchange of user name and password, as both sides saw it: the client offered the
method and sent octets that spell the two, and the server chose the method and
confirmed. -/
def AuthenticatedAs (username password : String) (incoming written : Bytes) : Prop :=
  ∃ methods user pass rest replies, (0x02 : UInt8) ∈ methods ∧ methods.length ≤ 255 ∧
    user.length ≤ 255 ∧ pass.length ≤ 255 ∧
    fromUtf8Lossy user = username ∧ fromUtf8Lossy pass = password ∧
    incoming = greetingOf methods ++ (subnegotiationOf user pass ++ rest) ∧
    written = [version, 0x02, 0x01, 0x00] ++ replies

/-- The check of the credentials passes on octets that spell them. -/
theorem authenticate_yields (cfg : SocksInboundConfig) (conn after : Conn) (value : Unit)
    (passed : (authenticate cfg).run conn = .ok value after) :
    ∃ user pass, user.length ≤ 255 ∧ pass.length ≤ 255 ∧
      cfg.username = some (fromUtf8Lossy user) ∧ cfg.password = some (fromUtf8Lossy pass) ∧
      conn.incoming = subnegotiationOf user pass ++ after.incoming ∧
      after.written = conn.written ++ [0x01, 0x00] := by
  simp only [authenticate, bind_yields_iff, read_exact_yields_iff, reject_if_yields_iff,
    write_all_yields_iff] at passed
  obtain ⟨hdr, first, ⟨two, arrived, silent⟩, _, _, ⟨same, rfl⟩, user, second,
    ⟨userWidth, userArrived, userSilent⟩, plen, third, ⟨one, plenArrived, plenSilent⟩, pass, fourth,
    ⟨passWidth, passArrived, passSilent⟩, _, _, rfl, matching, rfl⟩ := passed
  obtain ⟨ver, count, rfl⟩ := List.length_eq_two.mp two
  obtain ⟨passCount, rfl⟩ := List.length_eq_one_iff.mp one
  obtain ⟨userTold, userShort⟩ := counted_front count user userWidth
  obtain ⟨passTold, passShort⟩ := counted_front passCount pass passWidth
  have ver : ver = 0x01 := by simpa using same
  obtain ⟨sameUser, samePass⟩ := not_not.mp matching
  refine ⟨user, pass, userShort, passShort, sameUser, samePass, ?_, ?_⟩
  · rw [arrived, userArrived, plenArrived, passArrived, ver, subnegotiationOf, userTold, passTold]
    simp
  · simp [sameUser, samePass, passSilent, plenSilent, userSilent, silent]

/-- Serving a request only adds to what was written. -/
theorem serve_request_appends (conn after : Conn) (value : Accepted)
    (served : serveRequest.run conn = .ok value after) :
    ∃ reply, after.written = conn.written ++ reply := by
  obtain ⟨⟨cmd, addr⟩, reached, read, served⟩ := (bind_yields_iff _ _ _ _ _).mp served
  obtain ⟨-, -, -, silent⟩ := (read_request_yields_iff conn reached cmd addr).mp read
  cases cmd with
  | connect =>
    obtain ⟨_, replied, wrote, returned⟩ := (bind_yields_iff _ _ _ _ _).mp served
    obtain ⟨-, rfl⟩ := (pure_yields_iff _ _ _ _).mp returned
    rw [← (write_all_yields_iff _ _ _ _).mp wrote, silent]
    exact ⟨_, rfl⟩
  | bind => simp [writeReply] at served
  | udpAssociate =>
    obtain ⟨-, rfl⟩ := (pure_yields_iff _ _ _ _).mp served
    exact ⟨[], by simp [silent]⟩

/-- A handshake that has been given credentials accepts only who authenticates with
them. -/
theorem handshake_enforces (username password : String) (incoming : Bytes) (after : Conn)
    (value : Accepted)
    (accepted : (handshake ⟨some username, some password⟩).run ⟨incoming, []⟩ = .ok value after) :
    AuthenticatedAs username password incoming after.written := by
  obtain ⟨methods, reached, chosen, greeted, chose, served⟩ :=
    (handshake_yields_iff _ _ _ _).mp accepted
  obtain ⟨-, short, arrived, silent⟩ := (read_greeting_yields_iff _ _ _).mp greeted
  have offered : (0x02 : UInt8) ∈ methods := by
    by_contra absent
    simp [chooseMethod, absent] at chose
  have method : Method.userPass = chosen := by simpa [chooseMethod, offered] using chose
  subst method
  obtain ⟨_, checked, authenticated, requested⟩ := (bind_yields_iff _ _ _ _ _).mp served
  obtain ⟨user, pass, userShort, passShort, sameUser, samePass, rest, confirmed⟩ :=
    authenticate_yields _ _ _ _ authenticated
  obtain ⟨reply, wrote⟩ := serve_request_appends _ _ _ requested
  refine ⟨methods, user, pass, checked.incoming, reply, offered, short, userShort, passShort,
    (Option.some.inj sameUser).symm, (Option.some.inj samePass).symm, ?_, ?_⟩
  · exact arrived.trans (congrArg (greetingOf methods ++ ·) rest)
  · rw [wrote, confirmed, silent]
    rfl

/-- The plan of a SOCKS node has no credentials. -/
theorem socks_plan_open (env : NodeEnvironment) (index : Nat) (node : NodeConfigWire)
    (plan : NodePlan) (socks : node.type = "socks" ∨ node.type = "socks5")
    (built : nodePlan env index node = .ok plan) : plan.proto = .socks ⟨none, none⟩ := by
  obtain ⟨listenAddrs, -, built⟩ := (bind_ok_iff _ _ _).mp built
  obtain ⟨proto, chosen, built⟩ := (bind_ok_iff _ _ _).mp built
  obtain ⟨tls, -, built⟩ := (bind_ok_iff _ _ _).mp built
  obtain ⟨mux, -, built⟩ := (bind_ok_iff _ _ _).mp built
  simp only [pure, Except.pure, Except.ok.injEq] at built
  subst built
  have made : InboundProto.socks ⟨none, none⟩ = proto := by
    rcases socks with type | type <;> simpa [inboundProto, type] using chosen
  exact made.symm

/-- What follows a greeting is found after it, whatever the greeting offers. -/
theorem greeting_cancel (methods others rest more : Bytes) (short : methods.length ≤ 255)
    (othersShort : others.length ≤ 255)
    (same : greetingOf methods ++ rest = greetingOf others ++ more) :
    methods = others ∧ rest = more := by
  rw [greetingOf, greetingOf] at same
  exact octet_counted_inj short othersShort (List.cons.inj same).2

/-- A client that goes on with a request after the greeting has not authenticated. -/
theorem open_request_unauthenticated (username password : String) (incoming written : Bytes)
    (opened : OpenRequest incoming) : ¬AuthenticatedAs username password incoming written := by
  rintro ⟨others, user, pass, more, replies, -, othersShort, -, -, -, -, exchanged, -⟩
  obtain ⟨methods, request, cmd, addr, rest, -, short, form, -, arrived⟩ := opened
  obtain ⟨-, same⟩ := greeting_cancel methods others _ _ short othersShort
    (arrived.symm.trans exchanged)
  obtain ⟨known, address⟩ := form
  simp [subnegotiationOf, version] at same

/-- A SOCKS node, under either name of its type, whose configuration has a user name and
a password. -/
structure GuardedBy (node : NodeConfigWire) (username password : String) : Prop where
  type : node.type = "socks" ∨ node.type = "socks5"
  username : strField node.protocol "username" = some username
  password : strField node.protocol "password" = some password

/-- Exactly when a SOCKS node with a user name and a password keeps to them: on every
client stream but those that offer the method without authentication and go on with a
request for a connection or for datagrams. -/
theorem credentials_enforced_iff (env : NodeEnvironment) (wire : RuntimeConfigWire)
    (plans : List NodePlan) (index : Nat) (node : NodeConfigWire) (plan : NodePlan)
    (username password : String) (incoming : Bytes)
    (built : buildNodePlans env wire = .ok plans) (here : wire.nodes[index]? = some node)
    (planned : plans[index]? = some plan) (guarded : GuardedBy node username password) :
    ∃ cfg, plan.proto = .socks cfg ∧
      ((∀ value after, (handshake cfg).run ⟨incoming, []⟩ = .ok value after →
          AuthenticatedAs username password incoming after.written) ↔
        ¬OpenRequest incoming) := by
  have plannedNode := built_plan_at env wire plans built index node plan here planned
  refine ⟨⟨none, none⟩, socks_plan_open env index node plan guarded.type plannedNode, ?_⟩
  rw [← open_handshake_accepts_iff none incoming []]
  constructor
  · rintro enforced ⟨value, after, accepted⟩
    have opened := (open_handshake_accepts_iff none incoming []).mp ⟨value, after, accepted⟩
    exact open_request_unauthenticated username password incoming after.written opened
      (enforced value after accepted)
  · intro refused value after accepted
    exact absurd ⟨value, after, accepted⟩ refused

section Examples

/-- A SOCKS node with a user name and a password. -/
def guardedNode : NodeConfigWire :=
  ⟨"socks5", "home", none, some 1080, none, none, false, false, false, false, false, none, none,
    none, none, none, none, [("username", .string "alice"), ("password", .string "secret")]⟩

/-- A configuration of that node alone. -/
def guardedWire : RuntimeConfigWire := ⟨[], [guardedNode], [], none, none⟩

/-- An environment in which a node may not name files or certificates. -/
def bareEnvironment : NodeEnvironment where
  readFile path := .error path
  generateSelfSigned domain := .error domain
  sha224 bytes := bytes

/-- The plan of that node. -/
def guardedPlan : NodePlan :=
  ⟨"home", .socks ⟨none, none⟩, [⟨.v4 (zeroOctets 4), 1080⟩], none, .none, false, false, true,
    none⟩

/-- A greeting without authentication and a request for port 80 of an address. -/
def openStream : Bytes := [5, 1, 0, 5, 1, 0, 1, 10, 0, 0, 1, 0, 80]

/-- On the stream of a client that offers only the method with a user name and a
password. -/
theorem credentials_enforced_example :
    ∃ cfg, guardedPlan.proto = .socks cfg ∧
      ((∀ value after, (handshake cfg).run ⟨[5, 1, 2], []⟩ = .ok value after →
          AuthenticatedAs "alice" "secret" [5, 1, 2] after.written) ↔ ¬OpenRequest [5, 1, 2]) :=
  credentials_enforced_iff bareEnvironment guardedWire [guardedPlan] 0 guardedNode guardedPlan
    "alice" "secret" [5, 1, 2] rfl rfl rfl ⟨.inr rfl, rfl, rfl⟩

/-- A client that never sends a user name is connected to its target. -/
theorem open_stream_accepted :
    buildNodePlans bareEnvironment guardedWire = .ok [guardedPlan] ∧
      GuardedBy guardedNode "alice" "secret" ∧
      ∃ value after, (handshake ⟨none, none⟩).run ⟨openStream, []⟩ = .ok value after ∧
        ¬AuthenticatedAs "alice" "secret" openStream after.written := by
  have opened : OpenRequest openStream :=
    ⟨[0], [5, 1, 0, 1, 10, 0, 0, 1, 0, 80], .connect, .v4 ⟨[10, 0, 0, 1], rfl⟩ 80, [], by decide,
      by decide, .intro rfl (.v4 ⟨[10, 0, 0, 1], rfl⟩ 80), by decide, rfl⟩
  obtain ⟨value, after, accepted⟩ := (open_handshake_accepts_iff none openStream []).mpr opened
  exact ⟨rfl, ⟨.inr rfl, rfl, rfl⟩, value, after, accepted,
    open_request_unauthenticated "alice" "secret" openStream after.written opened⟩

end Examples

end OmniProxy.SocksHandshake
