import OmniProxy.Outbounds
import OmniProxy.SocksHandshake

/-!
# The request of a SOCKS client

A client sends a request and reads the reply of the server: a head of four octets, which
ends with the tag of the bound address, and then what the head says is still to come. To
know how much that is, the client decodes the address of the head, but of the address the
head has no more than the tag. A tag alone is too short for any address, so every request
fails, and with it every connection of the client.
-/

namespace OmniProxy.SocksClient

open ByteStrings Connections ProxyTargets SocksHandshake Outbounds

/-- Agree with the server on a method, on a connection that was dialed. -/
def negotiate (cfg : SocksOutboundConfig) : Io Unit := do
  let methods : Bytes := if cfg.username.isSome then [0x02, 0x00] else [0x00]
  writeAll [version, UInt8.ofNat methods.length]
  writeAll methods
  let resp ← readExact 2
  rejectIf (resp.getD 0 0 ≠ version) (.ofText "socks5: bad version in method reply")
  match Method.fromU8 (resp.getD 1 0) with
  | some .noAuth => return
  | some .userPass => do
      let u := asBytes (cfg.username.getD "")
      let p := asBytes (cfg.password.getD "")
      writeAll ([0x01, UInt8.ofNat u.length] ++ u ++ [UInt8.ofNat p.length] ++ p)
      let st ← readExact 2
      rejectIf (st.getD 1 0 ≠ 0x00) (.ofText "socks5: authentication failed")
  | _ => throw (.ofText "socks5: no acceptable auth method offered")

def requestOctets (cmd : Command) (addr : Socks5Addr) : Bytes :=
  addr.encodeInto [version, cmd.toU8, 0x00]

/-- Send a request and read the reply up to its end. -/
def request (cmd : Command) (addr : Socks5Addr) : Io Socks5Addr := do
  writeAll (requestOctets cmd addr)
  let head ← readExact 4
  rejectIf (head.getD 1 0 ≠ repSucceeded)
    (.ofText ("socks5: connect refused rep=0x" ++ hexEncode [head.getD 1 0]))
  let (bind, used) ← fromExcept ((Socks5Addr.decode (head.drop 3)).mapError (⟨.invalidData, ·⟩))
  if 4 < used then
    let _ ← readExact (used - 4)
  return bind

/-- Connect to a target through the server, on a connection that was dialed. -/
def connectTcp (cfg : SocksOutboundConfig) (target : ProxyTarget) : Io Unit := do
  negotiate cfg
  let _ ← request .connect (.fromProxyTarget target)

/-- What a server writes to confirm a request. -/
def confirmation (bind : Socks5Addr) : Bytes :=
  (finalConn ((writeReply repSucceeded (some bind)).run ⟨[], []⟩)).written

/-- The request is confirmed: it returns the bound address and leaves what comes after the
reply to be read. -/
def Completes (cmd : Command) (addr bind : Socks5Addr) (rest : Bytes) : Prop :=
  (request cmd addr).run ⟨confirmation bind ++ rest, []⟩ =
    .ok bind ⟨rest, requestOctets cmd addr⟩

/-- The error of a request whose head is accepted. -/
def shortAddress : IoError := ⟨.invalidData, "socks5: empty address buffer"⟩

/-- A head of four octets has one octet of the address, which is not enough for any. -/
theorem decode_head (head : Bytes) (four : head.length = 4) :
    Socks5Addr.decode (head.drop 3) = .error shortAddress.message := by
  have one : (head.drop 3).length < 2 := by
    rw [List.length_drop]
    omega
  rw [Socks5Addr.decode, if_pos one]
  rfl

/-- Whatever the server sends, a request does not return. -/
theorem request_never_returns (cmd : Command) (addr : Socks5Addr) (conn : Conn) :
    ¬Accepts ((request cmd addr).run conn) := by
  cases ran : (request cmd addr).run conn with
  | error error after => exact id
  | ok bind after =>
    simp only [request, bind_yields_iff, write_all_yields_iff, read_exact_yields_iff] at ran
    obtain ⟨_, _, -, head, _, ⟨four, -⟩, _, _, -, _, _, decoded, -⟩ := ran
    simp [decode_head head four, Except.mapError, fromExcept] at decoded

/-- So the client never gets a connection to a target. -/
theorem connect_tcp_never_returns (cfg : SocksOutboundConfig) (target : ProxyTarget)
    (conn : Conn) : ¬Accepts ((connectTcp cfg target).run conn) := by
  cases ran : (connectTcp cfg target).run conn with
  | error error after => exact id
  | ok value after =>
    simp only [connectTcp, bind_yields_iff] at ran
    obtain ⟨_, agreed, -, bind, reached, returned, -⟩ := ran
    have accepts := request_never_returns .connect (.fromProxyTarget target) agreed
    rw [returned] at accepts
    exact fun _ => accepts trivial

/-- A confirmation begins with a head that announces success. -/
theorem confirmation_head (bind : Socks5Addr) :
    ∃ tag rest, confirmation bind = [version, repSucceeded, 0x00, tag] ++ rest := by
  cases bind with
  | v4 ip port => exact ⟨0x01, ip.toList ++ bigEndian16 port, by simp [confirmation, writeReply,
      Socks5Addr.encodeInto, finalConn]⟩
  | v6 ip port => exact ⟨0x04, ip.toList ++ bigEndian16 port, by simp [confirmation, writeReply,
      Socks5Addr.encodeInto, finalConn]⟩
  | domain host port => exact ⟨0x03, UInt8.ofNat (asBytes host).length :: asBytes host ++
      bigEndian16 port, by simp [confirmation, writeReply, Socks5Addr.encodeInto, finalConn]⟩

/-- A request that the server confirms fails after the head of the reply, for every
command, every address and every bound address: it never completes. -/
theorem confirmed_request_fails (cmd : Command) (addr bind : Socks5Addr) (rest : Bytes) :
    (request cmd addr).run ⟨confirmation bind ++ rest, []⟩ =
        .error shortAddress ⟨(confirmation bind ++ rest).drop 4, requestOctets cmd addr⟩ ∧
      ¬Completes cmd addr bind rest := by
  have fails : (request cmd addr).run ⟨confirmation bind ++ rest, []⟩ =
      .error shortAddress ⟨(confirmation bind ++ rest).drop 4, requestOctets cmd addr⟩ := by
    obtain ⟨tag, body, front⟩ := confirmation_head bind
    have four : [version, repSucceeded, 0x00, tag].length = 4 := rfl
    rw [front, List.append_assoc]
    simp only [request, EStateM.run_bind, write_all_run, List.nil_append,
      read_exact_append 4 _ _ _ four, decode_head _ four]
    rfl
  refine ⟨fails, fun completes => ?_⟩
  rw [Completes, fails] at completes
  cases completes

/-- A server that binds 0.0.0.0:1080 confirms a connection to port 80 of a host. -/
theorem confirmed_connection_fails :
    confirmation (.v4 (zeroOctets 4) 1080) = [5, 0, 0, 1, 0, 0, 0, 0, 4, 56] ∧
      ¬Completes .connect (.domain "example.org" 80) (.v4 (zeroOctets 4) 1080) [] := by
  refine ⟨by decide, fun completes => ?_⟩
  have refused := request_never_returns .connect (.domain "example.org" 80)
    ⟨confirmation (.v4 (zeroOctets 4) 1080) ++ [], []⟩
  rw [completes] at refused
  exact refused trivial

end OmniProxy.SocksClient
