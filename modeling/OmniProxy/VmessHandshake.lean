import OmniProxy.VmessChunks
import OmniProxy.VmessHeader

/-!
# The VMess handshake

The server reads an encrypted timestamp, takes the first user under whose key it
decrypts into the time window, opens the length and the command with keys of
that user, checks the command and answers with a sealed response. The client
writes the header for its user and accepts a response that repeats its random
octet. Both sides build their chunk reader and writer from the request.

The server's clock, the client's clock and every random octet are arguments. A
refused seal panics in the program; here the action fails with the panic's text.
The results say when the two sides agree, and that the users of a server play no
part in the derived keys.
-/

namespace OmniProxy.VmessHandshake

open ByteStrings Connections CryptoPrimitives Digests ProxyTargets VmessChunks VmessCommand
open VmessHeader

variable (crypto : Primitives)

/-- The users a server knows. -/
structure VmessInboundConfig where
  users : List (Octets 16)

/-- An accepted connection. -/
structure AcceptedVm where
  target : ProxyTarget
  reader : ChunkReader
  writer : ChunkWriter

section Server

/-- Key and IV of the server's direction, derived from the request. -/
def respChunkKeys (requestKey requestIv : Octets 16) : ChunkKeys where
  key := octetsOf 16 (crypto.sha256 requestKey.toList).toList (by simp)
  iv := octetsOf 16 (crypto.sha256 requestIv.toList).toList (by simp)

/-- Key and IV of the client's direction. -/
def reqChunkKeys (req : DecodedRequest) : ChunkKeys := ⟨req.requestKey, req.requestIv⟩

/-- The chunk protection a security octet selects. -/
def chunkSecurityOf (security : UInt8) : Except IoError ChunkSecurity :=
  if security = secAes128Gcm ∨ security = secAuto then .ok .gcm
  else if security = secChacha20Poly1305 then .ok .chaCha
  else if security = secNone then .ok .none
  else if security = secLegacy then .error (ioerr "vmess: legacy security not supported")
  else .error (ioerr "vmess: unknown security")

/-- The first user whose key decrypts the authentication id into the window. -/
def matchUser (now : Int64) (authId : Octets 16) (users : List (Octets 16)) :
    Option (Octets 16) :=
  let idKeys := users.map fun user =>
    (cmdKey user, kdf16 crypto (cmdKey user).toList [authIdEncryptionKey])
  (idKeys.find? fun (_, idKey) =>
    withinWindow now (authIdTimestamp (crypto.aes128.decryptBlock idKey authId))).map Prod.fst

/-- Read and open the command behind an authentication id. -/
def readCommand (foundCmdKey authId : Octets 16) : Io Bytes := do
  let encLen ← readExact 18
  let nonce8 ← readArray 8
  let path (salt : Bytes) := [salt, authId.toList, nonce8.toList]
  let lenKey := kdf16 crypto foundCmdKey.toList (path vmessHeaderPayloadLengthAeadKey)
  let lenNonce := kdfNonce crypto foundCmdKey.toList (path vmessHeaderPayloadLengthAeadIv)
  let lenPlain ← orThrow (ioerr "vmess: header length decrypt failed")
    (gcmOpen crypto lenKey lenNonce encLen authId.toList)
  rejectIf (lenPlain.length ≠ 2) (ioerr "vmess: bad header length block")
  let hdrLen := (ofBigEndian16 (lenPlain.getD 0 0) (lenPlain.getD 1 0)).toNat
  let hdrKey := kdf16 crypto foundCmdKey.toList (path vmessHeaderPayloadAeadKey)
  let hdrNonce := kdfNonce crypto foundCmdKey.toList (path vmessHeaderPayloadAeadIv)
  let encHdr ← readExact (hdrLen + 16)
  orThrow (ioerr "vmess: header payload decrypt failed")
    (gcmOpen crypto hdrKey hdrNonce encHdr authId.toList)

/-- Write the sealed response to a request. -/
def writeResponse (wkeys : ChunkKeys) (respPayload : Bytes) : Io Unit := do
  let rlKey := kdf16 crypto wkeys.key.toList [aeadRespHeaderLenKey]
  let rlNonce := kdfNonce crypto wkeys.iv.toList [aeadRespHeaderLenIv]
  let rpKey := kdf16 crypto wkeys.key.toList [aeadRespHeaderPayloadKey]
  let rpNonce := kdfNonce crypto wkeys.iv.toList [aeadRespHeaderPayloadIv]
  let encLen ← orThrow (ioerr "vmess: seal failed")
    (gcmSeal crypto rlKey rlNonce (bigEndian16 (UInt16.ofNat respPayload.length)) [])
  let encPayload ← orThrow (ioerr "vmess: seal failed")
    (gcmSeal crypto rpKey rpNonce respPayload [])
  writeAll encLen
  writeAll encPayload

/-- Check a decoded request, answer it and build the chunk streams. -/
def acceptRequest (req : DecodedRequest) : Io AcceptedVm := do
  rejectIf (req.cmd ≠ cmdTcp) (ioerr "vmess: UDP command not supported in this build")
  rejectIf (req.options &&& optAuthenticatedLength ≠ 0)
    (ioerr "vmess: authenticated-length option not supported")
  rejectIf (req.options &&& optChunkStream = 0) (ioerr "vmess: non-chunked body not supported")
  let security ← fromExcept (chunkSecurityOf req.security)
  let masking := decide (req.options &&& optChunkMasking ≠ 0)
  let globalPadding := decide (req.options &&& optGlobalPadding ≠ 0)
  let rkeys := reqChunkKeys req
  let wkeys := respChunkKeys crypto req.requestKey req.requestIv
  writeResponse crypto wkeys [req.responseV, req.options, 0x00]
  let conn ← get
  return ⟨req.target, ChunkReader.new conn.incoming rkeys security masking globalPadding,
    ChunkWriter.new wkeys security masking globalPadding⟩

/-- The server's handshake. -/
def handshake (now : Int64) (cfg : VmessInboundConfig) : Io AcceptedVm := do
  let authId ← readArray 16
  let foundCmdKey ← orThrow (ioerr "vmess: authentication failed")
    (matchUser crypto now authId cfg.users)
  let cmdBuf ← readCommand crypto foundCmdKey authId
  let req ← fromExcept (decodeRequestCommand cmdBuf)
  acceptRequest crypto req

end Server

section Client

/-- Where a server is reached. -/
structure TargetedOutboundConfig where
  server : String
  serverPort : UInt16
deriving DecidableEq

/-- What a client knows of its server. -/
structure VmessOutboundConfig where
  base : TargetedOutboundConfig
  uuid : String
  security : String
deriving DecidableEq

/-- The random octets and the clock reading of one connection attempt. -/
structure ClientDraws where
  requestIv : Octets 16
  requestKey : Octets 16
  responseV : UInt8
  now : Int64
  randPart : Octets 4
  nonce8 : Octets 8

/-- The security octet of a security name. -/
def securityByte (name : String) : Except IoError UInt8 :=
  let lower := toAsciiLowercase name
  if lower = "auto" ∨ lower = "" then .ok secAes128Gcm
  else if lower = "aes-128-gcm" then .ok secAes128Gcm
  else if lower = "chacha20-poly1305" ∨ lower = "chacha20-ietf-poly1305" then
    .ok secChacha20Poly1305
  else if lower = "none" then .ok secNone
  else .error (ioerr ("vmess: unsupported security '" ++ lower ++ "'"))

/-- The chunk protection of a security octet, as the client chooses it. -/
def clientSecurity (security : UInt8) : ChunkSecurity :=
  if security = secChacha20Poly1305 then .chaCha
  else if security = secNone then .none
  else .gcm

/-- The options every client requests. -/
def clientOptions : UInt8 := optChunkStream ||| optChunkMasking ||| optGlobalPadding

/-- Read and check the server's response. -/
def readResponse (respKeys : ChunkKeys) (responseV : UInt8) : Io Unit := do
  let rlKey := kdf16 crypto respKeys.key.toList [aeadRespHeaderLenKey]
  let rlNonce := kdfNonce crypto respKeys.iv.toList [aeadRespHeaderLenIv]
  let rpKey := kdf16 crypto respKeys.key.toList [aeadRespHeaderPayloadKey]
  let rpNonce := kdfNonce crypto respKeys.iv.toList [aeadRespHeaderPayloadIv]
  let encLen ← readExact 18
  let lenPlain ← orThrow (ioerr "vmess: response length decrypt failed")
    (gcmOpen crypto rlKey rlNonce encLen [])
  rejectIf (lenPlain.length ≠ 2) (ioerr "vmess: bad response length block")
  let hdrLen := (ofBigEndian16 (lenPlain.getD 0 0) (lenPlain.getD 1 0)).toNat
  let encPayload ← readExact (hdrLen + 16)
  let payload ← orThrow (ioerr "vmess: response payload decrypt failed")
    (gcmOpen crypto rpKey rpNonce encPayload [])
  rejectIf (payload = [] ∨ payload.getD 0 0 ≠ responseV) (ioerr "vmess: response auth mismatch")

/-- Connect to a target through a server. -/
def connectTcp (draws : ClientDraws) (cfg : VmessOutboundConfig) (target : ProxyTarget) :
    Io (ChunkReader × ChunkWriter) := do
  let uuid ← orThrow (ioerr ("vmess: invalid UUID '" ++ cfg.uuid ++ "'")) (parseUuid cfg.uuid)
  let ck := cmdKey uuid
  let sec ← fromExcept (securityByte cfg.security)
  let cmdBuf := encodeRequestCommand draws.requestIv draws.requestKey draws.responseV
    clientOptions sec cmdTcp target
  let header ← orThrow (ioerr "gcm seal")
    (sealVmessAeadHeader crypto ck cmdBuf draws.now draws.randPart draws.nonce8)
  writeAll header
  let respKeys := respChunkKeys crypto draws.requestKey draws.requestIv
  readResponse crypto respKeys draws.responseV
  let masking := decide (clientOptions &&& optChunkMasking ≠ 0)
  let padding := decide (clientOptions &&& optGlobalPadding ≠ 0)
  let security ← fromExcept (securityByte cfg.security)
  let conn ← get
  return (ChunkReader.new conn.incoming respKeys (clientSecurity security) masking padding,
    ChunkWriter.new ⟨draws.requestKey, draws.requestIv⟩ (clientSecurity security) masking padding)

end Client

section Agreement

/-- The first user of a server is matched by every authentication id whose
timestamp is close to the server's clock, whatever key it was created under:
all of them are decrypted under the same derived key. -/
theorem match_user_first (serverNow clientNow : Int64) (key : Bytes) (randPart : Octets 4)
    (user : Octets 16) (others : List (Octets 16))
    (close : (serverNow.toInt - clientNow.toInt).natAbs ≤ 120) :
    matchUser crypto serverNow (createAuthId crypto key clientNow randPart) (user :: others) =
      some (cmdKey user) := by
  have sameKey : kdf16 crypto (cmdKey user).toList [authIdEncryptionKey] =
      kdf16 crypto key [authIdEncryptionKey] := rfl
  simp [matchUser, sameKey, auth_id_timestamp_exact, within_window_of_close _ _ close]

/-- The command of a header is read back under any command key. -/
theorem read_command_exact (foundCmdKey authId : Octets 16) (nonce8 : Octets 8)
    (encLen encHdr data further written : Bytes) (fits : data.length < 65536)
    (lenWidth : encLen.length = 18) (hdrWidth : encHdr.length = data.length + 16)
    (lenOpens : ∀ key, gcmOpen crypto
      (kdf16 crypto key [vmessHeaderPayloadLengthAeadKey, authId.toList, nonce8.toList])
      (kdfNonce crypto key [vmessHeaderPayloadLengthAeadIv, authId.toList, nonce8.toList])
      encLen authId.toList = some (bigEndian16 (UInt16.ofNat data.length)))
    (hdrOpens : ∀ key, gcmOpen crypto
      (kdf16 crypto key [vmessHeaderPayloadAeadKey, authId.toList, nonce8.toList])
      (kdfNonce crypto key [vmessHeaderPayloadAeadIv, authId.toList, nonce8.toList])
      encHdr authId.toList = some data) :
    (readCommand crypto foundCmdKey authId).run
        ⟨encLen ++ (nonce8.toList ++ (encHdr ++ further)), written⟩ =
      .ok data ⟨further, written⟩ := by
  obtain ⟨high, low, octets, value⟩ := of_big_endian16_exact (UInt16.ofNat data.length)
  have length : (UInt16.ofNat data.length).toNat = data.length := by
    simp
    omega
  have hdrRead := read_exact_append (data.length + 16) encHdr further written hdrWidth
  simp [readCommand, EStateM.run_bind, read_exact_append 18 encLen _ _ lenWidth, lenOpens, octets,
    value, length, hdrRead, hdrOpens]

/-- A written response is accepted by the client that expects its first octet. -/
theorem write_response_exact (keys : ChunkKeys) (responseV : UInt8) (rest : Bytes)
    (short : rest.length < 65535) :
    ∃ response, (∀ conn, (writeResponse crypto keys (responseV :: rest)).run conn =
        .ok () { conn with written := conn.written ++ response }) ∧
      ∀ later written, (readResponse crypto keys responseV).run ⟨response ++ later, written⟩ =
        .ok () ⟨later, written⟩ := by
  have payloadFits : (responseV :: rest).length ≤ SealedBoxes.sealLimit := by
    simp only [List.length_cons, SealedBoxes.sealLimit]
    omega
  have lenFits : (bigEndian16 (UInt16.ofNat (responseV :: rest).length)).length ≤
      SealedBoxes.sealLimit := by
    rw [big_endian16_length]
    decide
  obtain ⟨encLen, sealedLen, lenWidth, openedLen⟩ := crypto.aes128Gcm.combine_exact
    (kdf16 crypto keys.key.toList [aeadRespHeaderLenKey])
    (kdfNonce crypto keys.iv.toList [aeadRespHeaderLenIv]) [] _ (Nat.zero_le _) lenFits
  obtain ⟨encPayload, sealedPayload, payloadWidth, openedPayload⟩ :=
    crypto.aes128Gcm.combine_exact (kdf16 crypto keys.key.toList [aeadRespHeaderPayloadKey])
      (kdfNonce crypto keys.iv.toList [aeadRespHeaderPayloadIv]) [] _ (Nat.zero_le _) payloadFits
  refine ⟨encLen ++ encPayload, ?_, ?_⟩
  · intro conn
    simp only [writeResponse, gcmSeal, sealedLen, sealedPayload]
    simp [EStateM.run_bind]
  · intro later written
    obtain ⟨high, low, octets, value⟩ :=
      of_big_endian16_exact (UInt16.ofNat (responseV :: rest).length)
    have length : (ofBigEndian16 high low).toNat = rest.length + 1 := by
      simp [value]
      omega
    rw [octets] at openedLen lenWidth
    have readLen := read_exact_append 18 encLen (encPayload ++ later) written lenWidth
    have readPayload := read_exact_append (rest.length + 1 + 16) encPayload later written
      payloadWidth
    simp [readResponse, gcmOpen, EStateM.run_bind, readLen, openedLen, length, readPayload,
      openedPayload]

/-- A request whose checks pass is accepted: the response is written, nothing is
read, and both chunk streams get the parameters of the request. -/
theorem accept_request_exact (req : DecodedRequest) (security : ChunkSecurity) (conn : Conn)
    (tcp : req.cmd = cmdTcp) (plainLength : req.options &&& optAuthenticatedLength = 0)
    (chunked : req.options &&& optChunkStream ≠ 0)
    (known : chunkSecurityOf req.security = .ok security) :
    ∃ response accepted, (acceptRequest crypto req).run conn =
        .ok accepted { conn with written := conn.written ++ response } ∧
      (∀ later written,
        (readResponse crypto (respChunkKeys crypto req.requestKey req.requestIv) req.responseV).run
          ⟨response ++ later, written⟩ = .ok () ⟨later, written⟩) ∧
      accepted.target = req.target ∧
      accepted.reader = ChunkReader.new conn.incoming ⟨req.requestKey, req.requestIv⟩ security
        (req.options &&& optChunkMasking ≠ 0) (req.options &&& optGlobalPadding ≠ 0) ∧
      accepted.writer = ChunkWriter.new (respChunkKeys crypto req.requestKey req.requestIv) security
        (req.options &&& optChunkMasking ≠ 0) (req.options &&& optGlobalPadding ≠ 0) := by
  obtain ⟨response, writes, reads⟩ := write_response_exact crypto
    (respChunkKeys crypto req.requestKey req.requestIv) req.responseV [req.options, 0x00] (by simp)
  refine ⟨response, ⟨req.target,
    ChunkReader.new conn.incoming ⟨req.requestKey, req.requestIv⟩ security
      (req.options &&& optChunkMasking ≠ 0) (req.options &&& optGlobalPadding ≠ 0),
    ChunkWriter.new (respChunkKeys crypto req.requestKey req.requestIv) security
      (req.options &&& optChunkMasking ≠ 0) (req.options &&& optGlobalPadding ≠ 0)⟩,
    ?_, reads, rfl, rfl, rfl⟩
  simp [acceptRequest, EStateM.run_bind, tcp, plainLength, chunked, known, writes, reqChunkKeys]

/-- Any header that a client seals for a request that passes the checks is
accepted by any server with at least one user, when the clocks are close. -/
theorem handshake_accepts (serverNow clientNow : Int64) (users : List (Octets 16))
    (key requestIv requestKey : Octets 16) (responseV options sec : UInt8) (target : ProxyTarget)
    (randPart : Octets 4) (nonce8 : Octets 8) (security : ChunkSecurity) (further : Bytes)
    (someone : users ≠ []) (fits : target.fits)
    (close : (serverNow.toInt - clientNow.toInt).natAbs ≤ 120)
    (plainLength : options &&& optAuthenticatedLength = 0)
    (chunked : options &&& optChunkStream ≠ 0)
    (known : chunkSecurityOf (sec &&& 0x0F) = .ok security) :
    ∃ header response accepted,
      sealVmessAeadHeader crypto key (encodeRequestCommand requestIv requestKey responseV options
        sec cmdTcp target) clientNow randPart nonce8 = some header ∧
      (handshake crypto serverNow ⟨users⟩).run ⟨header ++ further, []⟩ =
        .ok accepted ⟨further, response⟩ ∧
      (∀ later written,
        (readResponse crypto (respChunkKeys crypto requestKey requestIv) responseV).run
          ⟨response ++ later, written⟩ = .ok () ⟨later, written⟩) ∧
      accepted.target = target ∧
      accepted.reader = ChunkReader.new further ⟨requestKey, requestIv⟩ security
        (options &&& optChunkMasking ≠ 0) (options &&& optGlobalPadding ≠ 0) ∧
      accepted.writer = ChunkWriter.new (respChunkKeys crypto requestKey requestIv) security
        (options &&& optChunkMasking ≠ 0) (options &&& optGlobalPadding ≠ 0) := by
  obtain ⟨user, others, rfl⟩ := List.exists_cons_of_ne_nil someone
  have short : (encodeRequestCommand requestIv requestKey responseV options sec cmdTcp
      target).length < 65536 := by
    have bound := encode_request_command_length requestIv requestKey responseV options sec cmdTcp
      target fits
    omega
  have decoded := decode_encode_request requestIv requestKey responseV options sec cmdTcp target
    fits
  generalize encodeRequestCommand requestIv requestKey responseV options sec cmdTcp target =
    data at short decoded
  obtain ⟨encLen, encHdr, sealed, lenWidth, hdrWidth, lenOpens, hdrOpens⟩ :=
    seal_header_exact crypto key data clientNow randPart nonce8 short
  have matched := match_user_first crypto serverNow clientNow key.toList randPart user others close
  have command := read_command_exact crypto (cmdKey user) _ nonce8 encLen encHdr data further []
    short lenWidth hdrWidth lenOpens hdrOpens
  obtain ⟨response, accepted, ran, reads, sameTarget, reader, writer⟩ :=
    accept_request_exact crypto ⟨requestIv, requestKey, responseV, options, sec &&& 0x0F, cmdTcp,
      target⟩ security ⟨further, []⟩ rfl plainLength chunked known
  refine ⟨_, response, accepted, sealed, ?_, reads, sameTarget, reader, writer⟩
  have authRead := read_array_append (createAuthId crypto key.toList clientNow randPart)
    (encLen ++ (nonce8.toList ++ (encHdr ++ further))) []
  simp [handshake, EStateM.run_bind, authRead, matched, command, decoded, ran]

/-- Reading a response writes nothing. -/
theorem read_response_silent (keys : ChunkKeys) (responseV : UInt8) :
    Silent (readResponse crypto keys responseV) := by
  refine silent_bind (silent_read_exact _) fun encLen => ?_
  refine silent_bind (silent_or_throw _ _) fun lenPlain => ?_
  refine silent_bind (silent_reject_if _ _) fun _ => ?_
  refine silent_bind (silent_read_exact _) fun encPayload => ?_
  refine silent_bind (silent_or_throw _ _) fun payload => ?_
  exact silent_reject_if _ _

/-- Every accepted security name selects the same chunk protection on both
sides, and its octet has no high bits. -/
theorem security_agrees (name : String) (sec : UInt8) (known : securityByte name = .ok sec) :
    chunkSecurityOf (sec &&& 0x0F) = .ok (clientSecurity sec) := by
  simp only [securityByte] at known
  repeat' split at known
  all_goals first
    | (obtain rfl := Except.ok.inj known; decide)
    | simp at known

/-- A client with a valid identity and security name writes its header before it
reads, so what it writes does not depend on the server. -/
theorem connect_writes_header (draws : ClientDraws) (cfg : VmessOutboundConfig)
    (target : ProxyTarget) (uuid : Octets 16) (sec : UInt8) (header incoming : Bytes)
    (identified : parseUuid cfg.uuid = some uuid) (known : securityByte cfg.security = .ok sec)
    (sealed : sealVmessAeadHeader crypto (cmdKey uuid) (encodeRequestCommand draws.requestIv
      draws.requestKey draws.responseV clientOptions sec cmdTcp target) draws.now draws.randPart
      draws.nonce8 = some header) :
    (finalConn ((connectTcp crypto draws cfg target).run ⟨incoming, []⟩)).written = header := by
  have quiet : Silent (do
      let respKeys := respChunkKeys crypto draws.requestKey draws.requestIv
      readResponse crypto respKeys draws.responseV
      let masking := decide (clientOptions &&& optChunkMasking ≠ 0)
      let padding := decide (clientOptions &&& optGlobalPadding ≠ 0)
      let security ← fromExcept (securityByte cfg.security)
      let conn ← get
      return (ChunkReader.new conn.incoming respKeys (clientSecurity security) masking padding,
        ChunkWriter.new ⟨draws.requestKey, draws.requestIv⟩ (clientSecurity security) masking
          padding)) :=
    silent_bind (read_response_silent crypto _ _) fun _ =>
      silent_bind (silent_from_except _) fun _ => silent_bind silent_get fun _ => silent_pure _
  have after := quiet ⟨incoming, header⟩
  simp only [connectTcp, identified, or_throw_some, known, from_except_ok, sealed, pure_bind,
    EStateM.run_bind, write_all_run, List.nil_append] at after ⊢
  exact after

/-- Client and server agree. For a configured user, an accepted security name, a
target that fits and clocks at most 120 seconds apart, the header the client
writes is consumed exactly by the server, which finds the same target; the
response makes the client succeed; and the chunk streams of each direction have
the same keys, protection, masking and padding on both sides. -/
theorem handshake_agreement (users : List (Octets 16)) (uuid : Octets 16) (draws : ClientDraws)
    (cfg : VmessOutboundConfig) (sec : UInt8) (target : ProxyTarget) (serverNow : Int64)
    (further later : Bytes) (configured : uuid ∈ users)
    (identified : parseUuid cfg.uuid = some uuid) (known : securityByte cfg.security = .ok sec)
    (fits : target.fits) (close : (serverNow.toInt - draws.now.toInt).natAbs ≤ 120) :
    ∃ header response accepted reader writer,
      (∀ incoming, (finalConn
        ((connectTcp crypto draws cfg target).run ⟨incoming, []⟩)).written = header) ∧
      (handshake crypto serverNow ⟨users⟩).run ⟨header ++ further, []⟩ =
        .ok accepted ⟨further, response⟩ ∧
      accepted.target = target ∧
      (connectTcp crypto draws cfg target).run ⟨response ++ later, []⟩ =
        .ok (reader, writer) ⟨later, header⟩ ∧
      ∃ reqKeys respKeys security masking padding,
        accepted.reader = ChunkReader.new further reqKeys security masking padding ∧
        writer = ChunkWriter.new reqKeys security masking padding ∧
        accepted.writer = ChunkWriter.new respKeys security masking padding ∧
        reader = ChunkReader.new later respKeys security masking padding := by
  obtain ⟨header, response, accepted, sealed, ran, reads, sameTarget, reader, writer⟩ :=
    handshake_accepts crypto serverNow draws.now users (cmdKey uuid) draws.requestIv
      draws.requestKey draws.responseV clientOptions sec target draws.randPart draws.nonce8
      (clientSecurity sec) further (List.ne_nil_of_mem configured) fits close (by decide)
      (by decide) (security_agrees cfg.security sec known)
  refine ⟨header, response, accepted, _, _,
    fun incoming => connect_writes_header crypto draws cfg target uuid sec header incoming
      identified known sealed, ran, sameTarget, ?_, _, _, clientSecurity sec, _, _, reader, rfl,
    writer, rfl⟩
  simp [connectTcp, EStateM.run_bind, identified, known, sealed, reads]

/-- The agreement of a client and a server that share one user. -/
theorem handshake_agreement_example :
    ∃ header response accepted reader writer,
      (∀ incoming, (finalConn ((connectTcp standard
        ⟨zeroOctets 16, zeroOctets 16, 7, 1700000000, zeroOctets 4, zeroOctets 8⟩
        ⟨⟨"127.0.0.1", 10086⟩, "b831381d-6324-4d53-ad4f-8cda48b30811", "auto"⟩
          (.domain "example.org" 443)).run
          ⟨incoming, []⟩)).written = header) ∧
      (handshake standard 1700000060 ⟨[⟨[0xb8, 0x31, 0x38, 0x1d, 0x63, 0x24, 0x4d, 0x53, 0xad, 0x4f,
        0x8c, 0xda, 0x48, 0xb3, 0x08, 0x11], rfl⟩]⟩).run ⟨header ++ [1, 2, 3], []⟩ =
        .ok accepted ⟨[1, 2, 3], response⟩ ∧
      accepted.target = .domain "example.org" 443 ∧
      (connectTcp standard
        ⟨zeroOctets 16, zeroOctets 16, 7, 1700000000, zeroOctets 4, zeroOctets 8⟩
        ⟨⟨"127.0.0.1", 10086⟩, "b831381d-6324-4d53-ad4f-8cda48b30811", "auto"⟩
          (.domain "example.org" 443)).run
          ⟨response ++ [4, 5], []⟩ = .ok (reader, writer) ⟨[4, 5], header⟩ ∧
      ∃ reqKeys respKeys security masking padding,
        accepted.reader = ChunkReader.new [1, 2, 3] reqKeys security masking padding ∧
        writer = ChunkWriter.new reqKeys security masking padding ∧
        accepted.writer = ChunkWriter.new respKeys security masking padding ∧
        reader = ChunkReader.new [4, 5] respKeys security masking padding :=
  handshake_agreement standard _ _ _ _ secAes128Gcm (.domain "example.org" 443) 1700000060
    [1, 2, 3] [4, 5] List.mem_cons_self (by decide) (by decide) (by decide) (by decide)

end Agreement

section Authentication

/-- A header the client side produces for a user at a clock reading: any command
for any target, with any options, keys and random octets. -/
def Produces (uuid : Octets 16) (clientNow : Int64) (header : Bytes) : Prop :=
  ∃ requestIv requestKey responseV options security cmd target randPart nonce8,
    sealVmessAeadHeader crypto (cmdKey uuid) (encodeRequestCommand requestIv requestKey responseV
      options security cmd target) clientNow randPart nonce8 = some header

/-- The server refuses every header produced for a user inside the time window. -/
def RejectsUser (users : List (Octets 16)) (uuid : Octets 16) : Prop :=
  ∀ serverNow clientNow header further,
    (serverNow.toInt - clientNow.toInt).natAbs ≤ 120 → Produces crypto uuid clientNow header →
      ¬Accepts ((handshake crypto serverNow ⟨users⟩).run ⟨header ++ further, []⟩)

/-- A server without users refuses every input. -/
theorem handshake_without_users (serverNow : Int64) (conn : Conn) :
    ¬Accepts ((handshake crypto serverNow ⟨[]⟩).run conn) := by
  intro accepted
  rw [handshake, EStateM.run_bind] at accepted
  cases read : (readArray 16).run conn with
  | error error after => simp [read, Accepts] at accepted
  | ok authId after => simp [read, matchUser, EStateM.run_bind, Accepts] at accepted

/-- A server with at least one user accepts a header of every UUID. -/
theorem handshake_accepts_anyone (users : List (Octets 16)) (uuid : Octets 16)
    (someone : users ≠ []) : ¬RejectsUser crypto users uuid := by
  intro rejects
  obtain ⟨header, response, accepted, sealed, ran, -⟩ :=
    handshake_accepts crypto 0 0 users (cmdKey uuid) (zeroOctets 16) (zeroOctets 16) 0
      optChunkStream secAes128Gcm (.domain "" 0) (zeroOctets 4) (zeroOctets 8) .gcm [] someone
      (by decide) (by decide) (by decide) (by decide) (by decide)
  refine rejects 0 0 header [] (by decide) ⟨_, _, _, _, _, _, _, _, _, sealed⟩ ?_
  rw [ran]
  trivial

/-- Exactly when a UUID that shares no command key with a configured user is
refused: only a server without users refuses it. The other disjunct is the case
that such a UUID is not in question. -/
theorem foreign_user_rejected_iff (users : List (Octets 16)) (uuid : Octets 16) :
    ((∀ user ∈ users, cmdKey uuid ≠ cmdKey user) → RejectsUser crypto users uuid) ↔
      users = [] ∨ ∃ user ∈ users, cmdKey uuid = cmdKey user := by
  constructor
  · intro claimed
    by_cases nobody : users = []
    · exact Or.inl nobody
    · by_contra foreign
      push Not at foreign
      exact handshake_accepts_anyone crypto users uuid nobody (claimed foreign.2)
  · rintro (rfl | ⟨user, member, same⟩) foreign
    · intro serverNow clientNow header further _ _
      exact handshake_without_users crypto serverNow _
    · exact absurd same (foreign user member)

/-- The all-ones UUID is accepted by a server whose only user is the zero UUID. -/
theorem foreign_user_accepted :
    cmdKey (List.Vector.replicate 16 0xff) ≠ cmdKey (zeroOctets 16) ∧
      ∃ header, sealVmessAeadHeader standard (cmdKey (List.Vector.replicate 16 0xff))
          (encodeRequestCommand (zeroOctets 16) (zeroOctets 16) 0 optChunkStream secAes128Gcm
            cmdTcp (.domain "example.org" 443)) 1700000000 (zeroOctets 4) (zeroOctets 8) =
        some header ∧
      Accepts ((handshake standard 1700000000 ⟨[zeroOctets 16]⟩).run ⟨header, []⟩) := by
  refine ⟨by decide +kernel, ?_⟩
  obtain ⟨header, response, accepted, sealed, ran, -⟩ :=
    handshake_accepts standard 1700000000 1700000000 [zeroOctets 16]
      (cmdKey (List.Vector.replicate 16 0xff)) (zeroOctets 16) (zeroOctets 16) 0 optChunkStream
      secAes128Gcm (.domain "example.org" 443) (zeroOctets 4) (zeroOctets 8) .gcm [] (by decide)
      (by decide) (by decide) (by decide) (by decide) (by decide)
  refine ⟨header, sealed, ?_⟩
  rw [List.append_nil] at ran
  rw [ran]
  trivial

end Authentication

end OmniProxy.VmessHandshake
