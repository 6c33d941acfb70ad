import OmniProxy.VmessHandshake

/-!
# Two readers of the VMess request header

A header is an authentication id, the sealed length of the command, a nonce and the sealed
command. The handshake of the server reads the four in this order. The other reader takes
the id and the length together, reads the nonce, and then reads a length once more: it uses
the octets after the nonce, where the command begins, and never those it has taken with the
id. It does to a header what the handshake does to the header in which those octets stand in
the place of the length, and so it opens no header that was sealed.
-/

namespace OmniProxy.VmessHeaderOpening

open ByteStrings Connections CryptoPrimitives SealedBoxes VmessCommand VmessHeader VmessHandshake

/-- The error of a blocking exact read that meets the end of its input. -/
def bufferUnfilled : IoError := ⟨.unexpectedEof, "failed to fill whole buffer"⟩

/-- Fill a buffer of a fixed size from a blocking reader. -/
def fillBuffer (count : Nat) : Io (Octets count) := fun conn =>
  match (readArray count).run conn with
  | .ok buffer after => .ok buffer after
  | .error _ after => .error bufferUnfilled after

/-- A buffer is filled exactly when as many octets stand in front. -/
theorem fill_buffer_yields_iff {count : Nat} (conn after : Conn) (buffer : Octets count) :
    (fillBuffer count).run conn = .ok buffer after ↔
      conn.incoming = buffer.toList ++ after.incoming ∧ after.written = conn.written := by
  rw [← read_array_yields_iff]
  simp only [fillBuffer, EStateM.run]
  cases readArray count conn with
  | ok front reached => simp
  | error error reached => simp

variable (crypto : Primitives)

/-- An error of the data of a header. -/
def badHeader (message : String) : IoError := ⟨.invalidData, message⟩

/-- Open a header that a blocking reader delivers. -/
def openVmessAeadHeader (tsNow : Int64) (cmdKey : Octets 16) : Io Bytes := do
  let authAndLen ← fillBuffer 34
  let authId := octetsOf 16 authAndLen.toList (by simp)
  let idKey := kdf16 crypto cmdKey.toList [authIdEncryptionKey]
  let ts := authIdTimestamp (crypto.aes128.decryptBlock idKey authId)
  rejectIf (120 < (tsNow - ts).abs) (badHeader "vmess: auth id timestamp expired")
  let nonce8 ← fillBuffer 8
  let path (salt : Bytes) := [salt, authId.toList, nonce8.toList]
  let lenKey := kdf16 crypto cmdKey.toList (path vmessHeaderPayloadLengthAeadKey)
  let lenNonce := kdfNonce crypto cmdKey.toList (path vmessHeaderPayloadLengthAeadIv)
  let encLen ← fillBuffer 18
  let lenPlain ← orThrow (badHeader "vmess: failed to decrypt header length")
    (gcmOpen crypto lenKey lenNonce encLen.toList authId.toList)
  rejectIf (lenPlain.length ≠ 2) (badHeader "vmess: bad length block")
  let hdrLen := (ofBigEndian16 (lenPlain.getD 0 0) (lenPlain.getD 1 0)).toNat
  let hdrKey := kdf16 crypto cmdKey.toList (path vmessHeaderPayloadAeadKey)
  let hdrNonce := kdfNonce crypto cmdKey.toList (path vmessHeaderPayloadAeadIv)
  let encHdr ← fillBuffer (hdrLen + 16)
  orThrow (badHeader "vmess: failed to decrypt header payload")
    (gcmOpen crypto hdrKey hdrNonce encHdr.toList authId.toList)

/-- What the handshake does up to the command, for a server with one user. -/
def readHeader (now : Int64) (user : Octets 16) : Io Bytes := do
  let authId ← readArray 16
  let foundCmdKey ← orThrow (ioerr "vmess: authentication failed")
    (matchUser crypto now authId [user])
  readCommand crypto foundCmdKey authId

/-- The handshake goes on from the command that is read. -/
theorem handshake_reads_header (now : Int64) (user : Octets 16) :
    handshake crypto now ⟨[user]⟩ = (do
      let cmdBuf ← readHeader crypto now user
      let req ← fromExcept (decodeRequestCommand cmdBuf)
      acceptRequest crypto req) := by
  simp only [handshake, readHeader, bind_assoc]

section Forms

/-- The timestamp of an authentication id is in the window. -/
def InWindow (now : Int64) (key : Octets 16) (authId : Octets 16) : Prop :=
  withinWindow now (authIdTimestamp
    (crypto.aes128.decryptBlock (kdf16 crypto key.toList [authIdEncryptionKey]) authId)) = true

/-- The boxes of a header open to a command and to its length. -/
structure Opens (key authId : Octets 16) (nonce8 : Octets 8) (encLen encHdr data : Bytes) : Prop
    where
  lengthOpens : ∃ high low, gcmOpen crypto
      (kdf16 crypto key.toList [vmessHeaderPayloadLengthAeadKey, authId.toList, nonce8.toList])
      (kdfNonce crypto key.toList [vmessHeaderPayloadLengthAeadIv, authId.toList, nonce8.toList])
      encLen authId.toList = some [high, low] ∧
    encHdr.length = (ofBigEndian16 high low).toNat + 16
  commandOpens : gcmOpen crypto
      (kdf16 crypto key.toList [vmessHeaderPayloadAeadKey, authId.toList, nonce8.toList])
      (kdfNonce crypto key.toList [vmessHeaderPayloadAeadIv, authId.toList, nonce8.toList])
      encHdr authId.toList = some data

variable {crypto}

/-- A header that opens is sixteen octets longer than its data. -/
theorem Opens.length {key authId : Octets 16} {nonce8 : Octets 8} {encLen encHdr data : Bytes}
    (opens : Opens crypto key authId nonce8 encLen encHdr data) :
    encHdr.length = data.length + 16 :=
  crypto.aes128Gcm.split_length _ _ _ _ _ opens.commandOpens

variable (crypto)

/-- With one user the search finds that user exactly when the identifier is inside the
window. -/
theorem match_single_iff (now : Int64) (user authId found : Octets 16) :
    matchUser crypto now authId [user] = some found ↔
      InWindow crypto now (cmdKey user) authId ∧ cmdKey user = found := by
  simp only [matchUser, List.map_cons, List.map_nil, List.find?_cons, InWindow]
  cases withinWindow now (authIdTimestamp (crypto.aes128.decryptBlock
    (kdf16 crypto (cmdKey user).toList [authIdEncryptionKey]) authId)) <;> simp

/-- The handshake reads an authentication id, a length, a nonce and a command. -/
theorem read_header_yields_iff (now : Int64) (user : Octets 16) (conn after : Conn)
    (data : Bytes) :
    (readHeader crypto now user).run conn = .ok data after ↔
      ∃ (authId : Octets 16) (encLen : Octets 18) (nonce8 : Octets 8) (encHdr : Bytes),
        InWindow crypto now (cmdKey user) authId ∧
        Opens crypto (cmdKey user) authId nonce8 encLen.toList encHdr data ∧
        conn.incoming = authId.toList ++ (encLen.toList ++ (nonce8.toList ++
          (encHdr ++ after.incoming))) ∧
        after.written = conn.written := by
  simp only [readHeader, readCommand, bind_yields_iff, read_array_yields_iff,
    read_exact_yields_iff, or_throw_yields_iff, reject_if_yields_iff, match_single_iff]
  constructor
  · rintro ⟨authId, first, ⟨arrived, silent⟩, _, _, ⟨⟨window, rfl⟩, rfl⟩, encLen, second,
      ⟨width, lenArrived, lenSilent⟩, nonce8, third, ⟨nonceArrived, nonceSilent⟩, lenPlain, _,
      ⟨lenOpens, rfl⟩, _, _, ⟨two, rfl⟩, encHdr, last, ⟨hdrWidth, hdrArrived, hdrSilent⟩, opens,
      rfl⟩
    obtain ⟨high, low, rfl⟩ := List.length_eq_two.mp (not_not.mp two)
    refine ⟨authId, ⟨encLen, width⟩, nonce8, encHdr, window, ⟨⟨high, low, lenOpens, hdrWidth⟩,
      opens⟩, ?_, ?_⟩
    · rw [arrived, lenArrived, nonceArrived, hdrArrived]
      rfl
    · rw [hdrSilent, nonceSilent, lenSilent, silent]
  · rintro ⟨authId, encLen, nonce8, encHdr, window, ⟨⟨high, low, lenOpens, hdrWidth⟩, opens⟩,
      arrived, silent⟩
    exact ⟨authId, ⟨_, conn.written⟩, ⟨arrived, rfl⟩, cmdKey user, _, ⟨⟨window, rfl⟩, rfl⟩,
      encLen.toList, ⟨_, conn.written⟩, ⟨encLen.2, rfl, rfl⟩, nonce8, ⟨_, conn.written⟩,
      ⟨rfl, rfl⟩, [high, low], _, ⟨lenOpens, rfl⟩, (), _, ⟨by simp, rfl⟩, encHdr, after,
      ⟨hdrWidth, rfl, silent⟩, opens, rfl⟩

/-- The other reader takes eighteen octets before the nonce and a length after it. -/
theorem open_header_yields_iff (now : Int64) (key : Octets 16) (conn after : Conn)
    (data : Bytes) :
    (openVmessAeadHeader crypto now key).run conn = .ok data after ↔
      ∃ (authId : Octets 16) (unused : Octets 18) (nonce8 : Octets 8) (encLen : Octets 18)
        (encHdr : Bytes),
        InWindow crypto now key authId ∧
        Opens crypto key authId nonce8 encLen.toList encHdr data ∧
        conn.incoming = authId.toList ++ (unused.toList ++ (nonce8.toList ++ (encLen.toList ++
          (encHdr ++ after.incoming)))) ∧
        after.written = conn.written := by
  have inside (ts : Int64) : ¬(120 < (now - ts).abs) ↔ withinWindow now ts = true := by
    rw [Int64.not_lt, withinWindow, decide_eq_true_iff]
  simp only [openVmessAeadHeader, bind_yields_iff, fill_buffer_yields_iff, or_throw_yields_iff,
    reject_if_yields_iff, inside]
  constructor
  · rintro ⟨front, first, ⟨arrived, silent⟩, _, _, ⟨window, rfl⟩, nonce8, second,
      ⟨nonceArrived, nonceSilent⟩, encLen, third, ⟨lenArrived, lenSilent⟩, lenPlain, _,
      ⟨lenOpens, rfl⟩, _, _, ⟨two, rfl⟩, encHdr, last, ⟨hdrArrived, hdrSilent⟩, opens, rfl⟩
    obtain ⟨high, low, rfl⟩ := List.length_eq_two.mp (not_not.mp two)
    refine ⟨octetsOf 16 front.toList (by simp), ⟨front.toList.drop 16, by simp⟩, nonce8, encLen,
      encHdr.toList, window, ⟨⟨high, low, lenOpens, encHdr.2⟩, opens⟩, ?_, ?_⟩
    · have cut : (octetsOf 16 front.toList (by simp)).toList ++ front.toList.drop 16 =
          front.toList := List.take_append_drop 16 front.toList
      rw [arrived, nonceArrived, lenArrived, hdrArrived]
      conv_lhs => rw [← cut]
      rw [List.append_assoc]
      rfl
    · rw [hdrSilent, lenSilent, nonceSilent, silent]
  · rintro ⟨authId, unused, nonce8, encLen, encHdr, window,
      ⟨⟨high, low, lenOpens, hdrWidth⟩, opens⟩, arrived, silent⟩
    have front : octetsOf 16 (authId.toList ++ unused.toList) (by simp) = authId :=
      ProxyTargets.octets_of_append authId unused.toList (by simp)
    refine ⟨⟨authId.toList ++ unused.toList, by simp⟩,
      ⟨nonce8.toList ++ (encLen.toList ++ (encHdr ++ after.incoming)), conn.written⟩,
      ⟨by rw [arrived, List.Vector.toList_mk, List.append_assoc], rfl⟩, (), _, ⟨?_, rfl⟩, nonce8,
      ⟨encLen.toList ++ (encHdr ++ after.incoming), conn.written⟩, ⟨rfl, rfl⟩, encLen,
      ⟨encHdr ++ after.incoming, conn.written⟩, ⟨rfl, rfl⟩, [high, low], _, ⟨?_, rfl⟩, (), _,
      ⟨by simp, rfl⟩, ⟨encHdr, hdrWidth⟩, after, ⟨rfl, silent⟩, ?_, rfl⟩
    · simp only [List.Vector.toList_mk, front]
      exact window
    · simp only [List.Vector.toList_mk, front]
      exact lenOpens
    · simp only [List.Vector.toList_mk, front]
      exact opens

end Forms

section Comparison

/-- Two readers do the same: they return the same command and leave the same octets, or
both refuse. -/
def SameOutcome (first second : EStateM.Result IoError Conn Bytes) : Prop :=
  ∀ data after, first = .ok data after ↔ second = .ok data after

/-- The other reader does to a stream what the handshake does to the stream in which the
octets after the nonce stand in the place of the length. -/
theorem open_reads_shifted (now : Int64) (user authId : Octets 16) (unused encLen : Octets 18)
    (nonce8 : Octets 8) (rest written : Bytes) :
    SameOutcome
      ((openVmessAeadHeader crypto now (cmdKey user)).run
        ⟨authId.toList ++ (unused.toList ++ (nonce8.toList ++ (encLen.toList ++ rest))), written⟩)
      ((readHeader crypto now user).run
        ⟨authId.toList ++ (encLen.toList ++ (nonce8.toList ++ rest)), written⟩) := by
  -- parts of the same widths are the same parts
  have part {count : Nat} {first second : Octets count} {more others : Bytes}
      (same : first.toList ++ more = second.toList ++ others) : first = second ∧ more = others := by
    obtain ⟨front, back⟩ := List.append_inj same (first.2.trans second.2.symm)
    exact ⟨Subtype.ext front, back⟩
  intro data after
  rw [open_header_yields_iff, read_header_yields_iff]
  constructor
  · rintro ⟨authId', unused', nonce', encLen', encHdr, window, opens, arrived, silent⟩
    obtain ⟨sameId, afterId⟩ := part arrived
    obtain ⟨-, afterUnused⟩ := part afterId
    obtain ⟨sameNonce, afterNonce⟩ := part afterUnused
    obtain ⟨sameLen, left⟩ := part afterNonce
    subst sameId sameNonce sameLen left
    exact ⟨authId, encLen, nonce8, encHdr, window, opens, rfl, silent⟩
  · rintro ⟨authId', encLen', nonce', encHdr, window, opens, arrived, silent⟩
    obtain ⟨sameId, afterId⟩ := part arrived
    obtain ⟨sameLen, afterLen⟩ := part afterId
    obtain ⟨sameNonce, left⟩ := part afterLen
    subst sameId sameNonce sameLen left
    exact ⟨authId, unused, nonce8, encLen, encHdr, window, opens, rfl, silent⟩

/-- What the other reader takes to return a command is longer than the command's header. -/
theorem open_header_consumes (now : Int64) (key : Octets 16) (conn after : Conn) (data : Bytes)
    (opened : (openVmessAeadHeader crypto now key).run conn = .ok data after) :
    conn.incoming.length = data.length + 76 + after.incoming.length := by
  obtain ⟨authId, unused, nonce8, encLen, encHdr, -, opens, arrived, -⟩ :=
    (open_header_yields_iff crypto now key conn after data).mp opened
  have hdrLength := opens.length
  rw [arrived]
  simp only [List.length_append, List.Vector.toList_length]
  omega

/-- The header of a command is 58 octets longer than the command, and the handshake reads
it back. -/
theorem sealed_header_read (now sealedAt : Int64) (key : Octets 16) (data trailing written : Bytes)
    (randPart : Octets 4) (nonce8 : Octets 8) (fits : data.length ≤ 65535)
    (close : (now.toInt - sealedAt.toInt).natAbs ≤ 120) :
    ∃ header, sealVmessAeadHeader crypto key data sealedAt randPart nonce8 = some header ∧
      header.length = data.length + 58 ∧
      ∀ user, cmdKey user = key → (readHeader crypto now user).run ⟨header ++ trailing, written⟩ =
        .ok data ⟨trailing, written⟩ := by
  obtain ⟨encLen, encHdr, sealed, lenWidth, hdrWidth, lenOpens, hdrOpens⟩ :=
    seal_header_exact crypto key data sealedAt randPart nonce8 (by omega)
  refine ⟨_, sealed, ?_, ?_⟩
  · simp only [List.length_append, List.Vector.toList_length]
    omega
  · rintro user rfl
    obtain ⟨high, low, octets, value⟩ := of_big_endian16_exact (UInt16.ofNat data.length)
    have told : (ofBigEndian16 high low).toNat = data.length := by
      rw [value, UInt16.toNat_ofNat']
      omega
    refine (read_header_yields_iff ..).mpr
      ⟨_, ⟨encLen, lenWidth⟩, nonce8, encHdr, ?_, ⟨⟨high, low, ?_, ?_⟩, hdrOpens _⟩, ?_, rfl⟩
    · rw [InWindow, auth_id_timestamp_exact]
      exact within_window_of_close now sealedAt close
    · rw [← octets]
      exact lenOpens _
    · rw [told, hdrWidth]
    · simp only [List.append_assoc]
      rfl

/-- No sealed header is opened: a command that was returned with what follows its header
left unread would have taken more octets than the header has. The handshake reads every one
of them, so on no sealed header do the two readers do the same. -/
theorem sealed_header_unopened (now sealedAt : Int64) (key : Octets 16)
    (data trailing written : Bytes) (randPart : Octets 4) (nonce8 : Octets 8)
    (fits : data.length ≤ 65535) (close : (now.toInt - sealedAt.toInt).natAbs ≤ 120) :
    ∃ header, sealVmessAeadHeader crypto key data sealedAt randPart nonce8 = some header ∧
      (openVmessAeadHeader crypto now key).run ⟨header ++ trailing, written⟩ ≠
        .ok data ⟨trailing, written⟩ ∧
      ∀ user, cmdKey user = key → ¬SameOutcome
        ((openVmessAeadHeader crypto now key).run ⟨header ++ trailing, written⟩)
        ((readHeader crypto now user).run ⟨header ++ trailing, written⟩) := by
  obtain ⟨header, sealed, width, reads⟩ :=
    sealed_header_read crypto now sealedAt key data trailing written randPart nonce8 fits close
  have unopened : (openVmessAeadHeader crypto now key).run ⟨header ++ trailing, written⟩ ≠
      .ok data ⟨trailing, written⟩ := by
    intro opened
    have consumed := open_header_consumes crypto now key _ _ data opened
    simp only [List.length_append] at consumed
    omega
  refine ⟨header, sealed, unopened, fun user owns same => unopened ?_⟩
  exact (same data ⟨trailing, written⟩).mpr (reads user owns)

/-- An empty command sealed and read at the start of the epoch. -/
theorem sealed_header_unopened_example :
    ∃ header, sealVmessAeadHeader standard (zeroOctets 16) [] 0 (zeroOctets 4) (zeroOctets 8) =
        some header ∧
      (openVmessAeadHeader standard 0 (zeroOctets 16)).run ⟨header ++ [], []⟩ ≠ .ok [] ⟨[], []⟩ ∧
      ∀ user, cmdKey user = zeroOctets 16 → ¬SameOutcome
        ((openVmessAeadHeader standard 0 (zeroOctets 16)).run ⟨header ++ [], []⟩)
        ((readHeader standard 0 user).run ⟨header ++ [], []⟩) :=
  sealed_header_unopened standard 0 0 (zeroOctets 16) [] [] [] (zeroOctets 4) (zeroOctets 8)
    (by decide) (by decide)

/-- A command of three octets with its header, one octet after it, and a clock that stands
still: the reader does not return the command. -/
theorem three_octets_unopened :
    ∃ header, sealVmessAeadHeader standard (cmdKey (zeroOctets 16)) [1, 2, 3] 1700000000
        (zeroOctets 4) (zeroOctets 8) = some header ∧
      (readHeader standard 1700000000 (zeroOctets 16)).run ⟨header ++ [7], []⟩ =
        .ok [1, 2, 3] ⟨[7], []⟩ ∧
      (openVmessAeadHeader standard 1700000000 (cmdKey (zeroOctets 16))).run ⟨header ++ [7], []⟩ ≠
        .ok [1, 2, 3] ⟨[7], []⟩ := by
  obtain ⟨header, sealed, width, reads⟩ := sealed_header_read standard 1700000000 1700000000
    (cmdKey (zeroOctets 16)) [1, 2, 3] [7] [] (zeroOctets 4) (zeroOctets 8) (by decide) (by decide)
  refine ⟨header, sealed, reads (zeroOctets 16) rfl, fun opened => ?_⟩
  have consumed := open_header_consumes standard 1700000000 _ _ _ _ opened
  simp only [List.length_append, List.length_cons, List.length_nil] at consumed width
  omega

end Comparison

end OmniProxy.VmessHeaderOpening
