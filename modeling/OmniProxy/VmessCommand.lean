import OmniProxy.Connections
import OmniProxy.Digests
import OmniProxy.ProxyTargets

/-!
# The VMess request command

The client describes its request in one buffer: version, IV, key, response
octet, option bits, security, command, port and address, closed by an FNV-1a
checksum over everything before it. The decoder checks the shortest length, the
checksum, the version, the address and that nothing follows the address.

A command written for an IP address or for a domain of at most 255 octets is
decoded to the values it was written from, the security reduced to its low four
bits. A longer domain would be announced with a truncated length.
-/

namespace OmniProxy.VmessCommand

open ByteStrings Connections Digests ProxyTargets

def version : UInt8 := 0x01

def optChunkStream : UInt8 := 0x01
def optChunkMasking : UInt8 := 0x04
def optGlobalPadding : UInt8 := 0x08
def optAuthenticatedLength : UInt8 := 0x10

def secLegacy : UInt8 := 1
def secAuto : UInt8 := 2
def secAes128Gcm : UInt8 := 3
def secChacha20Poly1305 : UInt8 := 4
def secNone : UInt8 := 5

def cmdTcp : UInt8 := 0x01
def cmdUdp : UInt8 := 0x02

def atypV4 : UInt8 := 0x01
def atypDomain : UInt8 := 0x02
def atypV6 : UInt8 := 0x03

/-- The command key of a user. -/
def cmdKey (uuid : Octets 16) : Octets 16 := md5Digest [uuid.toList]

/-- An error of this protocol. -/
def ioerr (message : String) : IoError := .ofText message

/-- The address part of a command. -/
def encodeAddress : ProxyTarget → Bytes
  | .tcp ⟨.v4 ip, _⟩ => [atypV4] ++ ip.toList
  | .tcp ⟨.v6 ip, _⟩ => [atypV6] ++ ip.toList
  | .domain host _ => [atypDomain] ++ [UInt8.ofNat (asBytes host).length] ++ asBytes host

/-- Everything a command says before its address. -/
def encodeFields (requestIv requestKey : Octets 16) (responseV options security cmd : UInt8)
    (port : UInt16) : Bytes :=
  let padLen : UInt8 := 0
  [version] ++ requestIv.toList ++ requestKey.toList ++ [responseV] ++ [options] ++
    [(padLen <<< 4) ||| (security &&& 0x0F)] ++ [0x00] ++ [cmd] ++ bigEndian16 port

/-- Close a buffer with its checksum. -/
def withChecksum (buf : Bytes) : Bytes := buf ++ bigEndian 4 (fnv1a32 buf).toNat

/-- The command the client writes. -/
def encodeRequestCommand (requestIv requestKey : Octets 16)
    (responseV options security cmd : UInt8) (target : ProxyTarget) : Bytes :=
  withChecksum (encodeFields requestIv requestKey responseV options security cmd target.port ++
    encodeAddress target)

/-- A decoded command. -/
structure DecodedRequest where
  requestIv : Octets 16
  requestKey : Octets 16
  responseV : UInt8
  options : UInt8
  security : UInt8
  cmd : UInt8
  target : ProxyTarget
deriving DecidableEq

/-- Read an address from the octets `body` after its tag, with the number used. -/
def decodeAddress (atyp : UInt8) (port : UInt16) (body : Bytes) :
    Except IoError (ProxyTarget × Nat) :=
  if atyp = atypV4 then
    if short : body.length < 4 then .error (ioerr "vmess: short ipv4")
    else .ok (.tcp ⟨.v4 (octetsOf 4 body (by omega)), port⟩, 4)
  else if atyp = atypDomain then
    if body.length < 1 then .error (ioerr "vmess: short domain len")
    else
      let dl := (body.getD 0 0).toNat
      if body.length < 1 + dl then .error (ioerr "vmess: short domain")
      else .ok (.domain (fromUtf8Lossy ((body.drop 1).take dl)) port, 1 + dl)
  else if atyp = atypV6 then
    if short : body.length < 16 then .error (ioerr "vmess: short ipv6")
    else .ok (.tcp ⟨.v6 (octetsOf 16 body (by omega)), port⟩, 16)
  else .error (ioerr "vmess: unknown address type")

/-- Decode a command buffer. The announced padding and the reserved octet are
read past. -/
def decodeRequestCommand (buf : Bytes) : Except IoError DecodedRequest :=
  if short : buf.length < 41 then .error (ioerr "vmess: command buffer too short")
  else
    let expectedFnv := UInt32.ofNat (bigEndianValue (buf.drop (buf.length - 4)))
    if fnv1a32 (buf.take (buf.length - 4)) ≠ expectedFnv then
      .error (ioerr "vmess: command fnv mismatch")
    else if buf.getD 0 0 ≠ version then .error (ioerr "vmess: unsupported version")
    else
      match decodeAddress (buf.getD 40 0) (portAt buf 38) (buf.drop 41) with
      | .error error => .error error
      | .ok (target, used) =>
          if 41 + used ≠ buf.length - 4 then .error (ioerr "vmess: trailing garbage in command")
          else
            .ok
              { requestIv := octetsOf 16 (buf.drop 1) (enough_after short 1 16 (by decide))
                requestKey := octetsOf 16 (buf.drop 17) (enough_after short 17 16 (by decide))
                responseV := buf.getD 33 0
                options := buf.getD 34 0
                security := buf.getD 35 0 &&& 0x0F
                cmd := buf.getD 37 0
                target := target }

/-- The fixed part of a command is forty octets long. -/
@[simp] theorem encode_fields_length (requestIv requestKey : Octets 16)
    (responseV options security cmd : UInt8) (port : UInt16) :
    (encodeFields requestIv requestKey responseV options security cmd port).length = 40 := by
  simp [encodeFields]

/-- An address is at most 257 octets long. -/
theorem encode_address_length (target : ProxyTarget) (fits : target.fits) :
    (encodeAddress target).length ≤ 257 := by
  rcases target with ⟨ip | ip, port⟩ | ⟨host, port⟩
  · simp [encodeAddress]
  · simp [encodeAddress]
  · simp only [ProxyTarget.fits] at fits
    simp only [encodeAddress, List.cons_append, List.nil_append, List.length_cons,
      as_bytes_length]
    omega

/-- A command for such a target is short. -/
theorem encode_request_command_length (requestIv requestKey : Octets 16)
    (responseV options security cmd : UInt8) (target : ProxyTarget) (fits : target.fits) :
    (encodeRequestCommand requestIv requestKey responseV options security cmd target).length
      ≤ 301 := by
  have address := encode_address_length target fits
  simp only [encodeRequestCommand, withChecksum, List.length_append, encode_fields_length,
    big_endian_length]
  omega

/-- The checksum of a closed buffer is the one the decoder recomputes. -/
theorem with_checksum_verifies (buf : Bytes) :
    fnv1a32 ((withChecksum buf).take ((withChecksum buf).length - 4)) =
      UInt32.ofNat (bigEndianValue ((withChecksum buf).drop ((withChecksum buf).length - 4))) := by
  have cut : (withChecksum buf).length - 4 = buf.length := by simp [withChecksum]
  rw [cut, withChecksum, List.take_left, List.drop_left,
    big_endian_value_fits 4 _ (fnv1a32 buf).toNat_lt, UInt32.ofNat_toNat]

/-- An address behind its tag is read back whole, whatever follows it. -/
theorem decode_address_encoded (target : ProxyTarget) (fits : target.fits) :
    ∃ tag body, encodeAddress target = tag :: body ∧
      ∀ tail, decodeAddress tag target.port (body ++ tail) = .ok (target, body.length) := by
  rcases target with ⟨ip | ip, port⟩ | ⟨host, port⟩
  · refine ⟨atypV4, ip.toList, rfl, fun tail => ?_⟩
    have enough : ¬(ip.toList ++ tail).length < 4 := by simp
    simp only [decodeAddress, ↓reduceIte, enough, ↓reduceDIte, octets_of_append,
      ProxyTarget.port, List.Vector.toList_length]
  · refine ⟨atypV6, ip.toList, rfl, fun tail => ?_⟩
    have enough : ¬(ip.toList ++ tail).length < 16 := by simp
    simp only [decodeAddress, show atypV6 ≠ atypV4 by decide, show atypV6 ≠ atypDomain by decide,
      ↓reduceIte, enough, ↓reduceDIte, octets_of_append, ProxyTarget.port,
      List.Vector.toList_length]
  · refine ⟨atypDomain, UInt8.ofNat (asBytes host).length :: asBytes host, rfl, fun tail => ?_⟩
    have short : host.utf8ByteSize ≤ 255 := fits
    have length : (UInt8.ofNat host.utf8ByteSize).toNat = host.utf8ByteSize := by
      simp
      omega
    have spelled : fromUtf8Lossy ((asBytes host ++ tail).take host.utf8ByteSize) = host := by
      rw [← as_bytes_length, List.take_left, from_utf8_lossy_as_bytes]
    simp [decodeAddress, show atypDomain ≠ atypV4 by decide, ProxyTarget.port, length, spelled,
      Nat.add_comm 1]

/-- The octets of a command before the tag of its address, with any security octet and any
reserved octet. -/
def fieldOctets (requestIv requestKey : Octets 16)
    (responseV options secured reserved cmd : UInt8) (port : UInt16) : Bytes :=
  version :: (requestIv.toList ++ (requestKey.toList ++
    ([responseV, options, secured, reserved, cmd] ++ bigEndian16 port)))

/-- The encoder keeps the low half of the security octet and announces no padding. -/
theorem encode_fields_octets (requestIv requestKey : Octets 16)
    (responseV options security cmd : UInt8) (port : UInt16) :
    encodeFields requestIv requestKey responseV options security cmd port =
      fieldOctets requestIv requestKey responseV options (security &&& 0x0F) 0 cmd port := by
  simp [encodeFields, fieldOctets]

/-- The fields of a command are found where the decoder looks for them. -/
theorem fields_located (requestIv requestKey : Octets 16)
    (responseV options secured reserved cmd : UInt8) (port : UInt16) (rest : Bytes) :
    let buf := fieldOctets requestIv requestKey responseV options secured reserved cmd port ++ rest
    let tail := [responseV, options, secured, reserved, cmd] ++ (bigEndian16 port ++ rest)
    buf.getD 0 0 = version ∧ buf.drop 1 = requestIv.toList ++ (requestKey.toList ++ tail) ∧
      buf.drop 17 = requestKey.toList ++ tail ∧ buf.drop 33 = tail ∧ portAt buf 38 = port ∧
      buf.drop 40 = rest := by
  intro buf tail
  have layout : buf = version :: (requestIv.toList ++ (requestKey.toList ++ tail)) := by
    simp [buf, tail, fieldOctets]
  have behindIv : buf.drop 17 = requestKey.toList ++ tail := by
    rw [layout, List.drop_succ_cons, List.drop_left' (by simp)]
  have behindKey : buf.drop 33 = tail := by
    have step : buf.drop 33 = (buf.drop 17).drop 16 := by rw [List.drop_drop]
    rw [step, behindIv, List.drop_left' (by simp)]
  have behindOctets : buf.drop 38 = bigEndian16 port ++ rest := by
    have step : buf.drop 38 = (buf.drop 33).drop 5 := by rw [List.drop_drop]
    rw [step, behindKey]
    rfl
  have written : portAt buf 38 = port := by
    have front : (buf.take 38).length = 38 := by
      simp [layout, tail]
      omega
    have split : buf = buf.take 38 ++ (bigEndian16 port ++ rest) := by
      rw [← behindOctets, List.take_append_drop]
    rw [split]
    exact port_at_append (buf.take 38) rest port 38 front
  have behindPort : buf.drop 40 = rest := by
    have step : buf.drop 40 = (buf.drop 38).drop 2 := by rw [List.drop_drop]
    rw [step, behindOctets, List.drop_left' (by simp)]
  refine ⟨by rw [layout]; rfl, by rw [layout]; rfl, behindIv, behindKey, written, behindPort⟩

/-- The octet at an offset is the first one left after dropping that many. -/
theorem get_dropped (bytes : Bytes) (start offset : Nat) :
    bytes.getD (start + offset) 0 = (bytes.drop start).getD offset 0 := by
  simp

/-- An array is read from any string that starts with it. -/
theorem octets_of_front {n : Nat} (bytes : Bytes) (front : Octets n) (rest : Bytes)
    (split : bytes = front.toList ++ rest) (enough : n ≤ bytes.length) :
    octetsOf n bytes enough = front := by
  subst split
  exact octets_of_append front rest enough

/-- The decoder on a closed buffer of the right layout: it looks at the address and at where
the address ends. -/
theorem decode_closed (requestIv requestKey : Octets 16)
    (responseV options secured reserved cmd tag : UInt8) (port : UInt16) (rest : Bytes) :
    ∃ checksum : Bytes, checksum.length = 4 ∧
      decodeRequestCommand (withChecksum
          (fieldOctets requestIv requestKey responseV options secured reserved cmd port ++
            tag :: rest)) =
        match decodeAddress tag port (rest ++ checksum) with
        | .error error => .error error
        | .ok (target, used) =>
            if used ≠ rest.length then .error (ioerr "vmess: trailing garbage in command")
            else .ok ⟨requestIv, requestKey, responseV, options, secured &&& 0x0F, cmd, target⟩ := by
  have verified := with_checksum_verifies
    (fieldOctets requestIv requestKey responseV options secured reserved cmd port ++ tag :: rest)
  generalize sum : bigEndian 4 (fnv1a32 (fieldOctets requestIv requestKey responseV options secured
    reserved cmd port ++ tag :: rest)).toNat = checksum
  have sumWidth : checksum.length = 4 := by rw [← sum, big_endian_length]
  refine ⟨checksum, sumWidth, ?_⟩
  have layout : withChecksum (fieldOctets requestIv requestKey responseV options secured reserved
      cmd port ++ tag :: rest) = fieldOctets requestIv requestKey responseV options secured reserved
        cmd port ++ (tag :: (rest ++ checksum)) := by
    rw [withChecksum, sum, List.append_assoc, List.cons_append]
  have located := fields_located requestIv requestKey responseV options secured reserved cmd port
    (tag :: (rest ++ checksum))
  simp only [← layout] at located
  generalize withChecksum (fieldOctets requestIv requestKey responseV options secured reserved
    cmd port ++ tag :: rest) = buf at *
  obtain ⟨first, behindVersion, behindIv, behindKey, written, behindPort⟩ := located
  have total : buf.length = 41 + rest.length + 4 := by
    simp [layout, sumWidth, fieldOctets]
    omega
  have tagged : buf.getD 40 0 = tag := by
    rw [get_dropped buf 40 0, behindPort]
    rfl
  have behindTag : buf.drop 41 = rest ++ checksum := by
    have step : buf.drop 41 = (buf.drop 40).drop 1 := by rw [List.drop_drop]
    rw [step, behindPort]
    rfl
  have response : buf.getD 33 0 = responseV := by
    rw [get_dropped buf 33 0, behindKey]
    rfl
  have chosen : buf.getD 34 0 = options := by
    rw [get_dropped buf 33 1, behindKey]
    rfl
  have secured : buf.getD 35 0 = secured := by
    rw [get_dropped buf 33 2, behindKey]
    rfl
  have commanded : buf.getD 37 0 = cmd := by
    rw [get_dropped buf 33 4, behindKey]
    rfl
  have whole : ¬buf.length < 41 := by omega
  have ends (used : Nat) : 41 + used ≠ buf.length - 4 ↔ used ≠ rest.length := by omega
  simp only [decodeRequestCommand, whole, ↓reduceDIte, verified, ne_eq, not_true_eq_false,
    ↓reduceIte, first, tagged, written, behindTag, ends, response, chosen, secured, commanded,
    octets_of_front _ _ _ behindVersion, octets_of_front _ _ _ behindIv]

/-- A command written for an address that fits is decoded to its own values. -/
theorem decode_encode_request (requestIv requestKey : Octets 16)
    (responseV options security cmd : UInt8) (target : ProxyTarget) (fits : target.fits) :
    decodeRequestCommand
        (encodeRequestCommand requestIv requestKey responseV options security cmd target) =
      .ok ⟨requestIv, requestKey, responseV, options, security &&& 0x0F, cmd, target⟩ := by
  obtain ⟨tag, body, address, addressed⟩ := decode_address_encoded target fits
  obtain ⟨checksum, -, decoded⟩ := decode_closed requestIv requestKey responseV options
    (security &&& 0x0F) 0 cmd tag target.port body
  have low : security &&& 0x0F &&& 0x0F = security &&& 0x0F := by
    rw [UInt8.and_assoc, UInt8.and_self]
  rw [encodeRequestCommand, encode_fields_octets, address, decoded, addressed]
  simp only [ne_eq, not_true_eq_false, ↓reduceIte, low]

end OmniProxy.VmessCommand
