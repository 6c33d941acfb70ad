import OmniProxy.CryptoPrimitives
import OmniProxy.VmessCommand

/-!
# The VMess request header

The key derivation chains keyed digests over a path of salts, starting from one
constant; it takes a key as its first argument and does not use it. The header
holds an encrypted timestamp, the sealed length of the command, a nonce and the
sealed command. Both boxes are authenticated against the encrypted timestamp,
and their keys and nonces are derived along paths through it and the nonce.

Clocks and random octets are arguments. Sealing is partial because the library's
sealing is; a command short enough for the length field always has a header.
-/

namespace OmniProxy.VmessHeader

open ByteStrings CryptoPrimitives SealedBoxes

def authIdEncryptionKey : Bytes := asBytes "AES Auth ID Encryption"
def aeadRespHeaderLenKey : Bytes := asBytes "AEAD Resp Header Len Key"
def aeadRespHeaderLenIv : Bytes := asBytes "AEAD Resp Header Len IV"
def aeadRespHeaderPayloadKey : Bytes := asBytes "AEAD Resp Header Key"
def aeadRespHeaderPayloadIv : Bytes := asBytes "AEAD Resp Header IV"
def vmessAeadKdf : Bytes := asBytes "VMess AEAD KDF"
def vmessHeaderPayloadAeadKey : Bytes := asBytes "VMess Header AEAD Key"
def vmessHeaderPayloadAeadIv : Bytes := asBytes "VMess Header AEAD Nonce"
def vmessHeaderPayloadLengthAeadKey : Bytes := asBytes "VMess Header AEAD Key_Length"
def vmessHeaderPayloadLengthAeadIv : Bytes := asBytes "VMess Header AEAD Nonce_Length"

variable (crypto : Primitives)

/-- The key derivation. Its key argument is not used. -/
def kdf (_key : Bytes) (path : List Bytes) : Octets 32 :=
  let value := path.foldl (fun value p => (crypto.hmacSha256 value p).toList) vmessAeadKdf
  crypto.hmacSha256 value []

/-- The first sixteen octets of a derivation. -/
def kdf16 (key : Bytes) (path : List Bytes) : Octets 16 :=
  octetsOf 16 (kdf crypto key path).toList (by simp)

/-- The first twelve octets of a derivation, as every nonce takes them. -/
def kdfNonce (key : Bytes) (path : List Bytes) : Octets 12 :=
  octetsOf 12 (kdf crypto key path).toList (by simp)

/-- The block an authentication id encrypts: the timestamp, four random octets
and four zeros. -/
def authIdBlock (tsSecs : Int64) (randPart : Octets 4) : Octets 16 :=
  ⟨bigEndian 8 tsSecs.toUInt64.toNat ++ randPart.toList ++ (zeroOctets 4).toList, by simp⟩

/-- The encrypted timestamp of a user's command key. -/
def createAuthId (cmdKey : Bytes) (tsSecs : Int64) (randPart : Octets 4) : Octets 16 :=
  let key := kdf16 crypto cmdKey [authIdEncryptionKey]
  crypto.aes128.encryptBlock key (authIdBlock tsSecs randPart)

/-- The timestamp of a decrypted authentication id. -/
def authIdTimestamp (plain : Octets 16) : Int64 :=
  (UInt64.ofNat (bigEndianValue (plain.toList.take 8))).toInt64

/-- Seal under AES-128-GCM and append the tag. -/
def gcmSeal (key : Octets 16) (nonce : Octets 12) (plaintext aad : Bytes) : Option Bytes :=
  crypto.aes128Gcm.combine key nonce aad plaintext

/-- Open an AES-128-GCM box; anything shorter than a tag is refused. -/
def gcmOpen (key : Octets 16) (nonce : Octets 12) (data aad : Bytes) : Option Bytes :=
  crypto.aes128Gcm.split key nonce aad data

/-- Whether a timestamp is at most 120 seconds from the clock, in wrapping
64-bit arithmetic. -/
def withinWindow (now ts : Int64) : Bool := decide ((now - ts).abs ≤ 120)

/-- The header of a command, or none when the library refuses to seal. -/
def sealVmessAeadHeader (cmdKey : Octets 16) (data : Bytes) (now : Int64) (randPart : Octets 4)
    (nonce8 : Octets 8) : Option Bytes := do
  let authId := createAuthId crypto cmdKey.toList now randPart
  let lenKey := kdf16 crypto cmdKey.toList
    [vmessHeaderPayloadLengthAeadKey, authId.toList, nonce8.toList]
  let lenNonce := kdfNonce crypto cmdKey.toList
    [vmessHeaderPayloadLengthAeadIv, authId.toList, nonce8.toList]
  let hdrKey := kdf16 crypto cmdKey.toList
    [vmessHeaderPayloadAeadKey, authId.toList, nonce8.toList]
  let hdrNonce := kdfNonce crypto cmdKey.toList
    [vmessHeaderPayloadAeadIv, authId.toList, nonce8.toList]
  let encLen ← gcmSeal crypto lenKey lenNonce (bigEndian16 (UInt16.ofNat data.length)) authId.toList
  let encHdr ← gcmSeal crypto hdrKey hdrNonce data authId.toList
  return authId.toList ++ encLen ++ nonce8.toList ++ encHdr

/-- Derivations under different keys agree. -/
theorem kdf_ignores_key (first second : Bytes) (path : List Bytes) :
    kdf crypto first path = kdf crypto second path := rfl

/-- A timestamp survives its encryption. -/
theorem auth_id_timestamp_exact (key : Bytes) (tsSecs : Int64) (randPart : Octets 4) :
    authIdTimestamp (crypto.aes128.decryptBlock (kdf16 crypto key [authIdEncryptionKey])
      (createAuthId crypto key tsSecs randPart)) = tsSecs := by
  have front : (authIdBlock tsSecs randPart).toList.take 8 = bigEndian 8 tsSecs.toUInt64.toNat := by
    simp [authIdBlock]
  rw [createAuthId, crypto.aes128.decrypt_encrypt, authIdTimestamp, front,
    big_endian_value_fits 8 _ tsSecs.toUInt64.toNat_lt, UInt64.ofNat_toNat]
  exact Int64.toInt64_toUInt64 tsSecs

/-- Except for the least integer, the absolute value is that of the integer. -/
theorem abs_fits {value : Int64} (notLeast : value ≠ Int64.minValue) :
    value.abs.toInt = (value.toInt.natAbs : Int) := by
  have notMin : value.toBitVec ≠ BitVec.intMin 64 := fun least =>
    notLeast (Int64.toBitVec_inj.mp least)
  show value.abs.toBitVec.toInt = _
  rw [Int64.toBitVec_abs, BitVec.toInt_abs_eq_natAbs, if_neg notMin]
  rfl

/-- A difference that has an absolute value passes the window if that is at most 120. -/
theorem within_window_iff {now ts : Int64} (notLeast : now - ts ≠ Int64.minValue) :
    withinWindow now ts = true ↔ (now - ts).toInt.natAbs ≤ 120 := by
  have bound : (120 : Int64).toInt = 120 := by decide
  rw [withinWindow, decide_eq_true_iff, Int64.le_iff_toInt_le, abs_fits notLeast, bound]
  omega

/-- A timestamp at most 120 seconds from the clock passes the window: so small a
difference neither wraps nor is the value without an absolute value. -/
theorem within_window_of_close (now ts : Int64) (close : (now.toInt - ts.toInt).natAbs ≤ 120) :
    withinWindow now ts = true := by
  have difference : (now - ts).toInt = now.toInt - ts.toInt := by
    rw [Int64.toInt_sub, Int.bmod_eq_of_le (by omega) (by omega)]
  have notLeast : now - ts ≠ Int64.minValue := by
    intro extreme
    have least : Int64.minValue.toInt = -2 ^ 63 := by decide
    rw [extreme, least] at difference
    omega
  rw [within_window_iff notLeast, difference]
  exact close

/-- A command that fits the length field has a header, and both of its boxes
open under derivations from any key. -/
theorem seal_header_exact (cmdKey : Octets 16) (data : Bytes) (now : Int64) (randPart : Octets 4)
    (nonce8 : Octets 8) (fits : data.length < 65536) :
    let authId := createAuthId crypto cmdKey.toList now randPart
    ∃ encLen encHdr,
      sealVmessAeadHeader crypto cmdKey data now randPart nonce8 =
        some (authId.toList ++ (encLen ++ (nonce8.toList ++ encHdr))) ∧
      encLen.length = 18 ∧ encHdr.length = data.length + 16 ∧
      (∀ key, gcmOpen crypto
        (kdf16 crypto key [vmessHeaderPayloadLengthAeadKey, authId.toList, nonce8.toList])
        (kdfNonce crypto key [vmessHeaderPayloadLengthAeadIv, authId.toList, nonce8.toList])
        encLen authId.toList = some (bigEndian16 (UInt16.ofNat data.length))) ∧
      (∀ key, gcmOpen crypto
        (kdf16 crypto key [vmessHeaderPayloadAeadKey, authId.toList, nonce8.toList])
        (kdfNonce crypto key [vmessHeaderPayloadAeadIv, authId.toList, nonce8.toList])
        encHdr authId.toList = some data) := by
  intro authId
  have aadFits : authId.toList.length ≤ sealLimit := by
    rw [List.Vector.toList_length]
    decide
  have lenFits : (bigEndian16 (UInt16.ofNat data.length)).length ≤ sealLimit := by
    rw [big_endian16_length]
    decide
  have dataFits : data.length ≤ sealLimit := Nat.le_trans (Nat.le_of_lt fits) (by decide)
  obtain ⟨encLen, sealedLen, lenLength, openedLen⟩ := crypto.aes128Gcm.combine_exact
    (kdf16 crypto cmdKey.toList [vmessHeaderPayloadLengthAeadKey, authId.toList, nonce8.toList])
    (kdfNonce crypto cmdKey.toList [vmessHeaderPayloadLengthAeadIv, authId.toList, nonce8.toList])
    authId.toList (bigEndian16 (UInt16.ofNat data.length)) aadFits lenFits
  obtain ⟨encHdr, sealedHdr, hdrLength, openedHdr⟩ := crypto.aes128Gcm.combine_exact
    (kdf16 crypto cmdKey.toList [vmessHeaderPayloadAeadKey, authId.toList, nonce8.toList])
    (kdfNonce crypto cmdKey.toList [vmessHeaderPayloadAeadIv, authId.toList, nonce8.toList])
    authId.toList data aadFits dataFits
  refine ⟨encLen, encHdr, ?_, ?_, hdrLength, fun _ => openedLen, fun _ => openedHdr⟩
  · have boxLen : gcmSeal crypto _ _ _ _ = some encLen := sealedLen
    have boxHdr : gcmSeal crypto _ _ _ _ = some encHdr := sealedHdr
    simp [sealVmessAeadHeader, ← show authId = createAuthId crypto cmdKey.toList now randPart
      from rfl, boxLen, boxHdr]
  · rw [lenLength, big_endian16_length]
    rfl

end OmniProxy.VmessHeader
