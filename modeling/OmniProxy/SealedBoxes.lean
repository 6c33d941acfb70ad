import OmniProxy.ByteStrings

/-!
# Block ciphers and authenticated encryption

The two primitives are interfaces with their laws as fields. A block cipher's
decryption undoes its encryption under one key. An authenticated cipher encrypts
in place, so lengths are kept, and returns a sixteen-octet tag; decryption under
the same key, nonce and associated data accepts what encryption produced and
returns the plaintext. Encryption succeeds for every input of at most 2^36
octets. No secrecy or unforgeability is stated.

`Aead.combine` and `Aead.split` are the usual container: ciphertext followed by
its tag.

Nothing here refers to a particular program.
-/

namespace OmniProxy.SealedBoxes

open ByteStrings

/-- A keyed permutation of fixed blocks with its inverse. -/
structure BlockCipher (keyLength blockLength : Nat) where
  encryptBlock : Octets keyLength → Octets blockLength → Octets blockLength
  decryptBlock : Octets keyLength → Octets blockLength → Octets blockLength
  decrypt_encrypt : ∀ key block, decryptBlock key (encryptBlock key block) = block

/-- The longest plaintext or associated data that encryption must accept. -/
def sealLimit : Nat := 2 ^ 36

/-- The number of octets in an authentication tag. -/
def tagLength : Nat := 16

/-- Authenticated encryption with associated data, in place and with a detached tag. -/
structure Aead (keyLength nonceLength : Nat) where
  encrypt : Octets keyLength → Octets nonceLength → (aad plain : Bytes) →
    Option (Bytes × Octets tagLength)
  decrypt : Octets keyLength → Octets nonceLength → (aad cipher : Bytes) → Octets tagLength →
    Option Bytes
  encrypt_total : ∀ key nonce aad plain, aad.length ≤ sealLimit → plain.length ≤ sealLimit →
    ∃ cipher tag, encrypt key nonce aad plain = some (cipher, tag)
  encrypt_length : ∀ key nonce aad plain cipher tag,
    encrypt key nonce aad plain = some (cipher, tag) → cipher.length = plain.length
  decrypt_length : ∀ key nonce aad cipher tag plain,
    decrypt key nonce aad cipher tag = some plain → plain.length = cipher.length
  decrypt_encrypt : ∀ key nonce aad plain cipher tag,
    encrypt key nonce aad plain = some (cipher, tag) →
      decrypt key nonce aad cipher tag = some plain

variable {keyLength nonceLength : Nat}

/-- Encrypt and append the tag. -/
def Aead.combine (aead : Aead keyLength nonceLength) (key : Octets keyLength)
    (nonce : Octets nonceLength) (aad plain : Bytes) : Option Bytes :=
  (aead.encrypt key nonce aad plain).map fun (cipher, tag) => cipher ++ tag.toList

/-- Split off the trailing tag and decrypt; anything shorter than a tag is refused. -/
def Aead.split (aead : Aead keyLength nonceLength) (key : Octets keyLength)
    (nonce : Octets nonceLength) (aad box : Bytes) : Option Bytes :=
  if enough : tagLength ≤ box.length then
    aead.decrypt key nonce aad (box.take (box.length - tagLength))
      ⟨box.drop (box.length - tagLength), by simp; omega⟩
  else none

/-- A plaintext within the limit is sealed into a box one tag longer, and the
box opens to it under the same key, nonce and associated data. -/
theorem Aead.combine_exact (aead : Aead keyLength nonceLength) (key : Octets keyLength)
    (nonce : Octets nonceLength) (aad plain : Bytes) (aadFits : aad.length ≤ sealLimit)
    (plainFits : plain.length ≤ sealLimit) :
    ∃ box, aead.combine key nonce aad plain = some box ∧
      box.length = plain.length + tagLength ∧ aead.split key nonce aad box = some plain := by
  obtain ⟨cipher, tag, sealed⟩ := aead.encrypt_total key nonce aad plain aadFits plainFits
  have length := aead.encrypt_length key nonce aad plain cipher tag sealed
  have opened := aead.decrypt_encrypt key nonce aad plain cipher tag sealed
  have tagWidth : tag.toList.length = tagLength := tag.2
  have boxLength : (cipher ++ tag.toList).length = plain.length + tagLength := by
    simp only [List.length_append, length, tagWidth]
  refine ⟨cipher ++ tag.toList, by simp [combine, sealed], boxLength, ?_⟩
  have enough : tagLength ≤ (cipher ++ tag.toList).length := by omega
  have cut : (cipher ++ tag.toList).length - tagLength = cipher.length := by omega
  have cipherPart : (cipher ++ tag.toList).take ((cipher ++ tag.toList).length - tagLength) =
      cipher := by rw [cut, List.take_left]
  have tagPart : (cipher ++ tag.toList).drop ((cipher ++ tag.toList).length - tagLength) =
      tag.toList := by rw [cut, List.drop_left]
  simp only [split, enough, ↓reduceDIte, cipherPart, tagPart]
  exact opened

/-- What a box opens to is shorter than the box by a tag. -/
theorem Aead.split_length (aead : Aead keyLength nonceLength) (key : Octets keyLength)
    (nonce : Octets nonceLength) (aad box plain : Bytes)
    (opened : aead.split key nonce aad box = some plain) :
    box.length = plain.length + tagLength := by
  unfold split at opened
  split at opened
  · next enough =>
    rw [aead.decrypt_length _ _ _ _ _ _ opened, List.length_take]
    omega
  · simp at opened

end OmniProxy.SealedBoxes
