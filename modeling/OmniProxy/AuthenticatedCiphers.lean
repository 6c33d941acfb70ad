import OmniProxy.BlockCiphers

/-!
# AES-GCM and ChaCha20-Poly1305

The ciphers add a keystream to the plaintext and authenticate the ciphertext
with the associated data. `streamAead` is this construction for any keystream of
the requested length and any tag; its laws need nothing else, since opening
recomputes the tag over the same ciphertext and adds the same keystream again.
The ciphers are instances with their own keystreams, tags and size limits; the one
with the long nonce derives a key and runs the one with the short nonce.

Nothing here refers to a particular program.
-/

namespace OmniProxy.AuthenticatedCiphers

open ByteStrings SealedBoxes BlockCiphers

/-- Add a keystream to a string, octet by octet. -/
def addStream (data stream : Bytes) : Bytes := List.zipWith (· ^^^ ·) data stream

/-- The stream cipher keeps the length of the data. -/
theorem add_stream_length (data stream : Bytes) (enough : stream.length = data.length) :
    (addStream data stream).length = data.length := by
  simp [addStream, enough]

/-- Adding the same keystream twice gives the string back. -/
theorem add_stream_twice (data stream : Bytes) (enough : stream.length = data.length) :
    addStream (addStream data stream) stream = data := by
  induction data generalizing stream with
  | nil => simp [addStream]
  | cons octet data inductionHypothesis =>
    cases stream with
    | nil => simp at enough
    | cons mask stream =>
      have rest := inductionHypothesis stream (Nat.succ.inj enough)
      simp only [addStream, List.zipWith_cons_cons, UInt8.xor_assoc, UInt8.xor_self,
        UInt8.xor_zero] at rest ⊢
      rw [rest]

section StreamAead

variable {keyLength nonceLength : Nat}

/-- Encryption by a keystream with a tag over associated data and ciphertext. -/
def streamAead (limit : Nat) (wide : sealLimit ≤ limit)
    (stream : Octets keyLength → Octets nonceLength → Nat → Bytes)
    (stream_length : ∀ key nonce count, (stream key nonce count).length = count)
    (tag : Octets keyLength → Octets nonceLength → (aad cipher : Bytes) → Octets tagLength) :
    Aead keyLength nonceLength where
  encrypt key nonce aad plain :=
    if aad.length ≤ limit ∧ plain.length ≤ limit then
      let cipher := addStream plain (stream key nonce plain.length)
      some (cipher, tag key nonce aad cipher)
    else none
  decrypt key nonce aad cipher found :=
    if (aad.length ≤ limit ∧ cipher.length ≤ limit) ∧ found = tag key nonce aad cipher then
      some (addStream cipher (stream key nonce cipher.length))
    else none
  encrypt_total key nonce aad plain aadFits plainFits := by
    have fits : aad.length ≤ limit ∧ plain.length ≤ limit :=
      ⟨Nat.le_trans aadFits wide, Nat.le_trans plainFits wide⟩
    exact ⟨_, _, if_pos fits⟩
  encrypt_length key nonce aad plain cipher found sealed := by
    obtain ⟨-, same⟩ := Option.ite_none_right_eq_some.mp sealed
    obtain ⟨rfl, -⟩ := Prod.mk.inj (Option.some.inj same)
    exact add_stream_length _ _ (stream_length _ _ _)
  decrypt_length key nonce aad cipher found plain opened := by
    obtain ⟨-, same⟩ := Option.ite_none_right_eq_some.mp opened
    rw [← Option.some.inj same]
    exact add_stream_length _ _ (stream_length _ _ _)
  decrypt_encrypt key nonce aad plain cipher found sealed := by
    obtain ⟨fits, same⟩ := Option.ite_none_right_eq_some.mp sealed
    obtain ⟨rfl, rfl⟩ := Prod.mk.inj (Option.some.inj same)
    have length : (addStream plain (stream key nonce plain.length)).length = plain.length :=
      add_stream_length _ _ (stream_length _ _ _)
    rw [length, if_pos ⟨fits, rfl⟩, add_stream_twice _ _ (stream_length _ _ _)]

end StreamAead

/-- The first octets of consecutive blocks of a block function. -/
def blockStream (size : Nat) (block : Nat → Octets size) (count : Nat) : Bytes :=
  ((List.range (count / size + 1)).flatMap fun i => (block i).toList).take count

/-- As many blocks as asked for give that many octets. -/
theorem block_stream_length (size : Nat) (block : Nat → Octets size) (count : Nat)
    (positive : 0 < size) : (blockStream size block count).length = count := by
  have whole : ((List.range (count / size + 1)).flatMap fun i => (block i).toList).length =
      size * (count / size + 1) := by
    simp [List.length_flatMap, Nat.mul_comm]
  have enough : count < size * (count / size + 1) := Nat.lt_mul_div_succ count positive
  rw [blockStream, List.length_take, whole]
  omega

/-- Fill a string with zeros to whole blocks of sixteen octets. -/
def padded (bytes : Bytes) : Bytes := bytes ++ List.replicate ((16 - bytes.length % 16) % 16) 0

section Gcm

variable {keyLength : Nat} (cipher : BlockCipher keyLength 16)

/-- Multiply in the field of 2^128 elements; the most significant bit of an
operand is its constant coefficient. -/
def fieldMul (x y : Nat) : Nat :=
  ((List.range 128).foldl (fun (z, v) i =>
    (if x.testBit (127 - i) then z ^^^ v else z,
      if v % 2 = 1 then (v / 2) ^^^ (0xe1 * 2 ^ 120) else v / 2)) (0, y)).1

/-- The polynomial of a string of whole blocks at `h`. -/
def ghash (h : Nat) (blocks : Bytes) : Nat :=
  (pieces 16 blocks).foldl (fun y block => fieldMul (y ^^^ bigEndianValue block) h) 0

/-- The encrypted counter block of a nonce. -/
def counterBlock (key : Octets keyLength) (nonce : Octets 12) (counter : Nat) : Octets 16 :=
  cipher.encryptBlock key ⟨nonce.toList ++ bigEndian 4 counter, by simp⟩

/-- The tag: the polynomial of padded data and lengths, masked by the first
counter block. -/
def gcmTag (key : Octets keyLength) (nonce : Octets 12) (aad box : Bytes) : Octets tagLength :=
  let h := bigEndianValue (cipher.encryptBlock key (zeroOctets 16)).toList
  let lengths := bigEndian 8 (8 * aad.length) ++ bigEndian 8 (8 * box.length)
  let sum := ghash h (padded aad ++ padded box ++ lengths)
  ⟨bigEndian 16 (sum ^^^ bigEndianValue (counterBlock cipher key nonce 1).toList), by simp; rfl⟩

/-- Galois counter mode over a block cipher; the first keystream block has
counter two. -/
def gcm : Aead keyLength 12 :=
  streamAead sealLimit (Nat.le_refl _)
    (fun key nonce => blockStream 16 fun i => counterBlock cipher key nonce (i + 2))
    (fun _ _ count => block_stream_length 16 _ count (by decide)) (gcmTag cipher)

end Gcm

section ChaChaPoly

/-- Rotate a word to the left. -/
def rotate (word count : UInt32) : UInt32 := (word <<< count) ||| (word >>> (32 - count))

/-- The quarter round on four places of the state. -/
def quarterRound (state : List UInt32) (i j k l : Nat) : List UInt32 :=
  let a := state.getD i 0
  let b := state.getD j 0
  let c := state.getD k 0
  let d := state.getD l 0
  let a := a + b
  let d := rotate (d ^^^ a) 16
  let c := c + d
  let b := rotate (b ^^^ c) 12
  let a := a + b
  let d := rotate (d ^^^ a) 8
  let c := c + d
  let b := rotate (b ^^^ c) 7
  (((state.set i a).set j b).set k c).set l d

/-- A column round followed by a diagonal round. -/
def doubleRound (state : List UInt32) : List UInt32 :=
  [(0, 4, 8, 12), (1, 5, 9, 13), (2, 6, 10, 14), (3, 7, 11, 15), (0, 5, 10, 15), (1, 6, 11, 12),
    (2, 7, 8, 13), (3, 4, 9, 14)].foldl (fun state (i, j, k, l) => quarterRound state i j k l) state

/-- Words of four octets, least significant octet first. -/
def littleWords (bytes : Bytes) : List UInt32 :=
  (pieces 4 bytes).map fun word => UInt32.ofNat (littleEndianValue word)

/-- The keystream block of a counter. -/
def chachaBlock (key : Octets 32) (nonce : Octets 12) (counter : Nat) : Octets 64 :=
  let start := [0x61707865, 0x3320646e, 0x79622d32, 0x6b206574] ++ littleWords key.toList ++
    [UInt32.ofNat counter] ++ littleWords nonce.toList
  let last := doubleRound^[10] start
  ⟨(List.range 16).flatMap fun i => littleEndian 4 (start.getD i 0 + last.getD i 0).toNat,
    by simp [List.length_flatMap]⟩

/-- The Poly1305 tag of a string under a one-time key. -/
def poly1305 (key : Bytes) (message : Bytes) : Octets tagLength :=
  let r := littleEndianValue (key.take 16) &&& 0x0ffffffc0ffffffc0ffffffc0fffffff
  let s := littleEndianValue (key.drop 16)
  let sum := (pieces 16 message).foldl (fun acc block =>
    (acc + littleEndianValue block + 256 ^ block.length) * r % (2 ^ 130 - 5)) 0
  ⟨littleEndian 16 (sum + s), by simp; rfl⟩

/-- The tag: Poly1305 over padded data and lengths under a key from the block of
counter zero. -/
def chachaTag (key : Octets 32) (nonce : Octets 12) (aad box : Bytes) : Octets tagLength :=
  poly1305 ((chachaBlock key nonce 0).toList.take 32)
    (padded aad ++ padded box ++ littleEndian 8 aad.length ++ littleEndian 8 box.length)

/-- The longest input of the ChaCha cipher: all blocks after the first. -/
def chachaLimit : Nat := 64 * (2 ^ 32 - 1)

/-- ChaCha20 with Poly1305; the first keystream block has counter one. -/
def chacha20Poly1305 : Aead 32 12 :=
  streamAead chachaLimit (by decide)
    (fun key nonce => blockStream 64 fun i => chachaBlock key nonce (i + 1))
    (fun _ _ count => block_stream_length 64 _ count (by decide)) chachaTag

/-- The key that the extended cipher derives from a key and the first sixteen octets
of its nonce: the outer words of the state after all rounds. -/
def hchacha20 (key : Octets 32) (front : Bytes) : Octets 32 :=
  let start := [0x61707865, 0x3320646e, 0x79622d32, 0x6b206574] ++ littleWords key.toList ++
    littleWords front
  let last := doubleRound^[10] start
  ⟨[0, 1, 2, 3, 12, 13, 14, 15].flatMap fun i => littleEndian 4 (last.getD i 0).toNat,
    by simp⟩

/-- The nonce of the inner cipher: four zeros and the last eight octets. -/
def innerNonce (nonce : Octets 24) : Octets 12 := ⟨[0, 0, 0, 0] ++ nonce.toList.drop 16, by simp⟩

/-- ChaCha20 with Poly1305 under a nonce of 24 octets. -/
def xchacha20Poly1305 : Aead 32 24 :=
  streamAead chachaLimit (by decide)
    (fun key nonce => blockStream 64 fun i =>
      chachaBlock (hchacha20 key (nonce.toList.take 16)) (innerNonce nonce) (i + 1))
    (fun _ _ count => block_stream_length 64 _ count (by decide))
    fun key nonce => chachaTag (hchacha20 key (nonce.toList.take 16)) (innerNonce nonce)

end ChaChaPoly

end OmniProxy.AuthenticatedCiphers
