import OmniProxy.SealedBoxes
import Mathlib.Data.Vector.Zip

/-!
# AES

A block is sixteen octets in column order: row `r` of column `c` is octet
`r + 4 * c`. A round substitutes octets, rotates rows, mixes columns and adds a
round key; the last round leaves the columns unmixed. Every step has an inverse,
so decrypting with the same round keys undoes encrypting with them, whatever the
keys are. Mixing is linear over the field with 256 elements; its inverse law is
checked by distributing multiplications and cancelling equal terms.

Nothing here refers to a particular program.
-/

namespace OmniProxy.BlockCiphers

open ByteStrings SealedBoxes

/-- The substitution of octets, by high and low digit. -/
def sbox : List (List UInt8) :=
  [[0x63, 0x7c, 0x77, 0x7b, 0xf2, 0x6b, 0x6f, 0xc5, 0x30, 0x01, 0x67, 0x2b, 0xfe, 0xd7, 0xab, 0x76],
   [0xca, 0x82, 0xc9, 0x7d, 0xfa, 0x59, 0x47, 0xf0, 0xad, 0xd4, 0xa2, 0xaf, 0x9c, 0xa4, 0x72, 0xc0],
   [0xb7, 0xfd, 0x93, 0x26, 0x36, 0x3f, 0xf7, 0xcc, 0x34, 0xa5, 0xe5, 0xf1, 0x71, 0xd8, 0x31, 0x15],
   [0x04, 0xc7, 0x23, 0xc3, 0x18, 0x96, 0x05, 0x9a, 0x07, 0x12, 0x80, 0xe2, 0xeb, 0x27, 0xb2, 0x75],
   [0x09, 0x83, 0x2c, 0x1a, 0x1b, 0x6e, 0x5a, 0xa0, 0x52, 0x3b, 0xd6, 0xb3, 0x29, 0xe3, 0x2f, 0x84],
   [0x53, 0xd1, 0x00, 0xed, 0x20, 0xfc, 0xb1, 0x5b, 0x6a, 0xcb, 0xbe, 0x39, 0x4a, 0x4c, 0x58, 0xcf],
   [0xd0, 0xef, 0xaa, 0xfb, 0x43, 0x4d, 0x33, 0x85, 0x45, 0xf9, 0x02, 0x7f, 0x50, 0x3c, 0x9f, 0xa8],
   [0x51, 0xa3, 0x40, 0x8f, 0x92, 0x9d, 0x38, 0xf5, 0xbc, 0xb6, 0xda, 0x21, 0x10, 0xff, 0xf3, 0xd2],
   [0xcd, 0x0c, 0x13, 0xec, 0x5f, 0x97, 0x44, 0x17, 0xc4, 0xa7, 0x7e, 0x3d, 0x64, 0x5d, 0x19, 0x73],
   [0x60, 0x81, 0x4f, 0xdc, 0x22, 0x2a, 0x90, 0x88, 0x46, 0xee, 0xb8, 0x14, 0xde, 0x5e, 0x0b, 0xdb],
   [0xe0, 0x32, 0x3a, 0x0a, 0x49, 0x06, 0x24, 0x5c, 0xc2, 0xd3, 0xac, 0x62, 0x91, 0x95, 0xe4, 0x79],
   [0xe7, 0xc8, 0x37, 0x6d, 0x8d, 0xd5, 0x4e, 0xa9, 0x6c, 0x56, 0xf4, 0xea, 0x65, 0x7a, 0xae, 0x08],
   [0xba, 0x78, 0x25, 0x2e, 0x1c, 0xa6, 0xb4, 0xc6, 0xe8, 0xdd, 0x74, 0x1f, 0x4b, 0xbd, 0x8b, 0x8a],
   [0x70, 0x3e, 0xb5, 0x66, 0x48, 0x03, 0xf6, 0x0e, 0x61, 0x35, 0x57, 0xb9, 0x86, 0xc1, 0x1d, 0x9e],
   [0xe1, 0xf8, 0x98, 0x11, 0x69, 0xd9, 0x8e, 0x94, 0x9b, 0x1e, 0x87, 0xe9, 0xce, 0x55, 0x28, 0xdf],
   [0x8c, 0xa1, 0x89, 0x0d, 0xbf, 0xe6, 0x42, 0x68, 0x41, 0x99, 0x2d, 0x0f, 0xb0, 0x54, 0xbb, 0x16]]

/-- The inverse substitution of octets, by high and low digit. -/
def invSbox : List (List UInt8) :=
  [[0x52, 0x09, 0x6a, 0xd5, 0x30, 0x36, 0xa5, 0x38, 0xbf, 0x40, 0xa3, 0x9e, 0x81, 0xf3, 0xd7, 0xfb],
   [0x7c, 0xe3, 0x39, 0x82, 0x9b, 0x2f, 0xff, 0x87, 0x34, 0x8e, 0x43, 0x44, 0xc4, 0xde, 0xe9, 0xcb],
   [0x54, 0x7b, 0x94, 0x32, 0xa6, 0xc2, 0x23, 0x3d, 0xee, 0x4c, 0x95, 0x0b, 0x42, 0xfa, 0xc3, 0x4e],
   [0x08, 0x2e, 0xa1, 0x66, 0x28, 0xd9, 0x24, 0xb2, 0x76, 0x5b, 0xa2, 0x49, 0x6d, 0x8b, 0xd1, 0x25],
   [0x72, 0xf8, 0xf6, 0x64, 0x86, 0x68, 0x98, 0x16, 0xd4, 0xa4, 0x5c, 0xcc, 0x5d, 0x65, 0xb6, 0x92],
   [0x6c, 0x70, 0x48, 0x50, 0xfd, 0xed, 0xb9, 0xda, 0x5e, 0x15, 0x46, 0x57, 0xa7, 0x8d, 0x9d, 0x84],
   [0x90, 0xd8, 0xab, 0x00, 0x8c, 0xbc, 0xd3, 0x0a, 0xf7, 0xe4, 0x58, 0x05, 0xb8, 0xb3, 0x45, 0x06],
   [0xd0, 0x2c, 0x1e, 0x8f, 0xca, 0x3f, 0x0f, 0x02, 0xc1, 0xaf, 0xbd, 0x03, 0x01, 0x13, 0x8a, 0x6b],
   [0x3a, 0x91, 0x11, 0x41, 0x4f, 0x67, 0xdc, 0xea, 0x97, 0xf2, 0xcf, 0xce, 0xf0, 0xb4, 0xe6, 0x73],
   [0x96, 0xac, 0x74, 0x22, 0xe7, 0xad, 0x35, 0x85, 0xe2, 0xf9, 0x37, 0xe8, 0x1c, 0x75, 0xdf, 0x6e],
   [0x47, 0xf1, 0x1a, 0x71, 0x1d, 0x29, 0xc5, 0x89, 0x6f, 0xb7, 0x62, 0x0e, 0xaa, 0x18, 0xbe, 0x1b],
   [0xfc, 0x56, 0x3e, 0x4b, 0xc6, 0xd2, 0x79, 0x20, 0x9a, 0xdb, 0xc0, 0xfe, 0x78, 0xcd, 0x5a, 0xf4],
   [0x1f, 0xdd, 0xa8, 0x33, 0x88, 0x07, 0xc7, 0x31, 0xb1, 0x12, 0x10, 0x59, 0x27, 0x80, 0xec, 0x5f],
   [0x60, 0x51, 0x7f, 0xa9, 0x19, 0xb5, 0x4a, 0x0d, 0x2d, 0xe5, 0x7a, 0x9f, 0x93, 0xc9, 0x9c, 0xef],
   [0xa0, 0xe0, 0x3b, 0x4d, 0xae, 0x2a, 0xf5, 0xb0, 0xc8, 0xeb, 0xbb, 0x3c, 0x83, 0x53, 0x99, 0x61],
   [0x17, 0x2b, 0x04, 0x7e, 0xba, 0x77, 0xd6, 0x26, 0xe1, 0x69, 0x14, 0x63, 0x55, 0x21, 0x0c, 0x7d]]

/-- Substitute one octet. -/
def subByte (octet : UInt8) : UInt8 :=
  (sbox.getD (octet.toNat / 16) []).getD (octet.toNat % 16) 0

/-- The octet whose substitution is given. -/
def invSubByte (octet : UInt8) : UInt8 :=
  (invSbox.getD (octet.toNat / 16) []).getD (octet.toNat % 16) 0

/-- The inverse table undoes the table. -/
theorem inv_sub_byte (octet : UInt8) : invSubByte (subByte octet) = octet := by
  have all : ∀ value : Fin 256, invSubByte (subByte (UInt8.ofFin value)) = UInt8.ofFin value := by
    decide +kernel
  simpa using all octet.toFin

/-- Multiply by `x` in the field with reduction polynomial x^8 + x^4 + x^3 + x + 1. -/
def xtime (a : UInt8) : UInt8 :=
  (a <<< 1) ^^^ (a >>> 7) ^^^ (a >>> 7 <<< 1) ^^^ (a >>> 7 <<< 3) ^^^ (a >>> 7 <<< 4)

/-- Equal neighbours in a sum cancel. -/
theorem xor_cancel_left (a b : UInt8) : a ^^^ (a ^^^ b) = b := by
  rw [← UInt8.xor_assoc, UInt8.xor_self, UInt8.zero_xor]

/-- Neighbours in a sum may be exchanged. -/
theorem xor_left_comm (a b c : UInt8) : a ^^^ (b ^^^ c) = b ^^^ (a ^^^ c) := by
  rw [← UInt8.xor_assoc, UInt8.xor_comm a b, UInt8.xor_assoc]

/-- Multiplication distributes over addition. -/
theorem xtime_xor (a b : UInt8) : xtime (a ^^^ b) = xtime a ^^^ xtime b := by
  simp only [xtime, UInt8.shiftLeft_xor, UInt8.shiftRight_xor]
  ac_rfl

/-- One octet of a mixed column, from the column rotated to its row. -/
def mixRow (a b c d : UInt8) : UInt8 := xtime a ^^^ (xtime b ^^^ b) ^^^ c ^^^ d

/-- Multiplication by 9. -/
def times9 (a : UInt8) : UInt8 := xtime (xtime (xtime a)) ^^^ a

/-- Multiplication by 11. -/
def times11 (a : UInt8) : UInt8 := xtime (xtime (xtime a)) ^^^ xtime a ^^^ a

/-- Multiplication by 13. -/
def times13 (a : UInt8) : UInt8 := xtime (xtime (xtime a)) ^^^ xtime (xtime a) ^^^ a

/-- Multiplication by 14. -/
def times14 (a : UInt8) : UInt8 := xtime (xtime (xtime a)) ^^^ xtime (xtime a) ^^^ xtime a

/-- One octet of an unmixed column, from the column rotated to its row. -/
def unmixRow (a b c d : UInt8) : UInt8 := times14 a ^^^ times11 b ^^^ times13 c ^^^ times9 d

/-- The row of an unmixed column distributes over the sum of columns. -/
theorem unmix_row_xor (a b c d e f g h : UInt8) :
    unmixRow (a ^^^ e) (b ^^^ f) (c ^^^ g) (d ^^^ h) = unmixRow a b c d ^^^ unmixRow e f g h := by
  simp only [unmixRow, times9, times11, times13, times14, xtime_xor]
  ac_rfl

/-- The products of the two mixing matrices: one on the diagonal, zero elsewhere. -/
theorem unmix_mix_entries (a : UInt8) :
    unmixRow (xtime a) a a (xtime a ^^^ a) = a ∧ unmixRow (xtime a ^^^ a) (xtime a) a a = 0 ∧
      unmixRow a (xtime a ^^^ a) (xtime a) a = 0 ∧
      unmixRow a a (xtime a ^^^ a) (xtime a) = 0 := by
  simp only [unmixRow, times9, times11, times13, times14, xtime_xor]
  generalize xtime (xtime (xtime (xtime a))) = fourth
  generalize xtime (xtime (xtime a)) = third
  generalize xtime (xtime a) = second
  generalize xtime a = first
  refine ⟨?_, ?_, ?_, ?_⟩ <;>
    simp only [UInt8.xor_comm, xor_left_comm, xor_cancel_left, UInt8.xor_self, UInt8.xor_zero]

/-- Unmixing undoes mixing: the mixed column is the sum of the contributions of
its four octets, and each contribution is unmixed by itself. -/
theorem unmix_mix_row (a b c d : UInt8) :
    unmixRow (mixRow a b c d) (mixRow b c d a) (mixRow c d a b) (mixRow d a b c) = a := by
  have parts :
      unmixRow (mixRow a b c d) (mixRow b c d a) (mixRow c d a b) (mixRow d a b c) =
        unmixRow (xtime a ^^^ (xtime b ^^^ b) ^^^ (c ^^^ d))
          (a ^^^ xtime b ^^^ ((xtime c ^^^ c) ^^^ d))
          (a ^^^ b ^^^ (xtime c ^^^ (xtime d ^^^ d)))
          (xtime a ^^^ a ^^^ b ^^^ (c ^^^ xtime d)) := by
    congr 1 <;> simp only [mixRow] <;> ac_rfl
  rw [parts, unmix_row_xor, unmix_row_xor, unmix_row_xor, (unmix_mix_entries a).1,
    (unmix_mix_entries b).2.1, (unmix_mix_entries c).2.2.1, (unmix_mix_entries d).2.2.2]
  simp

section Rounds

/-- Substitute every octet. -/
def subBytes (state : Octets 16) : Octets 16 := state.map subByte

/-- Undo the substitution of every octet. -/
def invSubBytes (state : Octets 16) : Octets 16 := state.map invSubByte

/-- Rotate row `r` by `r` places to the left. -/
def shiftRows (state : Octets 16) : Octets 16 :=
  List.Vector.ofFn fun i => state.get ⟨i.val % 4 + 4 * ((i.val / 4 + i.val % 4) % 4), by omega⟩

/-- Rotate row `r` by `r` places to the right. -/
def invShiftRows (state : Octets 16) : Octets 16 :=
  List.Vector.ofFn fun i =>
    state.get ⟨i.val % 4 + 4 * ((i.val / 4 + (4 - i.val % 4)) % 4), by omega⟩

/-- The octet `k` rows below octet `i` in its column, around the column. -/
def below (state : Octets 16) (i : Fin 16) (k : Nat) : UInt8 :=
  state.get ⟨4 * (i.val / 4) + (i.val + k) % 4, by omega⟩

/-- Apply a row function to every octet's column, rotated to the octet's row. -/
def eachRow (row : UInt8 → UInt8 → UInt8 → UInt8 → UInt8) (state : Octets 16) : Octets 16 :=
  List.Vector.ofFn fun i => row (below state i 0) (below state i 1) (below state i 2)
    (below state i 3)

/-- Add a round key. -/
def addRoundKey (state key : Octets 16) : Octets 16 := List.Vector.zipWith (· ^^^ ·) state key

/-- The inverse table undoes the substitution in every octet. -/
theorem inv_sub_bytes (state : Octets 16) : invSubBytes (subBytes state) = state := by
  ext i
  simp [invSubBytes, subBytes, inv_sub_byte]

/-- Shifting the rows back undoes the shift. -/
theorem inv_shift_rows (state : Octets 16) : invShiftRows (shiftRows state) = state := by
  refine List.Vector.ext fun i => ?_
  simp only [invShiftRows, shiftRows, List.Vector.get_ofFn]
  have back (j : Fin 16) : j = i → state.get j = state.get i := fun same => by rw [same]
  refine back _ (Fin.ext ?_)
  simp only
  omega

/-- Looking below in a mixed state sees the same column, rotated further. -/
theorem below_each_row (row : UInt8 → UInt8 → UInt8 → UInt8 → UInt8) (state : Octets 16)
    (i : Fin 16) (k : Nat) :
    below (eachRow row state) i k = row (below state i k) (below state i (k + 1))
      (below state i (k + 2)) (below state i (k + 3)) := by
  have further (m : Nat) : below state ⟨4 * (i.val / 4) + (i.val + k) % 4, by omega⟩ m =
      below state i (k + m) := by
    unfold below
    congr 1
    ext
    simp only
    omega
  rw [below, eachRow, List.Vector.get_ofFn, further, further, further, further, Nat.add_zero]

/-- Unmixing undoes the mixing in every column. -/
theorem unmix_mix_columns (state : Octets 16) :
    eachRow unmixRow (eachRow mixRow state) = state := by
  ext i
  have around (k : Nat) : below state i (k + 4) = below state i k := by
    unfold below
    congr 2
    omega
  have itself : below state i 0 = state.get i := by
    unfold below
    congr 1
    ext
    simp only
    omega
  rw [eachRow, List.Vector.get_ofFn, below_each_row, below_each_row, below_each_row,
    below_each_row]
  simp only [Nat.zero_add, Nat.reduceAdd, around 0, around 1, around 2, unmix_mix_row, itself]

/-- Adding one round key twice changes nothing. -/
theorem add_round_key_twice (state key : Octets 16) :
    addRoundKey (addRoundKey state key) key = state := by
  ext i
  simp only [addRoundKey, List.Vector.zipWith_get, UInt8.xor_assoc, UInt8.xor_self, UInt8.xor_zero]

/-- The rounds of a list of round keys; the last one leaves the columns unmixed. -/
def encryptRounds : List (Octets 16) → Octets 16 → Octets 16
  | [], state => state
  | [key], state => addRoundKey (shiftRows (subBytes state)) key
  | key :: keys, state =>
      encryptRounds keys (addRoundKey (eachRow mixRow (shiftRows (subBytes state))) key)

/-- The inverse rounds, from the last key to the first. -/
def decryptRounds : List (Octets 16) → Octets 16 → Octets 16
  | [], state => state
  | [key], state => invSubBytes (invShiftRows (addRoundKey state key))
  | key :: keys, state =>
      invSubBytes (invShiftRows (eachRow unmixRow (addRoundKey (decryptRounds keys state) key)))

/-- Inverse rounds undo the rounds under any list of keys. -/
theorem decrypt_encrypt_rounds (keys : List (Octets 16)) (state : Octets 16) :
    decryptRounds keys (encryptRounds keys state) = state := by
  induction keys generalizing state with
  | nil => rfl
  | cons key keys inductionHypothesis =>
    cases keys with
    | nil =>
      simp only [encryptRounds, decryptRounds, add_round_key_twice, inv_shift_rows, inv_sub_bytes]
    | cons next keys =>
      simp only [encryptRounds, decryptRounds] at inductionHypothesis ⊢
      rw [inductionHypothesis, add_round_key_twice, unmix_mix_columns, inv_shift_rows,
        inv_sub_bytes]

end Rounds

section Keys

/-- Add two words. -/
def xorWord (left right : Octets 4) : Octets 4 := List.Vector.zipWith (· ^^^ ·) left right

/-- Rotate a word by one octet to the left. -/
def rotWord (word : Octets 4) : Octets 4 :=
  List.Vector.ofFn fun i => word.get ⟨(i.val + 1) % 4, by omega⟩

/-- The constant of an expansion step: a power of `x` in the first octet. -/
def roundConstant (step : Nat) : Octets 4 := ⟨[xtime^[step - 1] 1, 0, 0, 0], rfl⟩

/-- Put the next word of the schedule in front; `newestFirst` holds `i` words of
a schedule for a key of `nk` words. -/
def nextWord (nk : Nat) (newestFirst : List (Octets 4)) (i : Nat) : List (Octets 4) :=
  let previous := newestFirst.getD 0 (zeroOctets 4)
  let mask :=
    if i % nk = 0 then xorWord ((rotWord previous).map subByte) (roundConstant (i / nk))
    else if 6 < nk ∧ i % nk = 4 then previous.map subByte
    else previous
  xorWord (newestFirst.getD (nk - 1) (zeroOctets 4)) mask :: newestFirst

/-- The words of a schedule, oldest first. -/
def keyWords (nk rounds : Nat) (key : Bytes) : List (Octets 4) :=
  let initial := (List.range nk).map fun i =>
    (⟨(List.range 4).map fun j => key.getD (4 * i + j) 0, by simp⟩ : Octets 4)
  ((List.range' nk (4 * (rounds + 1) - nk)).foldl (nextWord nk) initial.reverse).reverse

/-- The round key of a round: four words of the schedule. -/
def roundKey (words : List (Octets 4)) (round : Nat) : Octets 16 :=
  let word (j : Nat) := words.getD (4 * round + j) (zeroOctets 4)
  ⟨(word 0).toList ++ (word 1).toList ++ (word 2).toList ++ (word 3).toList, by simp⟩

/-- The round keys after the first one. -/
def laterKeys (words : List (Octets 4)) (rounds : Nat) : List (Octets 16) :=
  (List.range rounds).map fun round => roundKey words (round + 1)

/-- AES for a key of `nk` words. -/
def aes (nk rounds keyLength : Nat) : BlockCipher keyLength 16 where
  encryptBlock key block :=
    let words := keyWords nk rounds key.toList
    encryptRounds (laterKeys words rounds) (addRoundKey block (roundKey words 0))
  decryptBlock key block :=
    let words := keyWords nk rounds key.toList
    addRoundKey (decryptRounds (laterKeys words rounds) block) (roundKey words 0)
  decrypt_encrypt key block := by
    simp only [decrypt_encrypt_rounds, add_round_key_twice]

/-- AES with a key of 128 bits. -/
def aes128 : BlockCipher 16 16 := aes 4 10 16

/-- AES with a key of 256 bits. -/
def aes256 : BlockCipher 32 16 := aes 8 14 32

end Keys

end OmniProxy.BlockCiphers
