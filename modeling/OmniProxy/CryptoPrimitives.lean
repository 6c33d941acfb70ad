import OmniProxy.AuthenticatedCiphers
import OmniProxy.Digests

/-!
# The cryptographic primitives the program imports

The program takes AES-128, three authenticated ciphers, SHA-256 and its keyed
form from libraries. They are collected in one record, together with the laws
its fields carry: block decryption undoes block encryption, and opening a sealed
box under the same key, nonce and associated data returns the plaintext. The
digests are arbitrary functions of their inputs. Every result about the protocols
holds for all such records.

The last section builds the record from the published algorithms, so concrete
inputs meet the primitives the program really links.
-/

namespace OmniProxy.CryptoPrimitives

open ByteStrings SealedBoxes

/-- The imported primitives. -/
structure Primitives where
  aes128 : BlockCipher 16 16
  aes128Gcm : Aead 16 12
  aes256Gcm : Aead 32 12
  chacha20Poly1305 : Aead 32 12
  sha256 : Bytes → Octets 32
  hmacSha256 : (key message : Bytes) → Octets 32

section Standard

open StreamingDigests Digests AuthenticatedCiphers

/-- Additive constants of SHA-256, one per round. -/
def sha256Constants : List UInt32 :=
  [0x428a2f98, 0x71374491, 0xb5c0fbcf, 0xe9b5dba5, 0x3956c25b, 0x59f111f1, 0x923f82a4, 0xab1c5ed5,
   0xd807aa98, 0x12835b01, 0x243185be, 0x550c7dc3, 0x72be5d74, 0x80deb1fe, 0x9bdc06a7, 0xc19bf174,
   0xe49b69c1, 0xefbe4786, 0x0fc19dc6, 0x240ca1cc, 0x2de92c6f, 0x4a7484aa, 0x5cb0a9dc, 0x76f988da,
   0x983e5152, 0xa831c66d, 0xb00327c8, 0xbf597fc7, 0xc6e00bf3, 0xd5a79147, 0x06ca6351, 0x14292967,
   0x27b70a85, 0x2e1b2138, 0x4d2c6dfc, 0x53380d13, 0x650a7354, 0x766a0abb, 0x81c2c92e, 0x92722c85,
   0xa2bfe8a1, 0xa81a664b, 0xc24b8b70, 0xc76c51a3, 0xd192e819, 0xd6990624, 0xf40e3585, 0x106aa070,
   0x19a4c116, 0x1e376c08, 0x2748774c, 0x34b0bcb5, 0x391c0cb3, 0x4ed8aa4a, 0x5b9cca4f, 0x682e6ff3,
   0x748f82ee, 0x78a5636f, 0x84c87814, 0x8cc70208, 0x90befffa, 0xa4506ceb, 0xbef9a3f7, 0xc67178f2]

/-- The eight chaining words of SHA-256. -/
structure Sha256State where
  a : UInt32
  b : UInt32
  c : UInt32
  d : UInt32
  e : UInt32
  f : UInt32
  g : UInt32
  h : UInt32

/-- Rotate a word to the right. -/
def rotateRight (word count : UInt32) : UInt32 := rotateLeft word (32 - count)

/-- Extend the words by one: the newest word comes first in the list. -/
def sha256Extend (newestFirst : List UInt32) : List UInt32 :=
  let early := newestFirst.getD 14 0
  let late := newestFirst.getD 1 0
  let s0 := rotateRight early 7 ^^^ rotateRight early 18 ^^^ (early >>> 3)
  let s1 := rotateRight late 17 ^^^ rotateRight late 19 ^^^ (late >>> 10)
  (newestFirst.getD 15 0 + s0 + newestFirst.getD 6 0 + s1) :: newestFirst

/-- One of the sixty-four rounds over the scheduled words `w`. -/
def sha256Round (w : List UInt32) (x : Sha256State) (i : Nat) : Sha256State :=
  let s1 := rotateRight x.e 6 ^^^ rotateRight x.e 11 ^^^ rotateRight x.e 25
  let ch := (x.e &&& x.f) ^^^ (~~~x.e &&& x.g)
  let t1 := x.h + s1 + ch + sha256Constants.getD i 0 + w.getD i 0
  let s0 := rotateRight x.a 2 ^^^ rotateRight x.a 13 ^^^ rotateRight x.a 22
  let maj := (x.a &&& x.b) ^^^ (x.a &&& x.c) ^^^ (x.b &&& x.c)
  ⟨t1 + s0 + maj, x.a, x.b, x.c, x.d + t1, x.e, x.f, x.g⟩

/-- SHA-256 as a streaming digest with big-endian words and length. -/
def sha256Hash : BlockHash Sha256State 32 where
  initial := ⟨0x6a09e667, 0xbb67ae85, 0x3c6ef372, 0xa54ff53a, 0x510e527f, 0x9b05688c, 0x1f83d9ab,
    0x5be0cd19⟩
  compress x block :=
    let w := (sha256Extend^[48] (blockWords bigEndianValue block).reverse).reverse
    let y := (List.range 64).foldl (sha256Round w) x
    ⟨x.a + y.a, x.b + y.b, x.c + y.c, x.d + y.d, x.e + y.e, x.f + y.f, x.g + y.g, x.h + y.h⟩
  lengthOctets := bigEndianLength
  output x := ⟨wordOctets bigEndian [x.a, x.b, x.c, x.d, x.e, x.f, x.g, x.h],
    word_octets_length bigEndian _ (by simp)⟩

/-- The primitives as published. -/
def standard : Primitives where
  aes128 := BlockCiphers.aes128
  aes128Gcm := gcm BlockCiphers.aes128
  aes256Gcm := gcm BlockCiphers.aes256
  chacha20Poly1305 := AuthenticatedCiphers.chacha20Poly1305
  sha256 data := digest sha256Hash [data]
  hmacSha256 := hmac sha256Hash

example : (standard.sha256 (asBytes "abc")).toList =
    [0xba, 0x78, 0x16, 0xbf, 0x8f, 0x01, 0xcf, 0xea, 0x41, 0x41, 0x40, 0xde, 0x5d, 0xae, 0x22, 0x23,
     0xb0, 0x03, 0x61, 0xa3, 0x96, 0x17, 0x7a, 0x9c, 0xb4, 0x10, 0xff, 0x61, 0xf2, 0x00, 0x15,
     0xad] := by decide +kernel

end Standard

end OmniProxy.CryptoPrimitives
