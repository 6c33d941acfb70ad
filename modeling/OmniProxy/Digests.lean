import OmniProxy.StreamingDigests

/-!
# The digests, key derivations and identifiers of the program

MD5 and SHA-1 are implemented in the program itself; here they are the streaming
digest at their own initial values, compressions and byte orders. On them rest
the 32-bit FNV-1a hash, the password stretching of `evp_bytes_to_key`, and the
extract-and-expand derivation of the Shadowsocks subkey. Both derivations loop
until enough octets were produced; each round produces at least one digest, so
the derived key always has the requested length. The last section reads UUIDs.

SHA-256 and its keyed form come from a library and are not part of this module.
-/

namespace OmniProxy.Digests

open ByteStrings StreamingDigests

/-- Rotate a 32-bit word to the left. -/
def rotateLeft (word : UInt32) (count : UInt32) : UInt32 :=
  (word <<< count) ||| (word >>> (32 - count))

/-- The octets of four-octet words, in order. -/
def wordOctets (digits : Nat → Nat → Bytes) (words : List UInt32) : Bytes :=
  (words.map fun word => digits 4 word.toNat).flatten

/-- Words occupy four octets each under both byte orders. -/
theorem word_octets_length (digits : Nat → Nat → Bytes) (words : List UInt32)
    (width : ∀ value, (digits 4 value).length = 4) :
    (wordOctets digits words).length = 4 * words.length := by
  induction words with
  | nil => rfl
  | cons word words inductionHypothesis =>
    simp only [wordOctets, List.map_cons, List.flatten_cons, List.length_append, width,
      List.length_cons] at inductionHypothesis ⊢
    omega

/-- The sixteen words of a block, each read from four consecutive octets. -/
def blockWords (value : Bytes → Nat) (block : Octets 64) : List UInt32 :=
  (List.range 16).map fun i => UInt32.ofNat (value ((block.toList.drop (i * 4)).take 4))

section Md5

/-- The four chaining words. -/
structure Md5State where
  a : UInt32
  b : UInt32
  c : UInt32
  d : UInt32
deriving DecidableEq, Repr

/-- Rotation counts, one per round. -/
def md5Shifts : List UInt32 :=
  [7, 12, 17, 22, 7, 12, 17, 22, 7, 12, 17, 22, 7, 12, 17, 22, 5, 9, 14, 20, 5, 9, 14, 20, 5,
   9, 14, 20, 5, 9, 14, 20, 4, 11, 16, 23, 4, 11, 16, 23, 4, 11, 16, 23, 4, 11, 16, 23, 6, 10,
   15, 21, 6, 10, 15, 21, 6, 10, 15, 21, 6, 10, 15, 21]

/-- Additive constants, one per round. -/
def md5Constants : List UInt32 :=
  [0xd76aa478, 0xe8c7b756, 0x242070db, 0xc1bdceee, 0xf57c0faf, 0x4787c62a, 0xa8304613,
   0xfd469501, 0x698098d8, 0x8b44f7af, 0xffff5bb1, 0x895cd7be, 0x6b901122, 0xfd987193,
   0xa679438e, 0x49b40821, 0xf61e2562, 0xc040b340, 0x265e5a51, 0xe9b6c7aa, 0xd62f105d,
   0x02441453, 0xd8a1e681, 0xe7d3fbc8, 0x21e1cde6, 0xc33707d6, 0xf4d50d87, 0x455a14ed,
   0xa9e3e905, 0xfcefa3f8, 0x676f02d9, 0x8d2a4c8a, 0xfffa3942, 0x8771f681, 0x6d9d6122,
   0xfde5380c, 0xa4beea44, 0x4bdecfa9, 0xf6bb4b60, 0xbebfbc70, 0x289b7ec6, 0xeaa127fa,
   0xd4ef3085, 0x04881d05, 0xd9d4d039, 0xe6db99e5, 0x1fa27cf8, 0xc4ac5665, 0xf4292244,
   0x432aff97, 0xab9423a7, 0xfc93a039, 0x655b59c3, 0x8f0ccc92, 0xffeff47d, 0x85845dd1,
   0x6fa87e4f, 0xfe2ce6e0, 0xa3014314, 0x4e0811a1, 0xf7537e82, 0xbd3af235, 0x2ad7d2bb,
   0xeb86d391]

/-- One of the sixty-four rounds over the words `m` of a block. -/
def md5Round (m : List UInt32) (state : Md5State) (i : Nat) : Md5State :=
  let (f, g) := match i / 16 with
    | 0 => ((state.b &&& state.c) ||| (~~~state.b &&& state.d), i)
    | 1 => ((state.d &&& state.b) ||| (~~~state.d &&& state.c), (5 * i + 1) % 16)
    | 2 => (state.b ^^^ state.c ^^^ state.d, (3 * i + 5) % 16)
    | _ => (state.c ^^^ (state.b ||| ~~~state.d), (7 * i) % 16)
  let x := state.a + f + md5Constants.getD i 0 + m.getD g 0
  ⟨state.d, state.b + rotateLeft x (md5Shifts.getD i 0), state.b, state.c⟩

/-- Compress one block into the chaining words. -/
def md5Compress (state : Md5State) (block : Octets 64) : Md5State :=
  let m := blockWords littleEndianValue block
  let last := (List.range 64).foldl (md5Round m) state
  ⟨state.a + last.a, state.b + last.b, state.c + last.c, state.d + last.d⟩

/-- MD5 as a streaming digest with little-endian words and length. -/
def md5 : BlockHash Md5State 16 where
  initial := ⟨0x67452301, 0xefcdab89, 0x98badcfe, 0x10325476⟩
  compress := md5Compress
  lengthOctets bitlen := ⟨littleEndian 8 bitlen.toNat, by simp⟩
  output state := ⟨wordOctets littleEndian [state.a, state.b, state.c, state.d],
    word_octets_length littleEndian _ (by simp)⟩

/-- The MD5 digest of the concatenated parts. -/
def md5Digest (parts : List Bytes) : Octets 16 := digest md5 parts

example : (md5Digest [asBytes "abc"]).toList =
    [0x90, 0x01, 0x50, 0x98, 0x3c, 0xd2, 0x4f, 0xb0, 0xd6, 0x96, 0x3f, 0x7d, 0x28, 0xe1, 0x7f,
     0x72] := by decide +kernel

end Md5

section Sha1

/-- The five chaining words. -/
structure Sha1State where
  a : UInt32
  b : UInt32
  c : UInt32
  d : UInt32
  e : UInt32
deriving DecidableEq, Repr

/-- Extend the words by one: the newest word comes first in the list. -/
def sha1Extend (newestFirst : List UInt32) : List UInt32 :=
  rotateLeft (newestFirst.getD 2 0 ^^^ newestFirst.getD 7 0 ^^^ newestFirst.getD 13 0 ^^^
    newestFirst.getD 15 0) 1 :: newestFirst

/-- The eighty scheduled words of a block. -/
def sha1Schedule (block : Octets 64) : List UInt32 :=
  (sha1Extend^[64] (blockWords bigEndianValue block).reverse).reverse

/-- One of the eighty rounds over the scheduled words `w`. -/
def sha1Round (w : List UInt32) (state : Sha1State) (i : Nat) : Sha1State :=
  let (f, k) : UInt32 × UInt32 := match i / 20 with
    | 0 => ((state.b &&& state.c) ||| (~~~state.b &&& state.d), 0x5A827999)
    | 1 => (state.b ^^^ state.c ^^^ state.d, 0x6ED9EBA1)
    | 2 => ((state.b &&& state.c) ||| (state.b &&& state.d) ||| (state.c &&& state.d), 0x8F1BBCDC)
    | _ => (state.b ^^^ state.c ^^^ state.d, 0xCA62C1D6)
  let tmp := rotateLeft state.a 5 + f + state.e + k + w.getD i 0
  ⟨tmp, state.a, rotateLeft state.b 30, state.c, state.d⟩

/-- Compress one block into the chaining words. -/
def sha1Block (state : Sha1State) (block : Octets 64) : Sha1State :=
  let last := (List.range 80).foldl (sha1Round (sha1Schedule block)) state
  ⟨state.a + last.a, state.b + last.b, state.c + last.c, state.d + last.d, state.e + last.e⟩

/-- SHA-1 as a streaming digest with big-endian words and length. -/
def sha1Hash : BlockHash Sha1State 20 where
  initial := ⟨0x67452301, 0xEFCDAB89, 0x98BADCFE, 0x10325476, 0xC3D2E1F0⟩
  compress := sha1Block
  lengthOctets := bigEndianLength
  output state := ⟨wordOctets bigEndian [state.a, state.b, state.c, state.d, state.e],
    word_octets_length bigEndian _ (by simp)⟩

/-- The SHA-1 digest of one string. -/
def sha1 (data : Bytes) : Octets 20 := digest sha1Hash [data]

/-- The keyed SHA-1 digest. -/
def hmacSha1 (key data : Bytes) : Octets 20 := hmac sha1Hash key data

example : (sha1 (asBytes "abc")).toList =
    [0xa9, 0x99, 0x3e, 0x36, 0x47, 0x06, 0x81, 0x6a, 0xba, 0x3e, 0x25, 0x71, 0x78, 0x50, 0xc2,
     0x6c, 0x9c, 0xd0, 0xd8, 0x9d] := by decide +kernel

/-- The extraction step: the salt keys a digest of the input. -/
def extract (salt ikm : Bytes) : Octets 20 := hmacSha1 salt ikm

/-- The expansion loop: each round keys a digest of the previous one, the
context and a wrapping counter. `rounds` bounds the loop. -/
def expandLoop (prk info : Bytes) (len : Nat) : Nat → Bytes → Bytes → UInt8 → Bytes
  | 0, okm, _, _ => okm
  | rounds + 1, okm, t, counter =>
      if okm.length < len then
        let ti := (hmacSha1 prk (t ++ info ++ [counter])).toList
        expandLoop prk info len rounds (okm ++ ti) ti (counter + 1)
      else okm

/-- Expand a key to the requested number of octets. -/
def expand (prk info : Bytes) (len : Nat) : Bytes :=
  (expandLoop prk info len len [] [] 1).take len

/-- The expansion loop stops with enough octets: every round adds twenty. -/
theorem expand_loop_length (prk info : Bytes) (len rounds : Nat) (okm t : Bytes) (counter : UInt8)
    (enough : len ≤ okm.length + rounds) :
    len ≤ (expandLoop prk info len rounds okm t counter).length := by
  induction rounds generalizing okm t counter with
  | zero => simpa [expandLoop] using enough
  | succ rounds inductionHypothesis =>
    unfold expandLoop
    split
    · refine inductionHypothesis _ _ _ ?_
      simp only [List.length_append, List.Vector.toList_length]
      omega
    · omega

/-- An expansion has exactly the requested length. -/
theorem expand_length (prk info : Bytes) (len : Nat) : (expand prk info len).length = len := by
  have enough := expand_loop_length prk info len len [] [] 1 (by simp)
  simp [expand, enough]

/-- The subkey of one connection: as long as the master key. -/
def deriveSubkey (masterKey salt : Bytes) : Bytes :=
  expand (extract salt masterKey).toList (asBytes "ss-subkey") masterKey.length

/-- A subkey is as long as its master key. -/
theorem derive_subkey_length (masterKey salt : Bytes) :
    (deriveSubkey masterKey salt).length = masterKey.length := expand_length _ _ _

end Sha1

section Passwords

/-- The stretching loop: each digest covers the previous one and the password.
`rounds` bounds the loop. -/
def evpLoop (password : Bytes) (keyLen : Nat) : Nat → Bytes → Bytes → Bytes
  | 0, out, _ => out
  | rounds + 1, out, prev =>
      if out.length < keyLen then
        let d := (md5Digest [prev ++ password]).toList
        evpLoop password keyLen rounds (out ++ d) d
      else out

/-- A key of the requested length from a password. -/
def evpBytesToKey (password : Bytes) (keyLen : Nat) : Bytes :=
  (evpLoop password keyLen keyLen [] []).take keyLen

/-- The stretching loop stops with enough octets: every round adds sixteen. -/
theorem evp_loop_length (password : Bytes) (keyLen rounds : Nat) (out prev : Bytes)
    (enough : keyLen ≤ out.length + rounds) :
    keyLen ≤ (evpLoop password keyLen rounds out prev).length := by
  induction rounds generalizing out prev with
  | zero => simpa [evpLoop] using enough
  | succ rounds inductionHypothesis =>
    unfold evpLoop
    split
    · refine inductionHypothesis _ _ ?_
      simp only [List.length_append, List.Vector.toList_length]
      omega
    · omega

/-- A stretched key has exactly the requested length. -/
theorem evp_bytes_to_key_length (password : Bytes) (keyLen : Nat) :
    (evpBytesToKey password keyLen).length = keyLen := by
  have enough := evp_loop_length password keyLen keyLen [] [] (by simp)
  simp [evpBytesToKey, enough]

end Passwords

/-- The 32-bit FNV-1a hash. -/
def fnv1a32 (data : Bytes) : UInt32 :=
  data.foldl (fun hash octet => (hash ^^^ octet.toUInt32) * 16777619) 2166136261

example : fnv1a32 (asBytes "a") = 0xe40c292c := by decide

section Identifiers

/-- The value of a hexadecimal digit in either case. -/
def hexDigit (c : Char) : Option Nat :=
  if '0' ≤ c ∧ c ≤ '9' then some (c.toNat - '0'.toNat)
  else if 'a' ≤ c ∧ c ≤ 'f' then some (c.toNat - 'a'.toNat + 10)
  else if 'A' ≤ c ∧ c ≤ 'F' then some (c.toNat - 'A'.toNat + 10)
  else none

/-- The octets a list of digit values stands for, two digits each. -/
def hexOctets : List Nat → Bytes
  | [] => []
  | [_] => []
  | high :: low :: rest => UInt8.ofNat (16 * high + low) :: hexOctets rest

/-- Two digits make one octet. -/
theorem hex_octets_length (digits : List Nat) :
    (hexOctets digits).length = digits.length / 2 := by
  induction digits using hexOctets.induct with
  | case1 => rfl
  | case2 digit => simp [hexOctets]
  | case3 high low rest inductionHypothesis =>
    simp only [hexOctets, List.length_cons, inductionHypothesis]
    omega

/-- Read a UUID from its thirty-two hexadecimal digits; every other character of
the text is ignored. -/
def parseUuid (text : String) : Option (Octets 16) :=
  let cleaned := text.toList.filterMap hexDigit
  if digits : cleaned.length = 32 then
    some ⟨hexOctets cleaned, by rw [hex_octets_length, digits]⟩
  else none

example : (parseUuid "b831381d-6324-4d53-ad4f-8cda48b30811").map List.Vector.toList =
    some [0xb8, 0x31, 0x38, 0x1d, 0x63, 0x24, 0x4d, 0x53, 0xad, 0x4f, 0x8c, 0xda, 0x48, 0xb3, 0x08,
      0x11] := by decide

end Identifiers

end OmniProxy.Digests
