import OmniProxy.Digests
import OmniProxy.PaddedDigests

/-!
# The digests of the program against their definitions

MD5 of a list of slices is MD5 of their concatenation: the fold of the
compression over the blocks of the padded message, with the bit length in
little-endian order. SHA-1 exists twice in the program, once beside the WebSocket
handshake and once beside the Shadowsocks key derivation; the copies differ in
how they cut a block into words. Both are compared with the standard's own
functions, schedule and rounds, and so is the keyed digest built on the second.
-/

namespace OmniProxy.DigestStandards

open ByteStrings BlockStreams StreamingDigests PaddedDigests Digests

section Md5

/-- A message padded for MD5. -/
def md5Padded (message : Bytes) : Bytes :=
  message ++ 0x80 :: List.replicate (zerosFor message.length) 0 ++
    littleEndian 8 (8 * message.length)

/-- MD5 of a message in one piece. -/
def md5Standard (message : Bytes) : Octets 16 :=
  let last := (blocksOf 64 (md5Padded message)).foldl md5Compress
    ⟨0x67452301, 0xefcdab89, 0x98badcfe, 0x10325476⟩
  ⟨wordOctets littleEndian [last.a, last.b, last.c, last.d],
    word_octets_length littleEndian _ (by simp)⟩

/-- The length field of the program is the standard's: both keep eight octets. -/
theorem md5_padded_exact (message : Bytes) : padded md5 message = md5Padded message := by
  have field : littleEndian 8 (UInt64.ofNat (8 * message.length)).toNat =
      littleEndian 8 (8 * message.length) := by
    rw [UInt64.toNat_ofNat']
    exact little_endian_mod 8 _
  rw [padded, md5Padded, ← field]
  rfl

/-- MD5 in one call is MD5 as it is defined. -/
theorem md5_one_shot (message : Bytes) : oneShot md5 message = md5Standard message := by
  rw [oneShot, md5_padded_exact]
  rfl

/-- MD5 of slices is MD5 of their concatenation, and the padding loop of its
`finalize` stops at every fill level, where it first finds the level fifty-six. -/
theorem md5_digest_standard (parts : List Bytes) :
    md5Digest parts = md5Standard parts.flatten ∧
      (md5Padded parts.flatten).length % 64 = 0 ∧
      ∀ hasher : Hasher Md5State, ∃ zeros, zeros < 64 ∧
        ((fun hasher => update md5 hasher [0])^[zeros] hasher).buf.length = 56 ∧
        (∀ earlier, earlier < zeros →
          ((fun hasher => update md5 hasher [0])^[earlier] hasher).buf.length ≠ 56) ∧
        ∀ fuel, zeros < fuel →
          padZeros md5 fuel hasher = (fun hasher => update md5 hasher [0])^[zeros] hasher := by
  refine ⟨(digest_one_shot md5 parts).trans (md5_one_shot _), ?_, pad_zeros_terminates md5⟩
  rw [← md5_padded_exact]
  exact padded_whole md5 _

end Md5

section Standard

/-- Rotation to the left. -/
def rotl (count : Nat) (word : UInt32) : UInt32 := ⟨word.toBitVec.rotateLeft count⟩

/-- Choice: the bits of `y` where `x` is set, those of `z` elsewhere. -/
def ch (x y z : UInt32) : UInt32 := (x &&& y) ^^^ (~~~x &&& z)

def parity (x y z : UInt32) : UInt32 := x ^^^ y ^^^ z

/-- Majority of three bits. -/
def maj (x y z : UInt32) : UInt32 := (x &&& y) ^^^ (x &&& z) ^^^ (y &&& z)

/-- The function of a round. -/
def roundFunction (t : Nat) : UInt32 → UInt32 → UInt32 → UInt32 :=
  if t < 20 then ch else if t < 40 then parity else if t < 60 then maj else parity

/-- The constant of a round. -/
def roundConstant (t : Nat) : UInt32 :=
  if t < 20 then 0x5a827999 else if t < 40 then 0x6ed9eba1
  else if t < 60 then 0x8f1bbcdc else 0xca62c1d6

/-- The word that follows those scheduled so far. -/
def scheduleNext (w : List UInt32) : List UInt32 :=
  w ++ [rotl 1 (w.getD (w.length - 3) 0 ^^^ w.getD (w.length - 8) 0 ^^^ w.getD (w.length - 14) 0 ^^^
    w.getD (w.length - 16) 0)]

/-- The message schedule: the sixteen words of the block and sixty-four more. -/
def messageSchedule (block : Octets 64) : List UInt32 :=
  scheduleNext^[64] (blockWords bigEndianValue block)

/-- Round `t` over the working variables. -/
def standardRound (w : List UInt32) (state : Sha1State) (t : Nat) : Sha1State where
  a := rotl 5 state.a + roundFunction t state.b state.c state.d + state.e + roundConstant t +
    w.getD t 0
  b := state.a
  c := rotl 30 state.b
  d := state.c
  e := state.d

/-- The compression of one block. -/
def standardCompress (state : Sha1State) (block : Octets 64) : Sha1State :=
  let last := (List.range 80).foldl (standardRound (messageSchedule block)) state
  ⟨state.a + last.a, state.b + last.b, state.c + last.c, state.d + last.d, state.e + last.e⟩

/-- A message padded for SHA-1. -/
def sha1Padded (message : Bytes) : Bytes :=
  message ++ 0x80 :: List.replicate (zerosFor message.length) 0 ++ bigEndian 8 (8 * message.length)

/-- SHA-1 of a message. -/
def sha1Standard (message : Bytes) : Octets 20 :=
  let last := (blocksOf 64 (sha1Padded message)).foldl standardCompress
    ⟨0x67452301, 0xefcdab89, 0x98badcfe, 0x10325476, 0xc3d2e1f0⟩
  ⟨wordOctets bigEndian [last.a, last.b, last.c, last.d, last.e],
    word_octets_length bigEndian _ (by simp)⟩

example : (sha1Standard []).toList.take 4 = [0xda, 0x39, 0xa3, 0xee] := by decide +kernel

/-- The key of the keyed digest as one block. -/
def keyBlock (key : Bytes) : Bytes :=
  if key.length = 64 then key
  else if 64 < key.length then (sha1Standard key).toList ++ List.replicate 44 0
  else key ++ List.replicate (64 - key.length) 0

/-- The keyed digest of a message. -/
def hmacStandard (key message : Bytes) : Octets 20 :=
  sha1Standard ((keyBlock key).map (· ^^^ 0x5c) ++
    (sha1Standard ((keyBlock key).map (· ^^^ 0x36) ++ message)).toList)

end Standard

section WebSocket

/-- The words of whole four-octet chunks. -/
def chunkWords : Bytes → List UInt32
  | a :: b :: c :: d :: rest => UInt32.ofNat (bigEndianValue [a, b, c, d]) :: chunkWords rest
  | _ => []

/-- The compression beside the WebSocket handshake. -/
def wsBlock (state : Sha1State) (block : Octets 64) : Sha1State :=
  let w := (sha1Extend^[64] (chunkWords block.toList).reverse).reverse
  let last := (List.range 80).foldl (sha1Round w) state
  ⟨state.a + last.a, state.b + last.b, state.c + last.c, state.d + last.d, state.e + last.e⟩

/-- The five words of the state take twenty octets. -/
theorem ws_words_length (h : Sha1State) :
    (wordOctets bigEndian [h.a, h.b, h.c, h.d, h.e]).length = 20 :=
  word_octets_length bigEndian _ (big_endian_length 4)

/-- The SHA-1 beside the WebSocket handshake. -/
def wsSha1 : BlockHash Sha1State 20 where
  initial := ⟨0x67452301, 0xEFCDAB89, 0x98BADCFE, 0x10325476, 0xC3D2E1F0⟩
  compress := wsBlock
  lengthOctets := bigEndianLength
  output h := ⟨wordOctets bigEndian [h.a, h.b, h.c, h.d, h.e], ws_words_length h⟩

/-- The digest that proves a WebSocket upgrade. -/
def wsDigest (data : Bytes) : Octets 20 := digest wsSha1 [data]

/-- Chunks of four octets are the words at the multiples of four. -/
theorem chunk_words_exact (count : Nat) (bytes : Bytes) (length : bytes.length = 4 * count) :
    chunkWords bytes = (List.range count).map fun i =>
      UInt32.ofNat (bigEndianValue ((bytes.drop (i * 4)).take 4)) := by
  induction count generalizing bytes with
  | zero =>
    have empty : bytes = [] := List.eq_nil_of_length_eq_zero length
    rw [empty]
    rfl
  | succ count inductionHypothesis =>
    obtain ⟨a, b, c, d, rest, split⟩ : ∃ a b c d rest, bytes = a :: b :: c :: d :: rest := by
      rcases bytes with _ | ⟨a, _ | ⟨b, _ | ⟨c, _ | ⟨d, rest⟩⟩⟩⟩
      all_goals first
        | exact ⟨_, _, _, _, _, rfl⟩
        | (simp only [List.length_cons, List.length_nil] at length; omega)
    subst split
    have shorter : rest.length = 4 * count := by
      simp only [List.length_cons] at length
      omega
    rw [chunkWords, inductionHypothesis rest shorter, List.range_succ_eq_map, List.map_cons,
      List.map_map]
    refine congrArg₂ List.cons rfl (List.map_congr_left fun i _ => ?_)
    have skipped : (i + 1) * 4 = i * 4 + 1 + 1 + 1 + 1 := by omega
    simp only [Function.comp_apply, Nat.succ_eq_add_one, skipped, List.drop_succ_cons]

/-- Both copies compress alike: they cut a block into the same words. -/
theorem ws_block_exact : wsBlock = sha1Block := by
  funext state block
  have words : chunkWords block.toList = blockWords bigEndianValue block :=
    chunk_words_exact 16 block.toList (by simp)
  simp only [wsBlock, sha1Block, sha1Schedule, words]

/-- Both copies are one digest. -/
theorem ws_sha1_exact : wsSha1 = sha1Hash := by
  rw [wsSha1, sha1Hash, ws_block_exact]

end WebSocket

section Equivalence

/-- The shifts of the program rotate by the three counts it uses. -/
theorem rotate_left_exact (word : UInt32) :
    rotateLeft word 1 = rotl 1 word ∧ rotateLeft word 5 = rotl 5 word ∧
      rotateLeft word 30 = rotl 30 word := ⟨rfl, rfl, rfl⟩

/-- The bitwise forms of choice and majority. -/
theorem ch_exact (x y z : UInt32) : (x &&& y) ||| (~~~x &&& z) = ch x y z := by
  apply UInt32.toBitVec_inj.mp
  ext i inside
  simp only [ch, UInt32.toBitVec_or, UInt32.toBitVec_and, UInt32.toBitVec_xor, UInt32.toBitVec_not,
    BitVec.getElem_or, BitVec.getElem_and, BitVec.getElem_xor, BitVec.getElem_not]
  cases x.toBitVec[i] <;> cases y.toBitVec[i] <;> cases z.toBitVec[i] <;> rfl

/-- The three-way majority can be written with or, or with exclusive or. -/
theorem maj_exact (x y z : UInt32) : (x &&& y) ||| (x &&& z) ||| (y &&& z) = maj x y z := by
  apply UInt32.toBitVec_inj.mp
  ext i inside
  simp only [maj, UInt32.toBitVec_or, UInt32.toBitVec_and, UInt32.toBitVec_xor,
    BitVec.getElem_or, BitVec.getElem_and, BitVec.getElem_xor]
  cases x.toBitVec[i] <;> cases y.toBitVec[i] <;> cases z.toBitVec[i] <;> rfl

/-- A word counted from the newest one is that counted from the oldest. -/
theorem newest_first (words : List UInt32) (back : Nat) (inside : back < words.length) :
    words.reverse.getD back 0 = words.getD (words.length - (back + 1)) 0 := by
  rw [List.getD_eq_getElem?_getD, List.getElem?_reverse inside, ← List.getD_eq_getElem?_getD,
    Nat.sub_sub, Nat.add_comm 1]

/-- Extending the schedule at its newest end appends the standard's next word. -/
theorem sha1_extend_next (words : List UInt32) (enough : 16 ≤ words.length) :
    sha1Extend words.reverse = (scheduleNext words).reverse := by
  rw [sha1Extend, scheduleNext, List.reverse_append, newest_first words 2 (by omega),
    newest_first words 7 (by omega), newest_first words 13 (by omega),
    newest_first words 15 (by omega)]
  exact congrArg₂ List.cons (rotate_left_exact _).1 rfl

/-- The schedule of the program is the standard's. -/
theorem sha1_schedule_exact (block : Octets 64) : sha1Schedule block = messageSchedule block := by
  have run : ∀ (rounds : Nat) (words : List UInt32), 16 ≤ words.length →
      sha1Extend^[rounds] words.reverse = (scheduleNext^[rounds] words).reverse := by
    intro rounds
    induction rounds with
    | zero => exact fun _ _ => rfl
    | succ rounds inductionHypothesis =>
      intro words enough
      have longer : 16 ≤ (scheduleNext words).length := by
        rw [scheduleNext, List.length_append]
        omega
      rw [Function.iterate_succ_apply, sha1_extend_next words enough,
        inductionHypothesis _ longer, Function.iterate_succ_apply]
  rw [sha1Schedule, run 64 _ (by simp [blockWords]), List.reverse_reverse, messageSchedule]

/-- A round of the program is the standard's. -/
theorem sha1_round_exact (w : List UInt32) (state : Sha1State) (t : Nat) (early : t < 80) :
    sha1Round w state t = standardRound w state t := by
  obtain ⟨-, turned, -⟩ := rotate_left_exact state.a
  obtain ⟨-, -, shifted⟩ := rotate_left_exact state.b
  have quarter : t / 20 = 0 ∨ t / 20 = 1 ∨ t / 20 = 2 ∨ t / 20 = 3 := by omega
  unfold sha1Round standardRound roundFunction roundConstant
  rcases quarter with first | second | third | fourth
  · have before : t < 20 := by omega
    simp only [first, before, turned, shifted, ch_exact, ↓reduceIte]
  · have after : ¬t < 20 := by omega
    have before : t < 40 := by omega
    simp only [second, after, before, turned, shifted, parity, ↓reduceIte]
  · have after : ¬t < 40 := by omega
    have early : ¬t < 20 := by omega
    have before : t < 60 := by omega
    simp only [third, early, after, before, turned, shifted, maj_exact, ↓reduceIte]
  · have after : ¬t < 60 := by omega
    have early : ¬t < 20 := by omega
    have later : ¬t < 40 := by omega
    simp only [fourth, early, later, after, turned, shifted, parity, ↓reduceIte]

/-- The compression of the program is the standard's. -/
theorem sha1_block_exact : sha1Block = standardCompress := by
  funext state block
  have rounds : (List.range 80).foldl (sha1Round (sha1Schedule block)) state =
      (List.range 80).foldl (standardRound (messageSchedule block)) state := by
    rw [sha1_schedule_exact]
    exact List.foldl_ext _ _ _ fun reached t within =>
      sha1_round_exact _ reached t (List.mem_range.mp within)
  rw [sha1Block, rounds, standardCompress]

/-- The hasher's last blocks are those that the definition pads. -/
theorem sha1_padded_exact (message : Bytes) : padded sha1Hash message = sha1Padded message := by
  have field : bigEndian 8 (UInt64.ofNat (8 * message.length)).toNat =
      bigEndian 8 (8 * message.length) := by
    rw [UInt64.toNat_ofNat']
    exact big_endian_mod 8 _
  rw [padded, sha1Padded, ← field]
  rfl

/-- SHA-1 in one call is SHA-1 as it is defined. -/
theorem sha1_one_shot (message : Bytes) : oneShot sha1Hash message = sha1Standard message := by
  have compression : sha1Hash.compress = standardCompress := sha1_block_exact
  rw [oneShot, sha1_padded_exact, compression]
  rfl

/-- The SHA-1 beside the key derivation is the standard's. -/
theorem sha1_exact (message : Bytes) : sha1 message = sha1Standard message := by
  rw [sha1, digest_one_shot, sha1_one_shot, List.flatten_cons, List.flatten_nil, List.append_nil]

/-- The padded key is the standard's block in all three cases of its length. -/
theorem padded_key_exact (key : Bytes) : paddedKey sha1Hash key = keyBlock key := by
  unfold paddedKey keyBlock
  by_cases equal : key.length = 64
  · have short : ¬64 < key.length := by omega
    simp [equal]
  · by_cases long : 64 < key.length
    · have hashed : digest sha1Hash [key] = sha1Standard key := sha1_exact key
      simp [equal, long, hashed]
    · simp [equal, long]

/-- Both copies of SHA-1 give the standard's digest of every message, and the
keyed digest is the standard's for every key. -/
theorem sha1_copies_standard (message : Bytes) :
    wsDigest message = sha1Standard message ∧
      sha1 message = sha1Standard message ∧
      ∀ key, hmacSha1 key message = hmacStandard key message := by
  refine ⟨?_, sha1_exact message, fun key => ?_⟩
  · rw [wsDigest, ws_sha1_exact]
    exact sha1_exact message
  · rw [hmacSha1, hmac, padded_key_exact]
    change sha1 (_ ++ (sha1 (_ ++ message)).toList) = hmacStandard key message
    rw [sha1_exact, sha1_exact, hmacStandard]

end Equivalence

end OmniProxy.DigestStandards
