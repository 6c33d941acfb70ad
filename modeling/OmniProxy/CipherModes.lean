import OmniProxy.BlockCiphers
import OmniProxy.BlockStreams
import OmniProxy.CarryCounters

/-!
# The stream modes of the block cipher

Counter mode keeps a block of keystream, a position in it and the counter of the
next block. It is a source of the keystream, so any cut of the data into calls
gives the data xored with the encrypted counters, and a second application from
the same start restores the data.

Feedback mode keeps the last sixteen octets of the ciphertext and begins a new
block of keystream with every call. What it computes depends on the chunks that
the calls cut the data into: calls whose lengths are multiples of sixteen leave
the chunks of one call, and any other call with octets behind it shifts them.
-/

namespace OmniProxy.CipherModes

open ByteStrings BlockStreams SealedBoxes BlockCiphers CarryCounters

/-- Masking with one string twice changes nothing. -/
theorem xor_twice (data mask : Bytes) (covered : data.length ≤ mask.length) :
    List.zipWith (· ^^^ ·) (List.zipWith (· ^^^ ·) data mask) mask = data := by
  induction data generalizing mask with
  | nil => rfl
  | cons octet data inductionHypothesis =>
    cases mask with
    | nil => simp at covered
    | cons first mask =>
      have rest := inductionHypothesis mask (Nat.le_of_succ_le_succ covered)
      rw [List.zipWith_cons_cons, List.zipWith_cons_cons, rest, UInt8.xor_assoc, UInt8.xor_self,
        UInt8.xor_zero]

section CounterMode

variable (cipher : BlockCipher 16 16)

/-- A counter-mode cipher; its position never passes the keystream block. -/
structure Aes128Ctr where
  key : Octets 16
  counter : Octets 16
  keystream : Octets 16
  pos : Nat
  within : pos ≤ 16

/-- A cipher before its first block. -/
def Aes128Ctr.new (key nonceCounter : Octets 16) : Aes128Ctr :=
  ⟨key, nonceCounter, zeroOctets 16, 16, Nat.le_refl 16⟩

/-- The counter after a block: the last octet grows, and every wrap carries into
the octet before. -/
def nextCounter (counter : Octets 16) : Octets 16 :=
  ⟨(increment counter.toList.reverse).reverse, by simp⟩

/-- Encrypt the counter into the next keystream block. -/
def Aes128Ctr.refill (ctr : Aes128Ctr) : Aes128Ctr :=
  ⟨ctr.key, nextCounter ctr.counter, cipher.encryptBlock ctr.key ctr.counter, 0, Nat.zero_le 16⟩

/-- The cipher with a keystream octet left. -/
def Aes128Ctr.filled (ctr : Aes128Ctr) : Aes128Ctr :=
  if ctr.pos = 16 then ctr.refill cipher else ctr

/-- The keystream is always used from a place inside its block. -/
theorem filled_within (ctr : Aes128Ctr) : (ctr.filled cipher).pos < 16 := by
  unfold Aes128Ctr.filled
  by_cases used : ctr.pos = 16
  · rw [if_pos used]
    exact Nat.zero_lt_succ 15
  · rw [if_neg used]
    exact Nat.lt_of_le_of_ne ctr.within used

/-- The next keystream octet. -/
def Aes128Ctr.nextOctet (ctr : Aes128Ctr) : UInt8 × Aes128Ctr :=
  let filled := ctr.filled cipher
  (filled.keystream.get ⟨filled.pos, filled_within cipher ctr⟩,
    ⟨filled.key, filled.counter, filled.keystream, filled.pos + 1, filled_within cipher ctr⟩)

/-- Xor the keystream into the data. -/
def Aes128Ctr.applyKeystream (ctr : Aes128Ctr) : Bytes → Bytes × Aes128Ctr
  | [] => ([], ctr)
  | octet :: data =>
      let (mask, after) := ctr.nextOctet cipher
      let (rest, last) := after.applyKeystream data
      ((octet ^^^ mask) :: rest, last)

/-- The counter block a number of blocks after the first, modulo 2^128. -/
def counterBlock (counter : Octets 16) (blocks : Nat) : Octets 16 :=
  ⟨bigEndian 16 ((bigEndianValue counter.toList + blocks) % 2 ^ 128), by simp⟩

/-- The octet of the keystream at a position. -/
def keystreamOctet (key counter : Octets 16) (position : Nat) : UInt8 :=
  (cipher.encryptBlock key (counterBlock counter (position / 16))).get
    ⟨position % 16, Nat.mod_lt _ (by decide)⟩

/-- Data xored with the keystream. -/
def counterMode (key counter : Octets 16) (data : Bytes) : Bytes :=
  data.zipIdx.map fun entry => entry.1 ^^^ keystreamOctet cipher key counter entry.2

/-- A run of carries is a run of increments of the reversed octets. -/
theorem next_counter_reversed (count : Nat) (counter : Octets 16) :
    (nextCounter^[count] counter).toList = (increment^[count] counter.toList.reverse).reverse := by
  induction count generalizing counter with
  | zero => exact (List.reverse_reverse _).symm
  | succ count inductionHypothesis =>
    rw [Function.iterate_succ_apply, inductionHypothesis, Function.iterate_succ_apply, nextCounter,
      List.Vector.toList_mk, List.reverse_reverse]

/-- The carry from the last octet adds one modulo 2^128 in network order. -/
theorem next_counter_block (counter : Octets 16) (count : Nat) :
    nextCounter^[count] counter = counterBlock counter count := by
  have width : counter.toList.reverse.length = 16 := by simp
  obtain ⟨value, length⟩ := increments_value count counter.toList.reverse
  have reading : bigEndianValue (nextCounter^[count] counter).toList =
      (bigEndianValue counter.toList + count) % 2 ^ 128 := by
    rw [next_counter_reversed, big_endian_value_reverse, value, width, ← big_endian_value_reverse,
      List.reverse_reverse]
    rfl
  apply List.Vector.eq
  rw [counterBlock, List.Vector.toList_mk, ← reading]
  conv_lhs => rw [← big_endian_of_value (nextCounter^[count] counter).toList]
  rw [List.Vector.toList_length]

/-- A counter-mode cipher at a position of its keystream: it has filled some
blocks, and the last of them is the one in use. -/
def At (key counter : Octets 16) (position : Nat) (ctr : Aes128Ctr) : Prop :=
  ctr.key = key ∧ ∃ blocks, position + 16 = 16 * blocks + ctr.pos ∧
    ctr.counter = nextCounter^[blocks] counter ∧
    ∀ used, blocks = used + 1 →
      ctr.keystream = cipher.encryptBlock key (nextCounter^[used] counter)

/-- A new cipher is at the start of its keystream. -/
theorem new_at_start (key counter : Octets 16) : At cipher key counter 0 (.new key counter) :=
  ⟨rfl, 0, rfl, rfl, fun _ impossible => by omega⟩

/-- Filling a block happens between two octets of the keystream. -/
theorem filled_at (key counter : Octets 16) (position : Nat) (ctr : Aes128Ctr)
    (reached : At cipher key counter position ctr) :
    At cipher key counter position (ctr.filled cipher) := by
  obtain ⟨keyed, blocks, place, next, current⟩ := reached
  unfold Aes128Ctr.filled
  by_cases used : ctr.pos = 16
  · rw [if_pos used]
    refine ⟨keyed, blocks + 1, ?_, ?_, fun before filled => ?_⟩
    · rw [place, used, Nat.mul_succ]
      rfl
    · rw [Function.iterate_succ_apply', ← next]
      rfl
    · obtain rfl : blocks = before := by omega
      rw [← keyed, ← next]
      rfl
  · rw [if_neg used]
    exact ⟨keyed, blocks, place, next, current⟩

/-- The next octet is that of the keystream, and the cipher moves on by one. -/
theorem next_octet_follows (key counter : Octets 16) (position : Nat) (ctr : Aes128Ctr)
    (reached : At cipher key counter position ctr) :
    (ctr.nextOctet cipher).1 = keystreamOctet cipher key counter position ∧
      At cipher key counter (position + 1) (ctr.nextOctet cipher).2 := by
  obtain ⟨keyed, blocks, place, next, current⟩ :=
    filled_at cipher key counter position ctr reached
  have inside := filled_within cipher ctr
  obtain ⟨used, filled⟩ : ∃ used, blocks = used + 1 := ⟨blocks - 1, by omega⟩
  have block : position / 16 = used := by omega
  have offset : position % 16 = (ctr.filled cipher).pos := by omega
  constructor
  · simp only [keystreamOctet, block, offset, ← next_counter_block, ← current used filled]
    rfl
  · refine ⟨keyed, blocks, ?_, next, current⟩
    change position + 1 + 16 = 16 * blocks + ((ctr.filled cipher).pos + 1)
    omega

/-- Applying the keystream takes as many octets of it as the data has. -/
theorem apply_keystream_taken (ctr : Aes128Ctr) (data : Bytes) :
    ctr.applyKeystream cipher data =
      (List.zipWith (· ^^^ ·) data (taken (Aes128Ctr.nextOctet cipher) data.length ctr).1,
        (taken (Aes128Ctr.nextOctet cipher) data.length ctr).2) := by
  induction data generalizing ctr with
  | nil => rfl
  | cons octet data inductionHypothesis =>
    simp only [Aes128Ctr.applyKeystream, List.length_cons, taken, inductionHypothesis,
      List.zipWith_cons_cons]

/-- Data xored with the keystream from a position on. -/
def masked (key counter : Octets 16) (position : Nat) (data : Bytes) : Bytes :=
  List.zipWith (· ^^^ ·) data (streamed (keystreamOctet cipher key counter) position data.length)

/-- Applying the keystream at a position masks the data from there on. -/
theorem apply_keystream_masks (key counter : Octets 16) (position : Nat) (ctr : Aes128Ctr)
    (reached : At cipher key counter position ctr) (data : Bytes) :
    (ctr.applyKeystream cipher data).1 = masked cipher key counter position data ∧
      At cipher key counter (position + data.length) (ctr.applyKeystream cipher data).2 := by
  obtain ⟨octets, advanced⟩ := taken_streamed (Aes128Ctr.nextOctet cipher)
    (keystreamOctet cipher key counter) (At cipher key counter)
    (next_octet_follows cipher key counter) data.length position ctr reached
  rw [apply_keystream_taken, octets]
  exact ⟨rfl, advanced⟩

/-- Two masks in sequence are one mask, with the second starting where the first stopped. -/
theorem masked_append (key counter : Octets 16) (position : Nat) (first second : Bytes) :
    masked cipher key counter position (first ++ second) =
      masked cipher key counter position first ++
        masked cipher key counter (position + first.length) second := by
  unfold masked
  rw [List.length_append, ← streamed_append, List.zipWith_append (by rw [streamed_length])]

/-- Masking twice from one position restores the data. -/
theorem masked_twice (key counter : Octets 16) (position : Nat) (data : Bytes) :
    masked cipher key counter position (masked cipher key counter position data) = data := by
  have length : (masked cipher key counter position data).length = data.length := by
    simp [masked]
  conv_lhs => rw [masked, length, masked]
  exact xor_twice data _ (by rw [streamed_length])

/-- Successive calls mask the concatenation of their data, each its own part. -/
theorem calls_mask (key counter : Octets 16) (pieces : List Bytes) (position : Nat)
    (ctr : Aes128Ctr) (reached : At cipher key counter position ctr) :
    (inCalls (Aes128Ctr.applyKeystream cipher) pieces ctr).1.flatten =
      masked cipher key counter position pieces.flatten := by
  induction pieces generalizing position ctr with
  | nil => rfl
  | cons piece pieces inductionHypothesis =>
    obtain ⟨first, advanced⟩ := apply_keystream_masks cipher key counter position ctr reached piece
    rw [inCalls, List.flatten_cons, first, inductionHypothesis _ _ advanced, List.flatten_cons,
      masked_append]

/-- Counter mode is masking from the start. -/
theorem counter_mode_masks (key counter : Octets 16) (data : Bytes) :
    counterMode cipher key counter data = masked cipher key counter 0 data := by
  have enumerated : ∀ position, (data.zipIdx position).map
      (fun entry => entry.1 ^^^ keystreamOctet cipher key counter entry.2) =
      masked cipher key counter position data := by
    induction data with
    | nil => exact fun _ => rfl
    | cons octet data inductionHypothesis =>
      intro position
      rw [List.zipIdx_cons, List.map_cons, inductionHypothesis]
      rfl
  exact enumerated 0

/-- Any cut of the data into calls gives what one call gives, the data xored with
the encrypted counters, and applying the keystream to it again from the same
start restores the data. -/
theorem counter_mode_split_invariant (key counter : Octets 16) (pieces : List Bytes) :
    (inCalls (Aes128Ctr.applyKeystream cipher) pieces (.new key counter)).1.flatten =
        ((Aes128Ctr.new key counter).applyKeystream cipher pieces.flatten).1 ∧
      ((Aes128Ctr.new key counter).applyKeystream cipher pieces.flatten).1 =
        counterMode cipher key counter pieces.flatten ∧
      ((Aes128Ctr.new key counter).applyKeystream cipher
        ((Aes128Ctr.new key counter).applyKeystream cipher pieces.flatten).1).1 =
        pieces.flatten := by
  have start := new_at_start cipher key counter
  have once := apply_keystream_masks cipher key counter 0 _ start
  refine ⟨?_, ?_, ?_⟩
  · rw [calls_mask cipher key counter pieces 0 _ start, (once _).1]
  · rw [(once _).1, counter_mode_masks]
  · rw [(once _).1, (once _).1, masked_twice]

end CounterMode

section FeedbackMode

variable (cipher : BlockCipher 16 16)

/-- At most sixteen octets, which share one keystream block. -/
abbrev Chunk := { octets : Bytes // octets.length ≤ 16 }

/-- Chunks of sixteen octets, the last one as long as what is left. Every round
takes an octet, so as many rounds as there are octets suffice. -/
def chunksWithin : Nat → Bytes → List Chunk
  | 0, _ => []
  | rounds + 1, data =>
      if data.isEmpty then []
      else ⟨data.take 16, List.length_take_le 16 data⟩ :: chunksWithin rounds (data.drop 16)

/-- The chunks of a string. -/
def chunks (data : Bytes) : List Chunk := chunksWithin data.length data

/-- The octets of chunks. -/
def joined (pieces : List Chunk) : Bytes := (pieces.map Subtype.val).flatten

/-- Drop the used octets of the feedback and append as many of the ciphertext; a
whole block of ciphertext replaces it. -/
def shiftFeedback (fb : Octets 16) (used : Nat) (ctChunk : Bytes)
    (covered : used ≤ ctChunk.length) : Octets 16 :=
  if full : 16 ≤ used then octetsOf 16 ctChunk (full.trans covered)
  else ⟨fb.toList.drop used ++ ctChunk.take used, by
    rw [List.length_append, List.length_drop, List.length_take, List.Vector.toList_length]
    omega⟩

/-- Whether the octets that come in or those that go out are the ciphertext. -/
inductive Direction where
  | encrypt
  | decrypt
deriving DecidableEq, Repr

/-- The other direction. -/
def Direction.inverse : Direction → Direction
  | .encrypt => .decrypt
  | .decrypt => .encrypt

/-- A chunk xored with the encrypted feedback. -/
def image (key feedback : Octets 16) (chunk : Chunk) : Chunk :=
  ⟨List.zipWith (· ^^^ ·) chunk.val (cipher.encryptBlock key feedback).toList, by
    rw [List.length_zipWith, List.Vector.toList_length]
    exact Nat.min_le_right _ _⟩

/-- An image is as long as its chunk. -/
theorem image_length (key feedback : Octets 16) (chunk : Chunk) :
    (image cipher key feedback chunk).val.length = chunk.val.length := by
  rw [image, List.length_zipWith, List.Vector.toList_length, Nat.min_eq_left chunk.property]

/-- The ciphertext among a chunk and its image. -/
def Direction.ciphertext (direction : Direction) (chunk image : Chunk) : Bytes :=
  match direction with
  | .encrypt => image.val
  | .decrypt => chunk.val

/-- The feedback after a chunk. -/
def nextFeedback (direction : Direction) (key feedback : Octets 16) (chunk : Chunk) : Octets 16 :=
  shiftFeedback feedback chunk.val.length
    (direction.ciphertext chunk (image cipher key feedback chunk)) (by
      cases direction
      · exact Nat.le_of_eq (image_length cipher key feedback chunk).symm
      · exact Nat.le_refl _)

/-- The images of successive chunks and the feedback after them. -/
def throughChunks (direction : Direction) (key : Octets 16) :
    List Chunk → Octets 16 → List Chunk × Octets 16
  | [], feedback => ([], feedback)
  | chunk :: rest, feedback =>
      let (images, last) :=
        throughChunks direction key rest (nextFeedback cipher direction key feedback chunk)
      (image cipher key feedback chunk :: images, last)

/-- A feedback-mode cipher: its key and the last octets of the ciphertext. -/
structure Cfb128 where
  key : Octets 16
  iv : Octets 16

/-- Pass data through the cipher, chunk by chunk. -/
def Cfb128.applyXor (direction : Direction) (cfb : Cfb128) (data : Bytes) : Bytes × Cfb128 :=
  let (images, feedback) := throughChunks cipher direction cfb.key (chunks data) cfb.iv
  (joined images, ⟨cfb.key, feedback⟩)

/-- The encryptor feeds back what goes out. -/
def Cfb128Encryptor.applyXor (cfb : Cfb128) (data : Bytes) : Bytes × Cfb128 :=
  cfb.applyXor cipher .encrypt data

/-- The decryptor feeds back what came in. -/
def Cfb128Decryptor.applyXor (cfb : Cfb128) (data : Bytes) : Bytes × Cfb128 :=
  cfb.applyXor cipher .decrypt data

section Chunks

/-- More rounds than octets cut nothing more. -/
theorem chunks_within_enough (first second : Nat) (data : Bytes) (firstEnough : data.length ≤ first)
    (secondEnough : data.length ≤ second) : chunksWithin first data = chunksWithin second data := by
  induction first generalizing second data with
  | zero =>
    have empty : data = [] := List.eq_nil_of_length_eq_zero (by omega)
    subst empty
    cases second <;> rfl
  | succ first inductionHypothesis =>
    cases data with
    | nil => cases second <;> rfl
    | cons octet data =>
      obtain ⟨rounds, more⟩ : ∃ rounds, second = rounds + 1 :=
        Nat.exists_eq_succ_of_ne_zero (by rw [List.length_cons] at secondEnough; omega)
      subst more
      have rest : ((octet :: data).drop 16).length ≤ data.length := by simp
      rw [chunksWithin, chunksWithin, inductionHypothesis rounds]
      · exact rest.trans (Nat.le_of_succ_le_succ firstEnough)
      · exact rest.trans (Nat.le_of_succ_le_succ secondEnough)

/-- Nothing has no chunks. -/
@[simp] theorem chunks_nil : chunks [] = [] := rfl

/-- The first chunk of some octets, and the chunks behind it. -/
theorem chunks_cons (data : Bytes) (nonempty : data ≠ []) :
    chunks data = ⟨data.take 16, List.length_take_le 16 data⟩ :: chunks (data.drop 16) := by
  obtain ⟨octet, rest, split⟩ := List.exists_cons_of_ne_nil nonempty
  subst split
  have fewer : ((octet :: rest).drop 16).length ≤ rest.length := by simp
  rw [chunks, List.length_cons, chunksWithin, chunks,
    chunks_within_enough rest.length _ _ fewer (Nat.le_refl _)]
  rfl

/-- What holds of no octets, and of a string once it holds behind its first chunk,
holds of every string. -/
theorem chunks_induction {motive : Bytes → Prop} (nil : motive [])
    (cons : ∀ data, data ≠ [] → motive (data.drop 16) → motive data) (data : Bytes) :
    motive data := by
  generalize size : data.length = length
  induction length using Nat.strongRecOn generalizing data with
  | ind length inductionHypothesis =>
    by_cases empty : data = []
    · exact empty ▸ nil
    · have positive : 0 < data.length := List.length_pos_iff.mpr empty
      refine cons data empty (inductionHypothesis _ ?_ _ rfl)
      rw [List.length_drop]
      omega

/-- Chunks behind a whole number of blocks begin anew. -/
theorem chunks_append (first second : Bytes) (whole : 16 ∣ first.length) :
    chunks (first ++ second) = chunks first ++ chunks second := by
  induction first using chunks_induction with
  | nil => rfl
  | cons data some inductionHypothesis =>
    have block : 16 ≤ data.length :=
      Nat.le_of_dvd (List.length_pos_iff.mpr some) whole
    have rest : 16 ∣ (data.drop 16).length := by
      rw [List.length_drop]
      exact Nat.dvd_sub whole (Nat.dvd_refl 16)
    rw [chunks_cons _ (List.append_ne_nil_of_left_ne_nil some second), chunks_cons data some,
      List.cons_append, ← inductionHypothesis rest, List.drop_append_of_le_length block]
    simp only [List.take_append_of_le_length block]

/-- The chunks of a string are its octets. -/
theorem joined_chunks (data : Bytes) : joined (chunks data) = data := by
  induction data using chunks_induction with
  | nil => rfl
  | cons data some inductionHypothesis =>
    rw [chunks_cons data some, joined, List.map_cons, List.flatten_cons]
    exact (congrArg _ inductionHypothesis).trans (List.take_append_drop 16 data)

/-- A chunk is its own only chunk. -/
theorem chunks_of_chunk (chunk : Chunk) (nonempty : chunk.val ≠ []) :
    chunks chunk.val = [chunk] := by
  have all : chunk.val.take 16 = chunk.val := List.take_of_length_le chunk.property
  have empty : chunk.val.drop 16 = [] := List.drop_eq_nil_of_le chunk.property
  rw [chunks_cons _ nonempty, empty, chunks_nil]
  exact congrArg (· :: []) (Subtype.ext all)

/-- The first chunk stands in front of what the others join to. -/
@[simp] theorem joined_cons (chunk : Chunk) (pieces : List Chunk) :
    joined (chunk :: pieces) = chunk.val ++ joined pieces := rfl

/-- Joined chunks are joined in their order. -/
theorem joined_append (first second : List Chunk) :
    joined (first ++ second) = joined first ++ joined second := by
  simp [joined]

end Chunks

section Runs

/-- Chunks in sequence go through the cipher with the feedback that the first ones leave. -/
theorem through_chunks_append (direction : Direction) (key : Octets 16) (first second : List Chunk)
    (feedback : Octets 16) :
    throughChunks cipher direction key (first ++ second) feedback =
      ((throughChunks cipher direction key first feedback).1 ++
          (throughChunks cipher direction key second
            (throughChunks cipher direction key first feedback).2).1,
        (throughChunks cipher direction key second
          (throughChunks cipher direction key first feedback).2).2) := by
  induction first generalizing feedback with
  | nil => rfl
  | cons chunk first inductionHypothesis =>
    simp only [List.cons_append, throughChunks, inductionHypothesis]

/-- What successive calls give out is what the chunks of all of them give. -/
theorem calls_through_chunks (direction : Direction) (pieces : List Bytes) (cfb : Cfb128) :
    (inCalls (Cfb128.applyXor cipher direction) pieces cfb).1.flatten =
      joined (throughChunks cipher direction cfb.key (pieces.flatMap chunks) cfb.iv).1 := by
  induction pieces generalizing cfb with
  | nil => rfl
  | cons piece pieces inductionHypothesis =>
    rw [inCalls, List.flatten_cons, inductionHypothesis, List.flatMap_cons, through_chunks_append,
      joined_append]
    rfl

/-- The image of an image under the same feedback is the chunk. -/
theorem image_twice (key feedback : Octets 16) (chunk : Chunk) :
    image cipher key feedback (image cipher key feedback chunk) = chunk :=
  Subtype.ext (xor_twice chunk.val _ (by rw [List.Vector.toList_length]; exact chunk.property))

/-- Both directions feed back the same ciphertext. -/
theorem inverse_feedback (direction : Direction) (key feedback : Octets 16) (chunk : Chunk) :
    nextFeedback cipher direction.inverse key feedback (image cipher key feedback chunk) =
      nextFeedback cipher direction key feedback chunk := by
  cases direction <;>
    simp only [nextFeedback, Direction.inverse, Direction.ciphertext, image_twice, image_length]

/-- The other direction turns the images of chunks back into the chunks. -/
theorem through_chunks_inverse (direction : Direction) (key : Octets 16) (pieces : List Chunk)
    (feedback : Octets 16) :
    throughChunks cipher direction.inverse key
        (throughChunks cipher direction key pieces feedback).1 feedback =
      (pieces, (throughChunks cipher direction key pieces feedback).2) := by
  induction pieces generalizing feedback with
  | nil => rfl
  | cons chunk pieces inductionHypothesis =>
    simp only [throughChunks, inverse_feedback, inductionHypothesis, image_twice]

/-- The images of the chunks of a string are the chunks of their octets. -/
theorem images_are_chunks (direction : Direction) (key : Octets 16) (data : Bytes)
    (feedback : Octets 16) :
    chunks (joined (throughChunks cipher direction key (chunks data) feedback).1) =
      (throughChunks cipher direction key (chunks data) feedback).1 := by
  induction data using chunks_induction generalizing feedback with
  | nil => rfl
  | cons data some inductionHypothesis =>
    rw [chunks_cons data some, throughChunks, joined_cons]
    generalize chunk : (⟨data.take 16, List.length_take_le 16 data⟩ : Chunk) = first
    have taken : first.val = data.take 16 := chunk ▸ rfl
    have length := image_length cipher key feedback first
    have present : (image cipher key feedback first).val ≠ [] := by
      intro empty
      rw [empty, taken, List.length_take, List.length_nil] at length
      have positive := List.length_pos_iff.mpr some
      omega
    by_cases last : data.drop 16 = []
    · rw [last, chunks_nil, throughChunks, joined, List.map_nil, List.flatten_nil,
        List.append_nil, chunks_of_chunk _ present]
    · have full : (image cipher key feedback first).val.length = 16 := by
        have more := List.length_pos_iff.mpr last
        rw [List.length_drop] at more
        rw [length, taken, List.length_take]
        omega
      rw [chunks_append _ _ (Dvd.intro_left 1 full.symm), inductionHypothesis,
        chunks_of_chunk _ present]
      rfl

end Runs

section Splits

/-- Cut a string into pieces of given lengths. -/
def cut : List Nat → Bytes → List Bytes
  | [], _ => []
  | count :: counts, data => data.take count :: cut counts (data.drop count)

/-- Every call that has octets behind it has a length that is a multiple of sixteen. -/
def Aligned : List Nat → Prop
  | [] => True
  | count :: counts => (16 ∣ count ∨ requested counts = 0) ∧ Aligned counts

/-- What the encryptor makes of data given to it in calls. -/
def encrypted (key iv : Octets 16) (split : List Nat) (data : Bytes) : Bytes :=
  (inCalls (Cfb128Encryptor.applyXor cipher) (cut split data) ⟨key, iv⟩).1.flatten

/-- What the decryptor makes of ciphertext given to it in calls. -/
def decrypted (key iv : Octets 16) (split : List Nat) (ciphertext : Bytes) : Bytes :=
  (inCalls (Cfb128Decryptor.applyXor cipher) (cut split ciphertext) ⟨key, iv⟩).1.flatten

/-- Under two splits of one length the decrypted octets are the data and the
ciphertext is that of a single call. -/
def SplitIndependent (encryptorSplit decryptorSplit : List Nat) : Prop :=
  ∀ (key iv : Octets 16) (data : Bytes), data.length = requested encryptorSplit →
    decrypted cipher key iv decryptorSplit (encrypted cipher key iv encryptorSplit data) = data ∧
      encrypted cipher key iv encryptorSplit data =
        (Cfb128Encryptor.applyXor cipher ⟨key, iv⟩ data).1

/-- An aligned cut leaves the chunks of the whole string. -/
theorem aligned_chunks (split : List Nat) (data : Bytes) (aligned : Aligned split)
    (length : data.length = requested split) : (cut split data).flatMap chunks = chunks data := by
  induction split generalizing data with
  | nil =>
    have empty : data = [] := List.eq_nil_of_length_eq_zero length
    subst empty
    rfl
  | cons count split inductionHypothesis =>
    rw [requested_cons] at length
    obtain ⟨whole, rest⟩ := aligned
    have remaining : (data.drop count).length = requested split := by
      rw [List.length_drop]
      omega
    rw [cut, List.flatMap_cons, inductionHypothesis (data.drop count) rest remaining]
    rcases whole with whole | nothing
    · have first : (data.take count).length = count := by
        rw [List.length_take]
        omega
      rw [← chunks_append _ _ (first.symm ▸ whole), List.take_append_drop]
    · have behind : data.drop count = [] :=
        List.eq_nil_of_length_eq_zero (remaining.trans nothing)
      have all : data.take count = data := List.take_of_length_le (by omega)
      rw [behind, all, chunks_nil, List.append_nil]

/-- Calls of an aligned split give what one call gives. -/
theorem aligned_encrypted (key iv : Octets 16) (split : List Nat) (data : Bytes)
    (aligned : Aligned split) (length : data.length = requested split) :
    encrypted cipher key iv split data =
      joined (throughChunks cipher .encrypt key (chunks data) iv).1 := by
  rw [encrypted, ← aligned_chunks split data aligned length]
  exact calls_through_chunks cipher .encrypt (cut split data) ⟨key, iv⟩

/-- Calls on whole blocks decrypt block by block, with the feedback carried across the
calls. -/
theorem aligned_decrypted (key iv : Octets 16) (split : List Nat) (ciphertext : Bytes)
    (aligned : Aligned split) (length : ciphertext.length = requested split) :
    decrypted cipher key iv split ciphertext =
      joined (throughChunks cipher .decrypt key (chunks ciphertext) iv).1 := by
  rw [decrypted, ← aligned_chunks split ciphertext aligned length]
  exact calls_through_chunks cipher .decrypt (cut split ciphertext) ⟨key, iv⟩

/-- A cut string is put together again, and its pieces have the lengths asked for. -/
theorem cut_exact (split : List Nat) (data : Bytes) (length : data.length = requested split) :
    (cut split data).flatten = data ∧ (cut split data).map List.length = split := by
  induction split generalizing data with
  | nil => exact ⟨(List.eq_nil_of_length_eq_zero length).symm, rfl⟩
  | cons count split inductionHypothesis =>
    rw [requested_cons] at length
    obtain ⟨octets, lengths⟩ := inductionHypothesis (data.drop count) (by
      rw [List.length_drop]
      omega)
    rw [cut, List.flatten_cons, List.map_cons, octets, lengths, List.take_append_drop,
      List.length_take, Nat.min_eq_left (by omega)]
    exact ⟨rfl, rfl⟩

/-- Pieces are cut again at their own lengths. -/
theorem cut_pieces (pieces : List Bytes) :
    cut (pieces.map List.length) pieces.flatten = pieces := by
  induction pieces with
  | nil => rfl
  | cons piece pieces inductionHypothesis =>
    rw [List.map_cons, List.flatten_cons, cut, List.take_left, List.drop_left, inductionHypothesis]

/-- A call in the other direction undoes a call and reaches the same state. -/
theorem apply_inverse (direction : Direction) (cfb : Cfb128) (data : Bytes) :
    cfb.applyXor cipher direction.inverse (cfb.applyXor cipher direction data).1 =
      (data, (cfb.applyXor cipher direction data).2) := by
  simp only [Cfb128.applyXor, images_are_chunks, through_chunks_inverse, joined_chunks]

/-- Calls in the other direction undo the same calls, one by one. -/
theorem calls_inverse (direction : Direction) (pieces : List Bytes) (cfb : Cfb128) :
    (inCalls (Cfb128.applyXor cipher direction.inverse)
      (inCalls (Cfb128.applyXor cipher direction) pieces cfb).1 cfb).1 = pieces := by
  induction pieces generalizing cfb with
  | nil => rfl
  | cons piece pieces inductionHypothesis =>
    simp only [inCalls, apply_inverse, inductionHypothesis]

/-- Images have the length of their chunks. -/
theorem through_chunks_length (direction : Direction) (key : Octets 16) (pieces : List Chunk)
    (feedback : Octets 16) :
    (joined (throughChunks cipher direction key pieces feedback).1).length =
      (joined pieces).length := by
  induction pieces generalizing feedback with
  | nil => rfl
  | cons chunk pieces inductionHypothesis =>
    rw [throughChunks, joined_cons, joined_cons, List.length_append, List.length_append,
      image_length, inductionHypothesis]

/-- A call gives out as many octets as it takes. -/
theorem calls_lengths (direction : Direction) (pieces : List Bytes) (cfb : Cfb128) :
    (inCalls (Cfb128.applyXor cipher direction) pieces cfb).1.map List.length =
      pieces.map List.length := by
  induction pieces generalizing cfb with
  | nil => rfl
  | cons piece pieces inductionHypothesis =>
    have first : (cfb.applyXor cipher direction piece).1.length = piece.length := by
      rw [Cfb128.applyXor, through_chunks_length, joined_chunks]
    simp only [inCalls, List.map_cons, inductionHypothesis, first]

/-- Under one split the decryptor restores the data, aligned or not. -/
theorem same_split_restores (key iv : Octets 16) (split : List Nat) (data : Bytes)
    (length : data.length = requested split) :
    decrypted cipher key iv split (encrypted cipher key iv split data) = data := by
  obtain ⟨octets, lengths⟩ := cut_exact split data length
  have again : cut split (encrypted cipher key iv split data) =
      (inCalls (Cfb128Encryptor.applyXor cipher) (cut split data) ⟨key, iv⟩).1 := by
    have together :=
      cut_pieces (inCalls (Cfb128.applyXor cipher .encrypt) (cut split data) ⟨key, iv⟩).1
    rw [calls_lengths, lengths] at together
    exact together
  rw [decrypted, again]
  exact (congrArg List.flatten
    (calls_inverse cipher .encrypt (cut split data) ⟨key, iv⟩)).trans octets

/-- Under aligned splits the cipher does not show how the calls cut the octets. -/
theorem aligned_independent (encryptorSplit decryptorSplit : List Nat)
    (same : requested decryptorSplit = requested encryptorSplit)
    (encryptorAligned : Aligned encryptorSplit) (decryptorAligned : Aligned decryptorSplit) :
    SplitIndependent cipher encryptorSplit decryptorSplit := by
  intro key iv data length
  rw [aligned_encrypted cipher key iv encryptorSplit data encryptorAligned length]
  refine ⟨?_, rfl⟩
  rw [aligned_decrypted cipher key iv decryptorSplit _ decryptorAligned
    (by rw [through_chunks_length, joined_chunks, length, same]), images_are_chunks]
  have back := through_chunks_inverse cipher .encrypt key (chunks data) iv
  rw [Direction.inverse] at back
  rw [back, joined_chunks]

end Splits

section Misaligned

variable (key : Octets 16)

/-- The mask of a feedback of zeros, repeated. -/
def repeatedMask (length : Nat) : Bytes :=
  (List.range length).map fun place =>
    (cipher.encryptBlock key (zeroOctets 16)).get ⟨place % 16, Nat.mod_lt _ (by decide)⟩

/-- A repeated mask goes on where it stopped when the first part is of whole blocks. -/
theorem repeated_mask_append (first second : Nat) (whole : 16 ∣ first) :
    repeatedMask cipher key (first + second) =
      repeatedMask cipher key first ++ repeatedMask cipher key second := by
  have moved (place : Nat) : (first + place) % 16 = place % 16 := by omega
  unfold repeatedMask
  rw [List.range_add, List.map_append, List.map_map]
  simp only [Function.comp_def, moved]

/-- The register holds the last sixteen octets of itself and the ciphertext behind it. -/
theorem shift_feedback_list (fb : Octets 16) (used : Nat) (ctChunk : Bytes)
    (covered : used ≤ ctChunk.length) :
    (shiftFeedback fb used ctChunk covered).toList =
      if 16 ≤ used then ctChunk.take 16 else fb.toList.drop used ++ ctChunk.take used := by
  by_cases full : 16 ≤ used
  · rw [if_pos full]
    exact congrArg List.Vector.toList (dif_pos full)
  · rw [if_neg full]
    exact congrArg List.Vector.toList (dif_neg full)

/-- Feedback shifted by zeros stays zero. -/
theorem shift_zeros (used : Nat) (ctChunk : Bytes) (covered : used ≤ ctChunk.length)
    (zeros : ∀ octet ∈ ctChunk, octet = 0) :
    shiftFeedback (zeroOctets 16) used ctChunk covered = zeroOctets 16 := by
  have every : ∀ octet ∈ (shiftFeedback (zeroOctets 16) used ctChunk covered).toList,
      octet = 0 := by
    intro octet member
    rw [shift_feedback_list] at member
    by_cases full : 16 ≤ used
    · rw [if_pos full] at member
      exact zeros octet (List.mem_of_mem_take member)
    · rw [if_neg full, List.mem_append] at member
      rcases member with kept | appended
      · exact List.eq_of_mem_replicate (List.mem_of_mem_drop kept)
      · exact zeros octet (List.mem_of_mem_take appended)
  apply List.Vector.eq
  rw [List.eq_replicate_of_mem every, List.Vector.toList_length]
  rfl

/-- Zeros of ciphertext leave a feedback of zeros, and a chunk of them comes out
as the beginning of the mask. -/
theorem zero_chunk (chunk : Chunk) (zeros : ∀ octet ∈ chunk.val, octet = 0) :
    nextFeedback cipher .decrypt key (zeroOctets 16) chunk = zeroOctets 16 ∧
      (image cipher key (zeroOctets 16) chunk).val = repeatedMask cipher key chunk.val.length := by
  refine ⟨shift_zeros _ _ _ zeros, ?_⟩
  apply List.ext_getElem
  · rw [image_length, repeatedMask, List.length_map, List.length_range]
  · intro place inside within
    rw [image_length] at inside
    have zero : chunk.val[place] = 0 := zeros _ (List.getElem_mem inside)
    have small : place % 16 = place :=
      Nat.mod_eq_of_lt (Nat.lt_of_lt_of_le inside chunk.property)
    simp only [image, repeatedMask, List.getElem_zipWith, List.getElem_map, List.getElem_range,
      zero, UInt8.zero_xor, small, List.Vector.get_eq_get_toList]
    rfl

/-- Zeros of ciphertext come out as the mask, begun anew with every call. -/
theorem zero_call (data : Bytes) (zeros : ∀ octet ∈ data, octet = 0) :
    Cfb128Decryptor.applyXor cipher ⟨key, zeroOctets 16⟩ data =
      (repeatedMask cipher key data.length, ⟨key, zeroOctets 16⟩) := by
  have run : (throughChunks cipher .decrypt key (chunks data) (zeroOctets 16)).2 = zeroOctets 16 ∧
      joined (throughChunks cipher .decrypt key (chunks data) (zeroOctets 16)).1 =
        repeatedMask cipher key data.length := by
    induction data using chunks_induction with
    | nil => exact ⟨rfl, rfl⟩
    | cons data some inductionHypothesis =>
      obtain ⟨feedback, masked⟩ := zero_chunk cipher key ⟨data.take 16, List.length_take_le 16 data⟩
        fun octet member => zeros octet (List.mem_of_mem_take member)
      obtain ⟨last, rest⟩ :=
        inductionHypothesis fun octet member => zeros octet (List.mem_of_mem_drop member)
      rw [chunks_cons data some, throughChunks, feedback]
      refine ⟨last, ?_⟩
      rw [joined_cons, rest, masked, List.length_take, List.length_drop]
      by_cases short : data.length ≤ 16
      · have zero : data.length - 16 = 0 := by omega
        rw [zero, Nat.min_eq_right short]
        exact List.append_nil _
      · have parts : data.length = 16 + (data.length - 16) := by omega
        rw [Nat.min_eq_left (by omega), ← repeated_mask_append _ _ _ _ (Nat.dvd_refl 16), ← parts]
  exact Prod.ext run.2 (congrArg (Cfb128.mk key) run.1)

/-- A cut of zeros comes out as one mask for each call. -/
theorem zero_calls (split : List Nat) (data : Bytes) (zeros : ∀ octet ∈ data, octet = 0)
    (length : data.length = requested split) :
    decrypted cipher key (zeroOctets 16) split data =
      (split.map (repeatedMask cipher key)).flatten := by
  unfold decrypted
  induction split generalizing data with
  | nil => rfl
  | cons count split inductionHypothesis =>
    rw [requested_cons] at length
    have taken : (data.take count).length = count := by
      rw [List.length_take]
      omega
    have remaining : (data.drop count).length = requested split := by
      rw [List.length_drop]
      omega
    rw [cut, inCalls, zero_call cipher key _ fun octet member =>
      zeros octet (List.mem_of_mem_take member), taken]
    simp only [List.flatten_cons, List.map_cons]
    rw [inductionHypothesis _ (fun octet member => zeros octet (List.mem_of_mem_drop member))
      remaining]

/-- The repeated mask has the same sixteen octets in every block. -/
theorem repeated_mask_octet (length place : Nat) (inside : place < length) :
    (repeatedMask cipher key length)[place]? =
      some ((cipher.encryptBlock key (zeroOctets 16)).get
        ⟨place % 16, Nat.mod_lt _ (by decide)⟩) := by
  rw [repeatedMask, List.getElem?_map, List.getElem?_range inside]
  rfl

/-- The first call that has octets begins with the first octet of the mask. -/
theorem first_mask (split : List Nat) (positive : 0 < requested split) :
    ((split.map (repeatedMask cipher key)).flatten)[0]? =
      Option.some ((cipher.encryptBlock key (zeroOctets 16)).get 0) := by
  induction split with
  | nil => exact absurd positive (Nat.lt_irrefl 0)
  | cons count split inductionHypothesis =>
    rw [List.map_cons, List.flatten_cons]
    cases count with
    | zero =>
      rw [requested_cons, Nat.zero_add] at positive
      exact inductionHypothesis positive
    | succ count =>
      rw [List.getElem?_append_left (by simp [repeatedMask])]
      exact repeated_mask_octet cipher key (count + 1) 0 (Nat.zero_lt_succ count)

/-- Calls without octets are aligned. -/
theorem nothing_aligned (split : List Nat) (nothing : requested split = 0) : Aligned split := by
  induction split with
  | nil => trivial
  | cons count split inductionHypothesis =>
    rw [requested_cons] at nothing
    have rest : requested split = 0 := by omega
    exact ⟨Or.inr rest, inductionHypothesis rest⟩

/-- The masks of the calls are one mask only if the calls are aligned, when the
mask does not repeat its first octet: the call behind a misaligned one begins
with that octet. -/
theorem masks_aligned (split : List Nat)
    (distinct : ∀ place : Fin 16, place ≠ 0 →
      (cipher.encryptBlock key (zeroOctets 16)).get place ≠
        (cipher.encryptBlock key (zeroOctets 16)).get 0)
    (one : (split.map (repeatedMask cipher key)).flatten =
      repeatedMask cipher key (requested split)) : Aligned split := by
  induction split with
  | nil => trivial
  | cons count split inductionHypothesis =>
    rw [List.map_cons, List.flatten_cons, requested_cons] at one
    by_cases nothing : requested split = 0
    · exact ⟨Or.inr nothing, nothing_aligned split nothing⟩
    · have more : 0 < requested split := Nat.pos_of_ne_zero nothing
      have width : (repeatedMask cipher key count).length = count := by simp [repeatedMask]
      have begun : (repeatedMask cipher key (count + requested split))[count]? =
          some ((cipher.encryptBlock key (zeroOctets 16)).get 0) := by
        rw [← one, List.getElem?_append_right (Nat.le_of_eq width), width, Nat.sub_self]
        exact first_mask cipher key split more
      have whole : 16 ∣ count := by
        by_contra misaligned
        rw [repeated_mask_octet cipher key _ count (by omega)] at begun
        refine distinct ⟨count % 16, Nat.mod_lt _ (by decide)⟩ ?_ (Option.some.inj begun)
        intro zero
        exact misaligned (Nat.dvd_of_mod_eq_zero (congrArg Fin.val zero))
      rw [repeated_mask_append cipher key _ _ whole] at one
      exact ⟨Or.inl whole, inductionHypothesis (List.append_cancel_left one)⟩

/-- Only aligned splits hide how the calls cut the octets: octets whose ciphertext
under one call is zero come back as one mask, and those whose ciphertext under
several calls is zero as one mask for each call. -/
theorem independent_aligned (encryptorSplit decryptorSplit : List Nat)
    (same : requested decryptorSplit = requested encryptorSplit)
    (distinct : ∀ place : Fin 16, place ≠ 0 →
      (cipher.encryptBlock key (zeroOctets 16)).get place ≠
        (cipher.encryptBlock key (zeroOctets 16)).get 0)
    (independent : SplitIndependent cipher encryptorSplit decryptorSplit) :
    Aligned encryptorSplit ∧ Aligned decryptorSplit := by
  generalize total : requested encryptorSplit = count at same
  have zeros : ∀ octet ∈ List.replicate count (0 : UInt8), octet = 0 :=
    fun _ member => List.eq_of_mem_replicate member
  have width : (repeatedMask cipher key count).length = requested encryptorSplit := by
    simp [repeatedMask, total]
  have once : Cfb128Encryptor.applyXor cipher ⟨key, zeroOctets 16⟩ (repeatedMask cipher key count) =
      (List.replicate count 0, ⟨key, zeroOctets 16⟩) := by
    have back := apply_inverse cipher .decrypt ⟨key, zeroOctets 16⟩ (List.replicate count 0)
    have call := zero_call cipher key (List.replicate count 0) zeros
    rw [List.length_replicate, Cfb128Decryptor.applyXor] at call
    rw [call] at back
    exact back
  obtain ⟨restored, ciphertext⟩ :=
    independent key (zeroOctets 16) (repeatedMask cipher key count) width
  rw [once] at ciphertext
  constructor
  · have again := same_split_restores cipher key (zeroOctets 16) encryptorSplit _ width
    rw [ciphertext, zero_calls cipher key _ _ zeros (by rw [List.length_replicate, total])] at again
    exact masks_aligned cipher key encryptorSplit distinct (total ▸ again)
  · rw [ciphertext, zero_calls cipher key _ _ zeros (by rw [List.length_replicate, same])]
      at restored
    exact masks_aligned cipher key decryptorSplit distinct (same ▸ restored)

/-- With a cipher that encrypts the zero block under some key to a block whose first octet does not
come again, the calls do not show exactly under aligned splits. -/
theorem split_independent_iff (encryptorSplit decryptorSplit : List Nat)
    (same : requested decryptorSplit = requested encryptorSplit)
    (distinct : ∀ place : Fin 16, place ≠ 0 →
      (cipher.encryptBlock key (zeroOctets 16)).get place ≠
        (cipher.encryptBlock key (zeroOctets 16)).get 0) :
    SplitIndependent cipher encryptorSplit decryptorSplit ↔
      Aligned encryptorSplit ∧ Aligned decryptorSplit := by
  constructor
  · exact independent_aligned cipher key encryptorSplit decryptorSplit same distinct
  · rintro ⟨encryptorAligned, decryptorAligned⟩
    exact aligned_independent cipher encryptorSplit decryptorSplit same encryptorAligned
      decryptorAligned

end Misaligned

/-- With AES-128 the decrypted octets are the data and the ciphertext is that of
one call, for every key, initial vector and data, exactly under aligned splits. -/
theorem cfb_independent_iff (encryptorSplit decryptorSplit : List Nat)
    (same : requested decryptorSplit = requested encryptorSplit) :
    SplitIndependent aes128 encryptorSplit decryptorSplit ↔
      Aligned encryptorSplit ∧ Aligned decryptorSplit :=
  split_independent_iff aes128 (zeroOctets 16) encryptorSplit decryptorSplit same
    (by decide +kernel)

/-- Nineteen octets, given to the encryptor in whole blocks and to the decryptor in
one call. -/
theorem cfb_independent_iff_nineteen :
    SplitIndependent aes128 [16, 3] [19] ↔ Aligned [16, 3] ∧ Aligned [19] :=
  cfb_independent_iff [16, 3] [19] rfl

/-- Two zero octets, given to the encryptor in two calls and to the decryptor in one:
neither is the ciphertext that of one call nor are the data restored. -/
theorem cfb_two_calls_differ :
    encrypted aes128 (zeroOctets 16) (zeroOctets 16) [1, 1] [0, 0] ≠
        (Cfb128Encryptor.applyXor aes128 ⟨zeroOctets 16, zeroOctets 16⟩ [0, 0]).1 ∧
      decrypted aes128 (zeroOctets 16) (zeroOctets 16) [2]
        (encrypted aes128 (zeroOctets 16) (zeroOctets 16) [1, 1] [0, 0]) ≠ [0, 0] := by
  decide +kernel

end FeedbackMode

end OmniProxy.CipherModes
