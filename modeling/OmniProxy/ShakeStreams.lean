import OmniProxy.BlockStreams
import OmniProxy.Shake
import Mathlib.Data.List.Induction

/-!
# SHAKE128 against the sponge construction

The sponge construction pads a message to whole blocks of the rate, xors each
block into the lanes and permutes, and then reads its output from the lanes, one
block for each further permutation. The program's sponge works octet by octet
with a position inside the rate. Its absorbing half gathers blocks, its closing
writes the padding of the block in progress, and its squeezing half is a source
of the output stream. Cutting the message or the output into calls therefore
changes nothing.

The size parser draws two octets at a time. The draw of a parser depends on its
nonce and on the number of calls before it, whatever these calls were, so two
parsers of one nonce stay in step and one of them undoes the mask of the other.
-/

namespace OmniProxy.ShakeStreams

open ByteStrings BlockStreams Shake

section Construction

/-- The octets of the lanes, every lane least significant octet first. -/
def laneOctets (lanes : Lanes) : Bytes :=
  (lanes.toList.map fun lane => littleEndian 8 lane.toNat).flatten

/-- Xor a block into the lanes, whose octets behind the block stay as they are. -/
def xorBlock (lanes : Lanes) (block : Octets rate) : Lanes :=
  List.Vector.ofFn fun index => lanes.get index ^^^
    UInt64.ofNat (littleEndianValue ((block.toList.drop (8 * index.val)).take 8))

/-- A message with the domain bits and the padding: one octet when one is left in
the block, and otherwise zeros between the first octet and the last. -/
def spongePadded (message : Bytes) : Bytes :=
  if message.length % rate = rate - 1 then message ++ [0x9F]
  else message ++ 0x1F :: List.replicate (rate - 2 - message.length % rate) 0 ++ [0x80]

/-- The lanes after the blocks of the padded message. -/
def absorbed (message : Bytes) : Lanes :=
  (blocksOf rate (spongePadded message)).foldl
    (fun lanes block => keccakF1600 (xorBlock lanes block)) (List.Vector.replicate 25 0)

/-- The output octet at a position: every block of the rate is read from the lanes
after one permutation more. -/
def spongeOctet (message : Bytes) (position : Nat) : UInt8 :=
  (laneOctets (keccakF1600^[position / rate] (absorbed message))).getD (position % rate) 0

/-- The first octets of the output. -/
def spongeOutput (message : Bytes) (length : Nat) : Bytes :=
  (List.range length).map (spongeOctet message)

example : spongeOutput (asBytes "abc") 4 = [0x58, 0x81, 0x09, 0x2d] := by decide +kernel

end Construction

section Lanes

/-- A lane inside the state is that lane of its list. -/
theorem lane_get (lanes : Lanes) (index : Fin 25) :
    laneAt lanes.toList index.val = lanes.get index := by
  have inside : index.val < lanes.toList.length := by simp
  rw [laneAt, List.getD_eq_getElem?_getD, List.getElem?_eq_getElem inside,
    List.Vector.get_eq_get_toList]
  rfl

/-- An octet changes the lane it belongs to. -/
theorem xor_byte_get (lanes : Lanes) (place : Nat) (octet : UInt8) (index : Fin 25) :
    (xorByte lanes place octet).get index =
      if place / 8 = index.val then
        lanes.get index ^^^ (octet.toUInt64 <<< UInt64.ofNat (place % 8 * 8))
      else lanes.get index := by
  unfold xorByte
  by_cases same : place / 8 = index.val
  · have inside : place / 8 < 25 := by omega
    have lane : (⟨place / 8, inside⟩ : Fin 25) = index := Fin.ext same
    rw [dif_pos inside, if_pos same, lane, List.Vector.get_set_same, same, lane_get]
  · rw [if_neg same]
    by_cases inside : place / 8 < 25
    · rw [dif_pos inside, List.Vector.get_set_of_ne fun lane => same (congrArg Fin.val lane)]
    · rw [dif_neg inside]

/-- Xor octets into the lanes from a place on. -/
def xorFrom : Nat → Bytes → Lanes → Lanes
  | _, [], lanes => lanes
  | place, octet :: octets, lanes => xorFrom (place + 1) octets (xorByte lanes place octet)

/-- Octets are mixed in one after the other, each at its own place. -/
theorem xor_from_append (place : Nat) (first second : Bytes) (lanes : Lanes) :
    xorFrom place (first ++ second) lanes =
      xorFrom (place + first.length) second (xorFrom place first lanes) := by
  induction first generalizing place lanes with
  | nil => rfl
  | cons octet first inductionHypothesis =>
    rw [List.cons_append, xorFrom, inductionHypothesis, xorFrom, List.length_cons,
      Nat.add_assoc place 1, Nat.add_comm 1]

/-- The enumeration of the absorbing loop xors from the position on. -/
theorem xor_enumerated (octets : Bytes) (position : Nat) (lanes : Lanes) :
    octets.zipIdx.foldl (fun lanes entry => xorByte lanes (position + entry.2) entry.1) lanes =
      xorFrom position octets lanes := by
  have run : ∀ (start : Nat) (lanes : Lanes), (octets.zipIdx start).foldl
      (fun lanes entry => xorByte lanes (position + entry.2) entry.1) lanes =
      xorFrom (position + start) octets lanes := by
    induction octets with
    | nil => exact fun _ _ => rfl
    | cons octet octets inductionHypothesis =>
      intro start lanes
      rw [List.zipIdx_cons, List.foldl_cons, inductionHypothesis, xorFrom, Nat.add_assoc]
  exact run 0 lanes

/-- Xoring zeros changes no lane. -/
theorem xor_zero_octet (lanes : Lanes) (place : Nat) : xorByte lanes place 0 = lanes := by
  apply List.Vector.ext
  intro index
  rw [xor_byte_get]
  split
  · have nothing : (0 : UInt8).toUInt64 <<< UInt64.ofNat (place % 8 * 8) = 0 := by simp
    rw [nothing, UInt64.xor_zero]
  · rfl

/-- Mixing in zeros changes nothing. -/
theorem xor_zeros (count place : Nat) (lanes : Lanes) :
    xorFrom place (List.replicate count 0) lanes = lanes := by
  induction count generalizing place with
  | zero => rfl
  | succ count inductionHypothesis =>
    rw [List.replicate_succ, xorFrom, xor_zero_octet, inductionHypothesis]

/-- Two octets xored into one place are their sum xored into it. -/
theorem xor_same_octet (lanes : Lanes) (place : Nat) (first second : UInt8) :
    xorByte (xorByte lanes place first) place second = xorByte lanes place (first ^^^ second) := by
  apply List.Vector.ext
  intro index
  rw [xor_byte_get, xor_byte_get, xor_byte_get]
  split
  · rw [UInt64.xor_assoc, UInt8.toUInt64_xor, UInt64.shiftLeft_xor]
  · rfl

/-- Above the digits of a value another digit is added by xor. -/
theorem xor_digit (value digit width : Nat) (small : value < 2 ^ width) :
    value + digit * 2 ^ width = value ^^^ (digit <<< width) := by
  rw [Nat.add_comm, Nat.mul_comm, Nat.two_pow_add_eq_or_of_lt small]
  apply Nat.eq_of_testBit_eq
  intro bit
  rw [Nat.testBit_or, Nat.testBit_xor, Nat.testBit_two_pow_mul, Nat.testBit_shiftLeft]
  by_cases above : width ≤ bit
  · have clear : value.testBit bit = false :=
      Nat.testBit_lt_two_pow (Nat.lt_of_lt_of_le small (Nat.pow_le_pow_right (by decide) above))
    simp [clear]
  · simp [above]

/-- A digit in base 256 has eight bits. -/
theorem two_pow_octets (count : Nat) : 256 ^ count = 2 ^ (count * 8) := by
  rw [Nat.mul_comm, Nat.pow_mul]

/-- The lanes after xoring a string from the start: every lane gained the value
of its eight octets. The string grows at its end, and its last octet is the most
significant one so far of its lane. -/
theorem xor_from_get (octets : Bytes) (lanes : Lanes) (index : Fin 25) :
    (xorFrom 0 octets lanes).get index = lanes.get index ^^^
      UInt64.ofNat (littleEndianValue ((octets.drop (8 * index.val)).take 8)) := by
  induction octets using List.reverseRec with
  | nil => simp [xorFrom, littleEndianValue]
  | append_singleton octets octet inductionHypothesis =>
    rw [xor_from_append, Nat.zero_add, xorFrom, xorFrom, xor_byte_get, inductionHypothesis]
    by_cases same : octets.length / 8 = index.val
    · have start : 8 * index.val ≤ octets.length := by omega
      have width : (octets.drop (8 * index.val)).length = octets.length % 8 := by
        rw [List.length_drop]
        omega
      have small : littleEndianValue (octets.drop (8 * index.val)) <
          2 ^ (octets.length % 8 * 8) := by
        have bound := little_endian_value_bound (octets.drop (8 * index.val))
        rwa [width, two_pow_octets] at bound
      have shifted : octet.toUInt64 <<< UInt64.ofNat (octets.length % 8 * 8) =
          UInt64.ofNat (octet.toNat <<< (octets.length % 8 * 8)) := by
        rw [UInt64.ofNat_shiftLeft _ _ (by omega), UInt64.ofNat_uInt8ToNat]
      rw [if_pos same, List.drop_append_of_le_length start, List.take_of_length_le (by omega),
        List.take_of_length_le (by rw [List.length_append, width, List.length_singleton]; omega),
        little_endian_value_snoc, width, two_pow_octets, xor_digit _ _ _ small, UInt64.ofNat_xor,
        shifted, UInt64.xor_assoc]
    · rw [if_neg same]
      by_cases before : index.val < octets.length / 8
      · have start : 8 * index.val ≤ octets.length := by omega
        have full : 8 ≤ (octets.drop (8 * index.val)).length := by
          rw [List.length_drop]
          omega
        rw [List.drop_append_of_le_length start, List.take_append_of_le_length full]
      · rw [List.drop_eq_nil_of_le (by omega : octets.length ≤ 8 * index.val),
          List.drop_eq_nil_of_le (by rw [List.length_append, List.length_singleton]; omega)]

/-- Mixing in a whole block is the addition of the block. -/
theorem xor_from_block (lanes : Lanes) (block : Octets rate) :
    xorFrom 0 block.toList lanes = xorBlock lanes block := by
  apply List.Vector.ext
  intro index
  rw [xor_from_get, xorBlock, List.Vector.get_ofFn]

end Lanes

section Absorbing

/-- What the sponge does with a whole block. -/
def permuteBlock (lanes : Lanes) (block : Octets rate) : Lanes :=
  keccakF1600 (xorFrom 0 block.toList lanes)

/-- The sponge that has permuted all whole blocks and xored the octets held. -/
def sponged (gatherer : Gatherer UInt8 Lanes rate) : Shake128 :=
  ⟨xorFrom 0 gatherer.held gatherer.chain, gatherer.held.length, false,
    Nat.le_of_lt gatherer.unfilled⟩

/-- The octets one round of the absorbing loop takes: what fits, at most everything. -/
def fitting (sponge : Shake128) (data : Bytes) : Nat := min (rate - sponge.pos) data.length

/-- A round that reaches the rate permutes. -/
theorem absorb_loop_full (rounds : Nat) (data : Bytes) (sponge : Shake128) (nonempty : data ≠ [])
    (full : sponge.pos + fitting sponge data = rate) :
    Shake128.absorbLoop (rounds + 1) data sponge =
      Shake128.absorbLoop rounds (data.drop (fitting sponge data))
        ⟨keccakF1600 (xorFrom sponge.pos (data.take (fitting sponge data)) sponge.state), 0,
          sponge.finalized, Nat.zero_le _⟩ := by
  conv_lhs => unfold Shake128.absorbLoop
  rw [if_neg (by simpa using nonempty), ← xor_enumerated]
  exact if_pos full

/-- A round that stays below the rate keeps its octets in the lanes. -/
theorem absorb_loop_short (rounds : Nat) (data : Bytes) (sponge : Shake128) (nonempty : data ≠ [])
    (short : sponge.pos + fitting sponge data < rate) :
    Shake128.absorbLoop (rounds + 1) data sponge =
      Shake128.absorbLoop rounds (data.drop (fitting sponge data))
        ⟨xorFrom sponge.pos (data.take (fitting sponge data)) sponge.state,
          sponge.pos + fitting sponge data, sponge.finalized, Nat.le_of_lt short⟩ := by
  conv_lhs => unfold Shake128.absorbLoop
  rw [if_neg (by simpa using nonempty)]
  simp only [← xor_enumerated]
  exact if_neg (Nat.ne_of_lt short)

/-- The absorbing loop gathers the octets one after the other. -/
theorem absorb_loop_gathers (rounds : Nat) (data : Bytes) (gatherer : Gatherer UInt8 Lanes rate)
    (enough : data.length ≤ rounds) :
    Shake128.absorbLoop rounds data (sponged gatherer) =
      sponged (data.foldl (gather permuteBlock) gatherer) := by
  induction rounds generalizing data gatherer with
  | zero =>
    have empty : data = [] := List.eq_nil_of_length_eq_zero (by omega)
    subst empty
    rfl
  | succ rounds inductionHypothesis =>
    by_cases empty : data = []
    · subst empty
      rfl
    · have unfilled := gatherer.unfilled
      have positive : 0 < data.length := List.length_pos_iff.mpr empty
      obtain ⟨take, limit⟩ : ∃ take, fitting (sponged gatherer) data = take := ⟨_, rfl⟩
      have most : take = min (rate - gatherer.held.length) data.length := limit.symm
      have rest : (data.drop take).length ≤ rounds := by
        rw [List.length_drop]
        omega
      have parts : data.foldl (gather permuteBlock) gatherer =
          (data.drop take).foldl (gather permuteBlock)
            ((data.take take).foldl (gather permuteBlock) gatherer) := by
        rw [← List.foldl_append, List.take_append_drop]
      have length : (gatherer.held ++ data.take take).length = gatherer.held.length + take := by
        rw [List.length_append, List.length_take]
        omega
      have xored : xorFrom 0 (gatherer.held ++ data.take take) gatherer.chain =
          xorFrom gatherer.held.length (data.take take)
            (xorFrom 0 gatherer.held gatherer.chain) := by
        rw [xor_from_append, Nat.zero_add]
      by_cases full : gatherer.held.length + take = rate
      · have permuted := absorb_loop_full rounds data (sponged gatherer) empty (limit ▸ full)
        rw [limit] at permuted
        rw [permuted, parts, gather_full permuteBlock _ gatherer (length.trans full),
          ← inductionHypothesis _ _ rest]
        simp only [sponged, fresh, permuteBlock, List.Vector.toList_mk, xored, xorFrom,
          List.length_nil]
      · have below : gatherer.held.length + take < rate := by omega
        have kept := absorb_loop_short rounds data (sponged gatherer) empty (limit ▸ below)
        simp only [limit] at kept
        rw [kept, parts, gather_short permuteBlock _ gatherer (length ▸ below),
          ← inductionHypothesis _ _ rest]
        simp only [sponged, length, xored]

/-- Absorbing pieces gathers the octets of their concatenation. -/
theorem absorb_pieces (pieces : List Bytes) (gatherer : Gatherer UInt8 Lanes rate) :
    pieces.foldl Shake128.absorb (sponged gatherer) =
      sponged (pieces.flatten.foldl (gather permuteBlock) gatherer) := by
  induction pieces generalizing gatherer with
  | nil => rfl
  | cons piece pieces inductionHypothesis =>
    rw [List.foldl_cons, Shake128.absorb, absorb_loop_gathers _ _ _ (Nat.le_succ _),
      inductionHypothesis, List.flatten_cons, List.foldl_append]

/-- The octets that complete the block in progress. -/
def blockPadding (held : Nat) : Bytes :=
  if held = rate - 1 then [0x9F] else 0x1F :: List.replicate (rate - 2 - held) 0 ++ [0x80]

/-- The padding is the domain octet at the position and the final bit at the end
of the rate, which may be one octet. -/
theorem padding_xored (lanes : Lanes) (held : Nat) (unfilled : held < rate) :
    xorFrom held (blockPadding held) lanes =
      xorByte (xorByte lanes held 0x1F) (rate - 1) 0x80 := by
  unfold blockPadding
  by_cases last : held = rate - 1
  · rw [if_pos last, last]
    exact (xor_same_octet lanes (rate - 1) 0x1F 0x80).symm
  · have behind : held + (rate - 2 - held + 1) = rate - 1 := by
      simp only [rate] at unfilled last ⊢
      omega
    rw [if_neg last, xor_from_append, List.length_cons, List.length_replicate, behind]
    change xorByte (xorFrom (held + 1) _ (xorByte lanes held 0x1F)) (rate - 1) 0x80 = _
    rw [xor_zeros]

/-- Closing a sponge is permuting the block in progress with its padding. -/
theorem finalize_pads (gatherer : Gatherer UInt8 Lanes rate) :
    (sponged gatherer).finalize.state =
      keccakF1600 (xorFrom 0 (gatherer.held ++ blockPadding gatherer.held.length)
        gatherer.chain) := by
  rw [xor_from_append, Nat.zero_add, padding_xored _ _ gatherer.unfilled]
  rfl

/-- The padding of a message completes its last block. -/
theorem sponge_padded_block (message : Bytes) :
    spongePadded message = message ++ blockPadding (message.length % rate) := by
  unfold spongePadded blockPadding
  split
  · rfl
  · rw [List.append_assoc]

/-- The padding fills the block in progress. -/
theorem block_padding_length (held : Nat) (unfilled : held < rate) :
    held + (blockPadding held).length = rate := by
  unfold blockPadding
  by_cases last : held = rate - 1
  · rw [if_pos last, last]
    rfl
  · rw [if_neg last, List.length_append, List.length_cons, List.length_replicate]
    simp only [rate, List.length_singleton] at unfilled last ⊢
    omega

/-- The lanes of a closed sponge are those of the construction after the padded
message. -/
theorem finalize_absorbed (pieces : List Bytes) :
    (pieces.foldl Shake128.absorb Shake128.new).finalize =
      ⟨absorbed pieces.flatten, 0, true, Nat.zero_le _⟩ := by
  have positive : 0 < rate := by decide
  have empty : Shake128.new = sponged (fresh positive (List.Vector.replicate 25 0)) := rfl
  have step : permuteBlock = fun lanes block => keccakF1600 (xorBlock lanes block) := by
    funext lanes block
    rw [permuteBlock, xor_from_block]
  obtain ⟨-, held⟩ := gather_exact permuteBlock positive pieces.flatten (List.Vector.replicate 25 0)
  have level := congrArg List.length held
  rw [remainder_length] at level
  have whole := (gather_exact permuteBlock positive (spongePadded pieces.flatten)
    (List.Vector.replicate 25 0)).1
  rw [sponge_padded_block, List.foldl_append, ← sponge_padded_block] at whole
  rw [empty, absorb_pieces]
  generalize pieces.flatten.foldl (gather permuteBlock)
    (fresh positive (List.Vector.replicate 25 0)) = gatherer at level whole
  have full : (gatherer.held ++ blockPadding gatherer.held.length).length = rate := by
    rw [List.length_append, block_padding_length _ gatherer.unfilled]
  rw [← level, gather_full permuteBlock _ gatherer full] at whole
  have state : (sponged gatherer).finalize.state = absorbed pieces.flatten := by
    rw [finalize_pads, absorbed, ← step]
    exact whole
  rw [← state]
  rfl

end Absorbing

section Squeezing

/-- A digit of a little-endian string. -/
theorem little_endian_digit (width value place : Nat) (inside : place < width) :
    (littleEndian width value)[place]? = some (UInt8.ofNat (value / 256 ^ place)) := by
  induction width generalizing value place with
  | zero => omega
  | succ width inductionHypothesis =>
    cases place with
    | zero => simp [littleEndian]
    | succ place =>
      rw [littleEndian, List.getElem?_cons_succ, inductionHypothesis _ _ (by omega),
        Nat.div_div_eq_div_mul, Nat.pow_succ, Nat.mul_comm]

/-- The octets of the lanes at a place are those of the lane there. -/
theorem octets_of_lanes (lanes : List UInt64) (place : Nat) :
    ((lanes.map fun lane => littleEndian 8 lane.toNat).flatten).getD place 0 =
      UInt8.ofNat ((laneAt lanes (place / 8)).toNat / 256 ^ (place % 8)) := by
  induction lanes generalizing place with
  | nil => simp [laneAt]
  | cons lane lanes inductionHypothesis =>
    rw [List.map_cons, List.flatten_cons]
    by_cases first : place < 8
    · rw [List.getD_eq_getElem?_getD, List.getElem?_append_left (by simpa using first),
        little_endian_digit 8 _ _ first, Nat.div_eq_of_lt first, Nat.mod_eq_of_lt first]
      rfl
    · obtain ⟨later, split⟩ : ∃ later, place = later + 8 := ⟨place - 8, by omega⟩
      subst split
      have quotient : (later + 8) / 8 = later / 8 + 1 := by omega
      have remaining : (later + 8) % 8 = later % 8 := by omega
      rw [List.getD_eq_getElem?_getD, List.getElem?_append_right (by simp),
        little_endian_length, Nat.add_sub_cancel, ← List.getD_eq_getElem?_getD,
        inductionHypothesis, quotient, remaining]
      rfl

/-- The shift of the squeezing half takes an octet of its lane. -/
theorem squeezed_octet (lanes : Lanes) (place : Nat) :
    (laneAt lanes.toList (place / 8) >>> UInt64.ofNat (place % 8 * 8)).toUInt8 =
      (laneOctets lanes).getD place 0 := by
  rw [laneOctets, octets_of_lanes]
  apply UInt8.toNat_inj.mp
  have shift : place % 8 * 8 % 2 ^ 64 % 64 = place % 8 * 8 := by omega
  rw [UInt64.toNat_toUInt8, UInt64.toNat_shiftRight, UInt64.toNat_ofNat', UInt8.toNat_ofNat',
    two_pow_octets, Nat.shiftRight_eq_div_pow, shift]

/-- A sponge whose input is closed. -/
def closed (sponge : Shake128) : Shake128 := if sponge.finalized then sponge else sponge.finalize

/-- A closed sponge has given out the output up to a position: it permuted once
for every block it has left behind. -/
def At (message : Bytes) (position : Nat) (sponge : Shake128) : Prop :=
  sponge.finalized = true ∧ ∃ blocks, position = blocks * rate + sponge.pos ∧
    sponge.state = keccakF1600^[blocks] (absorbed message)

/-- The sponge with the next octet inside its rate. -/
def refilled (sponge : Shake128) : Shake128 :=
  if sponge.pos = rate then ⟨keccakF1600 sponge.state, 0, sponge.finalized, Nat.zero_le _⟩
  else sponge

/-- Refilling happens between two octets of the output. -/
theorem refilled_at (message : Bytes) (position : Nat) (sponge : Shake128)
    (reached : At message position sponge) :
    At message position (refilled sponge) ∧ (refilled sponge).pos < rate := by
  obtain ⟨final, blocks, place, state⟩ := reached
  unfold refilled
  by_cases used : sponge.pos = rate
  · rw [if_pos used]
    refine ⟨⟨final, blocks + 1, ?_, ?_⟩, (by decide : 0 < rate)⟩
    · rw [place, used, Nat.succ_mul, Nat.add_zero]
    · rw [Function.iterate_succ_apply', ← state]
  · rw [if_neg used]
    exact ⟨⟨final, blocks, place, state⟩, Nat.lt_of_le_of_ne sponge.within used⟩

/-- The next octet is that of the construction, and the sponge moves on by one. -/
theorem squeeze_byte_follows (message : Bytes) (position : Nat) (sponge : Shake128)
    (reached : At message position sponge) :
    sponge.squeezeByte.1 = spongeOctet message position ∧
      At message (position + 1) sponge.squeezeByte.2 := by
  obtain ⟨⟨final, blocks, place, state⟩, inside⟩ := refilled_at message position sponge reached
  have block : position / rate = blocks := by
    rw [place, Nat.mul_comm, Nat.mul_add_div (by decide), Nat.div_eq_of_lt inside, Nat.add_zero]
  have offset : position % rate = (refilled sponge).pos := by
    rw [place, Nat.mul_comm, Nat.mul_add_mod, Nat.mod_eq_of_lt inside]
  constructor
  · rw [spongeOctet, block, offset, ← state, ← squeezed_octet]
    rfl
  · exact ⟨final, blocks, by rw [place, Nat.add_assoc]; rfl, state⟩

/-- Squeezing continues the output of the construction. -/
theorem squeeze_follows (message : Bytes) (position count : Nat) (sponge : Shake128)
    (reached : At message position (closed sponge)) :
    (sponge.squeeze count).1 = streamed (spongeOctet message) position count ∧
      At message (position + count) (sponge.squeeze count).2 := by
  have loop : ∀ (count : Nat) (sponge : Shake128),
      Shake128.squeezeLoop count sponge = taken Shake128.squeezeByte count sponge := by
    intro count
    induction count with
    | zero => exact fun _ => rfl
    | succ count inductionHypothesis =>
      intro sponge
      rw [Shake128.squeezeLoop, taken]
      simp only [inductionHypothesis]
  rw [Shake128.squeeze, loop]
  exact taken_streamed Shake128.squeezeByte (spongeOctet message) (At message)
    (squeeze_byte_follows message) count position (closed sponge) reached

/-- Squeeze several strings, one in each call. -/
def squeezes (counts : List Nat) (sponge : Shake128) : List Bytes × Shake128 :=
  inCalls Shake128.squeeze counts sponge

/-- Calls continue the output of the construction one after the other, and each
gets what it asks for. -/
theorem squeezes_follow (message : Bytes) (counts : List Nat) (position : Nat) (sponge : Shake128)
    (reached : At message position (closed sponge)) :
    (squeezes counts sponge).1.flatten =
        streamed (spongeOctet message) position (requested counts) ∧
      (squeezes counts sponge).1.map List.length = counts := by
  induction counts generalizing position sponge with
  | nil => exact ⟨rfl, rfl⟩
  | cons count counts inductionHypothesis =>
    obtain ⟨first, advanced⟩ := squeeze_follows message position count sponge reached
    have still : closed (sponge.squeeze count).2 = (sponge.squeeze count).2 := if_pos advanced.1
    obtain ⟨rest, lengths⟩ :=
      inductionHypothesis (position + count) (sponge.squeeze count).2 (still.symm ▸ advanced)
    rw [squeezes] at rest lengths ⊢
    constructor
    · rw [inCalls, List.flatten_cons, first, rest, streamed_append]
      rfl
    · rw [inCalls, List.map_cons, lengths, first, streamed_length]

/-- A sponge that only absorbed is at the start of its message's output. -/
theorem absorbed_at_start (pieces : List Bytes) :
    At pieces.flatten 0 (closed (pieces.foldl Shake128.absorb Shake128.new)) := by
  have opened : (pieces.foldl Shake128.absorb Shake128.new).finalized = false := by
    have empty : Shake128.new = sponged (fresh (by decide) (List.Vector.replicate 25 0)) := rfl
    rw [empty, absorb_pieces]
    rfl
  rw [closed, opened, if_neg Bool.false_ne_true, finalize_absorbed]
  exact ⟨rfl, 0, rfl, rfl⟩

end Squeezing

section SizeParser

/-- A call of a size parser. -/
inductive Call where
  | nextPaddingLen
  | encode (size : UInt16)
  | decode (high low : UInt8)
deriving Repr

/-- The parser after a call. -/
def Call.after (parser : ShakeSizeParser) : Call → ShakeSizeParser
  | .nextPaddingLen => parser.nextPaddingLen.2
  | .encode size => (parser.encode size).2
  | .decode high low => (parser.decode high low).2

/-- The parser of a nonce after some calls. -/
def parserAfter (nonce : Bytes) (calls : List Call) : ShakeSizeParser :=
  calls.foldl Call.after (ShakeSizeParser.new nonce)

/-- The draw of a nonce at an index: two octets of its output. -/
def sizeDraw (nonce : Bytes) (index : Nat) : UInt16 :=
  ofBigEndian16 (spongeOctet nonce (2 * index)) (spongeOctet nonce (2 * index + 1))

/-- Every call draws once. -/
theorem call_draws (parser : ShakeSizeParser) (call : Call) :
    Call.after parser call = parser.next.2 := by
  cases call <;> rfl

/-- A draw takes the next two octets. -/
theorem next_draws (nonce : Bytes) (index : Nat) (parser : ShakeSizeParser)
    (reached : At nonce (2 * index) (closed parser.shake)) :
    parser.next.1 = sizeDraw nonce index ∧
      At nonce (2 * (index + 1)) (closed parser.next.2.shake) := by
  obtain ⟨octets, advanced⟩ := squeeze_follows nonce (2 * index) 2 parser.shake reached
  have still : closed (parser.shake.squeeze 2).2 = (parser.shake.squeeze 2).2 := if_pos advanced.1
  constructor
  · have two : streamed (spongeOctet nonce) (2 * index) 2 =
        [spongeOctet nonce (2 * index), spongeOctet nonce (2 * index + 1)] := rfl
    change ofBigEndian16 ((parser.shake.squeeze 2).1.getD 0 0)
      ((parser.shake.squeeze 2).1.getD 1 0) = _
    rw [octets, two]
    rfl
  · change At nonce (2 * index + 2) (closed (parser.shake.squeeze 2).2)
    rw [still]
    exact advanced

/-- The draw after some calls depends on the nonce and on their number. -/
theorem parser_draws (nonce : Bytes) (calls : List Call) :
    (parserAfter nonce calls).next.1 = sizeDraw nonce calls.length := by
  have run : ∀ (calls : List Call) (index : Nat) (parser : ShakeSizeParser),
      At nonce (2 * index) (closed parser.shake) →
      At nonce (2 * (index + calls.length))
        (closed (calls.foldl Call.after parser).shake) := by
    intro calls
    induction calls with
    | nil => exact fun _ _ reached => reached
    | cons call calls inductionHypothesis =>
      intro index parser reached
      have advanced := (next_draws nonce index parser reached).2
      rw [List.foldl_cons, call_draws, List.length_cons, Nat.add_comm calls.length, ← Nat.add_assoc]
      exact inductionHypothesis (index + 1) _ advanced
  have start : At nonce (2 * 0) (closed (ShakeSizeParser.new nonce).shake) := by
    have first := absorbed_at_start [nonce]
    rw [List.flatten_cons, List.flatten_nil, List.append_nil] at first
    exact first
  have reached := run calls 0 _ start
  rw [Nat.zero_add] at reached
  exact (next_draws nonce calls.length _ reached).1

end SizeParser

/-- The sponge of the program computes the construction for every split of its
input and of its output. Hence the draws of a size parser depend only on its nonce
and the number of calls before them, and a parser that made as many calls as
another one undoes its mask. -/
theorem shake_split_invariant :
    (∀ (pieces : List Bytes) (counts : List Nat),
      (squeezes counts (pieces.foldl Shake128.absorb Shake128.new)).1.flatten =
          spongeOutput pieces.flatten (requested counts) ∧
        (squeezes counts (pieces.foldl Shake128.absorb Shake128.new)).1.map List.length = counts) ∧
    (∀ (nonce : Bytes) (calls : List Call),
      (parserAfter nonce calls).next.1 = sizeDraw nonce calls.length) ∧
    ∀ (nonce : Bytes) (encoderCalls decoderCalls : List Call) (size : UInt16),
      encoderCalls.length = decoderCalls.length →
      ∃ high low, ((parserAfter nonce encoderCalls).encode size).1 = [high, low] ∧
        ((parserAfter nonce decoderCalls).decode high low).1 = size := by
  refine ⟨fun pieces counts => ?_, parser_draws, ?_⟩
  · obtain ⟨output, lengths⟩ :=
      squeezes_follow pieces.flatten counts 0 _ (absorbed_at_start pieces)
    refine ⟨?_, lengths⟩
    rw [output, spongeOutput, List.range_eq_range']
    rfl
  · intro nonce encoderCalls decoderCalls size same
    obtain ⟨high, low, octets, decoded⟩ := decode_encode (parserAfter nonce encoderCalls) size
    refine ⟨high, low, octets, ?_⟩
    have masks :
        (parserAfter nonce decoderCalls).next.1 = (parserAfter nonce encoderCalls).next.1 := by
      rw [parser_draws, parser_draws, same]
    have unmasked := congrArg Prod.fst decoded
    simp only [ShakeSizeParser.decode] at unmasked ⊢
    rw [masks, unmasked]

/-- Parsers of one nonce that made different calls, two each. -/
theorem shake_split_invariant_mixed_calls :
    ∃ high low,
      ((parserAfter [1, 2, 3] [.nextPaddingLen, .encode 7]).encode 300).1 = [high, low] ∧
        ((parserAfter [1, 2, 3] [.decode 4 5, .nextPaddingLen]).decode high low).1 = 300 :=
  shake_split_invariant.2.2 [1, 2, 3] _ _ 300 rfl

end OmniProxy.ShakeStreams
