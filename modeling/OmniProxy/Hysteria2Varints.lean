import OmniProxy.Hysteria2Wire

/-!
# Variable-length integers of QUIC

An integer of QUIC takes one, two, four or eight octets. The two highest bits of the
first octet are the exponent of that number, and the others are the value in network
order; a value may be written with more octets than it needs. The reader of the
program decodes every such encoding, whatever follows it, and refuses every input
that ends before the announced length. The reader with every index and every shift
checked is the same reader: no input makes it read past the end or lose a bit.
-/

namespace OmniProxy.Hysteria2Varints

open ByteStrings Connections Hysteria2Wire

/-- The encoding of a value with `2 ^ exponent` octets. -/
def quicVarint (exponent : Fin 4) (v : Nat) : Bytes :=
  bigEndian (2 ^ exponent.val) (exponent.val * 2 ^ (8 * 2 ^ exponent.val - 2) + v)

example : quicVarint 1 37 = [0x40, 0x25] := by decide

/-- An input that is empty or ends before the number of octets its first one announces. -/
def Short (data : Bytes) : Prop :=
  ∀ first ∈ data.head?, data.length < announcedLen first

/-- The loop of the reader with every index and every shift checked: an index past
the end or a shift that loses a bit ends it. -/
def checkedShifts (data : Bytes) : List Nat → UInt64 → Option UInt64
  | [], value => some value
  | i :: rest, value => do
      let octet ← data[i]?
      if value.toNat * 256 < 2 ^ 64 then checkedShifts data rest (shiftIn value octet) else none

/-- The reader with its indices and shifts checked. -/
def checkedReadVarint (data : Bytes) : Option (Except IoError (UInt64 × Nat)) :=
  if data.isEmpty then some (.error ⟨.unexpectedEof, "hysteria2: empty varint"⟩)
  else do
    let first ← data[0]?
    let len := announcedLen first
    if data.length < len then some (.error ⟨.unexpectedEof, "hysteria2: truncated varint"⟩)
    else do
      let value ← checkedShifts data (List.range' 1 (len - 1)) (first &&& 0x3F).toUInt64
      some (.ok (value, len))

/-- The two highest bits of a first octet announce the length, the others are the
highest of the value. -/
theorem first_octet (exponent : Fin 4) (high : Fin 64) :
    announcedLen (UInt8.ofNat (exponent.val * 64 + high.val)) = 2 ^ exponent.val ∧
      (UInt8.ofNat (exponent.val * 64 + high.val) &&& 0x3F).toNat = high.val := by
  revert exponent high
  decide +kernel

/-- Every encoding of a value is read as the value and its length. -/
theorem quic_varint_read (exponent : Fin 4) (v : UInt64) (suffix : Bytes)
    (fits : v.toNat < 2 ^ (8 * 2 ^ exponent.val - 2)) :
    readVarint (quicVarint exponent v.toNat ++ suffix) = .ok (v, 2 ^ exponent.val) := by
  obtain ⟨width, octets⟩ : ∃ width, 2 ^ exponent.val = width + 1 :=
    Nat.exists_eq_add_one.mpr (Nat.pow_pos (by decide))
  have bits : 2 ^ (8 * 2 ^ exponent.val - 2) = 64 * 256 ^ width := by
    rw [octets, show 8 * (width + 1) - 2 = 6 + 8 * width by omega, Nat.pow_add, Nat.pow_mul]
  have positive : 0 < 256 ^ width := Nat.pow_pos (by decide)
  have high : v.toNat / 256 ^ width < 64 := by
    rw [Nat.div_lt_iff_lt_mul positive, ← bits]
    exact fits
  have whole : exponent.val * (64 * 256 ^ width) + v.toNat =
      v.toNat + 256 ^ width * (exponent.val * 64) := by ring
  have leading : (exponent.val * 2 ^ (8 * 2 ^ exponent.val - 2) + v.toNat) / 256 ^ width =
      exponent.val * 64 + v.toNat / 256 ^ width := by
    rw [bits, whole, Nat.add_mul_div_left _ _ positive, Nat.add_comm]
  have trailing : (exponent.val * 2 ^ (8 * 2 ^ exponent.val - 2) + v.toNat) % 256 ^ width =
      v.toNat % 256 ^ width := by
    rw [bits, whole, Nat.add_mul_mod_self_left]
  obtain ⟨announced, masked⟩ := first_octet exponent ⟨v.toNat / 256 ^ width, high⟩
  obtain ⟨value, read, digits⟩ := read_varint_exact
    (UInt8.ofNat (exponent.val * 64 + v.toNat / 256 ^ width))
    (bigEndian width (exponent.val * 2 ^ (8 * 2 ^ exponent.val - 2) + v.toNat)) suffix
    (by rw [big_endian_length, announced, octets])
  have same : value = v := by
    apply UInt64.toNat_inj.mp
    rw [digits, masked, big_endian_length, big_endian_value_exact, trailing, Nat.div_add_mod']
  rw [announced, same] at read
  rw [quicVarint]
  simp only [octets, bigEndian]
  rw [← octets, leading]
  exact read

/-- An input that is too short is refused with an unexpected end. -/
theorem short_refused (data : Bytes) (short : Short data) :
    ∃ error, readVarint data = .error error ∧ error.kind = .unexpectedEof := by
  cases data with
  | nil => exact ⟨_, rfl, rfl⟩
  | cons first rest =>
    exact ⟨⟨.unexpectedEof, "hysteria2: truncated varint"⟩, if_pos (short first rfl), rfl⟩

/-- The checked loop goes through the octets at its indices: each is there, and no
shift loses a bit while the value has at most six octets behind its first six bits. -/
theorem checked_shifts_exact (octets front suffix : Bytes) (start : UInt64) (done : Nat)
    (place : front.length = done + 1) (small : start.toNat < 64 * 256 ^ done)
    (short : done + octets.length ≤ 7) :
    checkedShifts (front ++ (octets ++ suffix)) (List.range' (done + 1) octets.length) start =
      some (octets.foldl shiftIn start) := by
  induction octets generalizing front start done with
  | nil => rfl
  | cons octet octets inductionHypothesis =>
    rw [List.length_cons] at short
    have room : start.toNat < 2 ^ 56 :=
      calc start.toNat < 64 * 256 ^ done := small
        _ ≤ 64 * 256 ^ 6 := Nat.mul_le_mul_left 64 (Nat.pow_le_pow_right (by decide) (by omega))
        _ ≤ 2 ^ 56 := by decide
    have bounded : octet.toNat < 256 := octet.toNat_lt
    have stillSmall : (shiftIn start octet).toNat < 64 * 256 ^ (done + 1) := by
      rw [shift_in_value start octet room, Nat.pow_succ]
      omega
    have found : (front ++ (octet :: octets ++ suffix))[done + 1]? = some octet := by
      rw [← place, List.getElem?_append_right (Nat.le_refl _), Nat.sub_self]
      rfl
    have lossless : start.toNat * 256 < 2 ^ 64 := by omega
    have regrouped : front ++ (octet :: octets ++ suffix) =
        (front ++ [octet]) ++ (octets ++ suffix) := by simp
    rw [List.length_cons, List.range'_succ, checkedShifts, found, Option.bind_eq_bind,
      Option.bind_some, if_pos lossless, regrouped,
      inductionHypothesis (front ++ [octet]) (shiftIn start octet) (done + 1)
        (by rw [List.length_append, place]; rfl) stillSmall (by omega)]
    rfl

/-- The checked reader is the reader, on every input. -/
theorem checked_read_exact (data : Bytes) : checkedReadVarint data = some (readVarint data) := by
  cases data with
  | nil => rfl
  | cons first rest =>
    have width := announced_len_cases first
    by_cases short : (first :: rest).length < announcedLen first
    · have refused : readVarint (first :: rest) =
          .error ⟨.unexpectedEof, "hysteria2: truncated varint"⟩ := if_pos short
      rw [refused]
      exact if_pos short
    · have start : (first &&& 0x3F).toUInt64.toNat < 64 * 256 ^ 0 := by
        rw [UInt8.toNat_toUInt64, UInt8.toNat_and]
        exact Nat.lt_of_le_of_lt Nat.and_le_right (by decide)
      have count : (rest.take (announcedLen first - 1)).length = announcedLen first - 1 := by
        rw [List.length_cons] at short
        rw [List.length_take]
        omega
      have shifted := checked_shifts_exact (rest.take (announcedLen first - 1)) [first]
        (rest.drop (announcedLen first - 1)) (first &&& 0x3F).toUInt64 0 rfl start (by omega)
      rw [List.take_append_drop, count] at shifted
      have read : readVarint (first :: rest) = .ok
          ((rest.take (announcedLen first - 1)).foldl shiftIn (first &&& 0x3F).toUInt64,
            announcedLen first) := if_neg short
      rw [read]
      refine (if_neg short).trans ?_
      change (checkedShifts ([first] ++ rest) (List.range' (0 + 1) (announcedLen first - 1)) _
        >>= _) = _
      rw [shifted]
      rfl

/-- What is read is below 2^62 and within the input. -/
theorem read_varint_bounded (data : Bytes) (v : UInt64) (used : Nat)
    (read : readVarint data = .ok (v, used)) : v.toNat < 2 ^ 62 ∧ used ≤ data.length := by
  cases data with
  | nil => simp [readVarint] at read
  | cons first rest =>
    have cases := announced_len_cases first
    have enough : announcedLen first ≤ (first :: rest).length := by
      by_contra short
      have refused : readVarint (first :: rest) =
          .error ⟨.unexpectedEof, "hysteria2: truncated varint"⟩ := if_pos (by omega)
      rw [refused] at read
      cases read
    rw [List.length_cons] at enough
    have width : (rest.take (announcedLen first - 1)).length + 1 = announcedLen first := by
      rw [List.length_take]
      omega
    obtain ⟨value, exactly, digits⟩ := read_varint_exact first (rest.take (announcedLen first - 1))
      (rest.drop (announcedLen first - 1)) width
    rw [List.take_append_drop, read] at exactly
    obtain ⟨same, length⟩ := Prod.mk.inj (Except.ok.inj exactly)
    have high : (first &&& 0x3F).toNat < 64 := by
      rw [UInt8.toNat_and]
      exact Nat.lt_of_le_of_lt Nat.and_le_right (by decide)
    have low := big_endian_value_bound (rest.take (announcedLen first - 1))
    have most : 64 * 256 ^ (rest.take (announcedLen first - 1)).length ≤ 64 * 256 ^ 7 :=
      Nat.mul_le_mul_left 64 (Nat.pow_le_pow_right (by decide) (by omega))
    refine ⟨?_, by rw [length, List.length_cons]; exact enough⟩
    rw [same, digits]
    calc (first &&& 0x3F).toNat * 256 ^ (rest.take (announcedLen first - 1)).length +
          bigEndianValue (rest.take (announcedLen first - 1))
        < ((first &&& 0x3F).toNat + 1) * 256 ^ (rest.take (announcedLen first - 1)).length := by
          rw [Nat.succ_mul]
          omega
      _ ≤ 64 * 256 ^ (rest.take (announcedLen first - 1)).length := Nat.mul_le_mul_right _ high
      _ ≤ 64 * 256 ^ 7 := most
      _ = 2 ^ 62 := by decide

/-- The reader decodes every encoding of every value below 2^62, refuses every input
that ends before the announced length, and on no input reads past the end or loses a
bit. -/
theorem read_varint_quic :
    (∀ (exponent : Fin 4) (v : UInt64) (suffix : Bytes),
      v.toNat < 2 ^ (8 * 2 ^ exponent.val - 2) →
        readVarint (quicVarint exponent v.toNat ++ suffix) = .ok (v, 2 ^ exponent.val)) ∧
    (∀ data, Short data →
      ∃ error, readVarint data = .error error ∧ error.kind = .unexpectedEof) ∧
    (∀ data, checkedReadVarint data = some (readVarint data)) ∧
    ∀ data v used, readVarint data = .ok (v, used) → v.toNat < 2 ^ 62 ∧ used ≤ data.length :=
  ⟨quic_varint_read, short_refused, checked_read_exact, read_varint_bounded⟩

/-- Five in four octets, and the same encoding without its last octet. -/
theorem read_varint_quic_five :
    readVarint (quicVarint 2 5 ++ [9]) = .ok (5, 4) ∧
      (∃ error, readVarint [0x80, 0, 0] = .error error ∧ error.kind = .unexpectedEof) ∧
      (5 : UInt64).toNat < 2 ^ 62 ∧ 4 ≤ [0x80, 0, 0, 5, (9 : UInt8)].length :=
  ⟨read_varint_quic.1 2 5 [9] (by decide), read_varint_quic.2.1 [0x80, 0, 0] (by
      intro first head
      obtain rfl := Option.mem_some.mp head
      decide), read_varint_quic.2.2.2 _ _ _ (read_varint_quic.1 2 5 [9] (by decide))⟩

end OmniProxy.Hysteria2Varints
