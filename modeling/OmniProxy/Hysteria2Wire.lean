import OmniProxy.Connections
import OmniProxy.CheckedLoops
import Mathlib.Tactic.Ring
import Mathlib.Tactic.IntervalCases
import Mathlib.Data.Nat.Log

/-!
# The wire format of Hysteria2

Lengths and frame types are variable-length integers. The reader takes the width
from the two highest bits of the first octet: one, two, four or eight octets. The
writer takes it from the number of significant octets of the value, of which there
may be any number from one to eight, and puts the marks of the reader's widths into
the two highest bits of the first octet, except when there is only one octet.

The results say what the reader makes of an encoding of its own form, and for which
values the writer produces one.
-/

namespace OmniProxy.Hysteria2Wire

open ByteStrings Connections CheckedLoops

section Varints

/-- The significant octets of a value in front of those already taken, at most
`rounds` of them. A value of 64 bits has at most eight. -/
def significantOctets : Nat → UInt64 → Bytes → Bytes
  | 0, _, tmp => tmp
  | rounds + 1, v, tmp =>
      let tmp := (v &&& 0xFF).toUInt8 :: tmp
      let v := v >>> 8
      if v = 0 then tmp else significantOctets rounds v tmp

/-- Append a value to a buffer. -/
def writeVarint (buf : Bytes) (v : UInt64) : Bytes :=
  let tmp := significantOctets 8 v []
  let first := tmp.headD 0
  match tmp.length with
  | 1 => buf ++ [first]
  | 2 => buf ++ (((first &&& 0x3F) ||| 0x40) :: tmp.tail)
  | 4 => buf ++ (((first &&& 0x3F) ||| 0x80) :: tmp.tail)
  | _ => buf ++ (((first &&& 0x3F) ||| 0xC0) :: tmp.tail)

/-- The encoding of a value. -/
def encodeVarint (v : UInt64) : Bytes := writeVarint [] v

/-- The number of octets that the first one announces. -/
def announcedLen (first : UInt8) : Nat :=
  match (first >>> 6).toNat with
  | 0 => 1
  | 1 => 2
  | 2 => 4
  | _ => 8

/-- Put an octet behind a value. -/
def shiftIn (value : UInt64) (octet : UInt8) : UInt64 := value <<< 8 ||| octet.toUInt64

/-- Read a value and the number of octets it used. -/
def readVarint (data : Bytes) : Except IoError (UInt64 × Nat) :=
  match data with
  | [] => .error ⟨.unexpectedEof, "hysteria2: empty varint"⟩
  | first :: rest =>
      let len := announcedLen first
      if data.length < len then .error ⟨.unexpectedEof, "hysteria2: truncated varint"⟩
      else .ok ((rest.take (len - 1)).foldl shiftIn (first &&& 0x3F).toUInt64, len)

/-- Shifting in an octet multiplies and adds, while nothing is shifted out. -/
theorem shift_in_value (value : UInt64) (octet : UInt8) (room : value.toNat < 2 ^ 56) :
    (shiftIn value octet).toNat = value.toNat * 256 + octet.toNat := by
  have small : octet.toNat < 2 ^ 8 := octet.toNat_lt
  have kept : value.toNat * 2 ^ 8 % 2 ^ 64 = 2 ^ 8 * value.toNat := by omega
  rw [shiftIn, UInt64.toNat_or, UInt64.toNat_shiftLeft, UInt8.toNat_toUInt64, Nat.shiftLeft_eq]
  simp only [UInt64.reduceToNat, Nat.reduceMod, kept]
  rw [← Nat.two_pow_add_eq_or_of_lt small]
  omega

/-- The octets shifted in behind a start value of `done` octets after six bits are
its further digits. -/
theorem shifted_octets_value (octets : Bytes) (start : UInt64) (done : Nat)
    (small : start.toNat < 64 * 256 ^ done) (short : done + octets.length ≤ 7) :
    (octets.foldl shiftIn start).toNat =
      start.toNat * 256 ^ octets.length + bigEndianValue octets := by
  induction octets generalizing start done with
  | nil => simp [bigEndianValue]
  | cons octet octets inductionHypothesis =>
    rw [List.length_cons] at short
    have bounded : octet.toNat < 256 := octet.toNat_lt
    have room : start.toNat < 2 ^ 56 :=
      calc start.toNat < 64 * 256 ^ done := small
        _ ≤ 64 * 256 ^ 6 := Nat.mul_le_mul_left 64 (Nat.pow_le_pow_right (by decide) (by omega))
        _ ≤ 2 ^ 56 := by decide
    have shifted := shift_in_value start octet room
    have stillSmall : (shiftIn start octet).toNat < 64 * 256 ^ (done + 1) := by
      rw [shifted, Nat.pow_succ]
      omega
    rw [List.foldl_cons, inductionHypothesis (shiftIn start octet) (done + 1) stillSmall
      (by omega), shifted, List.length_cons, bigEndianValue, Nat.pow_succ, Nat.add_mul]
    ring

/-- The first octet announces one of four widths. -/
theorem announced_len_cases (first : UInt8) :
    announcedLen first = 1 ∨ announcedLen first = 2 ∨ announcedLen first = 4 ∨
      announcedLen first = 8 := by
  unfold announcedLen
  split <;> simp

/-- A value of its announced width is read with the digits of its octets, whatever
follows it. -/
theorem read_varint_exact (first : UInt8) (more suffix : Bytes)
    (width : more.length + 1 = announcedLen first) :
    ∃ value, readVarint (first :: (more ++ suffix)) = .ok (value, announcedLen first) ∧
      value.toNat = (first &&& 0x3F).toNat * 256 ^ more.length + bigEndianValue more := by
  have atMost : more.length ≤ 7 := by
    have cases := announced_len_cases first
    omega
  have taken : (more ++ suffix).take (announcedLen first - 1) = more := by
    rw [← width, Nat.add_sub_cancel, List.take_left]
  have start : (first &&& 0x3F).toUInt64.toNat < 64 * 256 ^ 0 := by
    rw [UInt8.toNat_toUInt64, UInt8.toNat_and]
    exact Nat.lt_of_le_of_lt Nat.and_le_right (by decide)
  refine ⟨more.foldl shiftIn (first &&& 0x3F).toUInt64, ?_, ?_⟩
  · rw [readVarint]
    simp only [taken]
    rw [if_neg (by simp only [List.length_cons, List.length_append]; omega)]
  · rw [shifted_octets_value more _ 0 start (by omega), UInt8.toNat_toUInt64]

/-- A reader always uses the announced number of octets. -/
theorem read_varint_length (first : UInt8) (rest : Bytes) (value : UInt64) (used : Nat)
    (read : readVarint (first :: rest) = .ok (value, used)) : used = announcedLen first := by
  simp only [readVarint] at read
  split at read
  · simp at read
  · simp only [Except.ok.injEq, Prod.mk.injEq] at read
    exact read.2.symm

/-- Each round takes the last digit of the value. -/
theorem low_octet (v : UInt64) : (v &&& 0xFF).toUInt8 = UInt8.ofNat v.toNat := by
  apply UInt8.toNat_inj.mp
  have low : v.toNat &&& 0xFF = v.toNat % 2 ^ 8 := Nat.and_two_pow_sub_one_eq_mod v.toNat 8
  rw [UInt64.toNat_toUInt8, UInt64.toNat_and, UInt8.toNat_ofNat']
  simp only [UInt64.reduceToNat, low]
  omega

/-- Each round leaves the digits before the last one. -/
theorem octets_left (v : UInt64) : (v >>> 8).toNat = v.toNat / 256 := by
  rw [UInt64.toNat_shiftRight]
  simp [Nat.shiftRight_eq_div_pow]

/-- A value is taken apart into the octets of its own width. The last round is the
one that leaves nothing. -/
theorem significant_octets_exact (width rounds : Nat) (v : UInt64) (tmp : Bytes)
    (below : v.toNat < 256 ^ (width + 1)) (above : width = 0 ∨ 256 ^ width ≤ v.toNat)
    (enough : width < rounds) :
    significantOctets rounds v tmp = bigEndian (width + 1) v.toNat ++ tmp := by
  induction width generalizing rounds v tmp with
  | zero =>
    obtain ⟨rounds, rfl⟩ := Nat.exists_eq_add_of_lt enough
    have nothing : v >>> 8 = 0 := by
      apply UInt64.toNat_inj.mp
      rw [octets_left]
      simp only [UInt64.toNat_zero]
      omega
    rw [significantOctets, if_pos nothing, low_octet]
    simp [bigEndian]
  | succ width inductionHypothesis =>
    obtain ⟨rounds, rfl⟩ := Nat.exists_eq_add_of_lt enough
    have least : 256 ^ (width + 1) ≤ v.toNat := above.resolve_left (Nat.succ_ne_zero width)
    have positive : 0 < 256 ^ width := Nat.pow_pos (by decide)
    rw [Nat.pow_succ] at least below
    have left : ¬v >>> 8 = 0 := by
      intro nothing
      have value := congrArg UInt64.toNat nothing
      rw [octets_left] at value
      simp only [UInt64.toNat_zero] at value
      omega
    have rest := inductionHypothesis (width + 1 + rounds) (v >>> 8)
      ((v &&& 0xFF).toUInt8 :: tmp) (by rw [octets_left]; omega)
      (.inr (by rw [octets_left]; omega)) (by omega)
    rw [significantOctets, if_neg left, rest, octets_left, low_octet,
      big_endian_snoc (width + 1) v.toNat, List.append_assoc, List.singleton_append]

/-- The first octet of a value written with a number of octets. -/
def marked (len : Nat) (first : UInt8) : UInt8 :=
  match len with
  | 1 => first
  | 2 => (first &&& 0x3F) ||| 0x40
  | 4 => (first &&& 0x3F) ||| 0x80
  | _ => (first &&& 0x3F) ||| 0xC0

/-- The writer marks the first octet of a value's own octets. -/
theorem write_varint_marked (buf : Bytes) (v : UInt64) (width : Nat)
    (below : v.toNat < 256 ^ (width + 1)) (above : width = 0 ∨ 256 ^ width ≤ v.toNat)
    (small : width < 8) :
    writeVarint buf v = buf ++
      (marked (width + 1) (UInt8.ofNat (v.toNat / 256 ^ width)) :: bigEndian width v.toNat) := by
  have octets : significantOctets 8 v [] =
      UInt8.ofNat (v.toNat / 256 ^ width) :: bigEndian width v.toNat := by
    rw [significant_octets_exact width 8 v [] below above small, List.append_nil, bigEndian]
  simp only [writeVarint, octets, List.headD_cons, List.tail_cons, List.length_cons,
    big_endian_length, marked]
  split
  · rename_i one
    have zero : width = 0 := by omega
    simp [zero, bigEndian]
  all_goals rfl

/-- What the marks do to the reader, for every octet they are put on. -/
theorem marked_octets (first : UInt8) :
    (announcedLen (marked 1 first) = 1 ↔ first.toNat < 64) ∧
      announcedLen (marked 2 first) = 2 ∧ announcedLen (marked 4 first) = 4 ∧
      announcedLen (marked 0 first) = 8 ∧
      (∀ len ∈ [0, 1, 2, 4], (marked len first &&& 0x3F).toNat = first.toNat % 64) := by
  have every : ∀ octet : Fin 256,
      (announcedLen (marked 1 (UInt8.ofNat octet)) = 1 ↔ (octet : Nat) < 64) ∧
      announcedLen (marked 2 (UInt8.ofNat octet)) = 2 ∧
      announcedLen (marked 4 (UInt8.ofNat octet)) = 4 ∧
      announcedLen (marked 0 (UInt8.ofNat octet)) = 8 ∧
      (∀ len ∈ [0, 1, 2, 4], (marked len (UInt8.ofNat octet) &&& 0x3F).toNat = octet % 64) := by
    decide +kernel
  simpa using every ⟨first.toNat, first.toNat_lt⟩

/-- Every number of octets is marked as one of four. -/
theorem marked_cases (len : Nat) (first : UInt8) :
    ∃ kind ∈ [0, 1, 2, 4], marked len first = marked kind first ∧
      (kind = len ∨ kind = 0 ∧ len ∉ [1, 2, 4]) := by
  by_cases known : len ∈ [1, 2, 4]
  · exact ⟨len, List.mem_cons_of_mem _ known, rfl, .inl rfl⟩
  · refine ⟨0, by simp, ?_, .inr ⟨rfl, known⟩⟩
    simp only [List.mem_cons, List.not_mem_nil, or_false, not_or] at known
    simp [marked, known]

/-- The marks leave the six low bits alone. -/
theorem marked_low_bits (len : Nat) (first : UInt8) :
    (marked len first &&& 0x3F).toNat = first.toNat % 64 := by
  obtain ⟨kind, known, same, -⟩ := marked_cases len first
  rw [same]
  exact (marked_octets first).2.2.2.2 kind known

/-- The reader takes a marked octet for the first of as many octets as were written
exactly when that number is one of its widths and, for a single octet, the two bits
are free. -/
theorem announced_marked_iff (len : Nat) (first : UInt8) :
    announcedLen (marked len first) = len ↔
      len = 1 ∧ first.toNat < 64 ∨ len = 2 ∨ len = 4 ∨ len = 8 := by
  obtain ⟨one, two, four, other, -⟩ := marked_octets first
  obtain ⟨kind, known, same, which⟩ := marked_cases len first
  rcases which with rfl | ⟨rfl, unknown⟩
  · simp only [List.mem_cons, List.not_mem_nil, or_false] at known
    rcases known with rfl | rfl | rfl | rfl
    · simp [other]
    · simp [one]
    · simp [two]
    · simp [four]
  · simp only [List.mem_cons, List.not_mem_nil, or_false, not_or] at unknown
    rw [same, other]
    omega

/-- An encoding is read back exactly when the reader takes it for its own width and
the value fits behind the two bits. -/
theorem reads_back_iff (v : UInt64) (suffix : Bytes) (width : Nat)
    (below : v.toNat < 256 ^ (width + 1)) (above : width = 0 ∨ 256 ^ width ≤ v.toNat)
    (small : width < 8) :
    readVarint (encodeVarint v ++ suffix) = .ok (v, (encodeVarint v).length) ↔
      announcedLen (marked (width + 1) (UInt8.ofNat (v.toNat / 256 ^ width))) = width + 1 ∧
        v.toNat < 64 * 256 ^ width := by
  have positive : 0 < 256 ^ width := Nat.pow_pos (by decide)
  have leading : v.toNat / 256 ^ width < 256 := by
    rw [Nat.div_lt_iff_lt_mul positive, ← Nat.pow_succ']
    exact below
  rw [encodeVarint, write_varint_marked [] v width below above small, List.nil_append,
    List.length_cons, big_endian_length, List.cons_append]
  generalize octet : UInt8.ofNat (v.toNat / 256 ^ width) = first
  have firstValue : first.toNat = v.toNat / 256 ^ width := by
    rw [← octet, UInt8.toNat_ofNat']
    exact Nat.mod_eq_of_lt leading
  have digits : v.toNat < 64 * 256 ^ width ↔
      first.toNat % 64 * 256 ^ width + v.toNat % 256 ^ width = v.toNat := by
    have whole := Nat.div_add_mod' v.toNat (256 ^ width)
    rw [firstValue, ← Nat.div_lt_iff_lt_mul positive]
    constructor
    · intro fits
      rw [Nat.mod_eq_of_lt fits, whole]
    · intro same
      have quotients : v.toNat / 256 ^ width % 64 = v.toNat / 256 ^ width :=
        Nat.eq_of_mul_eq_mul_right positive (by omega)
      omega
  constructor
  · intro read
    have announced := (read_varint_length _ _ _ _ read).symm
    obtain ⟨value, again, meaning⟩ := read_varint_exact _ (bigEndian width v.toNat) suffix
      (by rw [big_endian_length, announced])
    rw [again, Except.ok.injEq, Prod.mk.injEq] at read
    rw [marked_low_bits, big_endian_length, big_endian_value_exact, read.1] at meaning
    exact ⟨announced, digits.mpr meaning.symm⟩
  · rintro ⟨announced, fits⟩
    obtain ⟨value, read, meaning⟩ := read_varint_exact _ (bigEndian width v.toNat) suffix
      (by rw [big_endian_length, announced])
    rw [marked_low_bits, big_endian_length, big_endian_value_exact, digits.mp fits] at meaning
    rw [read, UInt64.toNat_inj.mp meaning, announced]

/-- The number of octets of a value below 2^64. -/
theorem own_width (v : UInt64) : ∃ width, width < 8 ∧ v.toNat < 256 ^ (width + 1) ∧
    (width = 0 ∨ 256 ^ width ≤ v.toNat) := by
  have bounded : v.toNat < 256 ^ 8 := v.toNat_lt
  by_cases tiny : v.toNat = 0
  · exact ⟨0, by decide, by omega, .inl rfl⟩
  · refine ⟨Nat.log 256 v.toNat, ?_, Nat.lt_pow_succ_log_self (by decide) _,
      .inr (Nat.pow_log_le_self 256 tiny)⟩
    exact (Nat.log_lt_iff_lt_pow (by decide) tiny).mpr bounded

/-- Exactly which values survive: those whose number of significant octets is one of
the reader's widths and whose two highest bits at that width are free. -/
theorem varint_round_trip_iff (v : UInt64) (suffix : Bytes) (small : v.toNat < 2 ^ 62) :
    readVarint (encodeVarint v ++ suffix) = .ok (v, (encodeVarint v).length) ↔
      v.toNat < 64 ∨ (2 ^ 8 ≤ v.toNat ∧ v.toNat < 2 ^ 14) ∨
        (2 ^ 24 ≤ v.toNat ∧ v.toNat < 2 ^ 30) ∨ 2 ^ 56 ≤ v.toNat := by
  obtain ⟨width, short, below, above⟩ := own_width v
  rw [reads_back_iff v suffix width below above short, announced_marked_iff, UInt8.toNat_ofNat']
  interval_cases width <;> simp at below above ⊢ <;> omega

/-- A value of two octets with free bits, in front of other octets. -/
theorem varint_round_trip_example :
    (0x401 : UInt64).toNat < 2 ^ 62 ∧
      readVarint (encodeVarint 0x401 ++ [7]) = .ok (0x401, (encodeVarint 0x401).length) :=
  ⟨by decide, (varint_round_trip_iff 0x401 [7] (by decide)).mpr (by decide)⟩

/-- The value 64 is written as the single octet that announces a second one. -/
theorem sixty_four_is_truncated :
    (64 : UInt64).toNat < 2 ^ 62 ∧ encodeVarint 64 = [0x40] ∧
      readVarint (encodeVarint 64 ++ []) =
        .error ⟨.unexpectedEof, "hysteria2: truncated varint"⟩ ∧
      readVarint (encodeVarint 64 ++ []) ≠ .ok (64, (encodeVarint 64).length) := by
  decide

end Varints

section TcpRequests

/-- The frame type of a request for a TCP stream. -/
def frameTypeTcpRequest : UInt64 := 0x401

/-- The longest address the reader accepts. -/
def maxAddressLength : Nat := 2048

/-- The longest padding the reader accepts. -/
def maxPaddingLength : Nat := 4096

/-- A request with an address and no padding. -/
def encodeTcpRequest (addr : String) : Bytes :=
  let out := writeVarint [] frameTypeTcpRequest
  let out := writeVarint out (UInt64.ofNat (asBytes addr).length)
  let out := out ++ asBytes addr
  writeVarint out 0

/-- Read padding and return what follows it. -/
def skipPadding (rest : Bytes) : Except IoError Bytes :=
  readVarint rest >>= fun (padLen, n2) =>
    if maxPaddingLength < padLen.toNat then
      .error ⟨.invalidData, "hysteria2: padding too large"⟩
    else
      let rest := rest.drop n2
      if rest.length < padLen.toNat then
        .error ⟨.unexpectedEof, "hysteria2: truncated padding"⟩
      else .ok (rest.drop padLen.toNat)

/-- Read an address with its length and the padding behind it. -/
def decodeAddress (rest : Bytes) : Except IoError (String × Bytes) :=
  readVarint rest >>= fun (addrLen, n1) =>
    if addrLen = 0 ∨ maxAddressLength < addrLen.toNat then
      .error ⟨.invalidData, "hysteria2: invalid address length"⟩
    else
      let rest := rest.drop n1
      if rest.length < addrLen.toNat then
        .error ⟨.unexpectedEof, "hysteria2: truncated address"⟩
      else
        let addr := fromUtf8Lossy (rest.take addrLen.toNat)
        skipPadding (rest.drop addrLen.toNat) >>= fun left => .ok (addr, left)

/-- Read a request: its address and what follows the padding. -/
def decodeTcpRequest (buf : Bytes) : Except IoError (String × Bytes) :=
  readVarint buf >>= fun (frameType, n) =>
    if frameType ≠ frameTypeTcpRequest then
      .error ⟨.invalidData, "hysteria2: unexpected frame type 0x" ++
        String.ofList (Nat.toDigits 16 frameType.toNat)⟩
    else decodeAddress (buf.drop n)

/-- Writing appends the encoding. -/
theorem write_varint_append (buf : Bytes) (v : UInt64) :
    writeVarint buf v = buf ++ encodeVarint v := by
  simp only [encodeVarint, writeVarint, List.nil_append]
  split <;> rfl

/-- The frame type, the length, the address and the empty padding. -/
theorem encode_tcp_request_eq (addr : String) :
    encodeTcpRequest addr = [0x44, 0x01] ++
      (encodeVarint (UInt64.ofNat addr.utf8ByteSize) ++ (asBytes addr ++ [0])) := by
  have frame : encodeVarint frameTypeTcpRequest = [0x44, 0x01] := by decide
  have padding : encodeVarint 0 = [0] := by decide
  simp only [encodeTcpRequest, write_varint_append, frame, padding, as_bytes_length,
    List.nil_append, List.append_assoc]

/-- A request is read past its frame type. -/
theorem decode_tcp_request_typed (rest : Bytes) :
    decodeTcpRequest ([0x44, 0x01] ++ rest) = decodeAddress rest := by
  obtain ⟨value, read, meaning⟩ := read_varint_exact 0x44 [0x01] rest (by decide)
  have typed : value = frameTypeTcpRequest := UInt64.toNat_inj.mp (by rw [meaning]; decide)
  have width : announcedLen 0x44 = 2 := by decide
  rw [typed, width] at read
  rw [decodeTcpRequest, List.cons_append, read]
  rfl

/-- Which octets are read as an address. -/
theorem decode_address_iff (rest : Bytes) (addr : String) (left : Bytes) :
    decodeAddress rest = .ok (addr, left) ↔
      ∃ addrLen n1, readVarint rest = .ok (addrLen, n1) ∧
        (addrLen ≠ 0 ∧ addrLen.toNat ≤ maxAddressLength) ∧
        addrLen.toNat ≤ (rest.drop n1).length ∧
        skipPadding ((rest.drop n1).drop addrLen.toNat) = .ok left ∧
        fromUtf8Lossy ((rest.drop n1).take addrLen.toNat) = addr := by
  simp only [decodeAddress, bind_ok_iff, check_ok_iff, Prod.exists, not_or, Nat.not_lt,
    Except.ok.injEq, Prod.mk.injEq]
  constructor
  · rintro ⟨addrLen, n1, read, usable, there, middle, skipped, rfl, rfl⟩
    exact ⟨addrLen, n1, read, usable, there, skipped, rfl⟩
  · rintro ⟨addrLen, n1, read, usable, there, skipped, rfl⟩
    exact ⟨addrLen, n1, read, usable, there, left, skipped, rfl, rfl⟩

/-- The lengths that survive on the wire. -/
def SurvivingLength (length : Nat) : Prop := length < 64 ∨ 256 ≤ length

instance (length : Nat) : Decidable (SurvivingLength length) :=
  inferInstanceAs (Decidable (length < 64 ∨ 256 ≤ length))

/-- A surviving length of at most 2048 is read back in front of anything. -/
theorem surviving_length_read (length : Nat) (bounded : length ≤ 2048)
    (surviving : SurvivingLength length) :
    (UInt64.ofNat length).toNat = length ∧ ∀ suffix,
      readVarint (encodeVarint (UInt64.ofNat length) ++ suffix) =
        .ok (UInt64.ofNat length, (encodeVarint (UInt64.ofNat length)).length) := by
  have value : (UInt64.ofNat length).toNat = length := by
    rw [UInt64.toNat_ofNat']
    omega
  refine ⟨value, ?_⟩
  intro suffix
  rcases surviving with short | long
  · rw [reads_back_iff _ suffix 0 (by omega) (.inl rfl) (by decide), announced_marked_iff,
      UInt8.toNat_ofNat', value]
    omega
  · rw [reads_back_iff _ suffix 1 (by omega) (.inr (by omega)) (by decide), announced_marked_iff,
      value]
    omega

/-- An address of a surviving length is read back from its request. -/
theorem decode_encode_tcp_request (addr : String) (nonempty : 0 < addr.utf8ByteSize)
    (bounded : addr.utf8ByteSize ≤ maxAddressLength)
    (surviving : SurvivingLength addr.utf8ByteSize) :
    decodeTcpRequest (encodeTcpRequest addr) = .ok (addr, []) := by
  obtain ⟨value, read⟩ := surviving_length_read addr.utf8ByteSize bounded surviving
  rw [encode_tcp_request_eq, decode_tcp_request_typed, decode_address_iff]
  refine ⟨_, _, read _, ⟨?_, ?_⟩, ?_, ?_, ?_⟩
  · intro zero
    rw [zero] at value
    exact absurd value (by simp; omega)
  · rw [value]
    exact bounded
  · rw [List.drop_left, value, List.length_append, as_bytes_length]
    omega
  · rw [List.drop_left, value, ← as_bytes_length, List.drop_left]
    decide
  · rw [List.drop_left, value, ← as_bytes_length, List.take_left, from_utf8_lossy_as_bytes]

/-- An octet is at most the number it is a digit of. -/
theorem octet_le_big_endian_value (bytes : Bytes) (octet : UInt8) (member : octet ∈ bytes) :
    octet.toNat ≤ bigEndianValue bytes := by
  induction bytes with
  | nil => simp at member
  | cons first bytes inductionHypothesis =>
    rw [bigEndianValue]
    rcases List.mem_cons.mp member with rfl | later
    · have positive : 0 < 256 ^ bytes.length := Nat.pow_pos (by decide)
      exact Nat.le_trans (Nat.le_mul_of_pos_right _ positive) (Nat.le_add_right _ _)
    · exact Nat.le_trans (inductionHypothesis later) (Nat.le_add_left _ _)

/-- A length from 64 to 255 is written as one octet that announces several. -/
theorem encode_short_length (length : Nat) (low : 64 ≤ length) (high : length < 256) :
    encodeVarint (UInt64.ofNat length) = [UInt8.ofNat length] ∧
      (UInt8.ofNat length &&& 0x3F).toNat = length % 64 ∧
      1 < announcedLen (UInt8.ofNat length) ∧ announcedLen (UInt8.ofNat length) ≤ 8 := by
  have value : (UInt64.ofNat length).toNat = length := by
    rw [UInt64.toNat_ofNat']
    omega
  have octet : (UInt8.ofNat length).toNat = length := by
    rw [UInt8.toNat_ofNat']
    omega
  have several : announcedLen (UInt8.ofNat length) ≠ 1 := by
    rw [Ne, show UInt8.ofNat length = marked 1 (UInt8.ofNat length) from rfl,
      (marked_octets _).1, octet]
    omega
  have cases := announced_len_cases (UInt8.ofNat length)
  refine ⟨?_, ?_, by omega, by omega⟩
  · rw [encodeVarint, write_varint_marked [] _ 0 (by omega) (.inl rfl) (by decide), value,
      Nat.pow_zero, Nat.div_one]
    rfl
  · have bits := marked_low_bits 1 (UInt8.ofNat length)
    rwa [octet] at bits

/-- Padding cannot be read where nothing is left. -/
theorem skip_padding_nil (left : Bytes) : skipPadding [] ≠ .ok left := by
  intro skipped
  simp [skipPadding, readVarint, bind, Except.bind] at skipped

/-- What is read as the address when the length is written as one octet that
announces several: octets of the address are taken as part of the length, and the
rest is cut to it. The octets taken are small because the length is. -/
theorem misread_address (addr found : String) (left : Bytes)
    (low : 64 ≤ addr.utf8ByteSize) (high : addr.utf8ByteSize < 256)
    (decoded : decodeTcpRequest (encodeTcpRequest addr) = .ok (found, left)) :
    ∃ taken kept, 1 ≤ taken ∧ taken ≤ 7 ∧
      (∀ octet ∈ (asBytes addr).take taken, octet < 0xC0) ∧
      found = fromUtf8Lossy (((asBytes addr).drop taken).take kept) := by
  obtain ⟨written, bits, several, atMost⟩ := encode_short_length addr.utf8ByteSize low high
  generalize announced : announcedLen (UInt8.ofNat addr.utf8ByteSize) = width at several atMost
  obtain ⟨taken, rfl⟩ : ∃ taken, width = taken + 1 := ⟨width - 1, by omega⟩
  have size : (asBytes addr).length = addr.utf8ByteSize := as_bytes_length addr
  have front : ((asBytes addr).take taken).length = taken := by
    rw [List.length_take]
    omega
  have split : asBytes addr ++ [0] =
      (asBytes addr).take taken ++ ((asBytes addr).drop taken ++ [0]) := by
    rw [← List.append_assoc, List.take_append_drop]
  obtain ⟨value, read, meaning⟩ := read_varint_exact (UInt8.ofNat addr.utf8ByteSize)
    ((asBytes addr).take taken) ((asBytes addr).drop taken ++ [0]) (by rw [front, announced])
  rw [encode_tcp_request_eq, decode_tcp_request_typed, decode_address_iff, written] at decoded
  obtain ⟨addrLen, n1, again, -, there, skipped, rfl⟩ := decoded
  rw [List.singleton_append, split, read, Except.ok.injEq, Prod.mk.injEq, announced] at again
  obtain ⟨rfl, rfl⟩ := again
  have rest : ([UInt8.ofNat addr.utf8ByteSize] ++ (asBytes addr ++ [0])).drop (taken + 1) =
      (asBytes addr).drop taken ++ [0] := by
    rw [List.singleton_append, List.drop_succ_cons, split, List.drop_left' front]
  rw [rest] at there skipped ⊢
  have inside : value.toNat ≤ ((asBytes addr).drop taken).length := by
    by_contra beyond
    rw [List.drop_of_length_le
      (by rw [List.length_append, List.length_singleton]; omega)] at skipped
    exact skip_padding_nil left skipped
  refine ⟨taken, value.toNat, by omega, by omega, ?_, ?_⟩
  · intro octet member
    have digit := octet_le_big_endian_value _ octet member
    have multiple : addr.utf8ByteSize % 64 = 0 := by
      by_contra positive
      have power : 256 ≤ 256 ^ taken := Nat.le_self_pow (by omega) 256
      have large : 256 ^ taken ≤ addr.utf8ByteSize % 64 * 256 ^ taken :=
        Nat.le_mul_of_pos_left _ (by omega)
      rw [List.length_drop, size] at inside
      rw [bits, front] at meaning
      omega
    rw [List.length_drop, size] at inside
    rw [UInt8.lt_iff_toNat_lt]
    change octet.toNat < 192
    omega
  · rw [List.take_append_of_le_length inside]

end TcpRequests

section UdpMessages

/-- A datagram message of a session; a message may be one of several fragments. -/
structure UdpMessage where
  sessionId : UInt32
  packetId : UInt16
  fragId : UInt8
  fragCount : UInt8
  addr : String
  data : Bytes
deriving DecidableEq

/-- The longest address of a message. -/
def maxMessageLength : Nat := 2048

def UdpMessage.serialize (message : UdpMessage) : Bytes :=
  let out := bigEndian 4 message.sessionId.toNat ++ bigEndian16 message.packetId ++
    [message.fragId, message.fragCount]
  let out := writeVarint out (UInt64.ofNat (asBytes message.addr).length)
  out ++ asBytes message.addr ++ message.data

def UdpMessage.parse (buf : Bytes) : Except IoError UdpMessage :=
  if buf.length < 8 then .error ⟨.invalidData, "hysteria2: short udp message"⟩
  else
    readVarint (buf.drop 8) >>= fun (addrLen, n) =>
      if addrLen = 0 ∨ maxMessageLength < addrLen.toNat then
        .error ⟨.invalidData, "hysteria2: invalid udp address length"⟩
      else
        let rest := buf.drop (8 + n)
        if rest.length < addrLen.toNat then
          .error ⟨.unexpectedEof, "hysteria2: truncated udp address"⟩
        else
          .ok {
            sessionId := UInt32.ofNat (bigEndianValue (buf.take 4))
            packetId := ofBigEndian16 (buf.getD 4 0) (buf.getD 5 0)
            fragId := buf.getD 6 0
            fragCount := buf.getD 7 0
            addr := fromUtf8Lossy (rest.take addrLen.toNat)
            data := rest.drop addrLen.toNat }

/-- A message whose address has a surviving length is read back. -/
theorem parse_serialize (message : UdpMessage) (nonempty : 0 < message.addr.utf8ByteSize)
    (bounded : message.addr.utf8ByteSize ≤ maxMessageLength)
    (surviving : SurvivingLength message.addr.utf8ByteSize) :
    UdpMessage.parse message.serialize = .ok message := by
  obtain ⟨sessionId, packetId, fragId, fragCount, addr, data⟩ := message
  simp only at nonempty bounded surviving
  obtain ⟨high, low, octets, port⟩ := of_big_endian16_exact packetId
  obtain ⟨value, read⟩ := surviving_length_read addr.utf8ByteSize bounded surviving
  obtain ⟨one, two, three, four, number⟩ : ∃ one two three four,
      bigEndian 4 sessionId.toNat = [one, two, three, four] := ⟨_, _, _, _, rfl⟩
  have identified : UInt32.ofNat (bigEndianValue [one, two, three, four]) = sessionId := by
    rw [← number, big_endian_value_fits 4 _ sessionId.toNat_lt, UInt32.ofNat_toNat]
  have usable : ¬(UInt64.ofNat addr.utf8ByteSize = 0 ∨
      maxMessageLength < addr.utf8ByteSize) := by
    rintro (zero | large)
    · rw [zero] at value
      exact absurd value (by simp; omega)
    · exact absurd bounded (Nat.not_le.mpr large)
  have written : (UdpMessage.mk sessionId packetId fragId fragCount addr data).serialize =
      [one, two, three, four, high, low, fragId, fragCount] ++
        (encodeVarint (UInt64.ofNat addr.utf8ByteSize) ++ (asBytes addr ++ data)) := by
    simp only [UdpMessage.serialize, write_varint_append, number, octets, as_bytes_length,
      List.append_assoc, List.cons_append, List.nil_append]
  have rest : ([one, two, three, four, high, low, fragId, fragCount] ++
      (encodeVarint (UInt64.ofNat addr.utf8ByteSize) ++ (asBytes addr ++ data))).drop
        (8 + (encodeVarint (UInt64.ofNat addr.utf8ByteSize)).length) = asBytes addr ++ data := by
    rw [← List.drop_drop]
    exact List.drop_left
  rw [written, UdpMessage.parse, if_neg (by simp)]
  change (readVarint (encodeVarint (UInt64.ofNat addr.utf8ByteSize) ++ (asBytes addr ++ data))
    >>= _) = _
  rw [read, bind_ok_iff]
  refine ⟨_, rfl, ?_⟩
  simp only [rest, value]
  rw [if_neg usable, if_neg (by rw [List.length_append, as_bytes_length]; omega)]
  simp only [List.cons_append, List.take_succ_cons, List.take_zero, List.getD_cons_succ,
    List.getD_cons_zero, identified, port]
  rw [← as_bytes_length, List.take_left, List.drop_left, from_utf8_lossy_as_bytes]

end UdpMessages

section TcpResponses

/-- The answer to a request, with no padding. -/
def encodeTcpResponse (ok : Bool) (msg : String) : Bytes :=
  let out := [if ok then 0 else 1]
  let out := writeVarint out (UInt64.ofNat (asBytes msg).length)
  let out := out ++ asBytes msg
  writeVarint out 0

/-- Read an answer. Its padding is announced but not looked at. -/
def decodeTcpResponse (buf : Bytes) : Except IoError (Bool × String) :=
  match buf with
  | [] => .error ⟨.unexpectedEof, "hysteria2: empty response"⟩
  | status :: body =>
      let ok := status == 0
      readVarint body >>= fun (msgLen, n) =>
        if maxMessageLength < msgLen.toNat then
          .error ⟨.invalidData, "hysteria2: message too long"⟩
        else
          let rest := body.drop n
          if rest.length < msgLen.toNat then
            .error ⟨.unexpectedEof, "hysteria2: truncated message"⟩
          else
            let msg := fromUtf8Lossy (rest.take msgLen.toNat)
            let rest := rest.drop msgLen.toNat
            readVarint rest >>= fun (padLen, _) =>
              if maxPaddingLength < padLen.toNat then
                .error ⟨.invalidData, "hysteria2: padding too large"⟩
              else .ok (ok, msg)

/-- The status, the length, the message and the empty padding. -/
theorem encode_tcp_response_eq (ok : Bool) (msg : String) :
    encodeTcpResponse ok msg = (if ok then 0 else 1) ::
      (encodeVarint (UInt64.ofNat msg.utf8ByteSize) ++ (asBytes msg ++ [0])) := by
  have padding : encodeVarint 0 = [0] := by decide
  simp only [encodeTcpResponse, write_varint_append, padding, as_bytes_length, List.append_assoc,
    List.cons_append, List.nil_append]

end TcpResponses

end OmniProxy.Hysteria2Wire
