import OmniProxy.CheckedLoops
import OmniProxy.ProtobufWire

/-!
# A reader of tagged fields

The reader has a buffer and a position in it. It reads numbers, keys and strings of octets
and skips fields whose number it does not know. A read is refused with a text; adding a
length to the position may also overflow, which stops the program.

A loop over the fields of a buffer runs one round for each field. Over a buffer that a
message was written to, it computes the fold of what one round does with a field.
-/

namespace OmniProxy.PbReaders

open ByteStrings CheckedLoops ProtobufWire EStateM

/-- A buffer and the position of the next octet. -/
structure PbReader where
  buf : Bytes
  pos : Nat
deriving DecidableEq

/-- Why a read does not return: the reader refuses, or the program stops. -/
inductive PbFault where
  | refused (error : String)
  | overflow
deriving DecidableEq

abbrev Pb := EStateM PbFault PbReader

def PbReader.new (buf : Bytes) : PbReader := ⟨buf, 0⟩

def PbReader.hasMore (reader : PbReader) : Bool := reader.pos < reader.buf.length

/-- Take the octet at the position. -/
def nextOctet : Pb UInt8 := fun reader =>
  match reader.buf[reader.pos]? with
  | none => .error (.refused "pb: eof") reader
  | some octet => .ok octet { reader with pos := reader.pos + 1 }

/-- The loop that reads a number. The shift grows by seven in each round, so there are at
most ten rounds. -/
def readGroups : Nat → Nat → Nat → Pb Nat
  | 0, _, _ => throw (.refused "pb: varint overflow")
  | rounds + 1, shift, result => do
      let octet ← nextOctet
      let result := result ||| (((octet &&& 0x7F).toNat <<< shift) % 2 ^ 64)
      if octet &&& 0x80 = 0 then return result
      if 63 < shift + 7 then throw (.refused "pb: varint overflow")
      readGroups rounds (shift + 7) result

/-- Read a number. -/
def readVarint : Pb Nat := readGroups 10 0 0

/-- Read a key: the number of a field as 32 bits, and the kind of its payload. -/
def readKey : Pb (Nat × Nat) := do
  let key ← readVarint
  return ((key >>> 3) % 2 ^ 32, key &&& 7)

/-- Move over octets that are there. -/
def advance (count : Nat) : Pb Bytes := fun reader =>
  if reader.buf.length < reader.pos + count then .error (.refused "pb: truncated") reader
  else .ok ((reader.buf.drop reader.pos).take count) { reader with pos := reader.pos + count }

/-- Read a length and the octets after it. -/
def readBytes : Pb Bytes := do
  let len ← readVarint
  let reader ← get
  if 2 ^ 64 ≤ reader.pos + len then throw .overflow
  advance len

def skipField (wire : Nat) : Pb Unit := do
  match wire with
  | 0 => let _ ← readVarint
  | 2 => let _ ← readBytes
  | 5 => let _ ← advance 4
  | 1 => let _ ← advance 8
  | _ => throw (.refused "pb: bad wire type")

/-- Run rounds while there are octets. A round that returns has read a key, so there are
no more rounds than octets. -/
def whileMore {State : Type} (round : State → Pb State) : Nat → State → Pb State
  | 0, state => return state
  | fuel + 1, state => do
      if (← get).hasMore then whileMore round fuel (← round state) else return state

/-- Read the fields of a buffer. -/
def readFields {State : Type} (round : State → Pb State) (start : State) (buf : Bytes) :
    EStateM.Result PbFault PbReader State :=
  whileMore round buf.length start (PbReader.new buf)

/-- What a refused read comes to where errors are dropped. -/
def okOrNone {State : Type} : EStateM.Result PbFault PbReader State → Except PbFault (Option State)
  | .ok state _ => .ok (some state)
  | .error (.refused _) _ => .ok none
  | .error .overflow _ => .error .overflow

/-- An action reads octets at the position: over any buffer that has them there it returns
the value and stands behind them. -/
def Reads {α : Type} (action : Pb α) (octets : Bytes) (value : α) : Prop :=
  ∀ front back, (front ++ octets ++ back).length < 2 ^ 64 →
    action ⟨front ++ octets ++ back, front.length⟩ =
      .ok value ⟨front ++ octets ++ back, (front ++ octets).length⟩

section Rules

variable {α β : Type}

/-- A sequence reads what its parts read. -/
theorem Reads.bind {action : Pb α} {next : α → Pb β} {octets more : Bytes} {value : α}
    {result : β} (first : Reads action octets value) (second : Reads (next value) more result) :
    Reads (action >>= next) (octets ++ more) result := by
  intro front back held
  have one := first front (more ++ back) (by simpa using held)
  have two := second (front ++ octets) back (by simpa using held)
  simp only [List.append_assoc] at one two ⊢
  simp only [Bind.bind, EStateM.bind, one, two]

/-- After an action that returns the next one goes on with its state. -/
theorem bind_returned {ε σ α β : Type} {action : EStateM ε σ α} {next : α → EStateM ε σ β}
    {before after : σ} {value : α} (ran : action before = .ok value after) :
    (action >>= next) before = next value after := by
  simp only [Bind.bind, EStateM.bind, ran]

/-- After an action that fails nothing is run. -/
theorem bind_failed {ε σ α β : Type} {action : EStateM ε σ α} {next : α → EStateM ε σ β}
    {before after : σ} {error : ε} (ran : action before = .error error after) :
    (action >>= next) before = .error error after := by
  simp only [Bind.bind, EStateM.bind, ran]

/-- What comes after a look at the reader is run with it. -/
theorem get_then (next : PbReader → Pb β) (reader : PbReader) :
    (get >>= next) reader = next reader reader := rfl

/-- Returning reads nothing. -/
theorem reads_pure (value : α) : Reads (pure value) [] value := by
  intro front back _
  simp [Pure.pure, EStateM.pure]

/-- A value that is read may be passed on. -/
theorem Reads.map {action : Pb α} {octets : Bytes} {value : α} (reads : Reads action octets value)
    (function : α → β) :
    Reads (action >>= fun value => pure (function value)) octets (function value) := by
  rw [← List.append_nil octets]
  exact reads.bind (reads_pure (function value))

/-- An octet that is there is taken. -/
theorem reads_next_octet (octet : UInt8) : Reads nextOctet [octet] octet := by
  intro front back _
  simp [nextOctet]

/-- Octets that are there are moved over. -/
theorem reads_advance (octets : Bytes) : Reads (advance octets.length) octets octets := by
  intro front back _
  simp [advance]

end Rules

section Numbers

/-- The high bit of an octet is clear when the octet is below 128. -/
theorem high_bit_clear_iff (octet : UInt8) : octet &&& 0x80 = 0 ↔ octet.toNat < 128 := by
  have each : ∀ value : Fin 256, UInt8.ofNat value &&& 0x80 = 0 ↔ value.val < 128 := by
    decide +kernel
  simpa using each ⟨octet.toNat, octet.toNat_lt⟩

/-- The low seven bits of an octet. -/
theorem low_bits (octet : UInt8) : (octet &&& 0x7F).toNat = octet.toNat % 128 := by
  rw [UInt8.toNat_and]
  exact Nat.and_two_pow_sub_one_eq_mod octet.toNat 7

/-- A group is put above the bits that were read before it; what does not fit is lost. -/
theorem group_added (result group shift : Nat) (below : result < 2 ^ shift)
    (narrow : shift ≤ 64) :
    result ||| (group <<< shift) % 2 ^ 64 = (result + group * 2 ^ shift) % 2 ^ 64 := by
  have width : 2 ^ 64 = 2 ^ shift * 2 ^ (64 - shift) := by
    rw [← Nat.pow_add, Nat.add_sub_cancel' narrow]
  have shifted : (group <<< shift) % 2 ^ 64 = 2 ^ shift * (group % 2 ^ (64 - shift)) := by
    rw [Nat.shiftLeft_eq, width, Nat.mul_comm, Nat.mul_mod_mul_left]
  have kept : group % 2 ^ (64 - shift) + 1 ≤ 2 ^ (64 - shift) :=
    Nat.mod_lt _ (Nat.two_pow_pos _)
  have fits : result + 2 ^ shift * (group % 2 ^ (64 - shift)) < 2 ^ 64 := by
    calc result + 2 ^ shift * (group % 2 ^ (64 - shift))
        < 2 ^ shift * (group % 2 ^ (64 - shift) + 1) := by
          rw [Nat.mul_add_one]
          omega
      _ ≤ 2 ^ shift * 2 ^ (64 - shift) := Nat.mul_le_mul_left _ kept
      _ = 2 ^ 64 := width.symm
  rw [← Nat.add_mod_mod, ← Nat.shiftLeft_eq, shifted, Nat.mod_eq_of_lt fits, Nat.or_comm,
    ← Nat.two_pow_add_eq_or_of_lt below, Nat.add_comm]

/-- The lowest group of a number and the groups above it, shifted. -/
theorem groups_shifted (group value shift : Nat) :
    (group + 128 * value) * 2 ^ shift = group * 2 ^ shift + value * 2 ^ (shift + 7) := by
  rw [Nat.pow_add, Nat.add_mul, Nat.mul_comm 128 value, Nat.mul_assoc value,
    Nat.mul_comm (2 ^ shift)]

/-- What has been read stays below the next group. -/
theorem group_below (result group shift : Nat) (below : result < 2 ^ shift) (small : group < 128) :
    result + group * 2 ^ shift < 2 ^ (shift + 7) := by
  have top : group * 2 ^ shift ≤ 127 * 2 ^ shift := Nat.mul_le_mul_right _ (by omega)
  rw [Nat.pow_add]
  omega

/-- Groups are read with the rounds that are left, as far as the number fits. -/
theorem reads_groups {octets : Bytes} {value : Nat} (groups : Groups octets value)
    (rounds shift result : Nat) (rest : shift + 7 * rounds = 70) (short : octets.length ≤ rounds)
    (below : result < 2 ^ shift) :
    Reads (readGroups rounds shift result) octets ((result + value * 2 ^ shift) % 2 ^ 64) := by
  induction groups generalizing rounds shift result with
  | last octet low =>
    obtain _ | rounds := rounds
    · simp at short
    · have group : (octet &&& 0x7F).toNat = octet.toNat := by
        rw [low_bits, Nat.mod_eq_of_lt low]
      change Reads _ ([octet] ++ []) _
      apply Reads.bind (reads_next_octet octet)
      rw [group, group_added result _ shift below (by omega),
        if_pos ((high_bit_clear_iff octet).mpr low)]
      exact reads_pure _
  | more octet tail value high spelled inductionHypothesis =>
    obtain _ | rounds := rounds
    · simp at short
    · have octet_small := octet.toNat_lt
      have group : (octet &&& 0x7F).toNat = octet.toNat - 128 := by
        rw [low_bits]
        omega
      have some_round : tail.length ≤ rounds := by simpa using short
      have one : 0 < tail.length := List.length_pos_iff.mpr (groups_nonempty spelled)
      have grown := group_below result (octet.toNat - 128) shift below (by omega)
      have small : 2 ^ (shift + 7) ≤ 2 ^ 64 := Nat.pow_le_pow_right (by decide) (by omega)
      have added := group_added result (octet.toNat - 128) shift below (by omega)
      rw [Nat.mod_eq_of_lt (grown.trans_le small)] at added
      have later := inductionHypothesis rounds (shift + 7) _ (by omega) some_round grown
      have goes : ¬octet &&& 0x80 = 0 := by
        rw [high_bit_clear_iff]
        omega
      have room : ¬63 < shift + 7 := by omega
      rw [groups_shifted, ← Nat.add_assoc]
      change Reads _ ([octet] ++ tail) _
      apply Reads.bind (reads_next_octet octet)
      rw [group, added, if_neg goes]
      simpa only [room, if_false] using later

/-- A number that is written is read. -/
theorem reads_varint {octets : Bytes} {value : Nat} (number : Varint octets value) :
    Reads readVarint octets value := by
  have reads := reads_groups number.groups 10 0 0 rfl number.short (by simp)
  rwa [Nat.zero_add, Nat.pow_zero, Nat.mul_one, Nat.mod_eq_of_lt number.bounded] at reads

end Numbers

section Fields

/-- The key of a field is read as its number and the kind of its payload. -/
theorem reads_key (field : Field) (key : Bytes) (spelled : Varint key field.key) :
    Reads readKey key (field.number, field.payload.wireType) := by
  have number : (field.key >>> 3) % 2 ^ 32 = field.number := by
    have bounded := field.bounded
    rw [Nat.shiftRight_eq_div_pow, show 2 ^ 3 = 8 from rfl, key_number]
    omega
  have wire : field.key &&& 7 = field.payload.wireType := by
    rw [← key_wire_type field]
    exact Nat.and_two_pow_sub_one_eq_mod field.key 3
  rw [← List.append_nil key]
  apply Reads.bind (reads_varint spelled)
  rw [number, wire]
  exact reads_pure _

/-- A string of octets is read after its length. -/
theorem reads_bytes (octets count : Bytes) (spelled : Varint count octets.length) :
    Reads readBytes (count ++ octets) octets := by
  apply Reads.bind (reads_varint spelled)
  intro front back held
  have room : ¬2 ^ 64 ≤ front.length + octets.length := by
    simp only [List.length_append] at held
    omega
  have moved := reads_advance octets front back held
  rw [get_then, if_neg room]
  exact moved

/-- A field that is not known is skipped. -/
theorem reads_skip (payload : Payload) (octets : Bytes) (written : payload.Written octets) :
    Reads (skipField payload.wireType) octets () := by
  rw [← List.append_nil octets]
  cases written with
  | varint value _ number => exact Reads.bind (reads_varint number) (reads_pure ())
  | fixed64 array =>
    have moved := reads_advance array.toList
    rw [array.toList_length] at moved
    exact Reads.bind moved (reads_pure ())
  | bytes string count number => exact Reads.bind (reads_bytes string count number) (reads_pure ())
  | fixed32 array =>
    have moved := reads_advance array.toList
    rw [array.toList_length] at moved
    exact Reads.bind moved (reads_pure ())

variable {State : Type} {round : State → Pb State} {update : State → Field → Except PbFault State}

/-- The loop over a message takes its fields one by one. -/
theorem while_more_folds
    (reads : ∀ state field octets after, field.Written octets → update state field = .ok after →
      Reads (round state) octets after)
    {fields : List Field} {octets : Bytes} (message : Message fields octets) (fuel : Nat)
    (enough : fields.length ≤ fuel) (front : Bytes) (held : (front ++ octets).length < 2 ^ 64)
    (start final : State) (folds : fields.foldlM update start = .ok final) :
    whileMore round fuel start ⟨front ++ octets, front.length⟩ =
      .ok final ⟨front ++ octets, (front ++ octets).length⟩ := by
  induction message generalizing fuel front start with
  | nil =>
    obtain rfl : start = final := Except.ok.inj folds
    rw [List.append_nil]
    cases fuel with
    | zero => rfl
    | succ fuel =>
      have finished : (PbReader.mk front front.length).hasMore = false := by simp [PbReader.hasMore]
      rw [whileMore, get_then, finished]
      rfl
  | cons field fields head rest written tail inductionHypothesis =>
    obtain _ | fuel := fuel
    · simp at enough
    · obtain ⟨middle, updated, later⟩ := (fold_cons_iff update start final field fields).mp folds
      have one := reads start field head middle written updated front rest
        (by rwa [List.append_assoc])
      have some_octet : (PbReader.mk (front ++ (head ++ rest)) front.length).hasMore = true := by
        obtain ⟨key, payload, rfl, spelled, -⟩ := written
        have positive := List.length_pos_iff.mpr (groups_nonempty spelled.groups)
        simp only [PbReader.hasMore, List.length_append, decide_eq_true_eq]
        omega
      have all := inductionHypothesis fuel (Nat.le_of_succ_le_succ enough) (front ++ head)
        (by rwa [List.append_assoc]) middle later
      rw [List.append_assoc] at one all
      rw [whileMore, get_then, some_octet, if_pos rfl]
      simp only [Bind.bind, EStateM.bind, one]
      exact all

/-- Reading the fields of a message is the fold of what a round does with a field. -/
theorem read_fields_folds
    (reads : ∀ state field octets after, field.Written octets → update state field = .ok after →
      Reads (round state) octets after)
    {fields : List Field} {octets : Bytes} (message : Message fields octets)
    (held : octets.length < 2 ^ 64) (start final : State)
    (folds : fields.foldlM update start = .ok final) :
    readFields round start octets = .ok final ⟨octets, octets.length⟩ :=
  while_more_folds reads message octets.length (message_length message) [] held start final folds

end Fields

end OmniProxy.PbReaders
