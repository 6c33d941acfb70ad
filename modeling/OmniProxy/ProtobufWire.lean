import OmniProxy.ByteStrings

/-!
# The wire format of tagged fields

A message is a sequence of fields, each with a number and a payload: a number in groups of
seven bits, four or eight octets, or a string of octets after its length. The key in front
of a payload holds the number of the field and the kind of the payload.

Writing is a relation: a number may be written with more groups than it needs, and fields
may come in any order. A field that is to occur once has the payload of its last
occurrence, and one that is repeated has the payloads of all of them; occurrences with a
payload of another kind do not count.

Nothing here refers to a particular program.
-/

namespace OmniProxy.ProtobufWire

open ByteStrings

/-- Octets that spell a number in groups of seven bits, the lowest group first. Every octet
but the last has its high bit set. -/
inductive Groups : Bytes → Nat → Prop where
  | last (octet : UInt8) (low : octet.toNat < 128) : Groups [octet] octet.toNat
  | more (octet : UInt8) (rest : Bytes) (value : Nat) (high : 128 ≤ octet.toNat)
      (tail : Groups rest value) : Groups (octet :: rest) (octet.toNat - 128 + 128 * value)

/-- Octets that spell a number of at most 64 bits in at most ten groups. -/
structure Varint (octets : Bytes) (value : Nat) : Prop where
  groups : Groups octets value
  short : octets.length ≤ 10
  bounded : value < 2 ^ 64

/-- The payload of a field. -/
inductive Payload where
  | varint (value : Nat)
  | fixed64 (octets : Octets 8)
  | bytes (octets : Bytes)
  | fixed32 (octets : Octets 4)
deriving DecidableEq

/-- The kind of a payload as a key tells it. -/
def Payload.wireType : Payload → Nat
  | .varint _ => 0
  | .fixed64 _ => 1
  | .bytes _ => 2
  | .fixed32 _ => 5

/-- A field: its number, which fits in 29 bits, and its payload. -/
structure Field where
  number : Nat
  payload : Payload
  bounded : number < 2 ^ 29
deriving DecidableEq

/-- The octets of a payload. -/
inductive Payload.Written : Payload → Bytes → Prop where
  | varint (value : Nat) (octets : Bytes) (number : Varint octets value) :
      Written (.varint value) octets
  | fixed64 (octets : Octets 8) : Written (.fixed64 octets) octets.toList
  | bytes (octets count : Bytes) (number : Varint count octets.length) :
      Written (.bytes octets) (count ++ octets)
  | fixed32 (octets : Octets 4) : Written (.fixed32 octets) octets.toList

/-- The key of a field as a number. -/
def Field.key (field : Field) : Nat := field.number * 8 + field.payload.wireType

/-- The octets of a field: its key and its payload. -/
def Field.Written (field : Field) (octets : Bytes) : Prop :=
  ∃ key payload, octets = key ++ payload ∧ Varint key field.key ∧ field.payload.Written payload

/-- The octets of a sequence of fields. -/
inductive Message : List Field → Bytes → Prop where
  | nil : Message [] []
  | cons (field : Field) (fields : List Field) (front rest : Bytes)
      (head : field.Written front) (tail : Message fields rest) :
      Message (field :: fields) (front ++ rest)

/-- The strings of octets in the fields with a number, in order. -/
def bytesOf (number : Nat) (fields : List Field) : List Bytes :=
  fields.filterMap fun field =>
    match field.payload with
    | .bytes octets => if field.number = number then some octets else none
    | _ => none

/-- The numbers in the fields with a number, in order. -/
def varintsOf (number : Nat) (fields : List Field) : List Nat :=
  fields.filterMap fun field =>
    match field.payload with
    | .varint value => if field.number = number then some value else none
    | _ => none

section Shapes

/-- A kind of payload is below eight. -/
theorem wire_type_small (payload : Payload) : payload.wireType < 8 := by
  cases payload <;> simp [Payload.wireType]

/-- A key tells the number of its field. -/
theorem key_number (field : Field) : field.key / 8 = field.number := by
  have small := wire_type_small field.payload
  unfold Field.key
  omega

/-- A key tells the kind of its payload. -/
theorem key_wire_type (field : Field) : field.key % 8 = field.payload.wireType := by
  have small := wire_type_small field.payload
  unfold Field.key
  omega

/-- A number takes at least one octet. -/
theorem groups_nonempty {octets : Bytes} {value : Nat} (groups : Groups octets value) :
    octets ≠ [] := by
  cases groups <;> simp

/-- Each octet has seven bits of the number. -/
theorem groups_below {octets : Bytes} {value : Nat} (groups : Groups octets value) :
    value < 128 ^ octets.length := by
  induction groups with
  | last octet low => simpa using low
  | more octet rest value high tail inductionHypothesis =>
    have small := octet.toNat_lt
    rw [List.length_cons, Nat.pow_succ]
    omega

/-- A message has no more fields than octets. -/
theorem message_length {fields : List Field} {octets : Bytes} (message : Message fields octets) :
    fields.length ≤ octets.length := by
  induction message with
  | nil => exact Nat.le_refl 0
  | cons field fields front rest head tail inductionHypothesis =>
    obtain ⟨key, payload, rfl, spelled, -⟩ := head
    have some_octet := List.length_pos_iff.mpr (groups_nonempty spelled.groups)
    rw [List.length_cons, List.length_append, List.length_append]
    omega

/-- A string in a field is no longer than the message. -/
theorem bytes_of_length {fields : List Field} {octets : Bytes} (message : Message fields octets)
    (number : Nat) : ∀ sub ∈ bytesOf number fields, sub.length ≤ octets.length := by
  induction message with
  | nil => simp [bytesOf]
  | cons field fields front rest head tail inductionHypothesis =>
    intro sub member
    rw [List.length_append]
    obtain ⟨first, present, found⟩ := List.mem_filterMap.mp member
    rcases List.mem_cons.mp present with rfl | later
    · obtain ⟨key, payload, rfl, -, written⟩ := head
      cases shape : first.payload with
      | bytes octets =>
        simp only [shape, Option.ite_none_right_eq_some, Option.some.injEq] at found
        rw [shape] at written
        cases written with
        | bytes _ count number =>
          rw [← found.2, List.length_append, List.length_append]
          omega
      | varint value => simp [shape] at found
      | fixed64 array => simp [shape] at found
      | fixed32 array => simp [shape] at found
    · have inside := inductionHypothesis sub (List.mem_filterMap.mpr ⟨first, later, found⟩)
      omega

end Shapes

section Writing

/-- The octets of a number, without needless groups. -/
def writeGroups : Nat → Nat → Bytes
  | 0, _ => []
  | rounds + 1, value =>
      if value < 128 then [UInt8.ofNat value]
      else UInt8.ofNat (value % 128 + 128) :: writeGroups rounds (value / 128)

def writeVarint (value : Nat) : Bytes := writeGroups 10 value

def writePayload : Payload → Bytes
  | .varint value => writeVarint value
  | .fixed64 octets => octets.toList
  | .bytes octets => writeVarint octets.length ++ octets
  | .fixed32 octets => octets.toList

def writeField (field : Field) : Bytes := writeVarint field.key ++ writePayload field.payload

def writeMessage (fields : List Field) : Bytes := fields.flatMap writeField

/-- Written groups spell the number and are at most as many as the rounds. -/
theorem write_groups_spell (rounds value : Nat) (fits : value < 128 ^ rounds)
    (some_round : 0 < rounds) :
    Groups (writeGroups rounds value) value ∧ (writeGroups rounds value).length ≤ rounds := by
  induction rounds generalizing value with
  | zero => exact absurd some_round (Nat.lt_irrefl 0)
  | succ rounds inductionHypothesis =>
    rw [writeGroups]
    split
    · next small =>
      have exact : (UInt8.ofNat value).toNat = value := by
        simp only [UInt8.toNat_ofNat']
        omega
      have last := Groups.last (UInt8.ofNat value) (by rw [exact]; exact small)
      rw [exact] at last
      exact ⟨last, Nat.succ_le_succ (Nat.zero_le rounds)⟩
    · next large =>
      have again : 0 < rounds := by
        rcases Nat.eq_zero_or_pos rounds with rfl | positive
        · simp at fits
          omega
        · exact positive
      have quotient : value / 128 < 128 ^ rounds := by
        rw [Nat.pow_succ] at fits
        exact Nat.div_lt_of_lt_mul (by rwa [Nat.mul_comm])
      obtain ⟨spelled, short⟩ := inductionHypothesis (value / 128) quotient again
      have exact : (UInt8.ofNat (value % 128 + 128)).toNat = value % 128 + 128 := by
        simp only [UInt8.toNat_ofNat']
        omega
      have more := Groups.more (UInt8.ofNat (value % 128 + 128)) _ _ (by omega) spelled
      have whole : value % 128 + 128 - 128 + 128 * (value / 128) = value := by omega
      rw [exact, whole] at more
      exact ⟨more, Nat.succ_le_succ short⟩

/-- The octets that are written for a number spell it. -/
theorem write_varint_spells (value : Nat) (bounded : value < 2 ^ 64) :
    Varint (writeVarint value) value := by
  obtain ⟨groups, short⟩ := write_groups_spell 10 value
    (Nat.lt_of_lt_of_le bounded (by decide)) (by decide)
  exact ⟨groups, short, bounded⟩

/-- The numbers in a payload fit in 64 bits. -/
def Payload.Fits : Payload → Prop
  | .varint value => value < 2 ^ 64
  | .bytes octets => octets.length < 2 ^ 64
  | _ => True

/-- Every message whose numbers fit has octets. -/
theorem write_message_written (fields : List Field) (fit : ∀ field ∈ fields, field.payload.Fits) :
    Message fields (writeMessage fields) := by
  induction fields with
  | nil => exact Message.nil
  | cons field fields inductionHypothesis =>
    obtain ⟨fits, rest⟩ := List.forall_mem_cons.mp fit
    have key : field.key < 2 ^ 64 := by
      have kind := wire_type_small field.payload
      have number := field.bounded
      unfold Field.key
      omega
    have payload : field.payload.Written (writePayload field.payload) := by
      cases shape : field.payload with
      | varint value =>
        rw [shape] at fits
        exact .varint value _ (write_varint_spells value fits)
      | fixed64 octets => exact .fixed64 octets
      | bytes octets =>
        rw [shape] at fits
        exact .bytes octets _ (write_varint_spells octets.length fits)
      | fixed32 octets => exact .fixed32 octets
    exact .cons field fields _ _ ⟨_, _, rfl, write_varint_spells _ key, payload⟩
      (inductionHypothesis rest)

end Writing

end OmniProxy.ProtobufWire
