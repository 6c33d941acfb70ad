import OmniProxy.Digests
import OmniProxy.LossyText
import OmniProxy.TrojanHeads
import Mathlib

/-!
# The inbound side of Trojan

The reader of a head compares text: the first 56 octets are decoded with replacements
before they are compared with the digits of the hash. No replacement can stand for a
digit, so the comparison is one of octets. What the reader takes is then the grammar of a
head, on every stream, and a wrong hash is refused with nothing read behind the line end
after it.
-/

namespace OmniProxy.TrojanInbound

open AddressReads ByteStrings Connections Digests LossyText ProxyTargets TrojanHeads Utf8Text

section Casing

/-- The small letter of an ASCII capital; every other octet stays. -/
def smallOctet (octet : UInt8) : UInt8 :=
  if 0x41 ≤ octet ∧ octet ≤ 0x5A then octet + 0x20 else octet

/-- Octets that agree up to the case of ASCII letters. -/
def SameLetters (left right : Bytes) : Prop := left.map smallOctet = right.map smallOctet

instance (left right : Bytes) : Decidable (SameLetters left right) :=
  inferInstanceAs (Decidable (left.map smallOctet = right.map smallOctet))

/-- Making an octet small does not make it ASCII or take it out of ASCII. -/
theorem small_octet_ascii_iff (octet : UInt8) :
    (smallOctet octet).toNat < 128 ↔ octet.toNat < 128 := by
  rw [smallOctet]
  split
  · next capital =>
    have low := UInt8.le_iff_toNat_le.mp capital.1
    have high := UInt8.le_iff_toNat_le.mp capital.2
    have letter : 65 ≤ octet.toNat ∧ octet.toNat ≤ 90 := ⟨low, high⟩
    have shifted : (octet + 0x20).toNat = octet.toNat + 32 := by
      rw [UInt8.toNat_add]
      exact Nat.mod_eq_of_lt (by change octet.toNat + 32 < 256; omega)
    omega
  · rfl

/-- The octet of an ASCII character follows it into the small letters. -/
theorem small_octet_char (char : Char) (ascii : char.toNat < 128) :
    smallOctet (UInt8.ofNat char.toNat) = UInt8.ofNat char.toLower.toNat := by
  have code : (UInt8.ofNat char.toNat).toNat = char.toNat := octet_value (by omega)
  by_cases capital : char.isUpper
  · have range : 65 ≤ char.toNat ∧ char.toNat ≤ 90 := by
      simpa [Char.isUpper, UInt32.le_iff_toNat_le] using capital
    have valid : (char.toNat + 32).isValidChar := .inl (by omega)
    have inside : (0x41 : UInt8) ≤ UInt8.ofNat char.toNat ∧ UInt8.ofNat char.toNat ≤ 0x5A := by
      rw [UInt8.le_iff_toNat_le, UInt8.le_iff_toNat_le, code]
      exact range
    rw [Char.toLower_eq_of_isUpper capital, Char.toNat_ofNat, if_pos valid, smallOctet,
      if_pos inside, UInt8.ofNat_add]
    rfl
  · have outside : ¬((0x41 : UInt8) ≤ UInt8.ofNat char.toNat ∧ UInt8.ofNat char.toNat ≤ 0x5A) := by
      rw [UInt8.le_iff_toNat_le, UInt8.le_iff_toNat_le, code]
      simpa [Char.isUpper, UInt32.le_iff_toNat_le] using capital
    rw [Char.toLower_eq_of_not_isUpper capital, smallOctet, if_neg outside]

/-- The octets of two ASCII texts agree up to case when the texts do. -/
theorem same_letters_iff (left right : String) (leftAscii : ∀ char ∈ left.toList, char.toNat < 128)
    (rightAscii : ∀ char ∈ right.toList, char.toNat < 128) :
    SameLetters (asBytes left) (asBytes right) ↔ eqIgnoreAsciiCase left right := by
  have lowered (text : String) (ascii : ∀ char ∈ text.toList, char.toNat < 128) :
      (asBytes text).map smallOctet = asBytes (toAsciiLowercase text) := by
    have small : ∀ char ∈ text.toList.map Char.toLower, char.toNat < 128 := by
      intro char member
      obtain ⟨other, there, rfl⟩ := List.mem_map.mp member
      exact (to_lower_ascii_iff other).mpr (ascii other there)
    have octets := as_bytes_ascii text.toList ascii
    rw [String.ofList_toList] at octets
    rw [octets, toAsciiLowercase, as_bytes_ascii _ small, List.map_map, List.map_map]
    apply List.map_congr_left
    intro char member
    exact small_octet_char char (ascii char member)
  rw [SameLetters, lowered left leftAscii, lowered right rightAscii, eqIgnoreAsciiCase]
  constructor
  · intro same
    have decoded := congrArg fromUtf8Lossy same
    rwa [from_utf8_lossy_as_bytes, from_utf8_lossy_as_bytes] at decoded
  · exact congrArg asBytes

/-- A decoded text that agrees with an ASCII text has the octets that were decoded: the
replacement character has no small letter in ASCII. -/
theorem lossy_agrees_octets (octets : Bytes) (text : String)
    (ascii : ∀ char ∈ text.toList, char.toNat < 128)
    (agrees : eqIgnoreAsciiCase (fromUtf8Lossy octets) text) :
    asBytes (fromUtf8Lossy octets) = octets ∧
      ∀ char ∈ (fromUtf8Lossy octets).toList, char.toNat < 128 := by
  have letters : (fromUtf8Lossy octets).toList.map Char.toLower = text.toList.map Char.toLower :=
    String.ofList_injective agrees
  have small : ∀ char ∈ (fromUtf8Lossy octets).toList, char.toNat < 128 := by
    intro char member
    have there := List.mem_map_of_mem (f := Char.toLower) member
    rw [letters] at there
    obtain ⟨other, present, same⟩ := List.mem_map.mp there
    rw [← to_lower_ascii_iff, ← same, to_lower_ascii_iff]
    exact ascii other present
  refine ⟨?_, small⟩
  rw [from_utf8_lossy_chars, String.toList_ofList] at small
  have intact : replacement ∉ lossyChars octets := fun member =>
    absurd (small replacement member) (by decide)
  rw [from_utf8_lossy_chars, as_bytes_of_list]
  exact (repaired_exact (lossy_repaired octets) intact).symm

/-- ASCII octets are those of an ASCII text. -/
theorem ascii_octets_text (octets : Bytes) (ascii : ∀ octet ∈ octets, octet.toNat < 128) :
    ∃ text, asBytes text = octets ∧ ∀ char ∈ text.toList, char.toNat < 128 := by
  have code (octet : UInt8) : (Char.ofNat octet.toNat).toNat = octet.toNat := by
    have bounded := octet.toNat_lt
    rw [Char.toNat_ofNat, if_pos (.inl (by omega))]
  have small : ∀ char ∈ octets.map fun octet => Char.ofNat octet.toNat, char.toNat < 128 := by
    intro char member
    obtain ⟨octet, there, rfl⟩ := List.mem_map.mp member
    rw [code]
    exact ascii octet there
  refine ⟨String.ofList (octets.map fun octet => Char.ofNat octet.toNat), ?_, ?_⟩
  · rw [as_bytes_ascii _ small, List.map_map]
    refine (List.map_congr_left fun octet _ => ?_).trans (List.map_id octets)
    rw [Function.comp_apply, code, UInt8.ofNat_toNat, id]
  · rwa [String.toList_ofList]

/-- Comparing decoded octets with an ASCII text is comparing them with its octets. -/
theorem lossy_agrees_iff (octets : Bytes) (text : String)
    (ascii : ∀ char ∈ text.toList, char.toNat < 128) :
    eqIgnoreAsciiCase (fromUtf8Lossy octets) text ↔ SameLetters octets (asBytes text) := by
  constructor
  · intro agrees
    obtain ⟨own, small⟩ := lossy_agrees_octets octets text ascii agrees
    rwa [← same_letters_iff _ _ small ascii, own] at agrees
  · intro same
    have spelled := as_bytes_ascii text.toList ascii
    rw [String.ofList_toList] at spelled
    have narrow : ∀ octet ∈ octets, octet.toNat < 128 := by
      intro octet member
      have there := List.mem_map_of_mem (f := smallOctet) member
      rw [same, spelled, List.map_map] at there
      obtain ⟨char, present, small⟩ := List.mem_map.mp there
      rw [← small_octet_ascii_iff, ← small, Function.comp_apply, small_octet_ascii_iff,
        octet_value (by have := ascii char present; omega)]
      exact ascii char present
    obtain ⟨plain, own, small⟩ := ascii_octets_text octets narrow
    rwa [← own, same_letters_iff plain text small ascii, ← from_utf8_lossy_as_bytes plain,
      own] at same

/-- The digits of a hash are ASCII. -/
theorem hex_digit_ascii (char : Char) (digit : (hexDigit char).isSome) : char.toNat < 128 := by
  rw [hexDigit] at digit
  split_ifs at digit with number small capital
  · exact Nat.lt_of_le_of_lt (UInt32.le_iff_toNat_le.mp number.2) (by decide)
  · exact Nat.lt_of_le_of_lt (UInt32.le_iff_toNat_le.mp small.2) (by decide)
  · exact Nat.lt_of_le_of_lt (UInt32.le_iff_toNat_le.mp capital.2) (by decide)
  · cases digit

end Casing

section Heads

/-- The octets of a tagged address with its port, and the target they stand for. -/
def Denotes (octets : Bytes) (target : ProxyTarget) : Prop :=
  ∃ atyp body addr, octets = atyp :: body ∧ Tagged atyp body addr ∧ addr.toProxyTarget = target

/-- Streams with a head in front: the hash in any case, a line end, a command, the address
of the target, a line end, and what follows. -/
inductive HeadOf (hashHex : String) (cmd : UInt8) (target : ProxyTarget) (rest : Bytes) :
    Bytes → Prop where
  | made (hash address : Bytes) (width : hash.length = 56)
      (same : SameLetters hash (asBytes hashHex)) (denotes : Denotes address target) :
      HeadOf hashHex cmd target rest
        (hash ++ lineEnd ++ [cmd] ++ address ++ lineEnd ++ rest)

/-- The reader takes a head exactly when the stream has one in front. -/
theorem read_head_iff (hashHex : String) (hex : ∀ char ∈ hashHex.toList, (hexDigit char).isSome)
    (stream written : Bytes) (cmd : UInt8) (target : ProxyTarget) (after : Conn) :
    (readRequestHead (some hashHex)).run ⟨stream, written⟩ = .ok (cmd, target) after ↔
      HeadOf hashHex cmd target after.incoming stream ∧ after.written = written := by
  have ascii : ∀ char ∈ hashHex.toList, char.toNat < 128 := fun char member =>
    hex_digit_ascii char (hex char member)
  rw [read_head_yields_iff]
  constructor
  · rintro ⟨hash, atyp, body, addr, width, agrees, tagged, made, arrived, silent⟩
    have same := (lossy_agrees_iff hash hashHex ascii).mp (agrees hashHex rfl)
    have head : HeadOf hashHex cmd target after.incoming
        (hash ++ lineEnd ++ [cmd] ++ (atyp :: body) ++ lineEnd ++ after.incoming) :=
      .made hash (atyp :: body) width same ⟨atyp, body, addr, rfl, tagged, made⟩
    have joined : stream = hash ++ lineEnd ++ [cmd] ++ (atyp :: body) ++ lineEnd ++
        after.incoming := by
      simpa using arrived
    exact ⟨joined ▸ head, silent⟩
  · rintro ⟨⟨hash, address, width, same, atyp, body, addr, rfl, tagged, made⟩, silent⟩
    refine ⟨hash, atyp, body, addr, width, ?_, tagged, made, ?_, silent⟩
    · rintro expect ⟨⟩
      exact (lossy_agrees_iff hash hashHex ascii).mpr same
    · simp

/-- Octets that are not the hash up to case are refused with the line end behind them read
and nothing more. -/
theorem wrong_hash_refused (hashHex : String)
    (hex : ∀ char ∈ hashHex.toList, (hexDigit char).isSome) (stream written : Bytes)
    (wrong : ¬SameLetters (stream.take 56) (asBytes hashHex)) :
    ∃ error, (readRequestHead (some hashHex)).run ⟨stream, written⟩ =
      .error error ⟨stream.drop 58, written⟩ := by
  have ascii : ∀ char ∈ hashHex.toList, char.toNat < 128 := fun char member =>
    hex_digit_ascii char (hex char member)
  by_cases enough : 56 + 2 ≤ stream.length
  · have read : (readExact (56 + 2)).run ⟨stream, written⟩ =
        .ok (stream.take 58) ⟨stream.drop 58, written⟩ := by
      simp only [readExact, EStateM.run, splitExact, if_pos enough]
    have front : (stream.take 58).take 56 = stream.take 56 := List.take_take ..
    have disagrees : ¬eqIgnoreAsciiCase (fromUtf8Lossy (stream.take 56)) hashHex := fun agrees =>
      wrong ((lossy_agrees_iff _ hashHex ascii).mp agrees)
    rw [readRequestHead, EStateM.run_bind, read]
    simp only [front]
    by_cases ended : (stream.take 58).drop 56 = lineEnd
    · refine ⟨.ofText "trojan: authentication failed", ?_⟩
      simp only [ended, ne_eq, not_true_eq_false, rejectIf, if_false, pure_bind, checkHash,
        disagrees, not_false_eq_true, if_true]
      rfl
    · refine ⟨.ofText "trojan: malformed request", ?_⟩
      simp only [rejectIf, if_pos (ne_eq _ _ ▸ ended)]
      rfl
  · refine ⟨earlyEof, ?_⟩
    have short : stream.drop 58 = [] := List.drop_eq_nil_of_le (by omega)
    have nothing : (readExact (56 + 2)).run ⟨stream, written⟩ = .error earlyEof ⟨[], written⟩ := by
      simp only [readExact, EStateM.run, splitExact, if_neg enough]
    rw [readRequestHead, EStateM.run_bind, nothing, short]

/-- The reader takes exactly the heads of its grammar, refuses every other stream, and reads
nothing behind the line end after a wrong hash. -/
theorem head_grammar (hashHex : String)
    (hex : ∀ char ∈ hashHex.toList, (hexDigit char).isSome) (stream written : Bytes) :
    (∀ cmd target rest,
      (readRequestHead (some hashHex)).run ⟨stream, written⟩ = .ok (cmd, target) ⟨rest, written⟩ ↔
        HeadOf hashHex cmd target rest stream) ∧
    ((∀ cmd target rest, ¬HeadOf hashHex cmd target rest stream) →
      ∃ error reached,
        (readRequestHead (some hashHex)).run ⟨stream, written⟩ = .error error reached) ∧
    (¬SameLetters (stream.take 56) (asBytes hashHex) →
      ∃ error, (readRequestHead (some hashHex)).run ⟨stream, written⟩ =
        .error error ⟨stream.drop 58, written⟩) := by
  refine ⟨fun cmd target rest => ?_, fun foreign => ?_,
    wrong_hash_refused hashHex hex stream written⟩
  · rw [read_head_iff hashHex hex]
    exact and_iff_left rfl
  · cases ran : (readRequestHead (some hashHex)).run ⟨stream, written⟩ with
    | ok value after =>
      have head := ((read_head_iff hashHex hex stream written value.1 value.2 after).mp ran).1
      exact absurd head (foreign _ _ _)
    | error error reached => exact ⟨error, reached, rfl⟩

/-- A hash of 56 small letters. -/
def letterHash : String := String.ofList (List.replicate 56 'a')

/-- A repeated digit is made of digits. -/
theorem replicate_hex (count : Nat) (digit : Char) (hex : (hexDigit digit).isSome) :
    ∀ char ∈ (String.ofList (List.replicate count digit)).toList, (hexDigit char).isSome := by
  intro char member
  rw [String.toList_ofList] at member
  rwa [List.eq_of_mem_replicate member]

/-- The hash in capital letters is taken and the octet behind the head is left; another hash
is refused with the two octets behind its line end left. -/
theorem head_grammar_example :
    (readRequestHead (some letterHash)).run
        ⟨List.replicate 56 0x41 ++ [13, 10, 1, 1, 127, 0, 0, 1, 0x1F, 0x90, 13, 10, 7], []⟩ =
      .ok (1, .tcp ⟨.v4 ⟨[127, 0, 0, 1], rfl⟩, 8080⟩) ⟨[7], []⟩ ∧
    ∃ error, (readRequestHead (some letterHash)).run
        ⟨List.replicate 56 0x42 ++ [13, 10, 1, 1], []⟩ = .error error ⟨[1, 1], []⟩ :=
  ⟨((head_grammar letterHash (replicate_hex 56 'a' (by decide)) _ []).1 1 _ [7]).mpr
    (.made (List.replicate 56 0x41) [1, 127, 0, 0, 1, 0x1F, 0x90] (by decide) (by decide)
      ⟨1, _, _, rfl, .v4 ⟨[127, 0, 0, 1], rfl⟩ 8080, rfl⟩),
    (head_grammar letterHash (replicate_hex 56 'a' (by decide))
      (List.replicate 56 0x42 ++ [13, 10, 1, 1]) []).2.2 (by decide)⟩

end Heads

section Handshake

def cmdConnect : UInt8 := 0x01
def cmdUdpAssociate : UInt8 := 0x03

structure TrojanInboundConfig where
  passwordHashHex : String

/-- What a server takes; the stream goes on with what the head left. -/
inductive Accepted where
  | tcp (target : ProxyTarget)
  | udpAssociate
deriving DecidableEq

/-- What a command asks for, if it is known. -/
def acceptedAs (cmd : UInt8) (target : ProxyTarget) : Option Accepted :=
  if cmd = cmdConnect then some (.tcp target)
  else if cmd = cmdUdpAssociate then some .udpAssociate
  else none

def handshake (cfg : TrojanInboundConfig) : Io Accepted := do
  let head ← readRequestHead (some cfg.passwordHashHex)
  orThrow (.ofText "trojan: unsupported command") (acceptedAs head.1 head.2)

/-- A server takes the streams with a head of its own hash and a known command. -/
theorem handshake_iff (cfg : TrojanInboundConfig)
    (hex : ∀ char ∈ cfg.passwordHashHex.toList, (hexDigit char).isSome) (stream written : Bytes)
    (accepted : Accepted) (after : Conn) :
    (handshake cfg).run ⟨stream, written⟩ = .ok accepted after ↔
      ∃ cmd target, HeadOf cfg.passwordHashHex cmd target after.incoming stream ∧
        acceptedAs cmd target = some accepted ∧ after.written = written := by
  simp only [handshake, bind_yields_iff, or_throw_yields_iff]
  constructor
  · rintro ⟨⟨cmd, target⟩, reached, ran, taken, rfl⟩
    obtain ⟨head, silent⟩ := (read_head_iff _ hex stream written cmd target reached).mp ran
    exact ⟨cmd, target, head, taken, silent⟩
  · rintro ⟨cmd, target, head, taken, silent⟩
    have ran := (read_head_iff _ hex stream written cmd target after).mpr ⟨head, silent⟩
    exact ⟨(cmd, target), after, ran, taken, rfl⟩

end Handshake

end OmniProxy.TrojanInbound
