import OmniProxy.AddressCodec
import OmniProxy.SocksHandshake
import OmniProxy.TrojanHeads

/-!
# Three readers of one address form

A SOCKS address is read out of a buffer, off a Trojan stream, and off a SOCKS stream as part of
a request. The two that read from a stream take a domain of any length and repair its text;
the one that reads a buffer wants a domain that is not empty and is UTF-8. On everything else
the three take the same octets for the same address.
-/

namespace OmniProxy.AddressParsers

open ByteStrings Connections ProxyTargets AddressReads AddressCodec SocksHandshake TrojanHeads
open Utf8Text

section Readers

/-- The address that the buffer reader finds in front, and how many octets it uses. -/
def decoded (b : Bytes) : Option (Socks5Addr × Nat) := (Socks5Addr.decode b).toOption

/-- The address that a stream reader finds in front, and how many octets it uses. -/
def takenBy {α : Type} (reader : Io α) (addressOf : α → Socks5Addr) (front b : Bytes) :
    Option (Socks5Addr × Nat) :=
  match reader.run ⟨front ++ b, []⟩ with
  | .ok value after => some (addressOf value, b.length - after.incoming.length)
  | .error _ _ => none

/-- The address that the Trojan reader takes off a stream. -/
def trojanAddress (b : Bytes) : Option (Socks5Addr × Nat) := takenBy readAddr id [] b

/-- The address part of a SOCKS request, behind the rest of its head. -/
def requestAddress (cmd : Command) (reserved : UInt8) (b : Bytes) : Option (Socks5Addr × Nat) :=
  takenBy readRequest Prod.snd [version, cmd.toU8, reserved] b

/-- All three succeed with the same address and use the same number of octets, or all fail. -/
structure ParsersAgree (b : Bytes) : Prop where
  trojan : trojanAddress b = decoded b
  request : ∀ cmd reserved, requestAddress cmd reserved b = decoded b

end Readers

section Taking

/-- The tagged form of the address is in front and has that many octets. -/
def InFront (b : Bytes) (addr : Socks5Addr) (used : Nat) : Prop :=
  ∃ tag body rest, Tagged tag body addr ∧ b = tag :: body ++ rest ∧ used = body.length + 1

/-- An address is taken behind a front exactly when the reader reads it there and leaves the
rest. -/
theorem taken_by_iff {α : Type} (reader : Io α) (addressOf : α → Socks5Addr) (front b : Bytes)
    (addr : Socks5Addr) (used : Nat) :
    takenBy reader addressOf front b = some (addr, used) ↔
      ∃ value after, reader.run ⟨front ++ b, []⟩ = .ok value after ∧ addressOf value = addr ∧
        used = b.length - after.incoming.length := by
  rw [takenBy]
  cases result : reader.run ⟨front ++ b, []⟩ with
  | ok value after => simp [eq_comm]
  | error error after => simp

/-- What is behind the address gives the number of octets that it uses. -/
theorem used_by {b : Bytes} {tag : UInt8} {body rest : Bytes} (split : b = tag :: body ++ rest) :
    b.length - rest.length = body.length + 1 := by
  rw [split, List.length_append, List.length_cons, Nat.add_sub_cancel]

/-- The Trojan reader takes every tagged form. -/
theorem trojan_address_iff (b : Bytes) (addr : Socks5Addr) (used : Nat) :
    trojanAddress b = some (addr, used) ↔ InFront b addr used := by
  rw [trojanAddress, taken_by_iff]
  simp only [readAddr, bind_yields_iff, read_exact_yields_iff, read_tagged_yields_iff,
    List.nil_append, id_eq]
  constructor
  · rintro ⟨_, after, ⟨atyp, reached, ⟨one, arrived, -⟩, body, tagged, rest, -⟩, rfl, rfl⟩
    obtain ⟨tag, rfl⟩ := List.length_eq_one_iff.mp one
    have split : b = tag :: body ++ after.incoming := by
      rw [arrived, rest]
      rfl
    exact ⟨tag, body, after.incoming, tagged, split, used_by split⟩
  · rintro ⟨tag, body, rest, tagged, split, rfl⟩
    exact ⟨addr, ⟨rest, []⟩, ⟨[tag], ⟨body ++ rest, []⟩, ⟨rfl, split, rfl⟩, body, tagged, rfl,
      rfl⟩, rfl, (used_by split).symm⟩

/-- The octet of a command is read back as that command. -/
theorem command_known (cmd : Command) : Command.fromU8 cmd.toU8 = some cmd := by
  cases cmd <;> rfl

/-- The SOCKS reader takes every tagged form, whatever is asked for. -/
theorem request_address_iff (cmd : Command) (reserved : UInt8) (b : Bytes) (addr : Socks5Addr)
    (used : Nat) : requestAddress cmd reserved b = some (addr, used) ↔ InFront b addr used := by
  rw [requestAddress, taken_by_iff]
  constructor
  · rintro ⟨⟨asked, _⟩, after, read, rfl, rfl⟩
    obtain ⟨_, ⟨known, tagged⟩, arrived, -⟩ := (read_request_yields_iff _ _ _ _).mp read
    have split := (List.cons.inj (List.cons.inj (List.cons.inj arrived).2).2).2
    exact ⟨_, _, after.incoming, tagged, split, used_by split⟩
  · rintro ⟨tag, body, rest, tagged, split, rfl⟩
    have form : RequestForm (version :: cmd.toU8 :: reserved :: tag :: body) cmd addr :=
      .intro (command_known cmd) tagged
    have arrived : [version, cmd.toU8, reserved] ++ b =
        version :: cmd.toU8 :: reserved :: tag :: body ++ rest := by
      rw [split]
      rfl
    exact ⟨(cmd, addr), ⟨rest, []⟩, (read_request_yields_iff _ _ _ _).mpr
      ⟨_, form, arrived, rfl⟩, rfl, (used_by split).symm⟩

/-- The slice decoder takes an address exactly when it returns that address and its width.
-/
theorem decoded_iff (b : Bytes) (addr : Socks5Addr) (used : Nat) :
    decoded b = some (addr, used) ↔ Socks5Addr.decode b = .ok (addr, used) := by
  rw [decoded]
  cases Socks5Addr.decode b with
  | error error => simp [Except.toOption]
  | ok result => simp [Except.toOption]

/-- What the buffer reader finds is a tagged form in front. -/
theorem decoded_in_front {b : Bytes} {addr : Socks5Addr} {used : Nat}
    (found : decoded b = some (addr, used)) : InFront b addr used := by
  obtain ⟨good, rfl, rest, split⟩ := decode_reads ((decoded_iff b addr used).mp found)
  obtain ⟨tag, body, form, tagged, -⟩ := encode_into_split [] addr.toProxyTarget
  have fits : addr.toProxyTarget.fits := by
    cases addr with
    | v4 => trivial
    | v6 => trivial
    | domain => exact good.2
  rw [from_to_proxy_target] at form tagged
  refine ⟨tag, body, rest, tagged fits, ?_, ?_⟩
  · rw [← split, form, List.nil_append]
  · rw [form, List.nil_append, List.length_cons]

end Taking

section Agreement

/-- A whole domain form is in front whose domain is empty or not UTF-8. -/
def ForeignHost (b : Bytes) : Prop :=
  ∃ host port rest, host.length ≤ 255 ∧ (host = [] ∨ fromUtf8 host = none) ∧
    b = 0x03 :: UInt8.ofNat host.length :: host ++ bigEndian16 port ++ rest

/-- The buffer reader finds a tagged form whose domain, if it has one, is text. The cases are
those of the tag. -/
theorem in_front_decoded {b : Bytes} {addr : Socks5Addr} {used : Nat}
    (front : InFront b addr used) (ordinary : ¬ForeignHost b) : decoded b = some (addr, used) := by
  obtain ⟨_, _, rest, tagged, rfl, rfl⟩ := front
  rw [decoded_iff, decode_iff]
  cases tagged with
  | v4 ip port =>
    refine ⟨trivial, by simp [Socks5Addr.encodeInto], rest, ?_⟩
    simp [Socks5Addr.encodeInto]
  | domain host port short =>
    have text : ¬(host = [] ∨ fromUtf8 host = none) := fun foreign =>
      ordinary ⟨host, port, rest, short, foreign, by simp⟩
    obtain ⟨something, decodes⟩ := not_or.mp text
    have octets := text_decodes decodes
    have size : (fromUtf8Lossy host).utf8ByteSize = host.length := by
      rw [← as_bytes_length, octets]
    have positive := List.length_pos_of_ne_nil something
    refine ⟨⟨by omega, by omega⟩, ?_, rest, ?_⟩
    · simp [Socks5Addr.encodeInto, size]
    · simp [Socks5Addr.encodeInto, octets]
  | v6 ip port =>
    refine ⟨trivial, by simp [Socks5Addr.encodeInto], rest, ?_⟩
    simp [Socks5Addr.encodeInto]

/-- Another domain is refused by the buffer reader, and taken by the stream readers. -/
theorem foreign_taken {b : Bytes} (foreign : ForeignHost b) :
    (∃ error, Socks5Addr.decode b = .error error) ∧ ∃ addr used, InFront b addr used := by
  obtain ⟨host, port, rest, short, strange, rfl⟩ := foreign
  constructor
  · rw [List.append_assoc, List.cons_append, List.cons_append,
      decode_tagged 0x03 _ (Nat.le_add_left _ _), if_neg (by decide), if_pos rfl]
    rcases strange with rfl | noText
    · exact ⟨_, rfl⟩
    · exact decode_domain_no_text _ port rest (count_told host short).symm noText
  · exact ⟨_, _, _, _, rest, .domain host port short, rfl, rfl⟩

/-- For all octets: the three readers agree exactly when no domain form is in front whose domain
is empty or not UTF-8. -/
theorem parsers_agree_iff (b : Bytes) : ParsersAgree b ↔ ¬ForeignHost b := by
  have same : (∀ addr used, InFront b addr used ↔ decoded b = some (addr, used)) ↔
      ¬ForeignHost b := by
    constructor
    · intro agree foreign
      obtain ⟨⟨error, refused⟩, addr, used, front⟩ := foreign_taken foreign
      have found := (decoded_iff b addr used).mp ((agree addr used).mp front)
      rw [refused] at found
      cases found
    · exact fun ordinary addr used =>
        ⟨fun front => in_front_decoded front ordinary, decoded_in_front⟩
  rw [← same]
  constructor
  · rintro ⟨trojan, -⟩ addr used
    rw [← trojan, trojan_address_iff]
  · intro agree
    constructor
    · refine Option.ext fun ⟨addr, used⟩ => ?_
      rw [trojan_address_iff, agree]
    · refine fun cmd reserved => Option.ext fun ⟨addr, used⟩ => ?_
      rw [request_address_iff, agree]

/-- A domain of one octet that is no text: the buffer reader refuses what the Trojan reader
takes. -/
theorem foreign_host_disagrees :
    decoded [3, 1, 0xFF, 0, 80] = none ∧
      trojanAddress [3, 1, 0xFF, 0, 80] = some (.domain (fromUtf8Lossy [0xFF]) 80, 5) ∧
      ¬ParsersAgree [3, 1, 0xFF, 0, 80] := by
  have foreign : ForeignHost [3, 1, 0xFF, 0, 80] :=
    ⟨[0xFF], 80, [], by decide, .inr (by decide), rfl⟩
  have refused : decoded [3, 1, 0xFF, 0, 80] = none := by
    obtain ⟨⟨error, refused⟩, -⟩ := foreign_taken foreign
    rw [decoded, refused]
    rfl
  have taken := (trojan_address_iff [3, 1, 0xFF, 0, 80] (.domain (fromUtf8Lossy [0xFF]) 80) 5).mpr
    ⟨3, [1, 0xFF, 0, 80], [], .domain [0xFF] 80 (by decide), rfl, rfl⟩
  refine ⟨refused, taken, fun agree => ?_⟩
  have same := agree.trojan
  rw [taken, refused] at same
  cases same

end Agreement

end OmniProxy.AddressParsers
