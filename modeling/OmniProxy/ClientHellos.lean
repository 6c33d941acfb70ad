import OmniProxy.CountedFields
import OmniProxy.ServerNames

/-!
# Server names of client hellos

A client hello shows a server name if it can be read as fields of known widths down to an
extension with server names whose first host name it is. The relation has the width of the
session id's length as a parameter: that length has one octet in the protocol, and the
parser takes two.

With the one octet, a well-formed hello shows exactly the name of its server name
extension. The parser finds exactly the name shown with two octets, so it finds the right
one exactly when both readings show the same.
-/

namespace OmniProxy.ClientHellos

open ByteStrings CheckedLoops CountedFields Sniffing ServerNames

section Reading

variable {buf : Bytes}

/-- An octet that was read stands in front of the octets behind it. -/
theorem octet_at_iff (index : Nat) (octet : UInt8) :
    octetAt buf index = .ok octet ↔ ∃ rest, buf.drop index = octet :: rest := by
  rw [octetAt, ← List.head?_drop]
  cases buf.drop index with
  | nil => simp
  | cons first rest => simp

/-- Two octets that were read are the digits of their number. -/
theorem be16_at_iff (index number : Nat) :
    be16At buf index = .ok number ↔
      number < 256 ^ 2 ∧ ∃ rest, buf.drop index = bigEndian 2 number ++ rest := by
  simp only [be16At, bind_ok_iff, octet_at_iff, ← List.drop_drop]
  constructor
  · rintro ⟨high, ⟨rest, first⟩, low, ⟨left, second⟩, value⟩
    obtain rfl : (ofBigEndian16 high low).toNat = number := Except.ok.inj value
    have digits : bigEndian 2 (ofBigEndian16 high low).toNat = [high, low] :=
      big_endian16_of high low
    rw [first, List.drop_succ_cons, List.drop_zero] at second
    exact ⟨UInt16.toNat_lt _, left, by rw [first, second, digits]; rfl⟩
  · rintro ⟨small, rest, digits⟩
    obtain ⟨high, low, written, value⟩ := of_big_endian16_exact (UInt16.ofNat number)
    have same : (UInt16.ofNat number).toNat = number := by
      rw [UInt16.toNat_ofNat']
      omega
    rw [bigEndian16, same] at written
    rw [written] at digits
    refine ⟨high, ⟨low :: rest, digits⟩, low, ⟨rest, by rw [digits]; rfl⟩, ?_⟩
    rw [value, same]
    rfl

/-- What follows a number that was read starts behind its digits. -/
theorem behind_number {width index number : Nat} {rest : Bytes}
    (digits : buf.drop index = bigEndian width number ++ rest) :
    buf.drop (index + width) = rest := by
  rw [← List.drop_drop, digits, List.drop_left' (big_endian_length _ _)]

/-- What follows a number that was read is as many octets as it says and what follows
those, if they are there. -/
theorem field_at {width index number : Nat} {rest : Bytes}
    (digits : buf.drop index = bigEndian width number ++ rest)
    (enough : index + width + number ≤ buf.length) :
    buf.drop index =
        counted width (rest.take number) ++ buf.drop (index + width + number) ∧
      (rest.take number).length = number := by
  have size := congrArg List.length digits
  simp only [List.length_drop, List.length_append, big_endian_length] at size
  have behind : buf.drop (index + width + number) = rest.drop number := by
    rw [← List.drop_drop, behind_number digits]
  rw [digits, behind, counted_front width number rest (by omega), List.length_take]
  exact ⟨rfl, by omega⟩

/-- A field at a position shows its number there, and ends in the buffer. -/
theorem number_at {width index : Nat} {content rest : Bytes} (there : index ≤ buf.length)
    (field : buf.drop index = counted width content ++ rest) :
    buf.drop index = bigEndian width content.length ++ (content ++ rest) ∧
      buf.drop (index + width + content.length) = rest ∧
      index + width + content.length + rest.length = buf.length := by
  have size := congrArg List.length field
  rw [List.length_drop, List.length_append, counted_length] at size
  refine ⟨by rw [field, counted, List.append_assoc], ?_, by omega⟩
  rw [Nat.add_assoc, ← List.drop_drop, field, List.drop_left' (counted_length _ _)]

end Reading

section Shown

/-- The first host name of a list of names in so many octets at the front. -/
inductive NamesShow : Nat → Bytes → String → Prop where
  | host {room : Nat} {name rest : Bytes} {text : String} (inside : 3 + name.length ≤ room)
      (small : name.length < 256 ^ 2) (isText : fromUtf8 name = some text) :
      NamesShow room (0 :: (counted 2 name ++ rest)) text
  | other {room : Nat} {kind : UInt8} {name rest : Bytes} {text : String} (notHost : kind ≠ 0)
      (small : name.length < 256 ^ 2) (later : NamesShow (room - (3 + name.length)) rest text) :
      NamesShow room (kind :: (counted 2 name ++ rest)) text

/-- The host name of the first extension with server names, among extensions that start in
so many octets at the front. -/
inductive ExtensionsShow : Nat → Bytes → String → Prop where
  | names {room listLen : Nat} {list rest : Bytes} {text : String} (inside : 4 ≤ room)
      (small : (bigEndian 2 listLen ++ list).length < 256 ^ 2) (listSmall : listLen < 256 ^ 2)
      (shown : NamesShow (min listLen list.length) (list ++ rest) text) :
      ExtensionsShow room
        (bigEndian 2 0 ++ (counted 2 (bigEndian 2 listLen ++ list) ++ rest)) text
  | other {room kind : Nat} {body rest : Bytes} {text : String} (notNames : kind ≠ 0)
      (kindSmall : kind < 256 ^ 2) (small : body.length < 256 ^ 2)
      (later : ExtensionsShow (room - (4 + body.length)) rest text) :
      ExtensionsShow room (bigEndian 2 kind ++ (counted 2 body ++ rest)) text

/-- A whole record with a client hello shows a server name, if the length of the session
id has so many octets. -/
def HelloShows (width : Nat) (buf : Bytes) (text : String) : Prop :=
  5 + bigEndianValue ((buf.drop 3).take 2) ≤ buf.length ∧ buf.getD 5 0 = 1 ∧
    ∃ front session suites methods extLen block,
      buf = front ++ (counted width session ++ (counted 2 suites ++ (counted 1 methods ++
        (bigEndian 2 extLen ++ block)))) ∧
      front.length = 43 ∧ session.length < 256 ^ width ∧ suites.length < 256 ^ 2 ∧
      methods.length < 256 ^ 1 ∧ extLen < 256 ^ 2 ∧
      ExtensionsShow (min extLen block.length) block text

/-- A list of names shows a text in its first name of the host kind, behind entries of other
kinds. -/
theorem names_show_iff (room : Nat) (octets : Bytes) (text : String) :
    NamesShow room octets text ↔
      ∃ kind name rest, octets = kind :: (counted 2 name ++ rest) ∧ name.length < 256 ^ 2 ∧
        (kind = 0 ∧ 3 + name.length ≤ room ∧ fromUtf8 name = some text ∨
          kind ≠ 0 ∧ NamesShow (room - (3 + name.length)) rest text) := by
  constructor
  · rintro (⟨inside, small, isText⟩ | ⟨notHost, small, later⟩)
    · exact ⟨0, _, _, rfl, small, .inl ⟨rfl, inside, isText⟩⟩
    · exact ⟨_, _, _, rfl, small, .inr ⟨notHost, later⟩⟩
  · rintro ⟨kind, name, rest, rfl, small, ⟨rfl, inside, isText⟩ | ⟨notHost, later⟩⟩
    · exact .host inside small isText
    · exact .other notHost small later

/-- A name list that shows a text has room for the head of a name. -/
theorem names_show_room {room : Nat} {octets : Bytes} {text : String}
    (shown : NamesShow room octets text) : 3 ≤ room := by
  induction shown with
  | host inside => omega
  | other notHost small later inductionHypothesis => omega

/-- Extensions show a text in the first that is of the host kind, behind others. -/
theorem extensions_show_iff (room : Nat) (octets : Bytes) (text : String) :
    ExtensionsShow room octets text ↔
      ∃ kind body rest, octets = bigEndian 2 kind ++ (counted 2 body ++ rest) ∧
        kind < 256 ^ 2 ∧ body.length < 256 ^ 2 ∧
        (kind = 0 ∧ 4 ≤ room ∧ (∃ listLen list, body = bigEndian 2 listLen ++ list ∧
            listLen < 256 ^ 2 ∧ NamesShow (min listLen list.length) (list ++ rest) text) ∨
          kind ≠ 0 ∧ ExtensionsShow (room - (4 + body.length)) rest text) := by
  constructor
  · rintro (⟨inside, small, listSmall, shown⟩ | ⟨notNames, kindSmall, small, later⟩)
    · exact ⟨0, _, _, rfl, by decide, small, .inl ⟨rfl, inside, _, _, rfl, listSmall, shown⟩⟩
    · exact ⟨_, _, _, rfl, kindSmall, small, .inr ⟨notNames, later⟩⟩
  · rintro ⟨kind, body, rest, rfl, kindSmall, small,
      ⟨rfl, inside, listLen, list, rfl, listSmall, shown⟩ | ⟨notNames, later⟩⟩
    · exact .names inside small listSmall shown
    · exact .other notNames kindSmall small later

/-- Extensions that show a text have room for the head of an extension. -/
theorem extensions_show_room {room : Nat} {octets : Bytes} {text : String}
    (shown : ExtensionsShow room octets text) : 4 ≤ room := by
  induction shown with
  | names inside => exact inside
  | other notNames kindSmall small later inductionHypothesis => omega

end Shown

section Found

variable {buf : Bytes}

/-- The search among names finds what they show. -/
theorem read_names_iff (listEnd r : Nat) (bounded : listEnd ≤ buf.length) (text : String) :
    readNames buf listEnd r = .ok (some text) ↔ NamesShow (listEnd - r) (buf.drop r) text := by
  induction r using readNames.induct listEnd with
  | case1 r inside inductionHypothesis =>
    rw [readNames, dif_pos inside, names_show_iff]
    simp only [bind_ok_iff, octet_at_iff, be16_at_iff]
    constructor
    · rintro ⟨kind, ⟨behind, first⟩, nlen, ⟨small, rest, digits⟩, read⟩
      have named : buf.drop r = kind :: buf.drop (r + 1) := by
        rw [← List.drop_drop, first]
        rfl
      have shown (fits : r + 3 + nlen ≤ listEnd) : buf.drop r =
          kind :: (counted 2 (rest.take nlen) ++ buf.drop (r + 3 + nlen)) ∧
            (rest.take nlen).length = nlen := by
        obtain ⟨field, width⟩ := field_at digits (by omega)
        exact ⟨by rw [named, field], width⟩
      split at read
      · next host =>
        obtain ⟨rfl, fits⟩ := host
        obtain ⟨whole, width⟩ := shown fits
        obtain ⟨name, cut, read⟩ := (bind_ok_iff _ _ _).mp read
        rw [slice_inside (by omega) (by omega)] at cut
        have sameName : (buf.take (r + 3 + nlen)).drop (r + 3) = rest.take nlen := by
          rw [List.drop_take, Nat.add_sub_cancel_left, ← behind_number digits]
        rw [sameName] at cut
        obtain rfl := Except.ok.inj cut
        exact ⟨0, rest.take nlen, _, whole, by omega, .inl ⟨rfl, by omega, Except.ok.inj read⟩⟩
      · next other =>
        have later := (inductionHypothesis nlen).mp read
        have left := names_show_room later
        obtain ⟨whole, width⟩ := shown (by omega)
        refine ⟨kind, rest.take nlen, _, whole, by omega, .inr ⟨?_, ?_⟩⟩
        · intro host
          exact other ⟨host, by omega⟩
        · rw [width, show listEnd - r - (3 + nlen) = listEnd - (r + 3 + nlen) by omega]
          exact later
    · rintro ⟨kind, name, rest, first, small, shown⟩
      have field : buf.drop (r + 1) = counted 2 name ++ rest := by
        rw [← List.drop_drop, first]
        rfl
      obtain ⟨digits, behind, width⟩ := number_at (by omega) field
      refine ⟨kind, ⟨_, first⟩, name.length, ⟨small, _, digits⟩, ?_⟩
      rcases shown with ⟨rfl, fits, isText⟩ | ⟨notHost, later⟩
      · rw [if_pos ⟨rfl, by omega⟩, slice_inside (by omega) (by omega), List.drop_take,
          Nat.add_sub_cancel_left, behind_number digits, List.take_left]
        exact congrArg Except.ok isText
      · rw [if_neg (fun host => notHost host.1), inductionHypothesis]
        rw [show listEnd - r - (3 + name.length) = listEnd - (r + 3 + name.length) by omega,
          ← behind] at later
        exact later
  | case2 r outside =>
    rw [readNames, dif_neg outside]
    refine iff_of_false (by simp [pure, Except.pure]) fun shown => ?_
    have room := names_show_room shown
    omega

/-- The body of an extension with server names is the length of the list and the octets
behind it. -/
theorem name_list_fields {index elen listLen : Nat} {body list : Bytes}
    (digits : buf.drop index = bigEndian 2 elen ++ body)
    (numbered : buf.drop (index + 2) = bigEndian 2 listLen ++ list) (enough : 2 ≤ elen)
    (whole : index + 2 + elen ≤ buf.length) :
    body.take elen = bigEndian 2 listLen ++ list.take (elen - 2) ∧
      (list.take (elen - 2)).length = elen - 2 ∧
      list.take (elen - 2) ++ buf.drop (index + 2 + elen) = list := by
  have behind := behind_number numbered
  have width := congrArg List.length behind
  rw [List.length_drop] at width
  refine ⟨?_, by rw [List.length_take]; omega, ?_⟩
  · rw [← behind_number digits, numbered, List.take_append, big_endian_length,
      List.take_of_length_le (by rw [big_endian_length]; omega)]
  · rw [show index + 2 + elen = index + 2 + 2 + (elen - 2) by omega, ← List.drop_drop, behind,
      List.take_append_drop]

/-- The search among extensions finds what they show. -/
theorem read_extensions_iff (extEnd q : Nat) (bounded : extEnd ≤ buf.length) (text : String) :
    readExtensions buf extEnd q = .ok (some text) ↔
      ExtensionsShow (extEnd - q) (buf.drop q) text := by
  induction q using readExtensions.induct extEnd with
  | case1 q inside inductionHypothesis =>
    rw [readExtensions, dif_pos inside, extensions_show_iff]
    simp only [bind_ok_iff, be16_at_iff]
    constructor
    · rintro ⟨kind, ⟨kindSmall, r1, first⟩, elen, ⟨small, r2, digits⟩, read⟩
      have typed : buf.drop q = bigEndian 2 kind ++ buf.drop (q + 2) := by
        rw [behind_number first, first]
      have shown (fits : q + 4 + elen ≤ buf.length) : buf.drop q = bigEndian 2 kind ++
          (counted 2 (r2.take elen) ++ buf.drop (q + 4 + elen)) ∧
            (r2.take elen).length = elen := by
        obtain ⟨field, width⟩ := field_at digits (by omega)
        exact ⟨by rw [typed, field], width⟩
      split at read
      · next names =>
        subst names
        obtain ⟨whole, read⟩ := (guarded_some_iff _ _ _).mp read
        obtain ⟨listLen, list, read⟩ := (bind_ok_iff _ _ _).mp read
        obtain ⟨listSmall, r3, numbered⟩ := (be16_at_iff _ _).mp list
        rw [read_names_iff _ _ (by omega), behind_number numbered] at read
        obtain ⟨fields, width⟩ := shown (by omega)
        obtain ⟨body, listWidth, rest⟩ :=
          name_list_fields digits numbered (by omega) (by omega)
        refine ⟨0, r2.take elen, _, fields, by decide, by omega, .inl ⟨rfl, by omega, listLen,
          r3.take (elen - 2), body, listSmall, ?_⟩⟩
        rw [rest, listWidth]
        rw [show min (q + 4 + 2 + listLen) (q + 4 + elen) - (q + 4 + 2) =
          min listLen (elen - 2) by omega] at read
        exact read
      · next other =>
        have later := (inductionHypothesis elen).mp read
        have left := extensions_show_room later
        obtain ⟨fields, width⟩ := shown (by omega)
        refine ⟨kind, r2.take elen, _, fields, kindSmall, by omega, .inr ⟨other, ?_⟩⟩
        rw [width, show extEnd - q - (4 + elen) = extEnd - (q + 4 + elen) by omega]
        exact later
    · rintro ⟨kind, body, rest, whole, kindSmall, small, shown⟩
      have field := behind_number whole
      obtain ⟨digits, behind, width⟩ := number_at (by omega) field
      refine ⟨kind, ⟨kindSmall, _, whole⟩, body.length, ⟨small, _, digits⟩, ?_⟩
      rcases shown with ⟨rfl, fits, listLen, list, rfl, listSmall, shown⟩ | ⟨notNames, later⟩
      · have room := names_show_room shown
        rw [List.length_append, big_endian_length] at width ⊢
        rw [if_pos rfl, guarded_some_iff]
        refine ⟨by omega, ?_⟩
        have inner := behind_number digits
        rw [List.append_assoc] at inner
        rw [bind_ok_iff]
        refine ⟨listLen, (be16_at_iff _ _).mpr ⟨listSmall, _, inner⟩, ?_⟩
        rw [read_names_iff _ _ (by omega), behind_number inner,
          show min (q + 4 + 2 + listLen) (q + 4 + (2 + list.length)) - (q + 4 + 2) =
            min listLen list.length by omega]
        exact shown
      · rw [if_neg notNames, inductionHypothesis]
        rw [show extEnd - q - (4 + body.length) = extEnd - (q + 4 + body.length) by omega,
          ← behind] at later
        exact later
  | case2 q outside =>
    rw [readExtensions, dif_neg outside]
    refine iff_of_false (by simp [pure, Except.pure]) fun shown => ?_
    have room := extensions_show_room shown
    omega

/-- One digit is the octet itself. -/
theorem single_digit (octet : UInt8) : bigEndian 1 octet.toNat = [octet] := by
  simp [bigEndian]

/-- The length of a record stands at its fourth octet. -/
theorem record_length (long : 43 ≤ buf.length) :
    be16At buf 3 = .ok (bigEndianValue ((buf.drop 3).take 2)) := by
  have width : ((buf.drop 3).take 2).length = 2 := by
    rw [List.length_take, List.length_drop]
    omega
  have bound := big_endian_value_bound ((buf.drop 3).take 2)
  have digits := big_endian_of_value ((buf.drop 3).take 2)
  rw [width] at bound digits
  rw [be16_at_iff]
  exact ⟨bound, (buf.drop 3).drop 2, by rw [digits, List.take_append_drop]⟩

/-- A name that the parser finds is shown with a length of two octets. -/
theorem parse_sni_shown {text : String} (read : parseSni buf = .ok (some text)) :
    HelloShows 2 buf text := by
  simp only [parseSni, guarded_some_iff, bind_ok_iff] at read
  obtain ⟨long, recLen, record, whole, hsType, kind, hello, sidLen, session, suites, csLen,
    ciphers, methods, cmLen, compression, extensions, extLen, length, read⟩ := read
  have recorded := (record_length (by omega)).symm.trans record
  rw [octet_at_inside (by omega)] at kind
  obtain ⟨sidSmall, r1, session⟩ := (be16_at_iff _ _).mp session
  obtain ⟨csSmall, r2, ciphers⟩ := (be16_at_iff _ _).mp ciphers
  obtain ⟨r3, compression⟩ := (octet_at_iff _ _).mp compression
  obtain ⟨extSmall, r4, length⟩ := (be16_at_iff _ _).mp length
  have compression : buf.drop (43 + 2 + sidLen + 2 + csLen) =
      bigEndian 1 cmLen.toNat ++ r3 := by rw [compression, single_digit, List.singleton_append]
  obtain ⟨sessionField, sessionWidth⟩ := field_at session (by omega)
  obtain ⟨suitesField, suitesWidth⟩ := field_at ciphers (by omega)
  obtain ⟨methodsField, methodsWidth⟩ := field_at compression (by omega)
  have blockWidth := congrArg List.length (behind_number length)
  rw [List.length_drop] at blockWidth
  rw [read_extensions_iff _ _ (Nat.min_le_right _ _), behind_number length,
    ← Nat.sub_min_sub_right, Nat.add_sub_cancel_left, blockWidth] at read
  refine ⟨?_, ?_, buf.take 43, r1.take sidLen, r2.take csLen, r3.take cmLen.toNat, extLen, r4,
    ?_, ?_, by omega, by omega, ?_, extSmall, read⟩
  · rw [Except.ok.inj recorded]
    omega
  · rw [List.getD_eq_getElem _ _ (by omega), Except.ok.inj kind]
    exact Decidable.not_not.mp hello
  · rw [← length, ← methodsField, ← suitesField, ← sessionField, List.take_append_drop]
  · rw [List.length_take]
    omega
  · rw [methodsWidth]
    exact cmLen.toNat_lt

/-- The parser finds a name that is shown with a length of two octets. -/
theorem shown_parsed {text : String} (shows : HelloShows 2 buf text) :
    parseSni buf = .ok (some text) := by
  obtain ⟨whole, hello, front, session, suites, methods, extLen, block, fields, width, sidSmall,
    csSmall, cmSmall, extSmall, shown⟩ := shows
  have room := extensions_show_room shown
  have total := congrArg List.length fields
  simp only [List.length_append, counted_length, big_endian_length] at total
  have sessionField : buf.drop 43 = counted 2 session ++ (counted 2 suites ++
      (counted 1 methods ++ (bigEndian 2 extLen ++ block))) := by
    rw [fields, List.drop_left' width]
  obtain ⟨sessionDigits, suitesField, -⟩ := number_at (by omega) sessionField
  obtain ⟨suitesDigits, methodsField, -⟩ := number_at (by omega) suitesField
  obtain ⟨methodsDigits, extField, -⟩ := number_at (by omega) methodsField
  have cmLen : (UInt8.ofNat methods.length).toNat = methods.length := by
    rw [UInt8.toNat_ofNat']
    omega
  simp only [parseSni, guarded_some_iff, bind_ok_iff]
  refine ⟨by omega, _, record_length (by omega), by omega, 1, ?_, by simp, session.length,
    (be16_at_iff _ _).mpr ⟨sidSmall, _, sessionDigits⟩, by omega, suites.length,
    (be16_at_iff _ _).mpr ⟨csSmall, _, suitesDigits⟩, by omega, UInt8.ofNat methods.length, ?_,
    by omega, extLen, ?_, ?_⟩
  · rw [octet_at_get (by omega), hello]
  · rw [octet_at_iff, methodsDigits]
    exact ⟨methods ++ (bigEndian 2 extLen ++ block), by simp [bigEndian]⟩
  · rw [cmLen, be16_at_iff, extField]
    exact ⟨extSmall, _, rfl⟩
  · rw [cmLen, read_extensions_iff _ _ (Nat.min_le_right _ _), behind_number extField,
      show min (43 + 2 + session.length + 2 + suites.length + 1 + methods.length + 2 + extLen)
        buf.length - (43 + 2 + session.length + 2 + suites.length + 1 + methods.length + 2) =
          min extLen block.length by omega]
    exact shown

/-- The parser finds the name shown with a length of two octets. -/
theorem parse_sni_iff (text : String) :
    parseSni buf = .ok (some text) ↔ HelloShows 2 buf text :=
  ⟨parse_sni_shown, shown_parsed⟩

end Found

section Hellos

/-- An extension of a hello. -/
structure Extension where
  kind : UInt16
  body : Bytes
  bounded : body.length < 256 ^ 2

def Extension.octets (extension : Extension) : Bytes :=
  bigEndian 2 extension.kind.toNat ++ counted 2 extension.body

/-- A name of a list of server names. -/
structure NameEntry where
  kind : UInt8
  name : Bytes
  bounded : name.length < 256 ^ 2

def NameEntry.octets (entry : NameEntry) : Bytes := entry.kind :: counted 2 entry.name

/-- The body of a server name extension. -/
def serverNameList (entries : List NameEntry) : Bytes :=
  counted 2 (entries.flatMap NameEntry.octets)

/-- An extension has the type of server names, and its first entry is a host name with this
text. -/
structure Extension.NamesHost (extension : Extension) (text : String) : Prop where
  typed : extension.kind = 0
  listed : ∃ host entries, extension.body = serverNameList (host :: entries) ∧ host.kind = 0 ∧
    fromUtf8 host.name = some text

/-- The fields of a client hello and of the record around it. -/
structure HelloFields where
  recordVersion : Octets 2
  version : Octets 2
  random : Octets 32
  sessionId : Bytes
  cipherSuites : List UInt16
  compressionMethods : Bytes
  extensions : List Extension

namespace HelloFields

def suitesOctets (fields : HelloFields) : Bytes := fields.cipherSuites.flatMap bigEndian16

def extensionsOctets (fields : HelloFields) : Bytes := fields.extensions.flatMap Extension.octets

/-- What follows the random octets. -/
def choices (fields : HelloFields) : Bytes :=
  counted 1 fields.sessionId ++ (counted 2 fields.suitesOctets ++
    (counted 1 fields.compressionMethods ++ counted 2 fields.extensionsOctets))

/-- The handshake message. -/
def handshake (fields : HelloFields) : Bytes :=
  1 :: counted 3 (fields.version.toList ++ (fields.random.toList ++ fields.choices))

/-- The record with the handshake message alone. -/
def record (fields : HelloFields) : Bytes :=
  0x16 :: (fields.recordVersion.toList ++ counted 2 fields.handshake)

end HelloFields

/-- A well-formed hello in one record. A server name extension starts with a host name. -/
structure ClientHello extends HelloFields where
  sessionShort : sessionId.length ≤ 32
  suitesSome : 0 < cipherSuites.length
  suitesBounded : cipherSuites.length < 2 ^ 15
  methodsSome : 0 < compressionMethods.length
  methodsBounded : compressionMethods.length < 256
  distinct : (extensions.map Extension.kind).Nodup
  extensionsBounded : toHelloFields.extensionsOctets.length < 256 ^ 2
  recordBounded : toHelloFields.handshake.length < 256 ^ 2
  hosted : ∀ extension ∈ extensions, extension.kind = 0 → ∃ text, extension.NamesHost text

/-- A hello has a server name extension whose first entry is this host name. -/
def ClientHello.Names (hello : ClientHello) (text : String) : Prop :=
  ∃ extension ∈ hello.extensions, extension.NamesHost text

/-- A list of names that starts with a host name shows it. -/
theorem host_list_shows (host : NameEntry) (entries : List NameEntry) (rest : Bytes)
    (isHost : host.kind = 0) (text : String) :
    NamesShow ((host :: entries).flatMap NameEntry.octets).length
        ((host :: entries).flatMap NameEntry.octets ++ rest) text ↔
      fromUtf8 host.name = some text := by
  rw [List.flatMap_cons, NameEntry.octets, isHost, names_show_iff]
  constructor
  · rintro ⟨kind, name, behind, same, small, shown⟩
    simp only [List.cons_append, List.append_assoc, List.cons.injEq] at same
    obtain ⟨rfl, same⟩ := same
    obtain ⟨rfl, -⟩ := counted_inj host.bounded small same
    rcases shown with ⟨-, -, isText⟩ | ⟨notHost, -⟩
    · exact isText
    · exact absurd rfl notHost
  · intro isText
    refine ⟨0, host.name, entries.flatMap NameEntry.octets ++ rest, ?_, host.bounded,
      .inl ⟨rfl, ?_, isText⟩⟩
    · simp only [List.cons_append, List.append_assoc]
    · simp only [List.length_append, List.length_cons, counted_length]
      omega

/-- What an extension in front of others shows. -/
theorem extension_front_iff (extension : Extension) (room : Nat) (rest : Bytes) (text : String) :
    ExtensionsShow room (extension.octets ++ rest) text ↔
      extension.kind = 0 ∧ 4 ≤ room ∧ (∃ listLen list,
          extension.body = bigEndian 2 listLen ++ list ∧ listLen < 256 ^ 2 ∧
            NamesShow (min listLen list.length) (list ++ rest) text) ∨
        extension.kind ≠ 0 ∧ ExtensionsShow (room - (4 + extension.body.length)) rest text := by
  have zero : extension.kind.toNat = 0 ↔ extension.kind = 0 :=
    UInt16.toNat_inj (b := 0)
  rw [extensions_show_iff, Ne, ← zero]
  constructor
  · rintro ⟨kind, body, behind, same, kindSmall, small, shown⟩
    rw [Extension.octets, List.append_assoc] at same
    obtain ⟨rfl, fields⟩ := number_inj extension.kind.toNat_lt kindSmall same
    obtain ⟨rfl, rfl⟩ := counted_inj extension.bounded small fields
    exact shown
  · intro shown
    exact ⟨_, extension.body, rest, by rw [Extension.octets, List.append_assoc],
      extension.kind.toNat_lt, extension.bounded, shown⟩

/-- What a well-formed extension with server names shows is its host name. -/
theorem hosted_shows_iff (extension : Extension) (typed : extension.kind = 0)
    (hosted : ∃ text, extension.NamesHost text) (rest : Bytes) (text : String) :
    (∃ listLen list, extension.body = bigEndian 2 listLen ++ list ∧ listLen < 256 ^ 2 ∧
        NamesShow (min listLen list.length) (list ++ rest) text) ↔ extension.NamesHost text := by
  obtain ⟨other, -, host, entries, isList, isHost, isText⟩ := hosted
  have small := extension.bounded
  rw [isList, serverNameList, counted_length] at small
  constructor
  · rintro ⟨listLen, list, same, listSmall, shown⟩
    rw [isList, serverNameList, counted] at same
    obtain ⟨rfl, rfl⟩ := number_inj (by omega) listSmall same
    rw [Nat.min_self, host_list_shows host entries rest isHost] at shown
    exact ⟨typed, host, entries, isList, isHost, shown⟩
  · rintro ⟨-, first, others, again, firstHost, firstText⟩
    have width := small
    rw [isList] at again
    refine ⟨_, (first :: others).flatMap NameEntry.octets, by rw [isList, again]; rfl, ?_, ?_⟩
    · have same := congrArg List.length again
      simp only [serverNameList, counted_length] at same
      omega
    · rw [Nat.min_self]
      exact (host_list_shows first others rest firstHost text).mpr firstText

/-- Well-formed extensions show the host name of the one with server names. -/
theorem extensions_show_names (extensions : List Extension)
    (distinct : (extensions.map Extension.kind).Nodup)
    (hosted : ∀ extension ∈ extensions, extension.kind = 0 → ∃ text, extension.NamesHost text)
    (text : String) :
    ExtensionsShow (extensions.flatMap Extension.octets).length
        (extensions.flatMap Extension.octets) text ↔
      ∃ extension ∈ extensions, extension.NamesHost text := by
  induction extensions with
  | nil =>
    refine iff_of_false (fun shown => ?_) (by simp)
    have room := extensions_show_room shown
    simp at room
  | cons extension extensions inductionHypothesis =>
    rw [List.map_cons, List.nodup_cons] at distinct
    rw [List.forall_mem_cons] at hosted
    have later := inductionHypothesis distinct.2 hosted.2
    have width : ((extension :: extensions).flatMap Extension.octets).length =
        4 + extension.body.length + (extensions.flatMap Extension.octets).length := by
      rw [List.flatMap_cons, List.length_append, Extension.octets, List.length_append,
        counted_length, big_endian_length]
      omega
    rw [width, List.flatMap_cons, extension_front_iff, Nat.add_sub_cancel_left, later]
    by_cases typed : extension.kind = 0
    · rw [or_iff_left (fun other => other.1 typed), hosted_shows_iff extension typed
        (hosted.1 typed)]
      constructor
      · rintro ⟨-, -, named⟩
        exact ⟨extension, List.mem_cons_self, named⟩
      · rintro ⟨other, member, named⟩
        rcases List.mem_cons.mp member with rfl | member
        · exact ⟨typed, by omega, named⟩
        · have again : other.kind ∈ extensions.map Extension.kind := List.mem_map_of_mem member
          rw [named.typed, ← typed] at again
          exact absurd again distinct.1
    · rw [or_iff_right (fun other => typed other.1)]
      constructor
      · rintro ⟨-, other, member, named⟩
        exact ⟨other, List.mem_cons_of_mem _ member, named⟩
      · rintro ⟨other, member, named⟩
        rcases List.mem_cons.mp member with rfl | member
        · exact absurd named.typed typed
        · exact ⟨typed, other, member, named⟩

/-- The octets of a record up to the session id. -/
def HelloFields.front (fields : HelloFields) : Bytes :=
  0x16 :: (fields.recordVersion.toList ++ (bigEndian 2 fields.handshake.length ++
    (1 :: (bigEndian 3 (fields.version.toList ++ (fields.random.toList ++
      fields.choices)).length ++ (fields.version.toList ++ fields.random.toList)))))

/-- The front of the hello ends with the random value, at octet 43. -/
theorem front_length (fields : HelloFields) : fields.front.length = 43 := by
  simp [HelloFields.front]

/-- The record is its front and the fields of choice behind it. -/
theorem record_fields (fields : HelloFields) :
    fields.record = fields.front ++ fields.choices := by
  simp only [HelloFields.record, HelloFields.front, counted, List.append_assoc, List.cons_append]
  rw [HelloFields.handshake, counted]

/-- The record has five octets more than its handshake. -/
theorem record_length_eq (fields : HelloFields) :
    fields.record.length = 5 + fields.handshake.length := by
  simp only [HelloFields.record, List.length_cons, List.length_append, List.Vector.toList_length,
    counted_length]
  omega

/-- The length of a well-formed record is that of its hello. -/
theorem record_announces (hello : ClientHello) :
    bigEndianValue ((hello.record.drop 3).take 2) = hello.handshake.length := by
  have behind : hello.record.drop 3 = bigEndian 2 hello.handshake.length ++ hello.handshake := by
    have front : (0x16 :: hello.recordVersion.toList).length = 3 := by simp
    rw [HelloFields.record, ← List.cons_append, List.drop_left' front, counted]
  rw [behind, List.take_left' (big_endian_length _ _),
    big_endian_value_fits _ _ hello.recordBounded]

/-- The sixth octet of the record says that it is a hello. -/
theorem record_is_hello (fields : HelloFields) : fields.record.getD 5 0 = 1 := by
  have front : (0x16 :: (fields.recordVersion.toList ++
      bigEndian 2 fields.handshake.length)).length = 5 := by simp
  have split : fields.record = (0x16 :: (fields.recordVersion.toList ++
      bigEndian 2 fields.handshake.length)) ++ fields.handshake := by
    simp only [HelloFields.record, counted, List.append_assoc, List.cons_append]
  rw [split, List.getD_append_right _ _ _ _ (by omega), front]
  rfl

/-- Two octets for every cipher suite. -/
theorem suites_length (suites : List UInt16) :
    (suites.flatMap bigEndian16).length = 2 * suites.length := by
  induction suites with
  | nil => rfl
  | cons suite suites inductionHypothesis =>
    rw [List.flatMap_cons, List.length_append, inductionHypothesis, big_endian16_length,
      List.length_cons]
    omega

/-- The suites of a hello fit the length in front of them. -/
theorem suites_bounded (hello : ClientHello) : hello.suitesOctets.length < 256 ^ 2 := by
  have bounded := hello.suitesBounded
  rw [HelloFields.suitesOctets, suites_length]
  omega

/-- Read with a length of one octet, a hello shows the host name of its extension. -/
theorem hello_shows_iff (hello : ClientHello) (text : String) :
    HelloShows 1 hello.record text ↔ hello.Names text := by
  have named := extensions_show_names hello.extensions hello.distinct hello.hosted text
  have sessionSmall : hello.sessionId.length < 256 ^ 1 := by
    have short := hello.sessionShort
    omega
  rw [HelloShows, record_announces, record_length_eq, record_fields, ClientHello.Names, ← named]
  constructor
  · rintro ⟨-, -, front, session, suites, methods, extLen, block, fields, width, sidSmall,
      csSmall, cmSmall, extSmall, shown⟩
    obtain ⟨-, choices⟩ := List.append_inj fields (by rw [width, front_length])
    rw [HelloFields.choices] at choices
    obtain ⟨-, afterSession⟩ := counted_inj sessionSmall sidSmall choices
    obtain ⟨-, afterSuites⟩ := counted_inj (suites_bounded hello) csSmall afterSession
    obtain ⟨-, afterMethods⟩ := counted_inj hello.methodsBounded cmSmall afterSuites
    obtain ⟨rfl, rfl⟩ := number_inj hello.extensionsBounded extSmall afterMethods
    rw [Nat.min_self] at shown
    exact shown
  · intro shown
    refine ⟨Nat.le_refl _, ?_, hello.front, hello.sessionId, hello.suitesOctets,
      hello.compressionMethods, hello.extensionsOctets.length, hello.extensionsOctets, rfl,
      front_length _, sessionSmall, suites_bounded hello, hello.methodsBounded,
      hello.extensionsBounded, ?_⟩
    · rw [← record_fields]
      exact record_is_hello _
    · rw [Nat.min_self]
      exact shown

/-- The server name of a hello is found, or none if it has no such extension. -/
def ServerNameFound (hello : ClientHello) : Prop :=
  (∀ text, hello.Names text → parseSni hello.record = .ok (some text)) ∧
    ((∀ extension ∈ hello.extensions, extension.kind ≠ 0) → parseSni hello.record = .ok none)

/-- A well-formed record is long enough for the parser. -/
theorem record_returns (hello : ClientHello) : Returns (parseSni hello.record) := by
  rw [parse_sni_returns_iff]
  intro cut
  have short := cut.short
  have methods := hello.methodsSome
  rw [record_fields, List.length_append, front_length, HelloFields.choices] at short
  simp only [List.length_append, counted_length] at short
  omega

/-- The right server name is found, or rightly none, exactly in the hellos that show the same
with a session id length of two octets as with one. -/
theorem server_name_found_iff (hello : ClientHello) :
    ServerNameFound hello ↔
      ∀ text, HelloShows 2 hello.record text ↔ HelloShows 1 hello.record text := by
  constructor
  · rintro ⟨found, absent⟩ text
    rw [hello_shows_iff, ← parse_sni_iff]
    refine ⟨fun read => ?_, found text⟩
    by_cases typed : ∃ extension ∈ hello.extensions, extension.kind = 0
    · obtain ⟨extension, member, isNames⟩ := typed
      obtain ⟨other, named⟩ := hello.hosted extension member isNames
      have right := found other ⟨extension, member, named⟩
      rw [read] at right
      obtain rfl := Option.some.inj (Except.ok.inj right)
      exact ⟨extension, member, named⟩
    · rw [absent fun extension member isNames => typed ⟨extension, member, isNames⟩] at read
      simp at read
  · intro agree
    constructor
    · intro text named
      rw [parse_sni_iff, agree, hello_shows_iff]
      exact named
    · intro absent
      obtain ⟨found, read⟩ := record_returns hello
      cases found with
      | none => exact read
      | some text =>
        rw [parse_sni_iff, agree, hello_shows_iff] at read
        obtain ⟨extension, member, named⟩ := read
        exact absurd named.typed (absent extension member)

/-- With a session id, the parser takes its length for at least 256, and needs as many
octets. -/
theorem short_hello_shows_nothing (hello : ClientHello) (identified : hello.sessionId ≠ [])
    (short : hello.record.length < 310) (text : String) : ¬HelloShows 2 hello.record text := by
  rintro ⟨-, -, front, session, suites, methods, extLen, block, fields, width, sidSmall, -, -, -,
    shown⟩
  have room := extensions_show_room shown
  have total := congrArg List.length fields
  simp only [List.length_append, counted_length, big_endian_length] at total
  rw [record_fields] at fields
  obtain ⟨-, choices⟩ := List.append_inj fields (by rw [width, front_length])
  simp only [HelloFields.choices, counted, bigEndian, List.cons_append, List.cons.injEq] at choices
  have first := congrArg UInt8.toNat choices.1
  have sessionShort := hello.sessionShort
  have positive := List.length_pos_of_ne_nil identified
  rw [UInt8.toNat_ofNat', UInt8.toNat_ofNat'] at first
  omega

/-- An extension with the host name "a". -/
def hostExtension : Extension where
  kind := 0
  body := serverNameList [⟨0, asBytes "a", by decide⟩]
  bounded := by decide

/-- The sample extension names a host. -/
theorem host_extension_names : hostExtension.NamesHost "a" :=
  ⟨rfl, _, _, rfl, rfl, from_utf8_as_bytes "a"⟩

/-- A hello with a session id of 32 octets, one cipher suite and the host name "a". -/
def smallHello : ClientHello where
  recordVersion := ⟨[3, 1], rfl⟩
  version := ⟨[3, 3], rfl⟩
  random := zeroOctets 32
  sessionId := List.replicate 32 7
  cipherSuites := [0x1301]
  compressionMethods := [0]
  extensions := [hostExtension]
  sessionShort := by decide
  suitesSome := by decide
  suitesBounded := by decide
  methodsSome := by decide
  methodsBounded := by decide
  distinct := by decide
  extensionsBounded := by decide
  recordBounded := by decide
  hosted := by
    intro extension member _
    obtain rfl := List.mem_singleton.mp member
    exact ⟨"a", host_extension_names⟩

/-- The host name of that hello is not found. -/
theorem small_hello_not_found :
    smallHello.Names "a" ∧ parseSni smallHello.record = .ok none ∧
      ¬ServerNameFound smallHello := by
  have named : smallHello.Names "a" :=
    ⟨hostExtension, List.mem_singleton_self _, host_extension_names⟩
  have nothing (text : String) : parseSni smallHello.record ≠ .ok (some text) := by
    rw [Ne, parse_sni_iff]
    exact short_hello_shows_nothing smallHello (by decide) (by decide) text
  refine ⟨named, ?_, fun found => nothing "a" (found.1 "a" named)⟩
  obtain ⟨found, read⟩ := record_returns smallHello
  cases found with
  | none => exact read
  | some text => exact absurd read (nothing text)

end Hellos

end OmniProxy.ClientHellos
