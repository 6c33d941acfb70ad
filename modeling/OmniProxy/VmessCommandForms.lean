import OmniProxy.Sniffing
import OmniProxy.VmessCommand

/-!
# Which request commands are accepted

The decoder of a request command looks at octets at fixed places, and at an address whose
length it reads, in a buffer that ends with a checksum. Here each of these looks is checked
as it is in the program: none of them leaves the buffer. What is accepted is a version,
the fields, an address and a checksum, and nothing between the address and the checksum.

The octet that holds the security also announces a number of octets between the address and
the checksum. The decoder does not skip them, so it accepts a command that announces some
exactly when there are none.
-/

namespace OmniProxy.VmessCommandForms

open ByteStrings CheckedLoops Connections Digests ProxyTargets Sniffing VmessCommand

section Bounds

/-- An array copied from a place in a buffer. -/
def arrayAt (count : Nat) (buf : Bytes) (first : Nat) : Checked (Octets count) :=
  if enough : first + count ≤ buf.length then
    .ok (octetsOf count (buf.drop first) (by rw [List.length_drop]; omega))
  else .error .outOfRange

/-- Read an address after its tag, with the position behind it. -/
def addressAt (buf : Bytes) (atyp : UInt8) (port : UInt16) (pos : Nat) :
    Checked (Except IoError (ProxyTarget × Nat)) :=
  if atyp = atypV4 then
    if buf.length < pos + 4 then return .error (ioerr "vmess: short ipv4")
    else do
      let ip ← arrayAt 4 buf pos
      return .ok (.tcp ⟨.v4 ip, port⟩, pos + 4)
  else if atyp = atypDomain then
    if buf.length < pos + 1 then return .error (ioerr "vmess: short domain len")
    else do
      let dl ← octetAt buf pos
      if buf.length < pos + 1 + dl.toNat then return .error (ioerr "vmess: short domain")
      else
        let host ← slice buf (pos + 1) (pos + 1 + dl.toNat)
        return .ok (.domain (fromUtf8Lossy host) port, pos + 1 + dl.toNat)
  else if atyp = atypV6 then
    if buf.length < pos + 16 then return .error (ioerr "vmess: short ipv6")
    else do
      let ip ← arrayAt 16 buf pos
      return .ok (.tcp ⟨.v6 ip, port⟩, pos + 16)
  else return .error (ioerr "vmess: unknown address type")

/-- Decode a command buffer with every look at it checked. -/
def decodeChecked (buf : Bytes) : Checked (Except IoError DecodedRequest) :=
  if buf.length < 41 then return .error (ioerr "vmess: command buffer too short")
  else do
    let trailer ← arrayAt 4 buf (buf.length - 4)
    let summed ← slice buf 0 (buf.length - 4)
    if fnv1a32 summed ≠ UInt32.ofNat (bigEndianValue trailer.toList) then
      return .error (ioerr "vmess: command fnv mismatch")
    else
      let first ← octetAt buf 0
      if first ≠ version then return .error (ioerr "vmess: unsupported version")
      else
        let requestIv ← arrayAt 16 buf 1
        let requestKey ← arrayAt 16 buf 17
        let responseV ← octetAt buf 33
        let options ← octetAt buf 34
        let security ← octetAt buf 35
        let _reserved ← octetAt buf 36
        let cmd ← octetAt buf 37
        let high ← octetAt buf 38
        let low ← octetAt buf 39
        let atyp ← octetAt buf 40
        match ← addressAt buf atyp (ofBigEndian16 high low) 41 with
        | .error error => return .error error
        | .ok (target, pos) =>
            if pos ≠ buf.length - 4 then
              return .error (ioerr "vmess: trailing garbage in command")
            else
              return .ok ⟨requestIv, requestKey, responseV, options, security &&& 0x0F, cmd, target⟩

variable {buf : Bytes}

/-- An array inside the buffer is read. -/
theorem array_at_inside {count first : Nat} (inside : first + count ≤ buf.length) :
    arrayAt count buf first =
      .ok (octetsOf count (buf.drop first) (by rw [List.length_drop]; omega)) :=
  dif_pos inside

/-- Reading an address stays inside the buffer. -/
theorem address_at_checked (atyp : UInt8) (port : UInt16) (pos : Nat)
    (inside : pos ≤ buf.length) :
    addressAt buf atyp port pos =
      .ok ((decodeAddress atyp port (buf.drop pos)).map fun (target, used) =>
        (target, pos + used)) := by
  have left (count : Nat) : (buf.drop pos).length < count ↔ buf.length < pos + count := by
    rw [List.length_drop]
    omega
  unfold addressAt decodeAddress
  by_cases four : atyp = atypV4
  · rw [if_pos four, if_pos four]
    by_cases short : buf.length < pos + 4
    · rw [if_pos short, dif_pos ((left 4).mpr short)]
      rfl
    · rw [if_neg short, dif_neg (mt (left 4).mp short), array_at_inside (by omega)]
      rfl
  rw [if_neg four, if_neg four]
  by_cases domain : atyp = atypDomain
  · rw [if_pos domain, if_pos domain]
    by_cases short : buf.length < pos + 1
    · rw [if_pos short, if_pos ((left 1).mpr short)]
      rfl
    · have there : buf.getD pos 0 = (buf.drop pos).getD 0 0 := get_dropped buf pos 0
      rw [if_neg short, if_neg (mt (left 1).mp short), octet_at_get (by omega), there]
      generalize (buf.drop pos).getD 0 0 = dl
      by_cases cut : buf.length < pos + 1 + dl.toNat
      · rw [if_pos ((left (1 + dl.toNat)).mpr (by omega))]
        exact if_pos cut
      · have host : (buf.take (pos + 1 + dl.toNat)).drop (pos + 1) =
            ((buf.drop pos).drop 1).take dl.toNat := by
          rw [List.drop_take, List.drop_drop, Nat.add_sub_cancel_left]
        have sliced := @slice_inside buf _ _ (Nat.le_add_right (pos + 1) dl.toNat) (by omega)
        rw [host] at sliced
        rw [if_neg (mt (left (1 + dl.toNat)).mp (by omega))]
        simp only [bind, Except.bind, if_neg cut, sliced]
        simp only [pure, Except.pure, Except.map, Nat.add_assoc]
  rw [if_neg domain, if_neg domain]
  by_cases six : atyp = atypV6
  · rw [if_pos six, if_pos six]
    by_cases short : buf.length < pos + 16
    · rw [if_pos short, dif_pos ((left 16).mpr short)]
      rfl
    · rw [if_neg short, dif_neg (mt (left 16).mp short), array_at_inside (by omega)]
      rfl
  · rw [if_neg six, if_neg six]
    rfl

/-- No look at a command buffer leaves it. -/
theorem decode_checked (buf : Bytes) : decodeChecked buf = .ok (decodeRequestCommand buf) := by
  unfold decodeChecked decodeRequestCommand
  by_cases short : buf.length < 41
  · rw [if_pos short, dif_pos short]
    rfl
  have octet {index : Nat} (inside : index < 41) : octetAt buf index = .ok (buf.getD index 0) :=
    octet_at_get (by omega)
  have array {first : Nat} (inside : first + 16 ≤ 41) := @array_at_inside buf 16 first (by omega)
  have trailer := @array_at_inside buf 4 (buf.length - 4) (by omega)
  have summed := @slice_inside buf _ _ (Nat.zero_le (buf.length - 4)) (by omega)
  have trailerOctets : (octetsOf 4 (buf.drop (buf.length - 4))
      (by rw [List.length_drop]; omega)).toList = buf.drop (buf.length - 4) := by
    rw [octetsOf, List.Vector.toList_mk, List.take_of_length_le]
    rw [List.length_drop]
    omega
  rw [if_neg short, dif_neg short]
  simp (disch := omega) only [trailer, summed, trailerOctets, bind, Except.bind, List.drop_zero,
    octet, array]
  by_cases mismatch : fnv1a32 (buf.take (buf.length - 4)) ≠
      UInt32.ofNat (bigEndianValue (buf.drop (buf.length - 4)))
  · rw [if_pos mismatch, if_pos mismatch]
    rfl
  rw [if_neg mismatch, if_neg mismatch]
  by_cases unsupported : buf.getD 0 0 ≠ version
  · rw [if_pos unsupported, if_pos unsupported]
    rfl
  have port : ofBigEndian16 (buf.getD 38 0) (buf.getD 39 0) = portAt buf 38 := rfl
  rw [if_neg unsupported, if_neg unsupported, port,
    address_at_checked (buf.getD 40 0) (portAt buf 38) 41 (by omega)]
  cases decodeAddress (buf.getD 40 0) (portAt buf 38) (buf.drop 41) with
  | error error => rfl
  | ok found =>
    obtain ⟨target, used⟩ := found
    simp only [Except.map]
    split <;> rfl

end Bounds

section Forms

/-- The octets after a tag that stand for the address of a target. -/
inductive AddressForm : UInt8 → Bytes → ProxyTarget → Prop where
  | v4 (ip : Octets 4) (port : UInt16) : AddressForm atypV4 ip.toList (.tcp ⟨.v4 ip, port⟩)
  | v6 (ip : Octets 16) (port : UInt16) : AddressForm atypV6 ip.toList (.tcp ⟨.v6 ip, port⟩)
  | domain (host : Bytes) (port : UInt16) (short : host.length ≤ 255) :
      AddressForm atypDomain (UInt8.ofNat host.length :: host)
        (.domain (fromUtf8Lossy host) port)

/-- A command of some target: forty octets, the tag, an address that goes up to the checksum,
and the checksum of all before it. -/
def CommandForm (buf : Bytes) (target : ProxyTarget) : Prop :=
  ∃ fields tag address, fields.length = 40 ∧ AddressForm tag address target ∧
    buf = withChecksum (fields ++ tag :: address)

/-- An address that is read is the octets that were used. -/
theorem decode_address_form (atyp : UInt8) (port : UInt16) (body : Bytes) (target : ProxyTarget)
    (used : Nat) (decoded : decodeAddress atyp port body = .ok (target, used)) :
    used ≤ body.length ∧ AddressForm atyp (body.take used) target := by
  unfold decodeAddress at decoded
  split_ifs at decoded with four long domain nonempty six long
  · obtain ⟨rfl, rfl⟩ := Prod.mk.inj (Except.ok.inj decoded)
    subst four
    exact ⟨by omega, .v4 (octetsOf 4 body (by omega)) port⟩
  · dsimp only at decoded
    split_ifs at decoded with long
    obtain ⟨rfl, rfl⟩ := Prod.mk.inj (Except.ok.inj decoded)
    subst domain
    match body, nonempty with
    | dl :: rest, _ =>
      simp only [List.getD_cons_zero, List.length_cons, List.drop_succ_cons, List.drop_zero,
        Nat.add_comm 1, List.take_succ_cons] at long ⊢
      have width : (rest.take dl.toNat).length = dl.toNat := by
        rw [List.length_take]
        omega
      have bounded := dl.toNat_lt
      have form := AddressForm.domain (rest.take dl.toNat) port (by omega)
      rw [width, UInt8.ofNat_toNat] at form
      exact ⟨by omega, form⟩
  · obtain ⟨rfl, rfl⟩ := Prod.mk.inj (Except.ok.inj decoded)
    subst six
    exact ⟨by omega, .v6 (octetsOf 16 body (by omega)) port⟩

/-- What ends with its own checksum is a closed buffer. -/
theorem closed_of_checksum (buf : Bytes) (long : 4 ≤ buf.length)
    (matching : fnv1a32 (buf.take (buf.length - 4)) =
      UInt32.ofNat (bigEndianValue (buf.drop (buf.length - 4)))) :
    buf = withChecksum (buf.take (buf.length - 4)) := by
  have width : (buf.drop (buf.length - 4)).length = 4 := by
    rw [List.length_drop]
    omega
  have bound := big_endian_value_bound (buf.drop (buf.length - 4))
  have digits := big_endian_of_value (buf.drop (buf.length - 4))
  rw [width] at bound digits
  have value : (UInt32.ofNat (bigEndianValue (buf.drop (buf.length - 4)))).toNat =
      bigEndianValue (buf.drop (buf.length - 4)) := by
    rw [UInt32.toNat_ofNat']
    exact Nat.mod_eq_of_lt bound
  rw [withChecksum, matching, value, digits, List.take_append_drop]

/-- A buffer is accepted only as the command of the target that is decoded from it. -/
theorem decoded_form (buf : Bytes) (request : DecodedRequest)
    (decoded : decodeRequestCommand buf = .ok request) : CommandForm buf request.target := by
  unfold decodeRequestCommand at decoded
  split at decoded
  · simp at decoded
  next long =>
  dsimp only at decoded
  split_ifs at decoded with mismatch unsupported
  cases found : decodeAddress (buf.getD 40 0) (portAt buf 38) (buf.drop 41) with
  | error error => simp only [found, reduceCtorEq] at decoded
  | ok result =>
    obtain ⟨target, used⟩ := result
    simp only [found] at decoded
    split_ifs at decoded with ends
    obtain rfl := Except.ok.inj decoded
    obtain ⟨-, form⟩ := decode_address_form _ _ _ _ _ found
    have closed := closed_of_checksum buf (by omega) (not_not.mp mismatch)
    have tagged : buf.drop 40 = buf.getD 40 0 :: buf.drop 41 := by
      rw [List.drop_eq_getElem_cons (by omega), List.getD_eq_getElem buf 0 (by omega)]
    have content : buf.take (buf.length - 4) =
        buf.take 40 ++ buf.getD 40 0 :: (buf.drop 41).take used := by
      have upTo : buf.length - 4 = 40 + (used + 1) := by omega
      rw [upTo, List.take_add, tagged, List.take_succ_cons]
    refine ⟨buf.take 40, buf.getD 40 0, (buf.drop 41).take used, ?_, form, ?_⟩
    · rw [List.length_take]
      omega
    · rw [← content]
      exact closed

/-- The low half of a number below sixteen is the number. -/
theorem low_nibble (security : UInt8) (small : security < 16) : security &&& 0x0F = security := by
  apply UInt8.toNat_inj.mp
  rw [UInt8.toNat_and]
  have bound : security.toNat < 2 ^ 4 := UInt8.lt_iff_toNat_lt.mp small
  exact Nat.and_two_pow_sub_one_of_lt_two_pow bound

/-- A command is decoded to the values it was written from. On any octets the decoder stays
inside the buffer, and it accepts only what ends with its checksum right after an address. -/
theorem request_command_codec :
    (∀ (requestIv requestKey : Octets 16) (responseV options security cmd : UInt8)
        (target : ProxyTarget), security < 16 → target.fits →
      decodeRequestCommand
          (encodeRequestCommand requestIv requestKey responseV options security cmd target) =
        .ok ⟨requestIv, requestKey, responseV, options, security, cmd, target⟩) ∧
      ∀ buf : Bytes, decodeChecked buf = .ok (decodeRequestCommand buf) ∧
        ∀ request, decodeRequestCommand buf = .ok request → CommandForm buf request.target := by
  refine ⟨?_, fun buf => ⟨decode_checked buf, decoded_form buf⟩⟩
  intro requestIv requestKey responseV options security cmd target small fits
  have decoded := decode_encode_request requestIv requestKey responseV options security cmd target
    fits
  rwa [low_nibble security small] at decoded

end Forms

section Padding

variable (requestIv requestKey : Octets 16) (responseV options security cmd : UInt8)
  (target : ProxyTarget) (padding : Bytes)

/-- A command with octets between the address and the checksum, and their number announced
in the high half of the octet of the security. -/
def paddedCommand : Bytes :=
  let padLen := UInt8.ofNat padding.length
  withChecksum (fieldOctets requestIv requestKey responseV options
    ((padLen <<< 4) ||| (security &&& 0x0F)) 0x00 cmd target.port ++
      encodeAddress target ++ padding)

/-- Without padding it is the command the client writes. -/
theorem padded_nothing :
    paddedCommand requestIv requestKey responseV options security cmd target [] =
      encodeRequestCommand requestIv requestKey responseV options security cmd target := by
  have nothing : (UInt8.ofNat ([] : Bytes).length <<< 4) ||| (security &&& 0x0F) =
      security &&& 0x0F := UInt8.zero_or
  rw [paddedCommand, encodeRequestCommand, encode_fields_octets, nothing, List.append_nil]

/-- Padding is taken for something that does not belong to the command. -/
theorem padded_refused (fits : target.fits) (nonempty : padding ≠ []) :
    decodeRequestCommand
        (paddedCommand requestIv requestKey responseV options security cmd target padding) =
      .error (ioerr "vmess: trailing garbage in command") := by
  obtain ⟨tag, body, address, addressed⟩ := decode_address_encoded target fits
  obtain ⟨checksum, -, decoded⟩ := decode_closed requestIv requestKey responseV options
    ((UInt8.ofNat padding.length <<< 4) ||| (security &&& 0x0F)) 0 cmd tag target.port
    (body ++ padding)
  have longer : body.length ≠ (body ++ padding).length := by
    have positive := List.length_pos_iff.mpr nonempty
    rw [List.length_append]
    omega
  rw [paddedCommand, address, List.append_assoc, List.cons_append, decoded, List.append_assoc,
    addressed]
  exact if_pos longer

/-- Exactly when a command with announced padding is accepted with its fields: when no
octets are announced and there are none. -/
theorem padded_accepted_iff (fits : target.fits) :
    decodeRequestCommand
        (paddedCommand requestIv requestKey responseV options security cmd target padding) =
        .ok ⟨requestIv, requestKey, responseV, options, security &&& 0x0F, cmd, target⟩ ↔
      padding = [] := by
  constructor
  · intro accepted
    by_contra some
    rw [padded_refused requestIv requestKey responseV options security cmd target padding fits
      some] at accepted
    simp at accepted
  · rintro rfl
    rw [padded_nothing]
    exact decode_encode_request requestIv requestKey responseV options security cmd target fits

end Padding

section Examples

/-- The sample command with padding is not decoded, as the equivalence says of it. -/
theorem padded_accepted_example :
    ProxyTarget.fits (.domain "example.org" 443) ∧
      (decodeRequestCommand (paddedCommand (zeroOctets 16) (zeroOctets 16) 7 5 3 1
          (.domain "example.org" 443) [9, 9]) =
          .ok ⟨zeroOctets 16, zeroOctets 16, 7, 5, 3 &&& 0x0F, 1, .domain "example.org" 443⟩ ↔
        ([9, 9] : Bytes) = []) :=
  ⟨by decide, padded_accepted_iff (zeroOctets 16) (zeroOctets 16) 7 5 3 1
    (.domain "example.org" 443) [9, 9] (by decide)⟩

/-- One octet of padding is announced and is there. -/
theorem one_octet_of_padding_refused :
    (paddedCommand (zeroOctets 16) (zeroOctets 16) 7 5 3 1 (.domain "a" 80) [9]).getD 35 0 =
        0x13 ∧
      decodeRequestCommand
          (paddedCommand (zeroOctets 16) (zeroOctets 16) 7 5 3 1 (.domain "a" 80) [9]) =
        .error (ioerr "vmess: trailing garbage in command") := by
  decide +kernel

end Examples

end OmniProxy.VmessCommandForms
