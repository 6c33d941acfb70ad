import OmniProxy.AddressText
import OmniProxy.Connections
import OmniProxy.Utf8Text

/-!
# Datagrams on a stream

A frame is a 16-bit length, an address, a port and a datagram. The reader takes the
length and then as many octets as it says. The writer computes the length from the
text of the host, while the body holds the address the text is read as. The two
agree for every name, and among address literals only for those of IPv6 that are
fifteen octets long. Every other literal makes the reader take octets of the next
frame or leave octets of this one.
-/

namespace OmniProxy.UdpOverStream

open AddressText ByteStrings Connections ProxyTargets Utf8Text

section Frames

/-- The address of a frame: its type and its octets. -/
def addressOctets (targetHost : String) : Bytes :=
  match parseIpAddr targetHost with
  | .ok (.v4 ip) => 0x01 :: ip.toList
  | .ok (.v6 ip) => 0x04 :: ip.toList
  | .error _ => 0x03 :: UInt8.ofNat targetHost.utf8ByteSize :: asBytes targetHost

/-- What follows the length of a frame. -/
def frameBody (targetHost : String) (port : UInt16) (data : Bytes) : Bytes :=
  addressOctets targetHost ++ bigEndian16 port ++ data

/-- Write a frame. -/
def encodeFrame (targetHost : String) (port : UInt16) (data : Bytes) : Bytes :=
  bigEndian16 (UInt16.ofNat (data.length + 2 + targetHost.utf8ByteSize + 2)) ++
    frameBody targetHost port data

/-- Read a frame. -/
def readFrame : Io Bytes := do
  let lenb ← readExact 2
  readExact (bigEndianValue lenb)

end Frames

section Sizes

/-- A text has at least an octet and at most four for each character. -/
theorem text_size (text : String) :
    text.toList.length ≤ text.utf8ByteSize ∧ text.utf8ByteSize ≤ 4 * text.toList.length := by
  have encoded : ∀ chars : List Char, chars.length ≤ (chars.flatMap String.utf8EncodeChar).length ∧
      (chars.flatMap String.utf8EncodeChar).length ≤ 4 * chars.length := by
    intro chars
    induction chars with
    | nil => exact ⟨Nat.le_refl _, Nat.le_refl _⟩
    | cons char chars inductionHypothesis =>
      obtain ⟨low, high⟩ := inductionHypothesis
      have least := char.utf8Size_pos
      have most := char.utf8Size_le_four
      simp only [List.flatMap_cons, List.length_append, List.length_cons,
        String.length_utf8EncodeChar]
      omega
  have octets := encoded text.toList
  rwa [← as_bytes_of_list, String.ofList_toList, as_bytes_length] at octets

/-- Literals of either family are short, and those of IPv4 have at least seven
octets. -/
theorem literal_size (text : String) (ip : IpAddr) (parsed : parseIpAddr text = .ok ip) :
    text.utf8ByteSize ≤ 1028 ∧ ∀ octets, ip = .v4 octets → 7 ≤ text.utf8ByteSize := by
  have size := text_size text
  have length {least most : Nat} (spans : Spans least most text.toList []) :
      least ≤ text.toList.length ∧ text.toList.length ≤ most := by
    obtain ⟨used, all, low, high, -⟩ := spans
    rw [all, List.append_nil]
    exact ⟨low, high⟩
  rw [parseIpAddr] at parsed
  split at parsed
  · rename_i addr read
    obtain rfl : addr = ip := Except.ok.inj parsed
    obtain ⟨short, dotted⟩ := read_ip_spans _ _ _ read
    refine ⟨?_, fun octets family => ?_⟩
    · have most := (length short).2
      omega
    · have least := (length (dotted octets family)).1
      omega
  · simp at parsed

end Sizes

section Delimiting

/-- The hosts whose frames have the length they announce: names, and IPv6 literals of
fifteen octets. -/
def FitsHeader (host : String) : Prop :=
  (∀ ip, parseIpAddr host ≠ .ok (.v4 ip)) ∧
    ∀ ip, parseIpAddr host = .ok (.v6 ip) → host.utf8ByteSize = 15

/-- The octets of an address, whose count the writer takes to be that of the text and
two more. -/
theorem address_octets_length (host : String) (extra : Nat)
    (fits : (addressOctets host).length + extra < 65536) :
    (host.utf8ByteSize + 2 + extra) % 65536 = (addressOctets host).length + extra ↔
      FitsHeader host := by
  unfold FitsHeader
  unfold addressOctets at fits ⊢
  cases parsed : parseIpAddr host with
  | error message =>
    rw [parsed] at fits
    simp only [List.length_cons, as_bytes_length] at fits ⊢
    have announced :
        (host.utf8ByteSize + 2 + extra) % 65536 = host.utf8ByteSize + 1 + 1 + extra := by
      omega
    exact ⟨fun _ => ⟨by simp, by simp⟩, fun _ => announced⟩
  | ok ip =>
    obtain ⟨short, dotted⟩ := literal_size host ip parsed
    rw [parsed] at fits
    cases ip with
    | v4 octets =>
      have long := dotted octets rfl
      simp only [List.length_cons, List.Vector.toList_length] at fits ⊢
      constructor
      · intro announced
        omega
      · rintro ⟨foreign, -⟩
        exact absurd rfl (foreign octets)
    | v6 octets =>
      simp only [List.length_cons, List.Vector.toList_length] at fits ⊢
      constructor
      · intro announced
        have fifteen : host.utf8ByteSize = 15 := by omega
        exact ⟨by simp, fun _ _ => fifteen⟩
      · rintro ⟨-, fifteen⟩
        have size := fifteen octets rfl
        omega

/-- A frame is read back as it was written, with what follows left unread, exactly
when its host is a name or an IPv6 literal of fifteen octets. -/
theorem frame_self_delimiting_iff (host : String) (port : UInt16) (data following written : Bytes)
    (fits : (frameBody host port data).length < 65536) :
    readFrame.run ⟨encodeFrame host port data ++ following, written⟩ =
        .ok (frameBody host port data) ⟨following, written⟩ ↔
      FitsHeader host := by
  have total : (frameBody host port data).length =
      (addressOctets host).length + (2 + data.length) := by
    simp only [frameBody, List.length_append, big_endian16_length]
    omega
  rw [← address_octets_length host (2 + data.length) (total ▸ fits), ← total]
  have announced : bigEndianValue
      (bigEndian16 (UInt16.ofNat (data.length + 2 + host.utf8ByteSize + 2))) =
      (host.utf8ByteSize + 2 + (2 + data.length)) % 65536 := by
    rw [bigEndian16, big_endian_value_fits 2 _ (UInt16.toNat_lt _), UInt16.toNat_ofNat']
    congr 1
    omega
  rw [readFrame, encodeFrame, List.append_assoc, EStateM.run_bind,
    read_exact_append 2 _ _ _ (big_endian16_length _)]
  change (readExact (bigEndianValue _)).run _ = _ ↔ _
  rw [announced, read_exact_yields_iff]
  constructor
  · rintro ⟨length, -, -⟩
    exact length.symm
  · intro length
    exact ⟨length.symm, rfl, rfl⟩

/-- The frame of a name. -/
theorem frame_self_delimiting_iff_name :
    readFrame.run ⟨encodeFrame "a.b" 53 [1, 2] ++ [7, 8, 9], []⟩ =
        .ok (frameBody "a.b" 53 [1, 2]) ⟨[7, 8, 9], []⟩ ↔
      FitsHeader "a.b" :=
  frame_self_delimiting_iff "a.b" 53 [1, 2] [7, 8, 9] [] (by decide)

/-- The frame of an IPv4 literal takes four of the octets that follow it. -/
theorem ipv4_frame_overruns :
    readFrame.run ⟨encodeFrame "1.2.3.4" 53 [1, 2] ++ [7, 8, 9, 10, 11], []⟩ ≠
      .ok (frameBody "1.2.3.4" 53 [1, 2]) ⟨[7, 8, 9, 10, 11], []⟩ := by
  have stream : encodeFrame "1.2.3.4" 53 [1, 2] ++ [7, 8, 9, 10, 11] =
      [0, 13] ++ ([1, 1, 2, 3, 4, 0, 53, 1, 2, 7, 8, 9, 10] ++ [11]) := by
    decide +kernel
  have body : frameBody "1.2.3.4" 53 [1, 2] = [1, 1, 2, 3, 4, 0, 53, 1, 2] := by decide +kernel
  rw [stream, readFrame, EStateM.run_bind, read_exact_append 2 [0, 13] _ _ rfl]
  change (readExact 13).run _ ≠ _
  rw [read_exact_append 13 _ _ _ rfl, body]
  simp

end Delimiting

end OmniProxy.UdpOverStream
