import OmniProxy.ServerNames

/-!
# PROXY protocol headers

A header tells the addresses of a connection that a proxy has accepted. The first version
is a line of text; the second is a block of octets with a family and the length of what
follows. The encoder writes blocks for both families of IP addresses, and the parser
refuses those of the second.

The parser checks that as many octets are there as the block announces, but not that it
announces enough of them for its addresses. So a block that announces too few stops the
program, or has its addresses read from what follows it.
-/

namespace OmniProxy.ProxyProtocol

open AddressText ByteStrings CheckedLoops Connections ProxyTargets ServerNames Sniffing

section Parsing

/-- The two ends of a connection as a header of either version has them. -/
inductive ProxyProtocolHeader where
  | v1 (src dst : SocketAddr)
  | v2 (src dst : SocketAddr)
deriving DecidableEq

def ioerr (msg : String) : IoError := ⟨.invalidData, msg⟩

/-- The octets in front of the first line end. -/
def lineEnd : Bytes → Option Nat
  | [] => none
  | first :: rest =>
      if first = 0x0D ∧ rest.head? = some 0x0A then some 0 else (lineEnd rest).map (· + 1)

def parseIp (text : List Char) : Except IoError IpAddr :=
  (parseIpAddr (String.ofList text)).mapError fun _ =>
    ioerr "proxy_protocol: bad address in v1 header"

def parsePort (text : List Char) : Except IoError UInt16 :=
  match parseUnsigned 0xFFFF (String.ofList text) with
  | .ok port => .ok (UInt16.ofNat port)
  | .error _ => .error (ioerr "proxy_protocol: bad port")

/-- Read the line of a header: six words, the first of them fixed and the second unused. -/
def parseLine (line : Bytes) : Except IoError (SocketAddr × SocketAddr) :=
  match fromUtf8 line with
  | none => .error (ioerr "proxy_protocol: invalid v1 header")
  | some text =>
      match text.toList.splitOn ' ' with
      | [proxy, _, srcIp, dstIp, srcPort, dstPort] =>
          if proxy ≠ "PROXY".toList then .error (ioerr "proxy_protocol: malformed v1 header")
          else do
            let src := ⟨← parseIp srcIp, ← parsePort srcPort⟩
            let dst := ⟨← parseIp dstIp, ← parsePort dstPort⟩
            return (src, dst)
      | _ => .error (ioerr "proxy_protocol: malformed v1 header")

/-- A header and the octets it takes, or an error. -/
abbrev Parsed := Except IoError (ProxyProtocolHeader × Nat)

def parseV1 (buf : Bytes) : Checked Parsed :=
  match lineEnd buf with
  | none => return .error (ioerr "proxy_protocol: incomplete v1 header")
  | some position => do
      let stop := position + 2
      let line ← slice buf 0 (stop - 2)
      return (parseLine line).map fun (src, dst) => (.v1 src dst, stop)

/-- The address and the port of one end, from their places in a block. -/
def endAt (block : Bytes) (ip port : Nat) : Checked SocketAddr := do
  let first ← octetAt block ip
  let second ← octetAt block (ip + 1)
  let third ← octetAt block (ip + 2)
  let fourth ← octetAt block (ip + 3)
  return ⟨.v4 ⟨[first, second, third, fourth], rfl⟩, UInt16.ofNat (← be16At block port)⟩

/-- The octets that the addresses of a family take. -/
def addrLen (fam : UInt8) : Nat :=
  if fam = 0x11 ∨ fam = 0x12 then 16 else if fam = 0x21 ∨ fam = 0x22 then 36 else 0

/-- The address that stands for one of an unknown family. -/
def unspecified : SocketAddr := ⟨.v4 ⟨[0, 0, 0, 0], rfl⟩, 0⟩

/-- The addresses of a whole block. -/
def parseAddresses (buf : Bytes) (fam : UInt8) (total : Nat) : Checked Parsed :=
  if addrLen fam = 0 then return .ok (.v2 unspecified unspecified, total)
  else do
    let p ← slice buf 16 buf.length
    if addrLen fam = 16 then
      let src ← endAt p 0 8
      let dst ← endAt p 4 10
      return .ok (.v2 src dst, total)
    else return .error (ioerr "proxy_protocol: ipv6 v2 not parsed")

def parseV2 (buf : Bytes) : Checked Parsed := do
  let verCmd ← octetAt buf 12
  let fam ← octetAt buf 13
  if verCmd >>> 4 ≠ 2 then return .error (ioerr "proxy_protocol: unsupported v2 version")
  let len ← be16At buf 14
  let total := 16 + len
  if buf.length < total then return .error (ioerr "proxy_protocol: incomplete v2 header")
  else parseAddresses buf fam total

/-- The octets of the signature that the parser looks at. -/
def signatureFront : Bytes := [0x0D, 0x0A, 0x0D, 0x0A, 0x00]

/-- Parse the header at the front of some octets. -/
def parse (buf : Bytes) : Checked Parsed :=
  if 6 ≤ buf.length ∧ buf.take 5 = asBytes "PROXY" then parseV1 buf
  else if 16 ≤ buf.length ∧ buf.take 5 = signatureFront then parseV2 buf
  else return .error (ioerr "proxy_protocol: signature mismatch")

/-- Write a block with two addresses. Those of different families are written as zeros. -/
def encodeV2 (src dst : SocketAddr) : Bytes :=
  let out : Bytes := [0x0D, 0x0A, 0x0D, 0x0A, 0x00, 0x0D, 0x0A, 0x51, 0x55, 0x49, 0x54, 0x0A]
  let out := out ++ [0x21]
  let (fam, abuf) : UInt8 × Bytes :=
    match src.ip, dst.ip with
    | .v4 s, .v4 d => (0x11, s.toList ++ d.toList)
    | .v6 s, .v6 d => (0x21, s.toList ++ d.toList)
    | _, _ => (0x11, List.replicate 12 0)
  let out := out ++ [fam]
  let len := abuf.length + 4
  let out := out ++ bigEndian16 (UInt16.ofNat len)
  let abuf := abuf ++ bigEndian16 src.port ++ bigEndian16 dst.port
  out ++ abuf

end Parsing

section Fronts

variable {buf : Bytes} {used : Nat} (more : Bytes)

/-- A count inside the used octets is inside the front. -/
theorem front_inside {count : Nat} (whole : used ≤ buf.length) (inside : count ≤ used) :
    count ≤ (buf.take used).length := by
  rw [List.length_take_of_le whole]
  exact inside

/-- A count inside the used octets is there whatever follows. -/
theorem front_long {count : Nat} (whole : used ≤ buf.length) (inside : count ≤ used) :
    count ≤ (buf.take used ++ more).length := by
  rw [List.length_append]
  exact Nat.le_add_right_of_le (front_inside whole inside)

/-- An octet of the front stays where it was, whatever follows the front. -/
theorem octet_at_front {index : Nat} (whole : used ≤ buf.length) (inside : index < used) :
    octetAt (buf.take used ++ more) index = octetAt buf index := by
  rw [octetAt, List.getElem?_append_left (front_inside whole inside),
    List.getElem?_take_of_lt inside]
  rfl

/-- An octet inside the used ones is the same whatever follows. -/
theorem get_front {index : Nat} (whole : used ≤ buf.length) (inside : index < used) :
    (buf.take used ++ more).getD index 0 = buf.getD index 0 := by
  have same := octet_at_front more whole inside
  rw [octet_at_get (front_long more whole inside),
    octet_at_get (Nat.lt_of_lt_of_le inside whole)] at same
  exact Except.ok.inj same

/-- Two octets inside the used ones are the same whatever follows. -/
theorem be16_at_front {index : Nat} (whole : used ≤ buf.length) (inside : index + 1 < used) :
    be16At (buf.take used ++ more) index = be16At buf index := by
  rw [be16At, octet_at_front more whole (Nat.lt_of_succ_lt inside),
    octet_at_front more whole inside]
  rfl

/-- The octets in front of a place inside the front stay. -/
theorem take_front {count : Nat} (whole : used ≤ buf.length) (inside : count ≤ used) :
    (buf.take used ++ more).take count = buf.take count := by
  rw [List.take_append_of_le_length (front_inside whole inside), List.take_take,
    Nat.min_eq_left inside]

/-- The front behind a place inside it is a front of what is behind that place. -/
theorem drop_front {count : Nat} (whole : used ≤ buf.length) (inside : count ≤ used) :
    (buf.take used ++ more).drop count = (buf.drop count).take (used - count) ++ more := by
  rw [List.drop_append_of_le_length (front_inside whole inside), List.drop_take]

end Fronts

section Lines

variable {buf : Bytes} {position : Nat}

/-- The end of the line that was found is in the buffer with both of its octets. -/
theorem line_end_inside (found : lineEnd buf = some position) : position + 2 ≤ buf.length := by
  induction buf generalizing position with
  | nil => cases found
  | cons first rest inductionHypothesis =>
    rw [lineEnd] at found
    split at found
    · next ending =>
      have atFront : 0 = position := Option.some.inj found
      have behind : 0 < rest.length := List.length_pos_of_mem (List.mem_of_head? ending.2)
      rw [← atFront, List.length_cons]
      omega
    · next other =>
      obtain ⟨before, earlier, rfl⟩ := Option.map_eq_some_iff.mp found
      have inside := inductionHypothesis earlier
      rw [List.length_cons]
      omega

/-- A line end is found in all octets that agree up to it. -/
theorem line_end_agrees {others : Bytes}
    (same : others.take (position + 2) = buf.take (position + 2))
    (found : lineEnd buf = some position) : lineEnd others = some position := by
  induction buf generalizing position others with
  | nil => cases found
  | cons first rest inductionHypothesis =>
    cases others with
    | nil => simp at same
    | cons other others =>
      simp only [List.take_succ_cons, List.cons.injEq] at same
      obtain ⟨rfl, same⟩ := same
      have heads : others.head? = rest.head? := by
        simpa [List.head?_take] using congrArg List.head? same
      rw [lineEnd] at found ⊢
      rw [heads]
      split at found
      · next ending => rwa [if_pos ending]
      · next behind =>
        obtain ⟨before, earlier, rfl⟩ := Option.map_eq_some_iff.mp found
        rw [if_neg behind, inductionHypothesis same earlier]
        rfl

/-- No line ends in the first word of a line of the first version. -/
theorem line_end_behind (named : buf.take 5 = asBytes "PROXY")
    (found : lineEnd buf = some position) : 5 ≤ position := by
  have word : asBytes "PROXY" = [0x50, 0x52, 0x4F, 0x58, 0x59] := by decide
  rw [word] at named
  have spelled := List.take_append_drop 5 buf
  rw [named] at spelled
  rw [← spelled] at found
  obtain ⟨behind, -, counted⟩ : ∃ behind, lineEnd (buf.drop 5) = some behind ∧
      behind + 1 + 1 + 1 + 1 + 1 = position := by
    simpa [lineEnd] using found
  omega

/-- A line is parsed from the octets in front of its end. -/
theorem parse_v1_eq (found : lineEnd buf = some position) :
    parseV1 buf =
      .ok ((parseLine (buf.take position)).map fun (src, dst) => (.v1 src dst, position + 2)) := by
  have inside := line_end_inside found
  rw [parseV1, found]
  dsimp only
  rw [Nat.add_sub_cancel, slice_inside (Nat.zero_le _) (by omega)]
  rfl

/-- The text version never stops the program. -/
theorem parse_v1_returns (buf : Bytes) : Returns (parseV1 buf) := by
  cases found : lineEnd buf with
  | none => exact ⟨_, by rw [parseV1, found]; rfl⟩
  | some position => exact ⟨_, parse_v1_eq found⟩

/-- A header of the first version takes its line and the end of it. -/
theorem parse_v1_used {header : ProxyProtocolHeader} {used : Nat}
    (parsed : parseV1 buf = .ok (.ok (header, used))) :
    ∃ position, lineEnd buf = some position ∧ used = position + 2 := by
  cases found : lineEnd buf with
  | none =>
    rw [parseV1, found] at parsed
    cases parsed
  | some position =>
    rw [parse_v1_eq found] at parsed
    have read := Except.ok.inj parsed
    cases line : parseLine (buf.take position) with
    | error refusal =>
      rw [line] at read
      cases read
    | ok ends =>
      rw [line] at read
      cases read
      exact ⟨position, rfl, rfl⟩

/-- The text version looks no further than the end of its line. -/
theorem parse_v1_front (found : lineEnd buf = some position) (more : Bytes) :
    parseV1 (buf.take (position + 2) ++ more) = parseV1 buf := by
  have whole := line_end_inside found
  have again := line_end_agrees (take_front more whole (Nat.le_refl _)) found
  rw [parse_v1_eq found, parse_v1_eq again, take_front more whole (Nat.le_add_right _ _)]

end Lines

section Blocks

variable {buf : Bytes} {fam : UInt8} {total : Nat}

/-- The number of octets that a block announces behind its first sixteen. -/
def announced (buf : Bytes) : Nat := (ofBigEndian16 (buf.getD 14 0) (buf.getD 15 0)).toNat

/-- A signature is not the word of the first version. -/
theorem parse_block_eq (framed : 16 ≤ buf.length) (signed : buf.take 5 = signatureFront) :
    parse buf = parseV2 buf := by
  have other : signatureFront ≠ asBytes "PROXY" := by decide
  rw [parse, if_neg (by rw [signed]; exact fun named => other named.2), if_pos ⟨framed, signed⟩]

/-- A block is looked at once it is there. -/
theorem parse_v2_eq (framed : 16 ≤ buf.length) :
    parseV2 buf =
      if buf.getD 12 0 >>> 4 ≠ 2 then
        .ok (.error (ioerr "proxy_protocol: unsupported v2 version"))
      else if buf.length < 16 + announced buf then
        .ok (.error (ioerr "proxy_protocol: incomplete v2 header"))
      else parseAddresses buf (buf.getD 13 0) (16 + announced buf) := by
  have version : octetAt buf 12 = .ok (buf.getD 12 0) := octet_at_get (by omega)
  have family : octetAt buf 13 = .ok (buf.getD 13 0) := octet_at_get (by omega)
  have high : octetAt buf 14 = .ok (buf.getD 14 0) := octet_at_get (by omega)
  have low : octetAt buf 15 = .ok (buf.getD 15 0) := octet_at_get (by omega)
  rw [parseV2, version, family, be16At, high, low]
  rfl

/-- A block of the known version that is there with all the octets it announces. -/
structure WholeBlock (buf : Bytes) : Prop where
  framed : 16 ≤ buf.length
  signed : buf.take 5 = signatureFront
  version : buf.getD 12 0 >>> 4 = 2
  whole : 16 + announced buf ≤ buf.length

/-- A whole block of the known version is parsed by its addresses. -/
theorem WholeBlock.parse_eq (block : WholeBlock buf) :
    parse buf = parseAddresses buf (buf.getD 13 0) (16 + announced buf) := by
  rw [parse_block_eq block.framed block.signed, parse_v2_eq block.framed,
    if_neg (not_not.mpr block.version), if_neg (Nat.not_lt.mpr block.whole)]

/-- The announced length is the same whatever follows. -/
theorem announced_front {used : Nat} (whole : used ≤ buf.length) (inside : 16 ≤ used)
    (more : Bytes) : announced (buf.take used ++ more) = announced buf := by
  rw [announced, get_front more whole (by omega), get_front more whole (by omega)]
  rfl

/-- What a block announces is a block, whatever follows it. -/
theorem WholeBlock.front (block : WholeBlock buf) (more : Bytes) :
    WholeBlock (buf.take (16 + announced buf) ++ more) where
  framed := front_long more block.whole (Nat.le_add_right _ _)
  signed := by
    rw [take_front more block.whole (by omega), block.signed]
  version := by
    rw [get_front more block.whole (by omega), block.version]
  whole := by
    rw [announced_front block.whole (Nat.le_add_right _ _)]
    exact front_long more block.whole (Nat.le_refl _)

/-- An end inside the block is read without a stop. -/
theorem end_at_returns {block : Bytes} {ip port : Nat} (first : ip + 3 < block.length)
    (second : port + 1 < block.length) : Returns (endAt block ip port) := by
  refine returns_bind ⟨_, octet_at_inside (by omega)⟩ fun _ _ => ?_
  refine returns_bind ⟨_, octet_at_inside (by omega)⟩ fun _ _ => ?_
  refine returns_bind ⟨_, octet_at_inside (by omega)⟩ fun _ _ => ?_
  refine returns_bind ⟨_, octet_at_inside (by omega)⟩ fun _ _ => ?_
  exact returns_bind ⟨_, be16_at_inside second⟩ fun _ _ => ⟨_, rfl⟩

/-- An end inside the used octets is the same whatever follows. -/
theorem end_at_front {block : Bytes} {used ip port : Nat} (more : Bytes)
    (whole : used ≤ block.length) (first : ip + 3 < used) (second : port + 1 < used) :
    endAt (block.take used ++ more) ip port = endAt block ip port := by
  rw [endAt, octet_at_front more whole (by omega), octet_at_front more whole (by omega),
    octet_at_front more whole (by omega), octet_at_front more whole (by omega),
    be16_at_front more whole second]
  rfl

/-- An end whose port is not in the block stops the program. -/
theorem end_at_outside {block : Bytes} {ip port : Nat} (outside : block.length ≤ port + 1) :
    ¬Returns (endAt block ip port) := by
  rintro ⟨ends, read⟩
  simp only [endAt, bind_ok_iff] at read
  obtain ⟨_, _, _, _, _, _, _, _, port, read, _⟩ := read
  simp only [be16At, bind_ok_iff] at read
  obtain ⟨_, _, low, read, _⟩ := read
  rw [octetAt, List.getElem?_eq_none outside] at read
  cases read

/-- The addresses of a block with two addresses of the first family. -/
theorem parse_addresses_eq (framed : 16 ≤ buf.length) (family : addrLen fam = 16) :
    parseAddresses buf fam total = (do
      let src ← endAt (buf.drop 16) 0 8
      let dst ← endAt (buf.drop 16) 4 10
      return .ok (.v2 src dst, total)) := by
  rw [parseAddresses, if_neg (by omega), slice_inside framed (Nat.le_refl _), List.take_length]
  dsimp only [bind, Except.bind]
  rw [if_pos family]

/-- Without such addresses a block tells nothing or is refused. -/
theorem parse_addresses_other (framed : 16 ≤ buf.length) (family : addrLen fam ≠ 16) :
    parseAddresses buf fam total =
      .ok (if addrLen fam = 0 then .ok (.v2 unspecified unspecified, total)
        else .error (ioerr "proxy_protocol: ipv6 v2 not parsed")) := by
  rw [parseAddresses, slice_inside framed (Nat.le_refl _)]
  by_cases unknown : addrLen fam = 0
  · rw [if_pos unknown, if_pos unknown]
    rfl
  · rw [if_neg unknown, if_neg unknown]
    exact if_neg family

/-- Addresses that are all in the buffer are read without a stop. -/
theorem parse_addresses_returns (framed : 16 ≤ buf.length)
    (enough : addrLen fam = 16 → 28 ≤ buf.length) : Returns (parseAddresses buf fam total) := by
  by_cases family : addrLen fam = 16
  · have long := enough family
    have behind : 12 ≤ (buf.drop 16).length := by
      rw [List.length_drop]
      omega
    rw [parse_addresses_eq framed family]
    refine returns_bind (end_at_returns (by omega) (by omega)) fun _ _ => ?_
    exact returns_bind (end_at_returns (by omega) (by omega)) fun _ _ => ⟨_, rfl⟩
  · exact ⟨_, parse_addresses_other framed family⟩

/-- A block of the first family that is parsed gives two addresses. -/
theorem parse_addresses_found (framed : 16 ≤ buf.length) (family : addrLen fam = 16)
    (returns : Returns (parseAddresses buf fam total)) :
    28 ≤ buf.length ∧
      ∃ src dst, parseAddresses buf fam total = .ok (.ok (.v2 src dst, total)) := by
  obtain ⟨parsed, read⟩ := returns
  have ends := read
  rw [parse_addresses_eq framed family] at ends
  obtain ⟨src, first, ends⟩ := (bind_ok_iff _ _ _).mp ends
  obtain ⟨dst, second, ends⟩ := (bind_ok_iff _ _ _).mp ends
  cases ends
  refine ⟨?_, src, dst, read⟩
  by_contra short
  refine end_at_outside ?_ ⟨dst, second⟩
  rw [List.length_drop]
  omega

/-- A header takes the whole block. -/
theorem parse_addresses_used (framed : 16 ≤ buf.length) {header : ProxyProtocolHeader} {used : Nat}
    (parsed : parseAddresses buf fam total = .ok (.ok (header, used))) : used = total := by
  by_cases family : addrLen fam = 16
  · rw [parse_addresses_eq framed family] at parsed
    obtain ⟨src, first, parsed⟩ := (bind_ok_iff _ _ _).mp parsed
    obtain ⟨dst, second, parsed⟩ := (bind_ok_iff _ _ _).mp parsed
    cases parsed
    rfl
  · rw [parse_addresses_other framed family] at parsed
    have read := Except.ok.inj parsed
    split at read
    · cases read
      rfl
    · cases read

/-- The addresses of a block that has them do not depend on what follows it. -/
theorem parse_addresses_front (framed : 16 ≤ total) (whole : total ≤ buf.length)
    (enough : addrLen fam = 16 → 28 ≤ total) (more : Bytes) :
    parseAddresses (buf.take total ++ more) fam total = parseAddresses buf fam total := by
  have front := front_long more whole framed
  by_cases family : addrLen fam = 16
  · have long := enough family
    have behind : total - 16 ≤ (buf.drop 16).length := by
      rw [List.length_drop]
      omega
    rw [parse_addresses_eq front family, parse_addresses_eq (by omega) family,
      drop_front more whole framed, end_at_front more behind (by omega) (by omega),
      end_at_front more behind (by omega) (by omega)]
  · rw [parse_addresses_other front family, parse_addresses_other (by omega) family]

/-- So a block with its addresses is parsed the same whatever follows it. -/
theorem WholeBlock.parse_front (block : WholeBlock buf)
    (enough : addrLen (buf.getD 13 0) = 16 → 28 ≤ 16 + announced buf) (more : Bytes) :
    parse (buf.take (16 + announced buf) ++ more) = parse buf := by
  have framed : 16 ≤ 16 + announced buf := Nat.le_add_right _ _
  rw [(block.front more).parse_eq, block.parse_eq, announced_front block.whole framed,
    get_front more block.whole (by omega), parse_addresses_front framed block.whole enough]

end Blocks

section RoundTrips

/-- The octets of a written block in front of its addresses. -/
def blockHead (fam : UInt8) (len : Nat) : Bytes :=
  [0x0D, 0x0A, 0x0D, 0x0A, 0x00, 0x0D, 0x0A, 0x51, 0x55, 0x49, 0x54, 0x0A, 0x21, fam] ++
    bigEndian16 (UInt16.ofNat len)

/-- The head of a block takes sixteen octets. -/
@[simp] theorem block_head_length (fam : UInt8) (len : Nat) : (blockHead fam len).length = 16 := by
  simp [blockHead]

/-- An IPv4 pair is written behind a head that announces twelve octets. -/
theorem encode_v2_v4 (s d : Octets 4) (p q : UInt16) :
    encodeV2 ⟨.v4 s, p⟩ ⟨.v4 d, q⟩ =
      blockHead 0x11 12 ++ (s.toList ++ d.toList ++ bigEndian16 p ++ bigEndian16 q) := by
  have counted : (s.toList ++ d.toList).length + 4 = 12 := by simp
  simp only [encodeV2, counted]
  rfl

/-- An IPv6 pair is written behind a head that announces thirty-six octets. -/
theorem encode_v2_v6 (s d : Octets 16) (p q : UInt16) :
    encodeV2 ⟨.v6 s, p⟩ ⟨.v6 d, q⟩ =
      blockHead 0x21 36 ++ (s.toList ++ d.toList ++ bigEndian16 p ++ bigEndian16 q) := by
  have counted : (s.toList ++ d.toList).length + 4 = 36 := by simp
  simp only [encodeV2, counted]
  rfl

/-- Behind the head of a block that is there, its addresses are parsed. -/
theorem parse_block_head (fam : UInt8) (len : Nat) (rest : Bytes) (small : len < 65536)
    (whole : len ≤ rest.length) :
    parse (blockHead fam len ++ rest) =
      parseAddresses (blockHead fam len ++ rest) fam (16 + len) := by
  have framed : 16 ≤ (blockHead fam len ++ rest).length := by
    rw [List.length_append, block_head_length]
    omega
  have counted : announced (blockHead fam len ++ rest) = len := by
    obtain ⟨high, low, written, value⟩ := of_big_endian16_exact (UInt16.ofNat len)
    rw [blockHead, written]
    calc (ofBigEndian16 high low).toNat
      _ = (UInt16.ofNat len).toNat := congrArg UInt16.toNat value
      _ = len := UInt16.toNat_ofNat_of_lt' small
  have family : (blockHead fam len ++ rest).getD 13 0 = fam := rfl
  have there : 16 + len ≤ (blockHead fam len ++ rest).length := by
    rw [List.length_append, block_head_length]
    omega
  have block : WholeBlock (blockHead fam len ++ rest) :=
    ⟨framed, rfl, show (0x21 : UInt8) >>> 4 = 2 by decide, by rw [counted]; exact there⟩
  rw [block.parse_eq, family, counted]

/-- An octet behind a front is that octet of the rest. -/
theorem octet_at_behind (front rest : Bytes) (index : Nat) :
    octetAt (front ++ rest) (front.length + index) = octetAt rest index := by
  rw [octetAt, List.getElem?_append_right (Nat.le_add_right _ _), Nat.add_sub_cancel_left]
  rfl

/-- Two octets behind a front are those of the rest. -/
theorem be16_at_behind (front rest : Bytes) (index : Nat) :
    be16At (front ++ rest) (front.length + index) = be16At rest index := by
  rw [be16At, Nat.add_assoc, octet_at_behind, octet_at_behind]
  rfl

/-- An end behind a front is that end of the rest. -/
theorem end_at_behind (front rest : Bytes) (ip port : Nat) :
    endAt (front ++ rest) (front.length + ip) (front.length + port) = endAt rest ip port := by
  simp only [endAt, Nat.add_assoc, octet_at_behind, be16_at_behind]

/-- An end is read back from where its address and its port were written. -/
theorem end_at_written {gap : Nat} (between rest : Bytes) (ip : Octets 4) (port : UInt16)
    (placed : between.length = gap) :
    endAt (ip.toList ++ (between ++ (bigEndian16 port ++ rest))) 0 (4 + gap) =
      .ok ⟨.v4 ip, port⟩ := by
  obtain ⟨high, low, written, value⟩ := of_big_endian16_exact port
  have read : be16At (bigEndian16 port ++ rest) 0 = .ok port.toNat := by
    rw [written, ← value]
    rfl
  have there : be16At (ip.toList ++ (between ++ (bigEndian16 port ++ rest))) (4 + gap) =
      .ok port.toNat := by
    have behind := be16_at_behind (ip.toList ++ between) (bigEndian16 port ++ rest) 0
    rw [List.append_assoc, List.length_append, List.Vector.toList_length, placed] at behind
    exact behind.trans read
  obtain ⟨octets, four⟩ := ip
  obtain ⟨first, second, third, fourth, rfl⟩ := List.length_eq_four.mp four
  rw [endAt, there]
  conv_rhs => rw [← @UInt16.ofNat_toNat port]
  rfl

/-- A block written for two addresses of the first family is parsed back, whatever follows
it. A block for two addresses of the second family is refused. -/
theorem parse_encode_v2 :
    (∀ (s d : Octets 4) (p q : UInt16) (trailing : Bytes),
      parse (encodeV2 ⟨.v4 s, p⟩ ⟨.v4 d, q⟩ ++ trailing) =
        .ok (.ok (.v2 ⟨.v4 s, p⟩ ⟨.v4 d, q⟩, (encodeV2 ⟨.v4 s, p⟩ ⟨.v4 d, q⟩).length))) ∧
    ∀ (s d : Octets 16) (p q : UInt16) (trailing : Bytes),
      parse (encodeV2 ⟨.v6 s, p⟩ ⟨.v6 d, q⟩ ++ trailing) =
        .ok (.error (ioerr "proxy_protocol: ipv6 v2 not parsed")) := by
  constructor
  · intro s d p q trailing
    have counted : (s.toList ++ d.toList ++ bigEndian16 p ++ bigEndian16 q).length = 12 := by simp
    have src := end_at_written d.toList (bigEndian16 q ++ trailing) s p d.toList_length
    have dst := end_at_written (bigEndian16 p) trailing d q (big_endian16_length p)
    rw [← end_at_behind s.toList, s.toList_length] at dst
    rw [encode_v2_v4, List.append_assoc, parse_block_head _ _ _ (by decide)
      (by rw [List.length_append]; omega), parse_addresses_eq (by simp) (by decide),
      List.drop_left' (block_head_length _ _), List.length_append, block_head_length, counted]
    simp only [List.append_assoc]
    exact (bind_ok_iff _ _ _).mpr ⟨_, src, (bind_ok_iff _ _ _).mpr ⟨_, dst, rfl⟩⟩
  · intro s d p q trailing
    have counted : (s.toList ++ d.toList ++ bigEndian16 p ++ bigEndian16 q).length = 36 := by simp
    rw [encode_v2_v6, List.append_assoc, parse_block_head _ _ _ (by decide)
      (by rw [List.length_append]; omega), parse_addresses_other (by simp) (by decide)]
    rfl

/-- The address 2001:db8::1. -/
def exampleIpv6 : Octets 16 := ⟨[0x20, 1, 0x0D, 0xB8, 0, 0, 0, 0, 0, 0, 0, 0, 0, 0, 0, 1], rfl⟩

/-- A block from that address to itself is not parsed back. -/
theorem ipv6_block_refused :
    ¬∀ trailing : Bytes,
      parse (encodeV2 ⟨.v6 exampleIpv6, 80⟩ ⟨.v6 exampleIpv6, 81⟩ ++ trailing) =
        .ok (.ok (.v2 ⟨.v6 exampleIpv6, 80⟩ ⟨.v6 exampleIpv6, 81⟩,
          (encodeV2 ⟨.v6 exampleIpv6, 80⟩ ⟨.v6 exampleIpv6, 81⟩).length)) := by
  intro parsed
  have refused : parse (encodeV2 ⟨.v6 exampleIpv6, 80⟩ ⟨.v6 exampleIpv6, 81⟩ ++ []) =
      .ok (.error (ioerr "proxy_protocol: ipv6 v2 not parsed")) := by decide
  rw [parsed []] at refused
  cases refused

end RoundTrips

section Safety

/-- The parser returns, and a header that it finds is in the octets that it takes: whatever
follows them, the same is found. -/
structure SafeParse (buf : Bytes) : Prop where
  returns : Returns (parse buf)
  inside : ∀ header used, parse buf = .ok (.ok (header, used)) → used ≤ buf.length
  fromFront : ∀ header used, parse buf = .ok (.ok (header, used)) →
    ∀ more, parse (buf.take used ++ more) = .ok (.ok (header, used))

/-- A block with addresses of the first family that is there, but announces less than the
addresses take. -/
structure ShortBlock (buf : Bytes) : Prop extends WholeBlock buf where
  family : addrLen (buf.getD 13 0) = 16
  short : announced buf < 12

variable {buf : Bytes}

/-- Such a block is not parsed safely: the octets that it announces stop the program if
nothing follows them. -/
theorem ShortBlock.not_safe (block : ShortBlock buf) : ¬SafeParse buf := by
  intro safe
  have returns := safe.returns
  rw [block.parse_eq] at returns
  obtain ⟨_, src, dst, found⟩ := parse_addresses_found block.framed block.family returns
  rw [← block.parse_eq] at found
  have alone := safe.fromFront _ _ found []
  have front := block.front []
  rw [front.parse_eq, get_front [] block.whole (by omega)] at alone
  have long := (parse_addresses_found front.framed block.family ⟨_, alone⟩).1
  rw [List.append_nil, List.length_take_of_le block.whole] at long
  have short := block.short
  omega

/-- A line is parsed safely. -/
theorem line_safe (long : 6 ≤ buf.length) (named : buf.take 5 = asBytes "PROXY") :
    SafeParse buf := by
  have parses : parse buf = parseV1 buf := if_pos ⟨long, named⟩
  refine ⟨by rw [parses]; exact parse_v1_returns buf, ?_, ?_⟩
  · intro header used parsed
    rw [parses] at parsed
    obtain ⟨position, found, rfl⟩ := parse_v1_used parsed
    exact line_end_inside found
  · intro header used parsed more
    rw [parses] at parsed
    obtain ⟨position, found, rfl⟩ := parse_v1_used parsed
    have whole := line_end_inside found
    have behind := line_end_behind named found
    have again := front_long more whole (show 6 ≤ position + 2 by omega)
    have front := take_front more whole (show 5 ≤ position + 2 by omega)
    rw [parse, if_pos ⟨again, front.trans named⟩, parse_v1_front found, parsed]

/-- A block that announces its addresses is parsed safely. -/
theorem WholeBlock.safe (block : WholeBlock buf)
    (enough : addrLen (buf.getD 13 0) = 16 → 28 ≤ 16 + announced buf) : SafeParse buf := by
  have used {header : ProxyProtocolHeader} {used : Nat}
      (parsed : parse buf = .ok (.ok (header, used))) : used = 16 + announced buf := by
    rw [block.parse_eq] at parsed
    exact parse_addresses_used block.framed parsed
  refine ⟨?_, ?_, ?_⟩
  · rw [block.parse_eq]
    exact parse_addresses_returns block.framed fun family => (enough family).trans block.whole
  · intro header taken parsed
    rw [used parsed]
    exact block.whole
  · intro header taken parsed more
    rw [used parsed, block.parse_front enough, parsed, used parsed]

/-- A refusal is safe. -/
theorem refused_safe {refusal : IoError} (refused : parse buf = .ok (.error refusal)) :
    SafeParse buf := by
  refine ⟨⟨_, refused⟩, ?_, ?_⟩
  · intro header used parsed
    rw [refused] at parsed
    cases parsed
  · intro header used parsed
    rw [refused] at parsed
    cases parsed

/-- Octets with the signature are parsed safely unless they are such a short block. -/
theorem block_safe (framed : 16 ≤ buf.length) (signed : buf.take 5 = signatureFront)
    (enough : ¬ShortBlock buf) : SafeParse buf := by
  have parses := (parse_block_eq framed signed).trans (parse_v2_eq framed)
  by_cases version : buf.getD 12 0 >>> 4 = 2
  · by_cases whole : 16 + announced buf ≤ buf.length
    · have block : WholeBlock buf := ⟨framed, signed, version, whole⟩
      refine block.safe fun family => ?_
      by_contra short
      exact enough ⟨block, family, by omega⟩
    · rw [if_neg (not_not.mpr version), if_pos (Nat.lt_of_not_le whole)] at parses
      exact refused_safe parses
  · rw [if_pos version] at parses
    exact refused_safe parses

/-- The parser is safe exactly on what is not a block that is there, of the first family of
IP addresses, and announces fewer than twelve octets. -/
theorem safe_parse_iff (buf : Bytes) : SafeParse buf ↔ ¬ShortBlock buf := by
  constructor
  · exact fun safe block => block.not_safe safe
  · intro enough
    by_cases line : 6 ≤ buf.length ∧ buf.take 5 = asBytes "PROXY"
    · exact line_safe line.1 line.2
    · by_cases block : 16 ≤ buf.length ∧ buf.take 5 = signatureFront
      · exact block_safe block.1 block.2 enough
      · have parses : parse buf = .ok (.error (ioerr "proxy_protocol: signature mismatch")) := by
          rw [parse, if_neg line, if_neg block]
          rfl
        exact refused_safe parses

/-- A block of the first family that announces nothing. -/
def emptyBlock : Bytes :=
  [0x0D, 0x0A, 0x0D, 0x0A, 0x00, 0x0D, 0x0A, 0x51, 0x55, 0x49, 0x54, 0x0A, 0x21, 0x11, 0, 0]

/-- Alone it stops the program. Followed by other octets it takes none of them, but has its
addresses from them. -/
theorem empty_block_not_safe :
    ¬SafeParse emptyBlock ∧
      parse (emptyBlock ++ [1, 2, 3, 4, 5, 6, 7, 8, 0, 80, 0, 81]) =
        .ok (.ok (.v2 ⟨.v4 ⟨[1, 2, 3, 4], rfl⟩, 80⟩ ⟨.v4 ⟨[5, 6, 7, 8], rfl⟩, 81⟩, 16)) := by
  refine ⟨fun safe => ?_, by decide⟩
  obtain ⟨parsed, read⟩ := safe.returns
  have stopped : parse emptyBlock = .error .outOfRange := by decide
  rw [stopped] at read
  cases read

end Safety

end OmniProxy.ProxyProtocol
