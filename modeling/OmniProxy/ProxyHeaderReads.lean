import OmniProxy.BlockReads
import OmniProxy.ProxyProtocol
import OmniProxy.Utf8Text

/-!
# Reading a PROXY protocol header from a connection

The header is at the front of what a client sends. It is read in blocks into a buffer that
is parsed again after each of them, and the connection goes on behind the last block and not
behind the header: what the last block had of the payload is lost.
-/

namespace OmniProxy.ProxyHeaderReads

open BlockReads ByteStrings CheckedLoops Connections ProxyProtocol ProxyTargets RetriedDecoders
open ServerNames Sniffing Utf8Text

section Reading

/-- The header at the front of what has been read, if the parser finds one there or stops. -/
def findHeader (buf : Bytes) : Option (Checked ProxyProtocolHeader) :=
  if 16 ≤ buf.length then
    match parse buf with
    | .ok (.ok (header, _)) => some (.ok header)
    | .ok (.error _) => none
    | .error stop => some (.error stop)
  else none

/-- Read a header. The connection may end, fail or be silent for too long before it is there,
and is answered the same. -/
def readHeaderFrom : SocketIo (Checked ProxyProtocolHeader) :=
  readLoop findHeader 256 1024 (ioerr "proxy_protocol: header too large") fun _ =>
    ioerr "proxy_protocol: missing header"

/-- Octets that the parser takes for a header, all of them. -/
def IsHeader (octets : Bytes) (header : ProxyProtocolHeader) : Prop :=
  parse octets = .ok (.ok (header, octets.length))

instance (octets : Bytes) (header : ProxyProtocolHeader) : Decidable (IsHeader octets header) :=
  inferInstanceAs (Decidable (parse octets = .ok (.ok (header, octets.length))))

end Reading

section Headers

variable {octets : Bytes} {header : ProxyProtocolHeader}

/-- The word of an address has characters. -/
theorem parse_ip_word {word : List Char} {ip : IpAddr} (parsed : parseIp word = .ok ip) :
    1 ≤ word.length := by
  cases word with
  | nil =>
    have refused : parseIp [] = .error (ioerr "proxy_protocol: bad address in v1 header") := by
      decide
    rw [refused] at parsed
    cases parsed
  | cons first word => exact Nat.le_add_left _ _

/-- The word of a port has characters. -/
theorem parse_port_word {word : List Char} {port : UInt16} (parsed : parsePort word = .ok port) :
    1 ≤ word.length := by
  cases word with
  | nil =>
    have refused : parsePort [] = .error (ioerr "proxy_protocol: bad port") := by decide
    rw [refused] at parsed
    cases parsed
  | cons first word => exact Nat.le_add_left _ _

/-- A line that is parsed has at least the fixed word, five blanks and a character in each of
the four words that are read. -/
theorem line_long {line : Bytes} {ends : SocketAddr × SocketAddr}
    (parsed : parseLine line = .ok ends) : 14 ≤ line.length := by
  rw [parseLine] at parsed
  split at parsed
  · cases parsed
  · next text decoded =>
    split at parsed
    · next proxy other srcIp dstIp srcPort dstPort words =>
      rw [check_ok_iff] at parsed
      obtain ⟨named, parsed⟩ := parsed
      obtain ⟨_, first, parsed⟩ := (bind_ok_iff _ _ _).mp parsed
      obtain ⟨_, second, parsed⟩ := (bind_ok_iff _ _ _).mp parsed
      obtain ⟨_, third, parsed⟩ := (bind_ok_iff _ _ _).mp parsed
      obtain ⟨_, fourth, parsed⟩ := (bind_ok_iff _ _ _).mp parsed
      have fixed : proxy.length = 5 := by
        rw [not_not.mp named]
        rfl
      have joined : ([' '].intercalate (text.toList.splitOn ' ')).length = text.toList.length :=
        congrArg List.length (List.intercalate_splitOn ' ')
      rw [words] at joined
      simp only [List.intercalate, List.intersperse, List.flatten_cons, List.flatten_nil,
        List.length_append, List.length_cons, List.length_nil, fixed] at joined
      have wide := chars_le_octets text.toList
      rw [← as_bytes_of_list, String.ofList_toList, from_utf8_some line text decoded] at wide
      have source := parse_ip_word first
      have sourcePort := parse_port_word second
      have target := parse_ip_word third
      have targetPort := parse_port_word fourth
      omega
    · cases parsed

/-- A header is a line that ends with it, or a block that announces it. -/
theorem header_forms (valid : IsHeader octets header) :
    (octets.take 5 = asBytes "PROXY" ∧ parseV1 octets = .ok (.ok (header, octets.length)) ∧
      ∃ position, lineEnd octets = some position ∧ octets.length = position + 2) ∨
    WholeBlock octets ∧ octets.length = 16 + announced octets := by
  have parsed := valid
  rw [IsHeader, parse] at parsed
  split at parsed
  · next named => exact .inl ⟨named.2, parsed, parse_v1_used parsed⟩
  · split at parsed
    · next signed =>
      right
      rw [parse_v2_eq signed.1] at parsed
      by_cases version : octets.getD 12 0 >>> 4 = 2
      · rw [if_neg (not_not.mpr version)] at parsed
        by_cases whole : 16 + announced octets ≤ octets.length
        · rw [if_neg (Nat.not_lt.mpr whole)] at parsed
          exact ⟨⟨signed.1, signed.2, version, whole⟩, parse_addresses_used signed.1 parsed⟩
        · rw [if_pos (Nat.not_le.mp whole)] at parsed
          cases parsed
      · rw [if_pos version] at parsed
        cases parsed
    · cases parsed

/-- A header has the octets that are read before the parser is asked. -/
theorem header_long (valid : IsHeader octets header) : 16 ≤ octets.length := by
  obtain ⟨-, parsed, position, found, width⟩ | ⟨block, -⟩ := header_forms valid
  · rw [parse_v1_eq found] at parsed
    cases line : parseLine (octets.take position) with
    | error refusal =>
      rw [line] at parsed
      cases parsed
    | ok ends =>
      have long := line_long line
      rw [List.length_take] at long
      omega
  · exact block.framed

/-- A header is not a block that announces too little. -/
theorem header_enough (valid : IsHeader octets header) : ¬ShortBlock octets := by
  intro block
  have parsed := valid
  rw [IsHeader, block.parse_eq] at parsed
  have long := (parse_addresses_found block.framed block.family ⟨_, parsed⟩).1
  have width := parse_addresses_used block.framed parsed
  have short := block.short
  omega

/-- No header is found in a proper part of a header: a line has no end in it, and a block is
not there with all that it announces. -/
theorem header_early (valid : IsHeader octets header) {front missing : Bytes}
    (cut : front ++ missing = octets) (lacking : missing ≠ []) : findHeader front = none := by
  have positive := List.length_pos_of_ne_nil lacking
  have width := congrArg List.length cut
  rw [List.length_append] at width
  rw [findHeader]
  by_cases long : 16 ≤ front.length
  · rw [if_pos long]
    have five : octets.take 5 = front.take 5 := by
      rw [← cut, List.take_append_of_le_length (by omega)]
    obtain ⟨named, -, position, found, all⟩ | ⟨block, all⟩ := header_forms valid
    · have unfinished : lineEnd front = none := by
        cases early : lineEnd front with
        | none => rfl
        | some place =>
          have inside := line_end_inside early
          have same : octets.take (place + 2) = front.take (place + 2) := by
            rw [← cut, List.take_append_of_le_length inside]
          rw [line_end_agrees same early] at found
          obtain rfl := Option.some.inj found
          omega
      rw [parse, if_pos ⟨by omega, five.symm.trans named⟩, parseV1, unfinished]
      rfl
    · have agree (index : Nat) (inside : index < 16) :
          front.getD index 0 = octets.getD index 0 := by
        rw [← cut, List.getD_append _ _ _ _ (by omega)]
      have version := block.version
      rw [← agree 12 (by decide)] at version
      have missed : front.length < 16 + announced front := by
        rw [announced, agree 14 (by decide), agree 15 (by decide), ← announced]
        omega
      rw [parse_block_eq long (five.symm.trans block.signed), parse_v2_eq long,
        if_neg (not_not.mpr version), if_pos missed]
  · rw [if_neg long]

/-- A header is found whatever follows it. -/
theorem header_appears (valid : IsHeader octets header) :
    Appears findHeader octets fun _ => .ok header where
  early _ _ cut lacking := header_early valid cut lacking
  whole more := by
    have safe := (safe_parse_iff octets).mpr (header_enough valid)
    have parsed := safe.fromFront header octets.length valid more
    rw [List.take_length] at parsed
    have long := header_long valid
    rw [findHeader, if_pos (by rw [List.length_append]; omega), parsed]

end Headers

section Payloads

/-- All that is found leaves the payload on the connection. -/
def LeavesPayload (socket : Socket) (payload : Bytes) : Prop :=
  ∀ header after, readHeaderFrom.run socket = .ok (.ok header) after →
    after.arriving.flatten = payload

/-- The payload behind a header is left exactly when a read ends at the end of the header, or
the header is not found since a read ends inside it behind the first 1024 octets. -/
theorem leaves_payload_of_header_iff (octets payload : Bytes) (header : ProxyProtocolHeader)
    (valid : IsHeader octets header) (segments : List Bytes) (ending : Option IoError)
    (written : Bytes) (stream : segments.flatten = octets ++ payload) :
    LeavesPayload ⟨segments, ending, written⟩ payload ↔
      ReadEndsAt octets [] (readsOf 256 segments) ∨
        StopsInside 1024 octets [] (readsOf 256 segments) := by
  have appears := header_appears valid
  have nonempty : octets ≠ [] :=
    List.ne_nil_of_length_pos (Nat.lt_of_lt_of_le (by decide) (header_long valid))
  have whole : (readsOf 256 segments).flatten = octets ++ payload := by
    rw [reads_of_flatten (by decide), stream]
  rw [← leaves_payload_iff appears _ nonempty whole]
  constructor
  · intro leaves more unread search rest
    have left := leaves header ⟨unread, ending, written⟩
      ((read_loop_yields_iff _ _ _ _ _ _ _ _).mpr ⟨unread, search, rfl⟩)
    dsimp only at left
    rw [← left] at rest
    exact List.append_left_eq_self.mp rest
  · intro leaves found after reached
    obtain ⟨unread, search, rfl⟩ := (read_loop_yields_iff _ _ _ _ _ _ _ _).mp reached
    obtain ⟨more, same, rest⟩ := found_whole appears _ nonempty whole search
    rw [same] at search
    rwa [leaves more unread search rest] at rest

/-- The ends of a connection from 1.2.3.4 to 5.6.7.8. -/
def exampleHeader : ProxyProtocolHeader :=
  .v2 ⟨.v4 ⟨[1, 2, 3, 4], rfl⟩, 80⟩ ⟨.v4 ⟨[5, 6, 7, 8], rfl⟩, 81⟩

/-- A block for them. -/
def exampleBlock : Bytes :=
  [0x0D, 0x0A, 0x0D, 0x0A, 0x00, 0x0D, 0x0A, 0x51, 0x55, 0x49, 0x54, 0x0A, 0x21, 0x11, 0, 12,
    1, 2, 3, 4, 5, 6, 7, 8, 0, 80, 0, 81]

/-- With a read of its own the block leaves what follows it. -/
theorem block_alone_leaves_payload :
    LeavesPayload ⟨[exampleBlock, [104, 105]], none, []⟩ [104, 105] := by
  refine (leaves_payload_of_header_iff exampleBlock [104, 105] exampleHeader (by decide) _ _ _
    rfl).mpr (.inl ⟨[exampleBlock], [[104, 105]], ?_, by decide⟩)
  simp [readsOf, pieces_single, exampleBlock]

/-- In one read with the block, what follows it is lost. -/
theorem glued_payload_lost :
    IsHeader exampleBlock exampleHeader ∧
    readHeaderFrom.run ⟨[exampleBlock ++ [104, 105]], none, []⟩ =
      .ok (.ok exampleHeader) ⟨[], none, []⟩ ∧
    ¬LeavesPayload ⟨[exampleBlock ++ [104, 105]], none, []⟩ [104, 105] := by
  have reads : readsOf 256 [exampleBlock ++ [104, 105]] = [exampleBlock ++ [104, 105]] := by
    simp [readsOf, pieces_single, exampleBlock]
  have found : readHeaderFrom.run ⟨[exampleBlock ++ [104, 105]], none, []⟩ =
      .ok (.ok exampleHeader) ⟨[], none, []⟩ := by
    refine (read_loop_yields_iff _ _ _ _ _ _ _ _).mpr ⟨[], ?_, rfl⟩
    rw [reads]
    rfl
  refine ⟨by decide, found, fun leaves => ?_⟩
  have left := leaves _ _ found
  cases left

end Payloads

end OmniProxy.ProxyHeaderReads
