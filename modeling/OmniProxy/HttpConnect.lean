import OmniProxy.AddressDisplay
import OmniProxy.BlockReads
import OmniProxy.LossyText
import OmniProxy.RequestLines
import OmniProxy.SocksHandshake
import OmniProxy.WrittenAddresses

/-!
# Asking an HTTP proxy for a connection

The connector sends a CONNECT request with the text of the target in its first line and in a
header, and reads in blocks until the empty line behind the head of the response is there.
The second word of its first line must be 200.

What the last block had behind the head belongs to the connection and is lost. The text of a
domain goes into the request as it came from an inbound: with a control in it the request has
other lines or is none, and with a blank it has other words.
-/

namespace OmniProxy.HttpConnect

open AddressText AddressDisplay BlockReads ByteStrings Connections LossyText ProxyTargets
open RequestLines RetriedDecoders Utf8Text WrittenAddresses

section Handshake

/-- The request, with the credentials in the encoding of the library. -/
def connectRequest (base64 : Bytes → String) (target : ProxyTarget) (user pass : Option String) :
    String :=
  let authority := displayTarget target
  let req := "CONNECT " ++ authority ++ " HTTP/1.1\r\nHost: " ++ authority ++ "\r\n"
  let req :=
    match user with
    | some u =>
        let creds := u ++ ":" ++ pass.getD ""
        req ++ ("Proxy-Authorization: Basic " ++ base64 (asBytes creds) ++ "\r\n")
    | none => req
  req ++ "\r\n"

/-- The first line of a text without its end, if the text has one. -/
def firstLine (text : List Char) : Option (List Char) :=
  if text = [] then none
  else
    let line := text.takeWhile (· ≠ '\n')
    if '\n' ∈ text ∧ line.getLast? = some '\r' then some line.dropLast else some line

def splitWhitespace (line : List Char) : List (List Char) :=
  (line.splitOnP isWhitespace).filter (· ≠ [])

/-- The status in a response. -/
def statusOf (buf : Bytes) : String :=
  match (firstLine (fromUtf8Lossy buf).toList).bind fun l => (splitWhitespace l)[1]? with
  | some status => String.ofList status
  | none => "500"

/-- Ask the proxy for a connection to the target. The loop reads before it looks; nothing is
found before the first read. -/
def httpConnectHandshake (base64 : Bytes → String) (target : ProxyTarget)
    (user pass : Option String) : SocketIo Unit := do
  write (asBytes (connectRequest base64 target user pass))
  let buf ← readLoop (heldWith emptyLine) 512 (32 * 1024)
    ⟨.invalidData, "http proxy: oversized response"⟩
    fun ending => ending.getD ⟨.unexpectedEof, "http proxy: closed during CONNECT"⟩
  let status := statusOf buf
  if status ≠ "200" then
    throw ⟨.connectionRefused, "http proxy: CONNECT refused (" ++ status ++ ")"⟩

end Handshake

section Responses

/-- The first line does not depend on what follows its end. -/
theorem take_line (front rest : List Char) :
    (front ++ '\n' :: rest).takeWhile (· ≠ '\n') = front.takeWhile (· ≠ '\n') := by
  induction front with
  | nil => rfl
  | cons char front inductionHypothesis =>
    rw [List.cons_append, List.takeWhile_cons, List.takeWhile_cons, inductionHypothesis]

/-- What follows the first line end does not change the first line. -/
theorem first_line_break (front rest : List Char) :
    firstLine (front ++ '\n' :: rest) = firstLine (front ++ ['\n']) := by
  have ends (behind : List Char) : '\n' ∈ front ++ '\n' :: behind := by simp
  have something (behind : List Char) : front ++ '\n' :: behind ≠ [] := by simp
  rw [firstLine, firstLine, if_neg (something rest), if_neg (something []), take_line, take_line]
  simp only [ends, true_and]

/-- So the status is in the head of a response. -/
theorem status_of_head {head : Bytes} (ends : EndsAtMark emptyLine head) (more : Bytes) :
    statusOf (head ++ more) = statusOf head := by
  obtain ⟨place, found, -⟩ := ends
  have ascii : (0x0A : UInt8).toNat < 0x80 := by decide
  obtain ⟨front, rest, rfl⟩ : ∃ front rest, head = front ++ 0x0A :: rest :=
    List.append_of_mem (by rw [mark_split found]; simp [emptyLine])
  have decoded (behind : Bytes) : (fromUtf8Lossy (front ++ 0x0A :: behind)).toList =
      lossyChars front ++ '\n' :: lossyChars behind := by
    rw [from_utf8_lossy_chars, String.toList_ofList]
    exact lossy_chars_split front ascii behind
  rw [statusOf, statusOf, List.append_assoc, List.cons_append, decoded, decoded,
    first_line_break, ← first_line_break _ (lossyChars rest)]

variable {base64 : Bytes → String} {target : ProxyTarget} {user pass : Option String}

/-- A handshake that succeeds leaves what the server has sent behind the head of the response,
all of it, on the connection. -/
def KeepsServerData (base64 : Bytes → String) (target : ProxyTarget) (user pass : Option String)
    (socket : Socket) (d : Bytes) : Prop :=
  ∀ after, (httpConnectHandshake base64 target user pass).run socket = .ok () after →
    after.arriving.flatten = d

/-- The handshake succeeds with a response that has the status 200. -/
theorem handshake_yields_iff (socket after : Socket) :
    (httpConnectHandshake base64 target user pass).run socket = .ok () after ↔
      ∃ buf unread, readUntil (heldWith emptyLine) (32 * 1024) []
          (readsOf 512 socket.arriving) = .found buf unread ∧ statusOf buf = "200" ∧
        ⟨unread, socket.ending,
          socket.written ++ asBytes (connectRequest base64 target user pass)⟩ = after := by
  constructor
  · intro reached
    obtain ⟨_, middle, wrote, reached⟩ := (bind_yields_iff _ _ _ _ _).mp reached
    obtain rfl := (write_yields_iff _ _ _ _).mp wrote
    obtain ⟨buf, middle, read, reached⟩ := (bind_yields_iff _ _ _ _ _).mp reached
    obtain ⟨unread, search, rfl⟩ := (read_loop_yields_iff _ _ _ _ _ _ _ _).mp read
    dsimp only at reached
    by_cases accepted : statusOf buf = "200"
    · rw [if_neg (not_not.mpr accepted)] at reached
      exact ⟨buf, unread, search, accepted, (EStateM.Result.ok.inj reached).2⟩
    · rw [if_pos accepted] at reached
      cases reached
  · rintro ⟨buf, unread, search, accepted, rfl⟩
    refine (bind_yields_iff _ _ _ _ _).mpr ⟨(), _, (write_yields_iff _ _ _ _).mpr rfl, ?_⟩
    refine (bind_yields_iff _ _ _ _ _).mpr
      ⟨buf, _, (read_loop_yields_iff _ _ _ _ _ _ _ _).mpr ⟨unread, search, rfl⟩, ?_⟩
    dsimp only
    rw [if_neg (not_not.mpr accepted)]
    rfl

/-- With a response of status 200 the data behind its head is kept exactly when a read ends at
the end of the head, or the handshake does not succeed since a read ends inside the head behind
its first 32768 octets. -/
theorem keeps_server_data_iff (base64 : Bytes → String) (target : ProxyTarget)
    (user pass : Option String) (head d : Bytes) (ends : EndsAtMark emptyLine head)
    (accepted : statusOf head = "200") (segments : List Bytes) (ending : Option IoError)
    (written : Bytes) (stream : segments.flatten = head ++ d) :
    KeepsServerData base64 target user pass ⟨segments, ending, written⟩ d ↔
      ReadEndsAt head [] (readsOf 512 segments) ∨
        StopsInside (32 * 1024) head [] (readsOf 512 segments) := by
  have appears := held_with_mark ends
  have nonempty : head ≠ [] := by
    rintro rfl
    obtain ⟨place, found, -⟩ := ends
    cases found
  have whole : (readsOf 512 segments).flatten = head ++ d := by
    rw [reads_of_flatten (by decide), stream]
  rw [← leaves_payload_iff appears _ nonempty whole]
  constructor
  · intro keeps more unread search rest
    have left := keeps _ ((handshake_yields_iff _ _).mpr
      ⟨head ++ more, unread, search, (status_of_head ends more).trans accepted, rfl⟩)
    dsimp only at left
    rw [← left] at rest
    exact List.append_left_eq_self.mp rest
  · intro leaves after reached
    obtain ⟨buf, unread, search, -, rfl⟩ := (handshake_yields_iff _ _).mp reached
    obtain ⟨more, rfl, rest⟩ := found_whole appears _ nonempty whole search
    rwa [leaves more unread search rest] at rest

/-- A response that accepts the request. -/
def exampleResponse : Bytes := asBytes "HTTP/1.1 200 OK\r\n\r\n"

/-- The sample response ends at its empty line. -/
theorem example_response_ends : EndsAtMark emptyLine exampleResponse := ⟨15, by decide, by decide⟩

/-- The sample response has the status 200. -/
theorem example_response_status : statusOf exampleResponse = "200" := by decide

/-- The address 9.8.7.6:80. -/
def exampleTarget : ProxyTarget := .tcp ⟨.v4 ⟨[9, 8, 7, 6], rfl⟩, 80⟩

/-- A banner that arrives after the response is kept. -/
theorem banner_behind_head_kept :
    KeepsServerData (fun _ => "") exampleTarget none none
      ⟨[exampleResponse, [104, 105]], none, []⟩ [104, 105] := by
  have reads : readsOf 512 [exampleResponse, [104, 105]] = [exampleResponse, [104, 105]] := by
    have first := pieces_single 512 exampleResponse (by decide) (by decide)
    have second := pieces_single 512 [(104 : UInt8), 105] (by decide) (by decide)
    rw [readsOf, List.flatMap_cons, List.flatMap_cons, List.flatMap_nil, first, second]
    rfl
  exact (keeps_server_data_iff _ _ _ _ exampleResponse _ example_response_ends
    example_response_status _ _ _ (by simp)).mpr
      (.inl ⟨[exampleResponse], [[104, 105]], by rw [reads]; rfl, by simp⟩)

/-- A banner that arrives with the response is lost. -/
theorem banner_with_head_lost :
    (httpConnectHandshake (fun _ => "") exampleTarget none none).run
        ⟨[exampleResponse ++ [104, 105]], none, []⟩ =
      .ok () ⟨[], none, asBytes "CONNECT 9.8.7.6:80 HTTP/1.1\r\nHost: 9.8.7.6:80\r\n\r\n"⟩ ∧
    ¬KeepsServerData (fun _ => "") exampleTarget none none
      ⟨[exampleResponse ++ [104, 105]], none, []⟩ [104, 105] := by
  have reads : readsOf 512 [exampleResponse ++ [104, 105]] = [exampleResponse ++ [104, 105]] := by
    rw [readsOf, List.flatMap_cons, List.flatMap_nil, List.append_nil]
    exact pieces_single 512 _ (by decide) (by decide)
  have search : readUntil (heldWith emptyLine) (32 * 1024) []
      (readsOf 512 [exampleResponse ++ [104, 105]]) =
        .found (exampleResponse ++ [104, 105]) [] := by
    rw [reads]
    exact found_in_one_read (held_with_mark example_response_ends) (by decide) [104, 105]
  have status := (status_of_head example_response_ends [104, 105]).trans example_response_status
  have request : connectRequest (fun _ => "") exampleTarget none none =
      "CONNECT 9.8.7.6:80 HTTP/1.1\r\nHost: 9.8.7.6:80\r\n\r\n" := by
    decide
  have found : (httpConnectHandshake (fun _ => "") exampleTarget none none).run
      ⟨[exampleResponse ++ [104, 105]], none, []⟩ =
        .ok () ⟨[], none, asBytes "CONNECT 9.8.7.6:80 HTTP/1.1\r\nHost: 9.8.7.6:80\r\n\r\n"⟩ :=
    (handshake_yields_iff _ _).mpr ⟨_, [], search, status, by rw [request]; rfl⟩
  refine ⟨found, fun keeps => ?_⟩
  have left := keeps _ found
  cases left

end Responses

section Hosts

/-- The host of a target, as its text has it in front of the port. -/
def hostOctets : ProxyTarget → Bytes
  | .tcp ⟨.v4 ip, _⟩ => asBytes (String.ofList (displayIpv4 ip))
  | .tcp ⟨.v6 ip, _⟩ => asBytes (String.ofList ('[' :: displayIpv6 ip ++ [']']))
  | .domain host _ => asBytes host

/-- The reader of the proxy, which takes every address as a host. Which names it takes is its own
affair, as long as their octets are visible. -/
structure HttpProxy extends RequestReader where
  addresses : ∀ addr, host (hostOctets (.tcp addr)) = true

/-- An octet of an ASCII text without controls and blanks is visible. -/
theorem visible_octets {chars : List Char}
    (plain : ∀ char ∈ chars, 0x20 < char.toNat ∧ char.toNat < 0x7F) :
    ∀ octet ∈ asBytes (String.ofList chars), isVisible octet = true := by
  have ascii : ∀ char ∈ chars, char.toNat < 128 := by
    intro char among
    have bounds := plain char among
    omega
  intro octet member
  rw [as_bytes_ascii chars ascii] at member
  obtain ⟨char, among, rfl⟩ := List.mem_map.mp member
  obtain ⟨above, below⟩ := plain char among
  have code : (UInt8.ofNat char.toNat).toNat = char.toNat := by
    rw [UInt8.toNat_ofNat']
    omega
  rw [isVisible, Bool.and_eq_true, decide_eq_true_eq, bne_iff_ne, UInt8.lt_iff_toNat_lt, code]
  refine ⟨above, fun same => ?_⟩
  rw [same] at code
  have deleted : (0x7F : UInt8).toNat = 127 := rfl
  omega

/-- Characters of an ASCII kind that has no control and no blank are visible. -/
theorem kind_visible (kind : Char → Bool) (ascii : ∀ char, kind char → char.toNat < 128)
    (other : ∀ code ∈ 0x7F :: List.range 0x21, kind (Char.ofNat code) = false)
    (char : Char) (holds : kind char) : 0x20 < char.toNat ∧ char.toNat < 0x7F := by
  have outside : char.toNat ∉ 0x7F :: List.range 0x21 := by
    intro among
    have refused := other char.toNat among
    rw [Char.ofNat_toNat, holds] at refused
    cases refused
  rw [List.mem_cons, List.mem_range] at outside
  have bound := ascii char holds
  omega

/-- The characters of addresses are visible. -/
theorem address_char_visible :
    ∀ char, isAddressChar char → 0x20 < char.toNat ∧ char.toNat < 0x7F :=
  kind_visible isAddressChar address_char_ascii (by decide)

/-- The written host of an address is visible. -/
theorem address_visible (addr : SocketAddr) :
    ∀ octet ∈ hostOctets (.tcp addr), isVisible octet = true := by
  obtain ⟨ip | ip, port⟩ := addr
  · exact visible_octets fun char member =>
      address_char_visible char ((display_ipv4_written ip).1 char member)
  · refine visible_octets fun char member => ?_
    rcases List.mem_append.mp member with front | last
    · rcases List.mem_cons.mp front with rfl | inside
      · decide
      · exact address_char_visible char ((display_ipv6_written ip).1 char inside)
    · rw [List.mem_singleton.mp last]
      decide

/-- The octets of names in URIs: letters, digits and some marks. -/
def isNameOctet (octet : UInt8) : Bool :=
  isDigit octet || (0x41 ≤ octet && octet ≤ 0x5A) || (0x61 ≤ octet && octet ≤ 0x7A) ||
    [0x21, 0x24, 0x26, 0x27, 0x28, 0x29, 0x2A, 0x2B, 0x2C, 0x2D, 0x2E, 0x3B, 0x3D, 0x5F,
      0x7E].contains octet

def isHexDigit (octet : UInt8) : Bool :=
  isDigit octet || (0x41 ≤ octet && octet ≤ 0x46) || (0x61 ≤ octet && octet ≤ 0x66)

/-- A name of such octets, where two hexadecimal digits stand behind each percent sign. -/
def isRegName : Bytes → Bool
  | [] => true
  | octet :: rest =>
      (isNameOctet octet ||
        octet == 0x25 && (rest.take 2).length == 2 && (rest.take 2).all isHexDigit) &&
      isRegName rest

/-- An IPv6 address in brackets. -/
def isIpLiteral (octets : Bytes) : Bool :=
  octets.head? == some 0x5B && octets.getLast? == some 0x5D &&
    (readIpv6Addr (octets.tail.dropLast.map fun octet => Char.ofNat octet.toNat)).any
      (·.2.isEmpty)

/-- The hosts of URIs. -/
def isUriHost (octets : Bytes) : Bool :=
  octets.all isVisible && (isRegName octets || isIpLiteral octets)

/-- A name without percent signs. -/
theorem reg_name_plain {octets : Bytes} (named : ∀ octet ∈ octets, isNameOctet octet = true) :
    isRegName octets = true := by
  induction octets with
  | nil => rfl
  | cons octet octets inductionHypothesis =>
    rw [isRegName, named octet (.head _),
      inductionHypothesis fun other member => named other (.tail _ member)]
    rfl

/-- Decimal digits are characters of ASCII. -/
theorem digit_ascii {char : Char} (decimal : char.isDigit) : char.toNat < 128 :=
  Nat.lt_of_le_of_lt (Char.isDigit_iff_toNat.mp decimal).2 (by decide)

/-- Decimal digits are digits. -/
theorem digit_octet {char : Char} (decimal : char.isDigit) :
    isDigit (UInt8.ofNat char.toNat) = true := by
  obtain ⟨least, most⟩ := Char.isDigit_iff_toNat.mp decimal
  have bound := digit_ascii decimal
  have code : (UInt8.ofNat char.toNat).toNat = char.toNat := by
    rw [UInt8.toNat_ofNat']
    omega
  rw [isDigit, Bool.and_eq_true, decide_eq_true_eq, decide_eq_true_eq, UInt8.le_iff_toNat_le,
    UInt8.le_iff_toNat_le, code]
  exact ⟨least, most⟩

/-- A written IPv4 address is a name. -/
theorem ipv4_reg_name (ip : Octets 4) :
    isRegName (asBytes (String.ofList (displayIpv4 ip))) = true := by
  have chars := join_chars_forall (fun char => char.isDigit ∨ char = '.') '.'
    (ip.toList.map fun octet => Nat.toDigits 10 octet.toNat) (.inr rfl) (by
      simp only [List.mem_map]
      rintro item ⟨octet, -, rfl⟩ char member
      exact .inl (decimal_digits octet.toNat char member))
  have ascii : ∀ char ∈ displayIpv4 ip, char.toNat < 128 := fun char member =>
    address_char_ascii char ((display_ipv4_written ip).1 char member)
  apply reg_name_plain
  intro octet member
  rw [as_bytes_ascii _ ascii] at member
  obtain ⟨char, among, rfl⟩ := List.mem_map.mp member
  rcases chars char among with decimal | rfl
  · simp [isNameOctet, digit_octet decimal]
  · decide

/-- A written IPv6 address is read in its brackets. -/
theorem ipv6_ip_literal (ip : Octets 16) :
    isIpLiteral (asBytes (String.ofList ('[' :: displayIpv6 ip ++ [']']))) = true := by
  have inside : ∀ char ∈ displayIpv6 ip, char.toNat < 128 := fun char member =>
    address_char_ascii char ((display_ipv6_written ip).1 char member)
  have ascii : ∀ char ∈ '[' :: displayIpv6 ip ++ [']'], char.toNat < 128 := by
    intro char member
    rcases List.mem_append.mp member with front | last
    · rcases List.mem_cons.mp front with rfl | among
      · decide
      · exact inside char among
    · rw [List.mem_singleton.mp last]
      decide
  have back : (displayIpv6 ip).map ((fun octet : UInt8 => Char.ofNat octet.toNat) ∘
      fun char => UInt8.ofNat char.toNat) = displayIpv6 ip := by
    refine (List.map_congr_left fun char member => ?_).trans (List.map_id _)
    have bound := inside char member
    rw [Function.comp_apply, UInt8.toNat_ofNat', Nat.mod_eq_of_lt (by omega), Char.ofNat_toNat]
    rfl
  have read := (read_ipv6_written ip [] closes_at_end).2
  rw [List.append_nil] at read
  have closed (front : Bytes) : (0x5B :: (front ++ [0x5D])).getLast? = some 0x5D := by
    rw [← List.cons_append, List.getLast?_concat]
  rw [isIpLiteral, as_bytes_ascii _ ascii]
  simp [back, read, closed]

/-- The URI grammar takes every written address. -/
theorem uri_host_address (addr : SocketAddr) : isUriHost (hostOctets (.tcp addr)) = true := by
  rw [isUriHost, List.all_eq_true.mpr (address_visible addr), Bool.true_and, Bool.or_eq_true]
  obtain ⟨ip | ip, port⟩ := addr
  · exact .inl (ipv4_reg_name ip)
  · exact .inr (ipv6_ip_literal ip)

/-- A proxy that takes the hosts of URIs. -/
def uriProxy : HttpProxy where
  host := isUriHost
  visible _ taken := List.all_eq_true.mp (Bool.and_eq_true_iff.mp taken).1
  addresses := uri_host_address

end Hosts

section Requests

variable {proxy : HttpProxy} {base64 : Bytes → String} {target : ProxyTarget}
  {user pass : Option String}

/-- The characters of the encoding of the library. -/
def isBase64Char (char : Char) : Bool :=
  char.isAlphanum || char == '+' || char == '/' || char == '='

/-- The fields that the connector means to send, with the blank in front of each value. -/
def ownFields (base64 : Bytes → String) (target : ProxyTarget) (user pass : Option String) :
    List (Bytes × Bytes) :=
  (asBytes "Host", asBytes (" " ++ displayTarget target)) ::
    match user with
    | some u =>
        [(asBytes "Proxy-Authorization",
          asBytes (" Basic " ++ base64 (asBytes (u ++ ":" ++ pass.getD ""))))]
    | none => []

/-- The lines that it means to send. -/
def ownLines (base64 : Bytes → String) (target : ProxyTarget) (user pass : Option String) :
    List Bytes :=
  requestLine (asBytes (displayTarget target)) ::
    (ownFields base64 target user pass).map fieldLine ++ [[]]

/-- The request has line ends at the ends of its own lines only, and the proxy reads it as one
request for a connection to the text of the target, with those fields. -/
structure IsOneRequest (proxy : HttpProxy) (base64 : Bytes → String) (target : ProxyTarget)
    (user pass : Option String) : Prop where
  lines : linesOf (asBytes (connectRequest base64 target user pass)) =
    ownLines base64 target user pass ++ [[]]
  request : proxy.read (asBytes (connectRequest base64 target user pass)) =
    some ⟨asBytes (displayTarget target),
      (ownFields base64 target user pass).map fun field => (field.1, trimBlanks field.2)⟩

/-- An address, or a domain that the proxy takes as a host. -/
def Harmless (proxy : HttpProxy) : ProxyTarget → Prop
  | .tcp _ => True
  | .domain host _ => proxy.host (asBytes host) = true

/-- The request is written in those lines. -/
theorem request_written :
    asBytes (connectRequest base64 target user pass) =
      written (ownLines base64 target user pass) := by
  have ending : asBytes "\r\n" = lineEnd := by decide
  have method : asBytes "CONNECT " = connectMethod ++ [0x20] := by decide
  have middle : asBytes " HTTP/1.1\r\nHost: " =
      0x20 :: httpVersion ++ lineEnd ++ asBytes "Host" ++ asBytes ": " := by decide
  have separator : asBytes ": " = 0x3A :: asBytes " " := by decide
  have scheme : asBytes "Proxy-Authorization: Basic " =
      asBytes "Proxy-Authorization" ++ 0x3A :: asBytes " Basic " := by decide
  cases user <;>
    simp [connectRequest, written, ownLines, ownFields, requestLine, fieldLine, as_bytes_append,
      ending, method, middle, separator, scheme]

/-- The text of a target is its host, a colon and digits. -/
theorem display_split (target : ProxyTarget) :
    ∃ port, port ≠ [] ∧ (∀ octet ∈ port, isDigit octet = true) ∧
      asBytes (displayTarget target) = hostOctets target ++ 0x3A :: port := by
  have written (port : UInt16) := as_bytes_ascii (Nat.toDigits 10 port.toNat) fun char member =>
    digit_ascii (decimal_digits port.toNat char member)
  have digits (port : UInt16) :
      ∀ octet ∈ asBytes (String.ofList (Nat.toDigits 10 port.toNat)), isDigit octet = true := by
    rw [written port]
    intro octet member
    obtain ⟨char, among, rfl⟩ := List.mem_map.mp member
    exact digit_octet (decimal_digits port.toNat char among)
  have numbered (port : UInt16) : asBytes (String.ofList (Nat.toDigits 10 port.toNat)) ≠ [] := by
    rw [written port, Ne, List.map_eq_nil_iff]
    exact Nat.toDigits_ne_nil
  have split (host : List Char) (port : UInt16) :
      asBytes (String.ofList (host ++ ':' :: Nat.toDigits 10 port.toNat)) =
        asBytes (String.ofList host) ++
          0x3A :: asBytes (String.ofList (Nat.toDigits 10 port.toNat)) := by
    simp only [as_bytes_of_list, List.flatMap_append, List.flatMap_cons]
    rfl
  rcases target with ⟨ip | ip, port⟩ | ⟨host, port⟩
  · exact ⟨_, numbered port, digits port, split _ port⟩
  · refine ⟨_, numbered port, digits port, ?_⟩
    rw [hostOctets, ← split, displayTarget, displaySocketAddr]
    simp
  · refine ⟨_, numbered port, digits port, (split host.toList port).trans ?_⟩
    rw [String.ofList_toList]
    rfl

/-- The proxy takes the text of a target exactly when it is harmless. -/
theorem takes_display_iff :
    proxy.takes (asBytes (displayTarget target)) = true ↔ Harmless proxy target := by
  obtain ⟨port, numbered, digits, split⟩ := display_split target
  rw [split, takes_written_iff numbered digits]
  cases target with
  | tcp addr => exact iff_of_true (proxy.addresses addr) trivial
  | domain host _ => exact Iff.rfl

/-- Letters and digits are characters of ASCII. -/
theorem alphanumeric_ascii {char : Char} (alphanumeric : char.isAlphanum) : char.toNat < 128 := by
  have below {top : Char} (small : top.toNat < 128) (most : char.val ≤ top.val) :
      char.toNat < 128 := Nat.lt_of_le_of_lt most small
  have kinds : ((char.isUpper || char.isLower) || char.isDigit) = true := alphanumeric
  rw [Bool.or_eq_true, Bool.or_eq_true] at kinds
  rcases kinds with (upper | lower) | decimal
  · exact below (show 'Z'.toNat < 128 by decide) (of_decide_eq_true upper).2
  · exact below (show 'z'.toNat < 128 by decide)
      (of_decide_eq_true (Bool.and_eq_true_iff.mp lower).2)
  · exact below (show '9'.toNat < 128 by decide)
      (of_decide_eq_true (Bool.and_eq_true_iff.mp decimal).2)

/-- The characters of the encoding are visible. -/
theorem base64_char_visible :
    ∀ char, isBase64Char char → 0x20 < char.toNat ∧ char.toNat < 0x7F := by
  refine kind_visible isBase64Char (fun char holds => ?_) (by decide)
  simp only [isBase64Char, Bool.or_eq_true, beq_iff_eq] at holds
  rcases holds with ((alphanumeric | rfl) | rfl) | rfl
  · exact alphanumeric_ascii alphanumeric
  · decide
  · decide
  · decide

/-- The fields of a harmless target may stand in a request. -/
theorem own_fields_proper
    (encodes : ∀ octets, ∀ char ∈ (base64 octets).toList, isBase64Char char)
    (visible : ∀ octet ∈ asBytes (displayTarget target), isVisible octet = true) :
    ∀ field ∈ ownFields base64 target user pass, Proper field := by
  have carried (front text : String) {octet : UInt8}
      (fixed : ∀ other ∈ asBytes front, (isVisible other || isBlank other) = true)
      (seen : ∀ other ∈ asBytes text, isVisible other = true)
      (member : octet ∈ asBytes (front ++ text)) : (isVisible octet || isBlank octet) = true := by
    rw [as_bytes_append] at member
    rcases List.mem_append.mp member with own | given
    · exact fixed octet own
    · rw [seen octet given, Bool.true_or]
  have names : ∀ name ∈ [asBytes "Host", asBytes "Proxy-Authorization"],
      name ≠ [] ∧ ∀ octet ∈ name, isTokenOctet octet = true := by
    decide +kernel
  intro field member
  rcases List.mem_cons.mp member with rfl | credentials
  · obtain ⟨named, token⟩ := names _ (.head _)
    exact ⟨named, token, fun _ => carried " " _ (by decide +kernel) visible⟩
  · cases user with
    | none => cases credentials
    | some u =>
      rw [List.mem_singleton.mp credentials]
      obtain ⟨named, token⟩ := names _ (.tail _ (.head _))
      refine ⟨named, token, fun _ => carried " Basic " _ (by decide +kernel) ?_⟩
      rw [← @String.ofList_toList (base64 _)]
      exact visible_octets fun char among => base64_char_visible char (encodes _ char among)

/-- The lines for a target without controls have no line ends in them. -/
theorem own_lines_clean
    (encodes : ∀ octets, ∀ char ∈ (base64 octets).toList, isBase64Char char)
    (visible : ∀ octet ∈ asBytes (displayTarget target), isVisible octet = true) :
    ∀ line ∈ ownLines base64 target user pass, ¬lineEnd <:+: line := by
  intro line member inside
  have feed : 0x0A ∈ line := inside.mem (.tail _ (.head _))
  rcases List.mem_append.mp member with own | last
  · rcases List.mem_cons.mp own with rfl | header
    · exact request_line_plain visible (by decide) feed
    · obtain ⟨field, there, rfl⟩ := List.mem_map.mp header
      exact (own_fields_proper encodes visible field there).uncontrolled (by decide) (by decide)
        feed
  · rw [List.mem_singleton.mp last] at feed
    cases feed

/-- The request is one request with its own lines exactly when its target is an address or a
domain that the proxy takes as a host. -/
theorem one_request_iff (proxy : HttpProxy) (base64 : Bytes → String)
    (encodes : ∀ octets, ∀ char ∈ (base64 octets).toList, isBase64Char char)
    (target : ProxyTarget) (user pass : Option String) :
    IsOneRequest proxy base64 target user pass ↔ Harmless proxy target := by
  rw [← takes_display_iff]
  constructor
  · rintro ⟨-, request⟩
    exact read_takes request
  · intro taken
    have visible := takes_visible taken
    constructor
    · rw [request_written]
      exact (lines_of_written_iff _).mpr (own_lines_clean encodes visible)
    · rw [request_written]
      exact read_written taken (own_fields_proper encodes visible)

/-- A request for a plain domain, with the credentials u and p. -/
theorem plain_domain_one_request :
    IsOneRequest uriProxy (fun _ => "dTpw") (.domain "example.com" 443) (some "u") (some "p") := by
  have encodes : ∀ octets : Bytes, ∀ char ∈ "dTpw".toList, isBase64Char char := by
    intro octets char member
    have letters : char ∈ ['d', 'T', 'p', 'w'] := member
    simp only [List.mem_cons, List.not_mem_nil, or_false] at letters
    rcases letters with rfl | rfl | rfl | rfl <;> decide
  have harmless : Harmless uriProxy (.domain "example.com" 443) := by
    rw [Harmless]
    decide
  exact (one_request_iff uriProxy _ encodes _ _ _).mpr harmless

/-- A domain with a line end in it, as a SOCKS5 client sends it. -/
def exampleStream : Bytes := [5, 1, 0, 3, 7, 97, 13, 10, 88, 58, 32, 121, 0, 80]

/-- The inbound takes it, and the request to the proxy has its lines, which no proxy reads as a
request for the target. -/
theorem line_end_injected :
    SocksHandshake.readRequest.run ⟨exampleStream, []⟩ =
      .ok (.connect, .domain "a\r\nX: y" 80) ⟨[], []⟩ ∧
    linesOf (asBytes (connectRequest (fun _ => "")
        (Socks5Addr.toProxyTarget (.domain "a\r\nX: y" 80)) none none)) =
      [asBytes "CONNECT a", asBytes "X: y:80 HTTP/1.1", asBytes "Host: a", asBytes "X: y:80",
        [], []] ∧
    ∀ proxy, ¬IsOneRequest proxy (fun _ => "")
      (Socks5Addr.toProxyTarget (.domain "a\r\nX: y" 80)) none none := by
  refine ⟨by rfl, by decide, fun proxy one => ?_⟩
  have own := one.lines
  have other : linesOf (asBytes (connectRequest (fun _ => "")
      (Socks5Addr.toProxyTarget (.domain "a\r\nX: y" 80)) none none)) ≠
        ownLines (fun _ => "") (Socks5Addr.toProxyTarget (.domain "a\r\nX: y" 80)) none none ++
          [[]] := by
    decide
  exact other own

end Requests

end OmniProxy.HttpConnect
