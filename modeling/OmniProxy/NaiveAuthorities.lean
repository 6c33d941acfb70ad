import OmniProxy.Hysteria2Targets
import OmniProxy.WrittenAddresses

/-!
# Targets of Naive requests

The client asks for a tunnel to an authority, the text of its target, which it gives to the
library in a URI. There the authority ends at the first slash, question mark or number sign. The
server drops opening brackets and cuts the text at the first closing one, or else at the last
colon, and reads the part in front as an IP address if it can. So it reaches every address that a
client asks for, and every domain that is not written as an address, does not start with an
opening bracket and has no closing one and nothing that ends an authority. Which texts the
library refuses is left to it.
-/

namespace OmniProxy.NaiveAuthorities

open AddressDisplay AddressText ByteStrings Hysteria2Targets ProxyTargets WrittenAddresses

section Texts

/-- The authority that the client asks for. -/
def authority : ProxyTarget → String
  | .domain host port => String.ofList (host.toList ++ ':' :: Nat.toDigits 10 port.toNat)
  | .tcp addr => displaySocketAddr addr

/-- The characters that end the authority of a URI. -/
def endsAuthority (char : Char) : Bool := char == '/' || char == '?' || char == '#'

/-- The authority that the library finds in the text behind the scheme of a URI, when it takes the
text. -/
def uriAuthority (library : String → Bool) (text : String) : Option String :=
  if library text then
    some (String.ofList (text.toList.takeWhile fun char => !endsAuthority char))
  else none

/-- The authority of the request that the client opens for a target, with the path behind it. -/
def openProxyStream (library : String → Bool) (target : ProxyTarget) : Option String :=
  uriAuthority library (authority target ++ "/")

/-- The port of a text, or the one of HTTPS. -/
def portOr443 (text : String) : UInt16 := (parsePort text).getD 443

def parseNaiveAuthority (authority : String) : ProxyTarget :=
  let a := String.ofList (authority.toList.dropWhile (· == '['))
  match splitOnce ']' a with
  | some (host, rest) =>
      namedTarget host (portOr443 (String.ofList (rest.toList.dropWhile (· == ':'))))
  | none =>
      match rsplitOnce ':' a with
      | some (h, p) => namedTarget h (portOr443 p)
      | none => .domain a 443

/-- The target that the server reads, when the client's request is made. -/
def servedTarget (library : String → Bool) (target : ProxyTarget) : Option ProxyTarget :=
  (openProxyStream library target).map parseNaiveAuthority

/-- A written port is read. -/
theorem port_or_written (port : UInt16) :
    portOr443 (String.ofList (Nat.toDigits 10 port.toNat)) = port := by
  rw [portOr443, parse_port_written, Option.getD_some]

/-- Brackets are dropped in front of the host only. -/
theorem drop_brackets (host digits : List Char) :
    (host ++ ':' :: digits).dropWhile (· == '[') = host.dropWhile (· == '[') ++ ':' :: digits := by
  induction host with
  | nil => rfl
  | cons char host inductionHypothesis =>
    by_cases bracket : char = '['
    · subst bracket
      simpa using inductionHypothesis
    · simp [bracket]

/-- Nothing is dropped of a text without the character. -/
theorem drop_nothing {chars : List Char} {char : Char} (absent : char ∉ chars) :
    chars.dropWhile (· == char) = chars := by
  cases chars with
  | nil => rfl
  | cons first rest =>
    apply List.dropWhile_cons_of_neg
    rw [beq_iff_eq]
    rintro rfl
    exact absent (.head _)

/-- A host without closing brackets is cut off at the last colon. -/
theorem parse_open (host : List Char) (port : UInt16)
    (unclosed : ']' ∉ host.dropWhile (· == '[')) :
    parseNaiveAuthority (String.ofList (host ++ ':' :: Nat.toDigits 10 port.toNat)) =
      namedTarget (String.ofList (host.dropWhile (· == '['))) port := by
  have digits : ']' ∉ Nat.toDigits 10 port.toNat :=
    fun member => absurd (decimal_digits port.toNat ']' member) (by decide)
  have absent : ']' ∉ (String.ofList (host.dropWhile (· == '[') ++
      ':' :: Nat.toDigits 10 port.toNat)).toList := by
    rw [String.toList_ofList]
    simp [unclosed, digits]
  rw [parseNaiveAuthority, String.toList_ofList, drop_brackets, split_once_none ']' _ absent,
    rsplit_once_last ':' _ _ (port_digits_plain port.toNat)]
  exact congrArg (namedTarget _) (port_or_written port)

/-- A host with a closing bracket is cut off there. -/
theorem parse_closed (before after : List Char) (text : String) (first : ']' ∉ before)
    (trimmed : text.toList.dropWhile (· == '[') = before ++ ']' :: after) :
    parseNaiveAuthority text =
      namedTarget (String.ofList before)
        (portOr443 (String.ofList (after.dropWhile (· == ':')))) := by
  rw [parseNaiveAuthority, trimmed, split_once_first ']' before after first]
  simp only [String.toList_ofList]

end Texts

section Targets

/-- An address, or a domain that the server takes for what it is. -/
def Understood : ProxyTarget → Prop
  | .tcp _ => True
  | .domain host _ =>
      (∀ ip, parseIpAddr host ≠ .ok ip) ∧ host.toList.head? ≠ some '[' ∧ ']' ∉ host.toList ∧
        ∀ char ∈ host.toList, endsAuthority char = false

/-- A host that is an address stands for it. -/
theorem named_target_address {host : String} {ip : IpAddr} (parsed : parseIpAddr host = .ok ip)
    (port : UInt16) : namedTarget host port = .tcp ⟨ip, port⟩ := by
  rw [namedTarget, parsed]

/-- The target is a name exactly when the host is no address. -/
theorem named_target_iff (host : String) (port : UInt16) :
    namedTarget host port = .domain host port ↔ ∀ ip, parseIpAddr host ≠ .ok ip := by
  rw [namedTarget]
  split
  · next ip parsed => simp [parsed]
  · next error parsed => simp [parsed]

/-- Nothing is dropped exactly when the host does not start with a bracket. -/
theorem drop_brackets_iff (host : List Char) :
    host.dropWhile (· == '[') = host ↔ host.head? ≠ some '[' := by
  cases host with
  | nil => simp
  | cons char host =>
    by_cases bracket : char = '['
    · subst bracket
      refine iff_of_false (fun same => ?_) (by simp)
      have shorter := (List.dropWhile_sublist (· == '[') (l := host)).length_le
      rw [List.dropWhile_cons_of_pos (by decide)] at same
      have length := congrArg List.length same
      rw [List.length_cons] at length
      omega
    · rw [List.dropWhile_cons_of_neg (by simpa using bracket)]
      simp [bracket]

/-- No written address has a bracket. -/
theorem address_unbracketed {chars : List Char} (written : ∀ char ∈ chars, isAddressChar char)
    {bracket : Char} (outside : ¬isAddressChar bracket) : bracket ∉ chars :=
  fun member => outside (written bracket member)

/-- A written IPv4 address is read back. -/
theorem ipv4_understood (ip : Octets 4) (port : UInt16) :
    parseNaiveAuthority (authority (.tcp ⟨.v4 ip, port⟩)) = .tcp ⟨.v4 ip, port⟩ := by
  have written := (display_ipv4_written ip).1
  have kept : (displayIpv4 ip).dropWhile (· == '[') = displayIpv4 ip :=
    drop_nothing (address_unbracketed written (by decide))
  have unclosed : ']' ∉ (displayIpv4 ip).dropWhile (· == '[') := by
    rw [kept]
    exact address_unbracketed written (by decide)
  rw [authority, displaySocketAddr]
  simp only
  rw [parse_open _ _ unclosed, kept]
  exact named_target_address (parse_ip_written (.v4 ip)) port

/-- A written IPv6 address is read back, out of its brackets. -/
theorem ipv6_understood (ip : Octets 16) (port : UInt16) :
    parseNaiveAuthority (authority (.tcp ⟨.v6 ip, port⟩)) = .tcp ⟨.v6 ip, port⟩ := by
  have written := (display_ipv6_written ip).1
  have nonempty : displayIpv6 ip ≠ [] := List.ne_nil_of_mem (display_ipv6_written ip).2.1
  have trimmed : (authority (.tcp ⟨.v6 ip, port⟩)).toList.dropWhile (· == '[') =
      displayIpv6 ip ++ ']' :: ':' :: Nat.toDigits 10 port.toNat := by
    rw [authority, displaySocketAddr]
    simp only [String.toList_ofList]
    rw [List.cons_append, List.dropWhile_cons_of_pos (by decide)]
    apply (drop_brackets_iff _).mpr
    rw [List.head?_append_of_ne_nil _ nonempty]
    exact fun first => address_unbracketed written (by decide) (List.mem_of_head? first)
  rw [parse_closed _ _ _ (address_unbracketed written (by decide)) trimmed,
    List.dropWhile_cons_of_pos (by decide), drop_nothing (port_digits_plain port.toNat),
    port_or_written]
  exact named_target_address (parse_ip_written (.v6 ip)) port

/-- A domain with a closing bracket is cut, so another one is reached. -/
theorem closed_domain_lost {host : String} (port : UInt16)
    (closed : ']' ∈ host.toList.dropWhile (· == '[')) :
    parseNaiveAuthority (authority (.domain host port)) ≠ .domain host port := by
  intro same
  obtain ⟨before, after, split, first⟩ := List.eq_append_cons_of_mem closed
  have trimmed : (authority (.domain host port)).toList.dropWhile (· == '[') =
      before ++ ']' :: (after ++ ':' :: Nat.toDigits 10 port.toNat) := by
    rw [authority, String.toList_ofList, drop_brackets, split, List.append_assoc]
    rfl
  rw [parse_closed _ _ _ first trimmed] at same
  have cut := congrArg String.toList (named_target_domain _ _ _ _ same)
  rw [String.toList_ofList] at cut
  have shorter := (List.dropWhile_sublist (· == '[') (l := host.toList)).length_le
  rw [split, cut, List.length_append, List.length_cons] at shorter
  omega

/-- A whole authority is taken for its domain exactly when that is no address and has no brackets
that the server looks for. -/
theorem domain_understood_iff (host : String) (port : UInt16) :
    parseNaiveAuthority (authority (.domain host port)) = .domain host port ↔
      (∀ ip, parseIpAddr host ≠ .ok ip) ∧ host.toList.head? ≠ some '[' ∧ ']' ∉ host.toList := by
  by_cases closed : ']' ∈ host.toList.dropWhile (· == '[')
  · refine iff_of_false (closed_domain_lost port closed) fun understood => ?_
    exact understood.2.2 ((List.dropWhile_sublist _).mem closed)
  · rw [authority, parse_open _ _ closed]
    constructor
    · intro same
      have whole := congrArg String.toList (named_target_domain _ _ _ _ same)
      rw [String.toList_ofList] at whole
      rw [whole, String.ofList_toList] at same
      exact ⟨(named_target_iff host port).mp same, (drop_brackets_iff _).mp whole, whole ▸ closed⟩
    · rintro ⟨literal, unopened, -⟩
      rw [(drop_brackets_iff _).mpr unopened, String.ofList_toList]
      exact (named_target_iff host port).mpr literal

/-- A character that is no digit and no separator is in no address. -/
theorem foreign_character {char : Char} (decimal : ¬('0' ≤ char ∧ char ≤ '9'))
    (small : ¬('a' ≤ char ∧ char ≤ 'f')) (large : ¬('A' ≤ char ∧ char ≤ 'F'))
    (dot : char ≠ '.') (colon : char ≠ ':') : Foreign char := by
  refine ⟨fun radix => ?_, dot, colon⟩
  rw [toDigit, if_neg decimal, if_neg small, if_neg large]
  rfl

/-- No address has an opening bracket. -/
theorem opening_foreign : Foreign '[' :=
  foreign_character (by decide) (by decide) (by decide) (by decide) (by decide)

/-- No address has anything that ends an authority. -/
theorem ends_foreign {char : Char} (ends : endsAuthority char = true) : Foreign char := by
  simp only [endsAuthority, Bool.or_eq_true, beq_iff_eq] at ends
  rcases ends with (rfl | rfl) | rfl <;>
    exact foreign_character (by decide) (by decide) (by decide) (by decide) (by decide)

/-- A domain that is written as an address is taken for the address. -/
theorem literal_domain_address {host : String} {ip : IpAddr} (parsed : parseIpAddr host = .ok ip)
    (port : UInt16) :
    parseNaiveAuthority (authority (.domain host port)) = .tcp ⟨ip, port⟩ := by
  have plain {char : Char} (foreign : Foreign char) : char ∉ host.toList := by
    intro member
    rw [parse_ip_foreign foreign host member] at parsed
    cases parsed
  have kept := drop_nothing (plain opening_foreign)
  have unclosed : ']' ∉ host.toList.dropWhile (· == '[') := by
    rw [kept]
    exact plain bracket_foreign
  rw [authority, parse_open _ _ unclosed, kept, String.ofList_toList]
  exact named_target_address parsed port

end Targets

section Requests

variable {library : String → Bool} {target : ProxyTarget} {host : String} {port : UInt16}

/-- The front of a text at its first separator is in the text. -/
theorem split_once_inside {separator : Char} {text front back : String}
    (split : splitOnce separator text = some (front, back)) :
    ∀ char ∈ front.toList, char ∈ text.toList := by
  rw [splitOnce, List.span_eq_takeWhile_dropWhile] at split
  split at split
  · cases split
  · next before mark after parts =>
    obtain ⟨rfl, rfl⟩ := Prod.mk.inj (Option.some.inj split)
    rw [String.toList_ofList, ← (Prod.mk.inj parts).1]
    exact fun char member => (List.takeWhile_sublist _).mem member

/-- The front of a text at its last separator is in the text. -/
theorem rsplit_once_inside {separator : Char} {text front back : String}
    (split : rsplitOnce separator text = some (front, back)) :
    ∀ char ∈ front.toList, char ∈ text.toList := by
  rw [rsplitOnce, List.span_eq_takeWhile_dropWhile] at split
  split at split
  · cases split
  · next after mark before parts =>
    obtain ⟨rfl, rfl⟩ := Prod.mk.inj (Option.some.inj split)
    intro char member
    rw [String.toList_ofList, List.mem_reverse] at member
    have behind : char ∈ text.toList.reverse.dropWhile (· != separator) := by
      rw [(Prod.mk.inj parts).2]
      exact .tail _ member
    exact List.mem_reverse.mp ((List.dropWhile_sublist _).mem behind)

/-- A domain that the server reads has only characters of the text that it reads. -/
theorem parsed_domain_inside {text : String}
    (parsed : parseNaiveAuthority text = .domain host port) :
    ∀ char ∈ host.toList, char ∈ text.toList := by
  have trimmed (char : Char)
      (member : char ∈ (String.ofList (text.toList.dropWhile (· == '['))).toList) :
      char ∈ text.toList := by
    rw [String.toList_ofList] at member
    exact (List.dropWhile_sublist _).mem member
  intro char member
  rw [parseNaiveAuthority] at parsed
  split at parsed
  · next found rest split =>
    rw [← named_target_domain _ _ _ _ parsed] at member
    exact trimmed char (split_once_inside split char member)
  · split at parsed
    · next found digits split =>
      rw [← named_target_domain _ _ _ _ parsed] at member
      exact trimmed char (rsplit_once_inside split char member)
    · rw [← (ProxyTarget.domain.inj parsed).1] at member
      exact trimmed char member

/-- What the library refuses reaches no server. -/
theorem served_refused (refused : library (authority target ++ "/") = false) :
    servedTarget library target = none := by
  rw [servedTarget, openProxyStream, uriAuthority,
    if_neg (by rw [refused]; exact Bool.false_ne_true)]
  rfl

/-- A text that nothing cuts reaches the server whole. -/
theorem served_whole (taken : library (authority target ++ "/") = true)
    (plain : ∀ char ∈ (authority target).toList, endsAuthority char = false) :
    servedTarget library target = some (parseNaiveAuthority (authority target)) := by
  have whole : (authority target ++ "/").toList.takeWhile (fun char => !endsAuthority char) =
      (authority target).toList := by
    rw [String.toList_append, List.takeWhile_append_of_pos fun char member => by
      rw [plain char member]
      rfl]
    exact List.append_nil _
  rw [servedTarget, openProxyStream, uriAuthority, if_pos taken, whole, String.ofList_toList]
  rfl

/-- A character of a kind that has none of the three ends no authority. -/
theorem kind_uncut (Kind : Char → Prop) (slash : ¬Kind '/') (query : ¬Kind '?')
    (fragment : ¬Kind '#') {char : Char} (kind : Kind char) : endsAuthority char = false := by
  by_contra cut
  simp only [endsAuthority, Bool.or_eq_false_iff, beq_eq_false_iff_ne, not_and_or, not_not] at cut
  rcases cut with (rfl | rfl) | rfl
  · exact slash kind
  · exact query kind
  · exact fragment kind

/-- Nothing of a written number ends an authority. -/
theorem port_uncut (port : UInt16) :
    ∀ char ∈ ':' :: Nat.toDigits 10 port.toNat, endsAuthority char = false := by
  intro char member
  rcases List.mem_cons.mp member with rfl | digit
  · decide
  · exact kind_uncut (fun char => char.isDigit) (by decide) (by decide) (by decide)
      (decimal_digits port.toNat char digit)

/-- Nothing of a written address does. -/
theorem address_uncut (addr : SocketAddr) :
    ∀ char ∈ (authority (.tcp addr)).toList, endsAuthority char = false := by
  have inside (char : Char) : isAddressChar char → endsAuthority char = false :=
    kind_uncut (fun char => isAddressChar char) (by decide) (by decide) (by decide)
  obtain ⟨ip | ip, port⟩ := addr
  · intro char member
    rw [authority, displaySocketAddr, String.toList_ofList] at member
    rcases List.mem_append.mp member with front | last
    · exact inside char ((display_ipv4_written ip).1 char front)
    · exact port_uncut port char last
  · intro char member
    rw [authority, displaySocketAddr, String.toList_ofList] at member
    rcases List.mem_append.mp member with front | last
    · rcases List.mem_cons.mp front with rfl | among
      · decide
      · exact inside char ((display_ipv6_written ip).1 char among)
    · rcases List.mem_cons.mp last with rfl | behind
      · decide
      · exact port_uncut port char behind

/-- The authority of a domain is cut exactly when the domain is. -/
theorem domain_uncut_iff :
    (∀ char ∈ (authority (.domain host port)).toList, endsAuthority char = false) ↔
      ∀ char ∈ host.toList, endsAuthority char = false := by
  rw [authority, String.toList_ofList]
  constructor
  · exact fun plain char member => plain char (List.mem_append_left _ member)
  · intro plain char member
    rcases List.mem_append.mp member with front | last
    · exact plain char front
    · exact port_uncut port char last

/-- A domain that the library cuts is not reached: the server reads no text with what ends an
authority. -/
theorem cut_domain_lost {cut : Char} (member : cut ∈ host.toList)
    (ends : endsAuthority cut = true) :
    servedTarget library (.domain host port) ≠ some (.domain host port) := by
  intro served
  obtain ⟨text, found, parsed⟩ := Option.map_eq_some_iff.mp served
  rw [openProxyStream, uriAuthority] at found
  split at found
  · obtain rfl := Option.some.inj found
    have kept := parsed_domain_inside parsed cut member
    rw [String.toList_ofList] at kept
    have other := List.mem_takeWhile_imp kept
    rw [ends] at other
    cases other
  · cases found

/-- A domain whose URI is taken is reached exactly when it is understood. -/
theorem domain_served_iff (taken : library (authority (.domain host port) ++ "/") = true) :
    servedTarget library (.domain host port) = some (.domain host port) ↔
      Understood (.domain host port) := by
  by_cases plain : ∀ char ∈ host.toList, endsAuthority char = false
  · rw [served_whole taken (domain_uncut_iff.mpr plain), Option.some_inj, domain_understood_iff]
    exact ⟨fun ⟨literal, unopened, unclosed⟩ => ⟨literal, unopened, unclosed, plain⟩,
      fun ⟨literal, unopened, unclosed, _⟩ => ⟨literal, unopened, unclosed⟩⟩
  · refine iff_of_false ?_ fun understood => plain understood.2.2.2
    obtain ⟨cut, member, ends⟩ : ∃ char ∈ host.toList, endsAuthority char = true := by
      simpa using plain
    exact cut_domain_lost member ends

/-- A domain that is written as an address has nothing that ends an authority. -/
theorem literal_uncut {ip : IpAddr} (parsed : parseIpAddr host = .ok ip) :
    ∀ char ∈ host.toList, endsAuthority char = false := by
  intro char member
  by_contra cut
  rw [parse_ip_foreign (ends_foreign (by simpa using cut)) host member] at parsed
  cases parsed

/-- When the library takes the URI for a target, the server reaches the target exactly when that is
an address, or a domain that is not written as one, does not start with an opening bracket and has
no closing one, and nothing that ends an authority. A domain that is written as an address stands
for the address, at the same port. -/
theorem naive_target_kept (library : String → Bool) (target : ProxyTarget) :
    (servedTarget library target = some target ↔
      library (authority target ++ "/") = true ∧ Understood target) ∧
    ∀ host port ip, target = .domain host port → parseIpAddr host = .ok ip →
      library (authority target ++ "/") = true →
        servedTarget library target = some (.tcp ⟨ip, port⟩) := by
  constructor
  · cases taken : library (authority target ++ "/") with
    | false =>
      rw [served_refused taken]
      exact iff_of_false (Option.some_ne_none target).symm fun both => Bool.false_ne_true both.1
    | true =>
      rw [eq_self_iff_true, true_and]
      rcases target with ⟨ip | ip, port⟩ | ⟨host, port⟩
      · rw [served_whole taken (address_uncut _), ipv4_understood]
        exact iff_of_true rfl trivial
      · rw [served_whole taken (address_uncut _), ipv6_understood]
        exact iff_of_true rfl trivial
      · exact domain_served_iff taken
  · rintro host port ip rfl parsed taken
    rw [served_whole taken (domain_uncut_iff.mpr (literal_uncut parsed))]
    exact congrArg some (literal_domain_address parsed port)

example : parseNaiveAuthority (authority (.domain "a]b" 80)) = .domain "a" 443 := by
  decide

example : servedTarget (fun _ => true) (.domain "a/b" 80) = some (.domain "a" 443) := by
  decide

end Requests

end OmniProxy.NaiveAuthorities
