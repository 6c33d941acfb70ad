import OmniProxy.SniffedHosts

/-!
# The slices of the search for a Host line

The search cuts texts at octets that it has counted. Cutting out the host between brackets
is safe: the brackets take one octet each, and the program has found them. Cutting a line
behind as many octets as the name of the header takes is not, because a character of
several octets may stand there.
-/

namespace OmniProxy.HostSlices

open AddressText ByteStrings CheckedLoops HostLines ServerNames Sniffing SniffedHosts

section Slices

/-- The octets in front of the first occurrence of a character. -/
def findChar (wanted : Char) : List Char → Option Nat
  | [] => none
  | char :: text =>
      if char = wanted then some 0 else (findChar wanted text).map (· + char.utf8Size)

/-- Cut out the text between two octets. The program stops if one of them is behind the
text or inside a character, or if they are out of order. -/
def sliceText (text : List Char) (first last : Nat) : Checked (List Char) :=
  if last < first then .error .outOfRange
  else
    match splitAtByte text last with
    | none => .error .insideChar
    | some (front, _) =>
        match splitAtByte front first with
        | none => .error .insideChar
        | some (_, middle) => .ok middle

/-- `stripPort` with its slices. -/
def stripPortChecked (host : String) : Checked String :=
  match findChar '[' host.toList with
  | some start => do
      let behind ← sliceText host.toList start host.utf8ByteSize
      match findChar ']' behind with
      | some last => return String.ofList (← sliceText host.toList (start + 1) (start + last))
      | none => return host
  | none =>
      match splitOnce ':' host with
      | none => return host
      | some (name, port) =>
          match parseUnsigned 0xFFFF port with
          | .ok _ => return name
          | .error _ => return host

/-- `hostOfLines` with the slices of `stripPort`. -/
def hostOfLinesChecked : List (List Char) → Checked (Option String)
  | [] => return none
  | line :: lines =>
      if line.isEmpty then return none
      else do
        match ← stripPrefixCi line "host:".toList with
        | none => hostOfLinesChecked lines
        | some rest =>
            let host := trim (String.ofList rest)
            if host.isEmpty then hostOfLinesChecked lines
            else return some (← stripPortChecked host)

/-- `parseHttpHostHeader` with all its slices. -/
def parseHttpHostHeaderChecked (buf : Bytes) : Checked (Option String) :=
  match fromUtf8 buf with
  | none => return none
  | some text => hostOfLinesChecked (headerLines text)

/-- A character that does not occur is not found. -/
theorem find_char_missing (wanted : Char) (text : List Char) (missing : wanted ∉ text) :
    findChar wanted text = none := by
  induction text with
  | nil => rfl
  | cons char text inductionHypothesis =>
    rw [List.mem_cons, not_or] at missing
    rw [findChar, if_neg (Ne.symm missing.1), inductionHypothesis missing.2]
    rfl

/-- The first occurrence is found behind the octets in front of it. -/
theorem find_char_first (wanted : Char) (front rest : List Char) (first : wanted ∉ front) :
    findChar wanted (front ++ wanted :: rest) = some (octetCount front) := by
  induction front with
  | nil => exact if_pos rfl
  | cons char front inductionHypothesis =>
    rw [List.mem_cons, not_or] at first
    rw [List.cons_append, findChar, if_neg (Ne.symm first.1), inductionHypothesis first.2]
    exact congrArg some (Nat.add_comm _ _)

/-- What stands between two characters is cut out. -/
theorem slice_middle (front middle rest : List Char) :
    sliceText (front ++ (middle ++ rest)) (octetCount front)
      (octetCount front + octetCount middle) = .ok middle := by
  have whole := split_at_byte_append (front ++ middle) rest
  rw [octet_count_append, List.append_assoc] at whole
  simp only [sliceText, if_neg (Nat.not_lt.mpr (Nat.le_add_right _ _)), whole,
    split_at_byte_append front middle]

/-- The search for a character ends in front of it. -/
theorem drop_while_first (wanted : Char) (front rest : List Char) (first : wanted ∉ front) :
    (front ++ wanted :: rest).dropWhile (· != wanted) = wanted :: rest ∧
      (front ++ wanted :: rest).takeWhile (· != wanted) = front := by
  have other : ∀ char ∈ front, (char != wanted) = true := by
    intro char member
    simpa using fun same : char = wanted => first (same ▸ member)
  rw [List.dropWhile_append_of_pos other, List.takeWhile_append_of_pos other]
  simp

end Slices

section Brackets

variable {host : String} {front : List Char}

/-- The text from a bracket on is found and cut out. -/
theorem bracket_behind {rest : List Char} (spelled : host.toList = front ++ '[' :: rest)
    (first : '[' ∉ front) :
    findChar '[' host.toList = some (octetCount front) ∧
      sliceText host.toList (octetCount front) host.utf8ByteSize = .ok ('[' :: rest) := by
  have size : host.utf8ByteSize = octetCount front + octetCount ('[' :: rest) := by
    rw [← String.ofList_toList (s := host), utf8_byte_size_of_list, spelled, octet_count_append]
  rw [spelled, size]
  exact ⟨find_char_first _ _ _ first, by simpa using slice_middle front ('[' :: rest) []⟩

/-- So is the text between the brackets. -/
theorem between_brackets {inner more : List Char}
    (spelled : host.toList = front ++ '[' :: (inner ++ ']' :: more)) (first : ']' ∉ inner) :
    findChar ']' ('[' :: (inner ++ ']' :: more)) = some (octetCount ('[' :: inner)) ∧
      sliceText host.toList (octetCount front + 1) (octetCount front + octetCount ('[' :: inner)) =
        .ok inner := by
  refine ⟨find_char_first ']' ('[' :: inner) more (by simpa using first), ?_⟩
  have opening : octetCount ['['] = 1 := by decide
  have counted : octetCount (front ++ ['[']) = octetCount front + 1 := by
    rw [octet_count_append, opening]
  have width : octetCount ('[' :: inner) = 1 + octetCount inner := by
    rw [← opening, ← octet_count_append, List.singleton_append]
  have middle := slice_middle (front ++ ['[']) inner (']' :: more)
  rw [counted, Nat.add_assoc, ← width, List.append_assoc] at middle
  rw [spelled]
  exact middle

/-- A host with a bracket is cut without a panic, as both cuts are at ASCII characters. -/
theorem strip_port_bracketed (bracket : '[' ∈ host.toList) :
    stripPortChecked host = .ok (stripPort host) := by
  obtain ⟨front, rest, spelled, first⟩ := List.eq_append_cons_of_mem bracket
  have ⟨found, behind⟩ := bracket_behind spelled first
  have dropped : host.toList.dropWhile (· != '[') = '[' :: rest := by
    rw [spelled, (drop_while_first _ _ _ first).1]
  rw [stripPortChecked, found, stripPort, dropped]
  dsimp only
  rw [behind]
  by_cases closed : ']' ∈ rest
  · obtain ⟨inner, more, rfl, firstClosing⟩ := List.eq_append_cons_of_mem closed
    have ⟨last, cut⟩ := between_brackets spelled firstClosing
    have inside : (inner ++ ']' :: more).contains ']' = true := by simp
    rw [if_pos inside, (drop_while_first _ _ _ firstClosing).2]
    simp only [bind, Except.bind, last, cut]
    rfl
  · have missing : ']' ∉ '[' :: rest := by simpa using closed
    have outside : ¬rest.contains ']' = true := by simpa using closed
    rw [if_neg outside]
    simp only [bind, Except.bind, find_char_missing _ _ missing]
    rfl

/-- A host without a bracket is cut at its last colon, which is ASCII. -/
theorem strip_port_plain (plain : '[' ∉ host.toList) :
    stripPortChecked host = .ok (stripPort host) := by
  have dropped : host.toList.dropWhile (· != '[') = [] := by
    rw [List.dropWhile_eq_nil_iff]
    intro char member
    simpa using fun same : char = '[' => plain (same ▸ member)
  rw [stripPortChecked, find_char_missing '[' host.toList plain, stripPort, dropped]
  cases splitOnce ':' host with
  | none => rfl
  | some parts =>
    dsimp only
    cases parseUnsigned 0xFFFF parts.2 with
    | ok number => rfl
    | error refusal => rfl

/-- The slices that take a port away are all in place. -/
theorem strip_port_checked (host : String) : stripPortChecked host = .ok (stripPort host) := by
  by_cases bracket : '[' ∈ host.toList
  · exact strip_port_bracketed bracket
  · exact strip_port_plain bracket

end Brackets

section Headers

/-- The search cuts texts where it may, but for the names of headers. -/
theorem host_of_lines_checked (lines : List (List Char)) :
    hostOfLinesChecked lines = hostOfLines lines := by
  induction lines with
  | nil => rfl
  | cons line lines inductionHypothesis =>
    rw [hostOfLinesChecked, hostOfLines]
    split
    · rfl
    · congr 1
      funext found
      cases found with
      | none => exact inductionHypothesis
      | some rest =>
        dsimp only
        split
        · exact inductionHypothesis
        · rw [strip_port_checked]
          rfl

/-- The search for a host stops the program exactly when the octets are a text in which a
line has a character across the end of its first five octets, and no line before that one
ends the search or names a host. -/
theorem header_search_returns_iff (buf : Bytes) :
    Returns (parseHttpHostHeaderChecked buf) ↔
      ¬∃ text, fromUtf8 buf = some text ∧ CutLine (headerLines text) := by
  rw [parseHttpHostHeaderChecked]
  cases decoded : fromUtf8 buf with
  | none => exact iff_of_true ⟨none, rfl⟩ (by simp)
  | some text =>
    dsimp only
    rw [host_of_lines_checked, host_of_lines_returns_iff]
    simp

/-- A request whose second line has a character of two octets across the end of its first
five. -/
def straddledRequest : String := "GET / HTTP/1.1\r\nabcd\u00e9: x\r\n\r\n"

/-- That line stops the program. -/
theorem straddled_request_panics :
    ¬Returns (parseHttpHostHeaderChecked (asBytes straddledRequest)) := by
  rw [parseHttpHostHeaderChecked, from_utf8_as_bytes]
  rintro ⟨found, read⟩
  dsimp only at read
  have stopped : hostOfLinesChecked (headerLines straddledRequest) = .error .insideChar := by
    decide
  rw [stopped] at read
  simp at read

end Headers

end OmniProxy.HostSlices
