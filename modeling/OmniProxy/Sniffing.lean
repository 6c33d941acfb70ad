import OmniProxy.AddressText
import OmniProxy.CheckedLoops
import OmniProxy.Connections

/-!
# Looking into the first octets of a connection

The inspector reads from a client until the octets read so far show a host: the server name
of a TLS handshake or the `Host` line of an HTTP request. It gives up when nothing arrives in
time, at the end of the stream, at an error, and when it has read more than its limit. All it
has read is returned, whatever it found.

Reading an octet or cutting a text where the program would panic is an error here, and so is
cutting a text inside a character.
-/

namespace OmniProxy.Sniffing

open AddressText ByteStrings CheckedLoops Connections

section Panics

/-- Ways in which the program stops its task. -/
inductive Panic where
  | outOfRange
  | insideChar
deriving DecidableEq

/-- A computation that may panic. -/
abbrev Checked := Except Panic

def octetAt (buf : Bytes) (index : Nat) : Checked UInt8 :=
  match buf[index]? with
  | some octet => .ok octet
  | none => .error .outOfRange

/-- An octet inside the buffer is read. -/
theorem octet_at_inside {buf : Bytes} {index : Nat} (inside : index < buf.length) :
    octetAt buf index = .ok buf[index] := by
  rw [octetAt, List.getElem?_eq_getElem inside]

/-- An octet inside the buffer is read, so that no default is taken. -/
theorem octet_at_get {buf : Bytes} {index : Nat} (inside : index < buf.length) :
    octetAt buf index = .ok (buf.getD index 0) := by
  rw [octet_at_inside inside, List.getD_eq_getElem buf 0 inside]

/-- Two octets as a number, the high one first. -/
def be16At (buf : Bytes) (index : Nat) : Checked Nat := do
  let high ← octetAt buf index
  let low ← octetAt buf (index + 1)
  return (ofBigEndian16 high low).toNat

def slice (buf : Bytes) (first last : Nat) : Checked Bytes :=
  if first ≤ last ∧ last ≤ buf.length then .ok ((buf.take last).drop first)
  else .error .outOfRange

/-- A slice inside the buffer is taken. -/
theorem slice_inside {buf : Bytes} {first last : Nat} (ordered : first ≤ last)
    (inside : last ≤ buf.length) : slice buf first last = .ok ((buf.take last).drop first) :=
  if_pos ⟨ordered, inside⟩

/-- Cut a text after a number of octets, if a character ends there. -/
def splitAtByte : List Char → Nat → Option (List Char × List Char)
  | text, 0 => some ([], text)
  | [], _ + 1 => none
  | char :: text, count + 1 =>
      if count + 1 < char.utf8Size then none
      else (splitAtByte text (count + 1 - char.utf8Size)).map fun (front, rest) =>
        (char :: front, rest)

end Panics

section ServerNames

/-- The first host name of a list of server names. A name that is not UTF-8 ends the search. -/
def readNames (buf : Bytes) (listEnd r : Nat) : Checked (Option String) :=
  if more : r + 3 ≤ listEnd then do
    let nameType ← octetAt buf r
    let nlen ← be16At buf (r + 1)
    if nameType = 0 ∧ r + 3 + nlen ≤ listEnd then
      let name ← slice buf (r + 3) (r + 3 + nlen)
      return fromUtf8 name
    else readNames buf listEnd (r + 3 + nlen)
  else return none
termination_by listEnd - r

/-- The host name of the first extension with server names. -/
def readExtensions (buf : Bytes) (extEnd q : Nat) : Checked (Option String) :=
  if more : q + 4 ≤ extEnd then do
    let etype ← be16At buf q
    let elen ← be16At buf (q + 2)
    if etype = 0 then
      if q + 4 + 5 > q + 4 + elen ∨ q + 4 + elen > buf.length then return none
      else
        let listLen ← be16At buf (q + 4)
        readNames buf (min (q + 4 + 2 + listLen) (q + 4 + elen)) (q + 4 + 2)
    else readExtensions buf extEnd (q + 4 + elen)
  else return none
termination_by extEnd - q

/-- The server name of a TLS handshake. The length of the session id is taken from two octets,
though it has one. -/
def parseSni (buf : Bytes) : Checked (Option String) := do
  if buf.length < 43 then return none
  let recLen ← be16At buf 3
  if buf.length < 5 + recLen then return none
  let hsType ← octetAt buf 5
  if hsType ≠ 1 then return none
  let sidLen ← be16At buf 43
  let q := 43 + 2 + sidLen
  if q + 2 > buf.length then return none
  let csLen ← be16At buf q
  let q := q + 2 + csLen
  if q ≥ buf.length then return none
  let cmLen ← octetAt buf q
  let q := q + 1 + cmLen.toNat
  if q + 2 > buf.length then return none
  let extLen ← be16At buf q
  let q := q + 2
  readExtensions buf (min (q + extLen) buf.length) q

end ServerNames

section HostLines

/-- The octets with which a request begins, by method. -/
def httpMethods : List Bytes :=
  ["GET ", "POST", "PUT ", "DELE", "HEAD", "OPTI", "PATC", "CONN"].map asBytes

def looksLikeHttp (buf : Bytes) : Bool := httpMethods.any (·.isPrefixOf buf)

/-- The lines of a text, which end with two characters. -/
def splitLines : List Char → List (List Char)
  | [] => [[]]
  | '\r' :: '\n' :: text => [] :: splitLines text
  | char :: text =>
      match splitLines text with
      | [] => [[char]]
      | line :: lines => (char :: line) :: lines

/-- What follows a prefix in any letter case. The text is cut without a look at where its
characters end. -/
def stripPrefixCi (text start : List Char) : Checked (Option (List Char)) :=
  let size := (String.ofList start).utf8ByteSize
  if size ≤ (String.ofList text).utf8ByteSize then
    match splitAtByte text size with
    | none => .error .insideChar
    | some (front, rest) =>
        return if front.map Char.toLower = start.map Char.toLower then some rest else none
  else return none

/-- A host without its port, or what stands in brackets. -/
def stripPort (host : String) : String :=
  match host.toList.dropWhile (· != '[') with
  | _ :: rest =>
      if rest.contains ']' then String.ofList (rest.takeWhile (· != ']')) else host
  | [] =>
      match splitOnce ':' host with
      | none => host
      | some (name, port) =>
          match parseUnsigned 0xFFFF port with
          | .ok _ => name
          | .error _ => host

/-- The host of the first line that names one, up to an empty line. -/
def hostOfLines : List (List Char) → Checked (Option String)
  | [] => return none
  | line :: lines =>
      if line.isEmpty then return none
      else do
        match ← stripPrefixCi line "host:".toList with
        | none => hostOfLines lines
        | some rest =>
            let host := trim (String.ofList rest)
            if host.isEmpty then hostOfLines lines else return some (stripPort host)

def parseHttpHostHeader (buf : Bytes) : Checked (Option String) :=
  match fromUtf8 buf with
  | none => return none
  | some text => hostOfLines ((splitLines text.toList).drop 1)

end HostLines

section Inspector

/-- What the inspector found, with all octets that it read. -/
structure SniffOutcome where
  host : Option String
  protocol : String
  consumed : Bytes
deriving DecidableEq

/-- The octets begin like a TLS record. -/
def looksLikeTls (buf : Bytes) : Bool :=
  decide (5 ≤ buf.length) && buf[0]? == some 0x16 && buf[1]? == some 0x03

/-- The server name of what may be a TLS record. -/
def sniOf (buf : Bytes) : Checked (Option String) :=
  if looksLikeTls buf then parseSni buf else return none

/-- The host of what may be an HTTP request. -/
def httpHostOf (buf : Bytes) : Checked (Option String) :=
  if looksLikeHttp buf then parseHttpHostHeader buf else return none

def tryClassify (buf : Bytes) : Checked (Option SniffOutcome) := do
  match ← sniOf buf with
  | some host => return some ⟨some host, "tls", buf⟩
  | none =>
      match ← httpHostOf buf with
      | some host => return some ⟨some host, "http", buf⟩
      | none => return none

/-- The octets of one read of the inspector. -/
abbrev SniffRead := { octets : Bytes // octets ≠ [] ∧ octets.length ≤ 512 }

/-- What a reader meets in a stream: octets, an error, or a time in which nothing arrives. -/
inductive Arrival where
  | octets (read : SniffRead)
  | failed (error : IoError)
  | quiet

def Arrival.data : Arrival → Bytes
  | .octets read => read.val
  | _ => []

/-- All octets of a stream. -/
def arriving (arrivals : List Arrival) : Bytes := arrivals.flatMap Arrival.data

def sniffLimit : Nat := 8 * 1024

/-- The outcome of an inspection that has found no host. -/
def SniffOutcome.unknown (buf : Bytes) : SniffOutcome := ⟨none, "unknown", buf⟩

/-- Read until a host is found, with what is left of the stream. No arrival is its end. -/
def inspectFrom (buf : Bytes) : List Arrival → Checked (SniffOutcome × List Arrival)
  | [] => return ((← tryClassify buf).getD (.unknown buf), [])
  | arrival :: arrivals => do
      match ← tryClassify buf with
      | some outcome => return (outcome, arrival :: arrivals)
      | none =>
          match arrival with
          | .octets read =>
              if sniffLimit < (buf ++ read.val).length then
                return (.unknown (buf ++ read.val), arrivals)
              else inspectFrom (buf ++ read.val) arrivals
          | .failed _ => return (.unknown buf, arrivals)
          | .quiet => return (.unknown buf, arrivals)

def inspectStream (arrivals : List Arrival) : Checked (SniffOutcome × List Arrival) :=
  inspectFrom [] arrivals

/-- What was classified has consumed the whole buffer. -/
theorem try_classify_consumed {buf : Bytes} {outcome : SniffOutcome}
    (classified : tryClassify buf = .ok (some outcome)) : outcome.consumed = buf := by
  obtain ⟨sni, -, classified⟩ := (bind_ok_iff _ _ _).mp classified
  cases sni with
  | some host =>
    obtain rfl := Option.some.inj (Except.ok.inj classified)
    rfl
  | none =>
    obtain ⟨host, -, classified⟩ := (bind_ok_iff _ _ _).mp classified
    cases host with
    | some host =>
      obtain rfl := Option.some.inj (Except.ok.inj classified)
      rfl
    | none => cases classified

/-- What the inspector returns and what is left of the stream are what was there. The
induction is on the arrivals, one for each round. -/
theorem inspect_from_keeps {buf : Bytes} {arrivals rest : List Arrival} {outcome : SniffOutcome}
    (inspected : inspectFrom buf arrivals = .ok (outcome, rest)) :
    outcome.consumed ++ arriving rest = buf ++ arriving arrivals := by
  induction arrivals generalizing buf with
  | nil =>
    obtain ⟨found, classified, inspected⟩ := (bind_ok_iff _ _ _).mp inspected
    obtain ⟨rfl, rfl⟩ := Prod.mk.inj (Except.ok.inj inspected)
    cases found with
    | some found => rw [Option.getD_some, try_classify_consumed classified]
    | none => rfl
  | cons arrival arrivals inductionHypothesis =>
    obtain ⟨found, classified, inspected⟩ := (bind_ok_iff _ _ _).mp inspected
    cases found with
    | some found =>
      obtain ⟨rfl, rfl⟩ := Prod.mk.inj (Except.ok.inj inspected)
      rw [try_classify_consumed classified]
    | none =>
      cases arrival with
      | octets read =>
        have all : buf ++ arriving (.octets read :: arrivals) =
            (buf ++ read.val) ++ arriving arrivals := by
          simp [arriving, Arrival.data]
        rw [all]
        dsimp only at inspected
        split at inspected
        · obtain ⟨rfl, rfl⟩ := Prod.mk.inj (Except.ok.inj inspected)
          rfl
        · exact inductionHypothesis inspected
      | failed error =>
        obtain ⟨rfl, rfl⟩ := Prod.mk.inj (Except.ok.inj inspected)
        rfl
      | quiet =>
        obtain ⟨rfl, rfl⟩ := Prod.mk.inj (Except.ok.inj inspected)
        rfl

end Inspector

end OmniProxy.Sniffing
