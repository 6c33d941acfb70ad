import OmniProxy.HostLines
import OmniProxy.TcpRoutes

/-!
# How the cuts of a stream decide the sniffed host

The inspector looks at the octets that it has read after each read. What a look shows is
stated on the octets alone: a server name, or the value of a `Host` line as far as it has
arrived, or a place at which the program stops. The first look that shows one of these
decides the run, so two cuts of one stream give the same host exactly when their deciding
looks show the same name.
-/

namespace OmniProxy.SniffedHosts

open ByteStrings CheckedLoops HostLines Outbounds ProxyTargets Routing ServerNames Sniffing
open TcpRoutes Utf8Text

section Looks

/-- A look at octets shows a server name. -/
structure ServerName (buf : Bytes) (name : String) : Prop where
  record : looksLikeTls buf = true
  read : parseSni buf = .ok (some name)

/-- The lines of a request after the first. -/
def headerLines (text : String) : List (List Char) := (splitLines text.toList).drop 1

/-- A look at octets shows the value of a `Host` line as far as it is there. -/
structure HostValue (buf : Bytes) (value : List Char) : Prop where
  method : looksLikeHttp buf = true
  line : ∃ text, fromUtf8 buf = some text ∧ HostLine (headerLines text) value

/-- A look at octets shows a host. -/
inductive Shown (buf : Bytes) : String → Prop where
  | serverName (name : String) (shown : ServerName buf name) : Shown buf name
  | hostValue (value : List Char) (shown : HostValue buf value) : Shown buf (nameOf value)

/-- A look at octets stops the program. -/
inductive Stops (buf : Bytes) : Prop where
  | handshake (record : looksLikeTls buf = true) (short : CutShort buf)
  | line (method : looksLikeHttp buf = true) (text : String) (decoded : fromUtf8 buf = some text)
      (cut : CutLine (headerLines text))

/-- No octets begin both like a TLS record and like an HTTP request. -/
theorem tls_not_http (buf : Bytes) (record : looksLikeTls buf = true) :
    looksLikeHttp buf = false := by
  have apart : httpMethods.all fun method =>
      method.head?.isSome && method.head? != some 0x16 := by decide
  simp only [looksLikeTls, Bool.and_eq_true, beq_iff_eq] at record
  rw [Bool.eq_false_iff]
  intro request
  obtain ⟨method, member, front⟩ := List.any_eq_true.mp request
  obtain ⟨rest, rfl⟩ := List.isPrefixOf_iff_prefix.mp front
  have other := List.all_eq_true.mp apart method member
  cases method with
  | nil => simp at other
  | cons octet method =>
    have first := record.1.2
    simp at first other
    exact other first

/-- The parser finds a name exactly when the octets show it. -/
theorem sni_of_some_iff (buf : Bytes) (name : String) :
    sniOf buf = .ok (some name) ↔ ServerName buf name := by
  unfold sniOf
  split
  · next record => exact ⟨fun read => ⟨record, read⟩, fun shown => shown.read⟩
  · next other =>
    constructor
    · intro read
      cases read
    · exact fun shown => absurd shown.record other

/-- The parser returns unless the octets are a handshake cut short. -/
theorem sni_of_returns_iff (buf : Bytes) :
    Returns (sniOf buf) ↔ ¬(looksLikeTls buf = true ∧ CutShort buf) := by
  unfold sniOf
  split
  · next record => rw [parse_sni_returns_iff, record]; simp
  · next other => exact ⟨fun _ both => other both.1, fun _ => ⟨none, rfl⟩⟩

/-- The parser finds a host exactly when a header line gives it. -/
theorem http_host_some_iff (buf : Bytes) (host : String) :
    httpHostOf buf = .ok (some host) ↔ ∃ value, HostValue buf value ∧ host = nameOf value := by
  unfold httpHostOf parseHttpHostHeader
  constructor
  · intro read
    split at read
    · next method =>
      split at read
      · cases read
      · next text decoded =>
        obtain ⟨value, line, same⟩ := (host_of_lines_some_iff _ host).mp read
        exact ⟨value, ⟨method, text, decoded, line⟩, same⟩
    · cases read
  · rintro ⟨value, ⟨method, text, decoded, line⟩, same⟩
    rw [if_pos method, decoded]
    exact (host_of_lines_some_iff _ host).mpr ⟨value, line, same⟩

/-- The parser returns unless a line of the request is cut inside a character. -/
theorem http_host_returns_iff (buf : Bytes) :
    Returns (httpHostOf buf) ↔
      ¬(looksLikeHttp buf = true ∧
        ∃ text, fromUtf8 buf = some text ∧ CutLine (headerLines text)) := by
  unfold httpHostOf parseHttpHostHeader
  split
  · next method =>
    split
    · next garbled => simp [Returns, garbled, pure, Except.pure]
    · next text decoded =>
      rw [← headerLines, host_of_lines_returns_iff]
      simp [method, decoded]
  · next other => exact ⟨fun _ both => other both.1, fun _ => ⟨none, rfl⟩⟩

/-- No server name is looked for in an HTTP request. -/
theorem sni_of_request (buf : Bytes) (request : looksLikeHttp buf = true) :
    sniOf buf = .ok none := by
  have other : ¬looksLikeTls buf = true := by
    intro record
    rw [tls_not_http buf record] at request
    contradiction
  exact if_neg other

/-- Classifying octets returns exactly when the look does not stop the program. -/
theorem try_classify_returns_iff (buf : Bytes) : Returns (tryClassify buf) ↔ ¬Stops buf := by
  constructor
  · rintro ⟨outcome, classified⟩ stops
    obtain ⟨name, searched, classified⟩ := (bind_ok_iff _ _ _).mp classified
    cases stops with
    | handshake record short => exact (sni_of_returns_iff buf).mp ⟨name, searched⟩ ⟨record, short⟩
    | line method text decoded cut =>
      rw [sni_of_request buf method] at searched
      obtain rfl := Except.ok.inj searched
      obtain ⟨host, found, -⟩ := (bind_ok_iff _ _ _).mp classified
      exact (http_host_returns_iff buf).mp ⟨host, found⟩ ⟨method, text, decoded, cut⟩
  · intro goes
    refine returns_bind ((sni_of_returns_iff buf).mpr ?_) fun name _ => ?_
    · rintro ⟨record, short⟩
      exact goes (.handshake record short)
    · cases name with
      | some name => exact ⟨_, rfl⟩
      | none =>
        refine returns_bind ((http_host_returns_iff buf).mpr ?_) fun host _ => ?_
        · rintro ⟨method, text, decoded, cut⟩
          exact goes (.line method text decoded cut)
        · cases host <;> exact ⟨_, rfl⟩

/-- Classifying octets finds exactly the hosts that the look shows. -/
theorem try_classify_some_iff (buf : Bytes) (host : Option String) :
    (∃ outcome, tryClassify buf = .ok (some outcome) ∧ outcome.host = host) ↔
      ∃ name, host = some name ∧ Shown buf name := by
  constructor
  · rintro ⟨outcome, classified, rfl⟩
    obtain ⟨name, searched, classified⟩ := (bind_ok_iff _ _ _).mp classified
    cases name with
    | some name =>
      obtain rfl := Option.some.inj (Except.ok.inj classified)
      exact ⟨name, rfl, .serverName name ((sni_of_some_iff buf name).mp searched)⟩
    | none =>
      obtain ⟨host, found, classified⟩ := (bind_ok_iff _ _ _).mp classified
      cases host with
      | none => cases classified
      | some host =>
        obtain rfl := Option.some.inj (Except.ok.inj classified)
        obtain ⟨value, shown, same⟩ := (http_host_some_iff buf host).mp found
        exact ⟨nameOf value, congrArg some same, .hostValue value shown⟩
  · rintro ⟨name, rfl, shown⟩
    cases shown with
    | serverName name shown =>
      have searched := (sni_of_some_iff buf name).mpr shown
      exact ⟨⟨some name, "tls", buf⟩, (bind_ok_iff _ _ _).mpr ⟨some name, searched, rfl⟩, rfl⟩
    | hostValue value shown =>
      have found := (http_host_some_iff buf _).mpr ⟨value, shown, rfl⟩
      exact ⟨⟨some (nameOf value), "http", buf⟩,
        (bind_ok_iff _ _ _).mpr ⟨none, sni_of_request buf shown.method,
          (bind_ok_iff _ _ _).mpr ⟨some (nameOf value), found, rfl⟩⟩, rfl⟩

/-- A look neither shows a host nor stops the program. -/
structure Hidden (buf : Bytes) : Prop where
  hidden : ∀ name, ¬Shown buf name
  goes : ¬Stops buf

/-- Classifying octets finds nothing exactly when the look is hidden. -/
theorem hidden_iff (buf : Bytes) : Hidden buf ↔ tryClassify buf = .ok none := by
  constructor
  · rintro ⟨hidden, goes⟩
    obtain ⟨found, classified⟩ := (try_classify_returns_iff buf).mpr goes
    cases found with
    | none => exact classified
    | some outcome =>
      obtain ⟨name, -, shown⟩ := (try_classify_some_iff buf _).mp ⟨outcome, classified, rfl⟩
      exact absurd shown (hidden name)
  · intro classified
    refine ⟨fun name shown => ?_, (try_classify_returns_iff buf).mp ⟨none, classified⟩⟩
    obtain ⟨outcome, again, -⟩ := (try_classify_some_iff buf (some name)).mpr ⟨name, rfl, shown⟩
    cases classified.symm.trans again

/-- What a look shows is determined. -/
theorem shown_unique {buf : Bytes} {name other : String} (shown : Shown buf name)
    (again : Shown buf other) : name = other := by
  obtain ⟨outcome, classified, host⟩ :=
    (try_classify_some_iff buf (some name)).mpr ⟨name, rfl, shown⟩
  obtain ⟨second, repeated, same⟩ :=
    (try_classify_some_iff buf (some other)).mpr ⟨other, rfl, again⟩
  obtain rfl := Option.some.inj (Except.ok.inj (classified.symm.trans repeated))
  exact Option.some.inj (host.symm.trans same)

/-- Octets that begin like a request still do with more behind them. -/
theorem looks_like_http_grows {buf : Bytes} (more : Bytes) (request : looksLikeHttp buf = true) :
    looksLikeHttp (buf ++ more) = true := by
  obtain ⟨method, member, front⟩ := List.any_eq_true.mp request
  refine List.any_eq_true.mpr ⟨method, member, ?_⟩
  exact List.isPrefixOf_iff_prefix.mpr
    ((List.isPrefixOf_iff_prefix.mp front).trans (List.prefix_append buf more))

/-- With more octets behind it, a look at a request shows the same `Host` line: its value
grows, or loses the first character of a line end that was cut in two. -/
theorem host_value_grows {buf : Bytes} (more : Bytes) {value : List Char}
    (shown : HostValue buf value) (decodes : ∃ text, fromUtf8 (buf ++ more) = some text) :
    ∃ other, HostValue (buf ++ more) other ∧ (value <+: other ∨ value = other ++ ['\r']) := by
  obtain ⟨method, text, decoded, line⟩ := shown
  obtain ⟨longer, redecoded⟩ := decodes
  obtain ⟨rest, spelled⟩ := from_utf8_grows buf more text longer decoded redecoded
  have grown := split_lines_grown text.toList rest
  rw [← spelled] at grown
  have headers : ∃ other, HostLine (headerLines longer) other ∧
      (value <+: other ∨ value = other ++ ['\r']) := by
    unfold headerLines at line ⊢
    generalize splitLines text.toList = lines at grown line
    generalize splitLines longer.toList = later at grown
    cases grown with
    | longer last more rest => cases line
    | ended last rest => cases line
    | line first lines later grown => exact host_line_grows grown line
  obtain ⟨other, named, same⟩ := headers
  exact ⟨other, ⟨looks_like_http_grows more method, longer, redecoded, named⟩, same⟩

end Looks

section Runs

/-- The lengths at which a reader looks, from a number of octets on. It does not look at more
octets than the limit. -/
def looksFrom (seen : Nat) : List SniffRead → List Nat
  | [] => [seen]
  | read :: reads =>
      seen :: if sniffLimit < seen + read.val.length then []
        else looksFrom (seen + read.val.length) reads

/-- The octets of the reads of a stream. -/
def streamOf (reads : List SniffRead) : Bytes := reads.flatMap (·.val)

/-- What is seen at looks in order: the first one that shows a host decides, and none before
it stops the program. -/
inductive Sees (stream : Bytes) : List Nat → Option String → Prop where
  | nothing : Sees stream [] none
  | shown (look : Nat) (looks : List Nat) (name : String) (shown : Shown (stream.take look) name) :
      Sees stream (look :: looks) (some name)
  | unseen (look : Nat) (looks : List Nat) (host : Option String)
      (hidden : Hidden (stream.take look)) (later : Sees stream looks host) :
      Sees stream (look :: looks) host

/-- Without a look no host is seen. -/
theorem sees_nil_iff (stream : Bytes) (host : Option String) :
    Sees stream [] host ↔ host = none := by
  constructor
  · intro sees
    cases sees
    rfl
  · rintro rfl
    exact .nothing

/-- One round of a run: it ends with what the look shows, or goes on with the later looks. -/
theorem round_iff_sees (stream : Bytes) (look : Nat) (looks : List Nat) (host : Option String)
    (next : Option SniffOutcome → Checked (SniffOutcome × List Arrival))
    (ends : ∀ outcome, ∃ rest, next (some outcome) = .ok (outcome, rest))
    (goesOn : (∃ outcome rest, next none = .ok (outcome, rest) ∧ outcome.host = host) ↔
      Sees stream looks host) :
    (∃ outcome rest, (tryClassify (stream.take look) >>= next) = .ok (outcome, rest) ∧
      outcome.host = host) ↔ Sees stream (look :: looks) host := by
  constructor
  · rintro ⟨outcome, rest, run, rfl⟩
    obtain ⟨found, classified, run⟩ := (bind_ok_iff _ _ _).mp run
    cases found with
    | some found =>
      obtain ⟨left, ended⟩ := ends found
      obtain ⟨rfl, rfl⟩ := Prod.mk.inj (Except.ok.inj (ended.symm.trans run))
      obtain ⟨name, same, shown⟩ := (try_classify_some_iff _ _).mp ⟨found, classified, rfl⟩
      rw [same]
      exact .shown look looks name shown
    | none =>
      exact .unseen look looks _ ((hidden_iff _).mpr classified)
        (goesOn.mp ⟨outcome, rest, run, rfl⟩)
  · intro sees
    cases sees with
    | shown _ _ name shown =>
      obtain ⟨outcome, classified, same⟩ :=
        (try_classify_some_iff _ (some name)).mpr ⟨name, rfl, shown⟩
      obtain ⟨rest, ended⟩ := ends outcome
      exact ⟨outcome, rest, (bind_ok_iff _ _ _).mpr ⟨some outcome, classified, ended⟩, same⟩
    | unseen _ _ _ hidden later =>
      obtain ⟨outcome, rest, run, same⟩ := goesOn.mpr later
      exact ⟨outcome, rest, (bind_ok_iff _ _ _).mpr ⟨none, (hidden_iff _).mp hidden, run⟩, same⟩

/-- A run that ends without a look finds nothing. -/
theorem unlooked_iff_sees (stream buf : Bytes) (left : List Arrival) (host : Option String) :
    (∃ outcome rest, (pure (.unknown buf, left) : Checked (SniffOutcome × List Arrival)) =
        .ok (outcome, rest) ∧ outcome.host = host) ↔ Sees stream [] host := by
  rw [sees_nil_iff]
  constructor
  · rintro ⟨outcome, rest, run, rfl⟩
    obtain ⟨rfl, rfl⟩ := Prod.mk.inj (Except.ok.inj run)
    rfl
  · rintro rfl
    exact ⟨.unknown buf, left, rfl, rfl⟩

/-- What a round does after its look, when the next read brings octets. -/
def afterLook (buf : Bytes) (read : SniffRead) (reads : List SniffRead) :
    Option SniffOutcome → Checked (SniffOutcome × List Arrival)
  | some outcome => pure (outcome, .octets read :: reads.map .octets)
  | none =>
      if sniffLimit < (buf ++ read.val).length then
        pure (.unknown (buf ++ read.val), reads.map .octets)
      else inspectFrom (buf ++ read.val) (reads.map .octets)

/-- A run finds what is seen at its looks. The induction is on the reads, one for each
round. -/
theorem inspected_iff_sees (stream buf : Bytes) (reads : List SniffRead)
    (split : stream = buf ++ streamOf reads) (host : Option String) :
    (∃ outcome rest, inspectFrom buf (reads.map .octets) = .ok (outcome, rest) ∧
      outcome.host = host) ↔ Sees stream (looksFrom buf.length reads) host := by
  have front : stream.take buf.length = buf := by rw [split, List.take_left]
  induction reads generalizing buf with
  | nil =>
    have round := round_iff_sees stream buf.length [] host
      (fun found => pure (found.getD (.unknown buf), [])) (fun outcome => ⟨[], rfl⟩)
      (unlooked_iff_sees stream buf [] host)
    rw [front] at round
    exact round
  | cons read reads inductionHypothesis =>
    have grown : (buf ++ read.val).length = buf.length + read.val.length := List.length_append
    have later : stream = (buf ++ read.val) ++ streamOf reads := by
      rw [split, streamOf, List.flatMap_cons, List.append_assoc]
      rfl
    have round := round_iff_sees stream buf.length
      (if sniffLimit < buf.length + read.val.length then []
        else looksFrom (buf.length + read.val.length) reads) host
      (afterLook buf read reads) (fun outcome => ⟨_, rfl⟩) (by
        have rest := inductionHypothesis (buf ++ read.val) later
          (by rw [later, List.take_left])
        rw [grown] at rest
        rw [afterLook, grown]
        split
        · exact unlooked_iff_sees stream _ _ host
        · exact rest)
    rw [front] at round
    exact round

/-- The first look that is not hidden, at a length, shows a host. -/
structure DecidedAt (stream : Bytes) (looks : List Nat) (look : Nat) : Prop where
  first : ∃ before after, looks = before ++ look :: after ∧
    ∀ earlier ∈ before, Hidden (stream.take earlier)
  shown : ∃ name, Shown (stream.take look) name

/-- No host is seen exactly when every look is hidden. -/
theorem sees_none_iff (stream : Bytes) (looks : List Nat) :
    Sees stream looks none ↔ ∀ look ∈ looks, Hidden (stream.take look) := by
  induction looks with
  | nil => simp [sees_nil_iff]
  | cons look looks inductionHypothesis =>
    rw [List.forall_mem_cons, ← inductionHypothesis]
    constructor
    · intro sees
      cases sees with
      | unseen _ _ _ hidden later => exact ⟨hidden, later⟩
    · rintro ⟨hidden, later⟩
      exact .unseen look looks none hidden later

/-- A host is seen exactly when the first look that is not hidden shows it. -/
theorem sees_some_iff (stream : Bytes) (looks : List Nat) (name : String) :
    Sees stream looks (some name) ↔
      ∃ look, DecidedAt stream looks look ∧ Shown (stream.take look) name := by
  constructor
  · intro sees
    generalize found : some name = host at sees
    induction sees with
    | nothing => contradiction
    | shown look looks other shown =>
      obtain rfl := Option.some.inj found
      exact ⟨look, ⟨⟨[], looks, rfl, by simp⟩, name, shown⟩, shown⟩
    | unseen look looks host hidden later inductionHypothesis =>
      obtain ⟨place, ⟨⟨before, after, rfl, earlier⟩, something⟩, shown⟩ := inductionHypothesis found
      refine ⟨place, ⟨⟨look :: before, after, rfl, ?_⟩, something⟩, shown⟩
      exact List.forall_mem_cons.mpr ⟨hidden, earlier⟩
  · rintro ⟨look, ⟨⟨before, after, rfl, earlier⟩, -⟩, shown⟩
    induction before with
    | nil => exact .shown look after name shown
    | cons place before inductionHypothesis =>
      obtain ⟨hidden, later⟩ := List.forall_mem_cons.mp earlier
      exact .unseen place _ _ hidden (inductionHypothesis later)

end Runs

section Cuts

/-- The looks of a run. -/
abbrev looks (reads : List SniffRead) : List Nat := looksFrom 0 reads

/-- Two runs return the same host, and every connection is routed as in the other run. -/
def SameHost (reads others : List SniffRead) : Prop :=
  ∃ outcome rest other left, inspectStream (reads.map .octets) = .ok (outcome, rest) ∧
    inspectStream (others.map .octets) = .ok (other, left) ∧ outcome.host = other.host ∧
    ∀ (Regex : Type) (isMatch : Regex → String → Bool) (shared : PipelineShared Regex)
      (target : ProxyTarget),
      actionFor isMatch shared target outcome = actionFor isMatch shared target other

/-- Where two looks show values of a `Host` line, the values have one name. -/
def Agree (stream : Bytes) (look other : Nat) : Prop :=
  ∀ value another, HostValue (stream.take look) value → HostValue (stream.take other) another →
    nameOf value = nameOf another

/-- A server name that was seen is seen in every longer buffer. -/
theorem server_name_grows {buf : Bytes} (more : Bytes) {name : String}
    (shown : ServerName buf name) : ServerName (buf ++ more) name := by
  refine ⟨?_, parse_sni_grows more name shown.read⟩
  have record := shown.record
  simp only [looksLikeTls, Bool.and_eq_true, decide_eq_true_eq, beq_iff_eq] at record ⊢
  obtain ⟨⟨long, first⟩, second⟩ := record
  rw [List.getElem?_append_left (by omega), List.getElem?_append_left (by omega)]
  exact ⟨⟨by rw [List.length_append]; omega, first⟩, second⟩

/-- What two looks at one stream show is the same when the values of a `Host` line agree. A
server name does not change. -/
theorem shown_agrees (buf more : Bytes) (name other : String) (shown : Shown buf name)
    (later : Shown (buf ++ more) other)
    (agree : ∀ value another, HostValue buf value → HostValue (buf ++ more) another →
      nameOf value = nameOf another) : name = other := by
  cases shown with
  | serverName _ shown => exact shown_unique (.serverName name (server_name_grows more shown)) later
  | hostValue value shown =>
    cases later with
    | serverName _ later =>
      have request := looks_like_http_grows more shown.method
      rw [tls_not_http _ later.record] at request
      contradiction
    | hostValue another later => exact agree value another shown later

/-- The same at any two lengths of a stream. -/
theorem shown_at_agrees (stream : Bytes) (look other : Nat) (name found : String)
    (shown : Shown (stream.take look) name) (again : Shown (stream.take other) found)
    (agree : Agree stream look other) : name = found := by
  have split {short long : Nat} (order : short ≤ long) :
      stream.take long = stream.take short ++ (stream.take long).drop short := by
    have whole := List.take_append_drop short (stream.take long)
    rw [List.take_take, Nat.min_eq_left order] at whole
    exact whole.symm
  rcases Nat.le_total look other with order | order
  · rw [split order] at again
    refine shown_agrees _ _ name found shown again fun value another first second => ?_
    rw [← split order] at second
    exact agree value another first second
  · rw [split order] at shown
    refine (shown_agrees _ _ found name again shown fun value another first second => ?_).symm
    rw [← split order] at second
    exact (agree another value second first).symm

/-- Two runs return the same host exactly when the same is seen at their looks. -/
theorem same_host_iff_sees (reads others : List SniffRead)
    (same : streamOf reads = streamOf others) :
    SameHost reads others ↔ ∃ host, Sees (streamOf reads) (looks reads) host ∧
      Sees (streamOf reads) (looks others) host := by
  have run := inspected_iff_sees (streamOf reads) [] reads rfl
  have again := inspected_iff_sees (streamOf reads) [] others same
  constructor
  · rintro ⟨outcome, rest, other, left, ran, reran, equal, -⟩
    exact ⟨outcome.host, (run _).mp ⟨outcome, rest, ran, rfl⟩,
      (again _).mp ⟨other, left, reran, equal.symm⟩⟩
  · rintro ⟨host, sees, resees⟩
    obtain ⟨outcome, rest, ran, found⟩ := (run host).mpr sees
    obtain ⟨other, left, reran, refound⟩ := (again host).mpr resees
    have equal := found.trans refound.symm
    refine ⟨outcome, rest, other, left, ran, reran, equal, ?_⟩
    intro Regex isMatch shared target
    rw [actionFor, actionFor, equal]

/-- Exactly when two cuts of a stream give the same host: no look of either run shows a host
or stops the program; or the first look of each run that is not hidden shows a host, and
where these are values of a `Host` line as far as they have arrived, they have the same
name. -/
theorem same_host_iff (reads others : List SniffRead) (same : streamOf reads = streamOf others) :
    SameHost reads others ↔
      (∀ look ∈ looks reads ++ looks others, Hidden ((streamOf reads).take look)) ∨
        ∃ look other, DecidedAt (streamOf reads) (looks reads) look ∧
          DecidedAt (streamOf reads) (looks others) other ∧ Agree (streamOf reads) look other := by
  rw [same_host_iff_sees reads others same]
  constructor
  · rintro ⟨host, sees, resees⟩
    cases host with
    | none =>
      left
      intro look member
      rcases List.mem_append.mp member with one | two
      · exact (sees_none_iff _ _).mp sees look one
      · exact (sees_none_iff _ _).mp resees look two
    | some name =>
      obtain ⟨look, decided, shown⟩ := (sees_some_iff _ _ name).mp sees
      obtain ⟨other, redecided, reshown⟩ := (sees_some_iff _ _ name).mp resees
      refine .inr ⟨look, other, decided, redecided, ?_⟩
      intro value another first second
      exact (shown_unique (.hostValue value first) shown).trans
        (shown_unique reshown (.hostValue another second))
  · rintro (hidden | ⟨look, other, decided, redecided, agree⟩)
    · obtain ⟨one, two⟩ := List.forall_mem_append.mp hidden
      exact ⟨none, (sees_none_iff _ _).mpr one, (sees_none_iff _ _).mpr two⟩
    · obtain ⟨name, shown⟩ := decided.shown
      obtain ⟨found, reshown⟩ := redecided.shown
      obtain rfl := shown_at_agrees _ look other name found shown reshown agree
      exact ⟨some name, (sees_some_iff _ _ name).mpr ⟨look, decided, shown⟩,
        (sees_some_iff _ _ name).mpr ⟨other, redecided, reshown⟩⟩

/-- A request in one read, and cut inside its host. -/
def wholeRequest : List SniffRead :=
  [⟨asBytes "GET / HTTP/1.1\r\nHost: abc\r\n\r\n", by decide⟩]

def cutRequest : List SniffRead :=
  [⟨asBytes "GET / HTTP/1.1\r\nHost: ab", by decide⟩, ⟨asBytes "c\r\n\r\n", by decide⟩]

/-- The request cut before the line that names the host. -/
def lineRequest : List SniffRead :=
  [⟨asBytes "GET / HTTP/1.1\r\n", by decide⟩, ⟨asBytes "Host: abc\r\n\r\n", by decide⟩]

/-- A cut between lines does not matter here: both runs see the host at the last look. -/
theorem same_host_example : SameHost wholeRequest lineRequest := by
  have shown : Shown ((streamOf wholeRequest).take 29) "abc" := by
    have classified : tryClassify ((streamOf wholeRequest).take 29) =
        .ok (some ⟨some "abc", "http", (streamOf wholeRequest).take 29⟩) := by decide +kernel
    obtain ⟨name, same, shown⟩ := (try_classify_some_iff _ (some "abc")).mp ⟨_, classified, rfl⟩
    rwa [Option.some.inj same]
  have start : Hidden ((streamOf wholeRequest).take 0) := (hidden_iff _).mpr (by decide +kernel)
  have line : Hidden ((streamOf wholeRequest).take 16) := (hidden_iff _).mpr (by decide +kernel)
  refine (same_host_iff wholeRequest lineRequest (by decide)).mpr (.inr ⟨29, 29,
    ⟨⟨[0], [], by decide, by simpa using start⟩, "abc", shown⟩,
    ⟨⟨[0, 16], [], by decide, by simpa using ⟨start, line⟩⟩, "abc", shown⟩, ?_⟩)
  intro value another first second
  exact shown_unique (.hostValue value first) (.hostValue another second)

/-- The cut makes the host a shorter one. -/
theorem cut_host_differs :
    streamOf wholeRequest = streamOf cutRequest ∧ ¬SameHost wholeRequest cutRequest := by
  refine ⟨by decide, ?_⟩
  rintro ⟨outcome, rest, other, left, ran, reran, equal, -⟩
  have whole : (inspectStream (wholeRequest.map .octets)).map (·.1.host) = .ok (some "abc") := by
    decide +kernel
  have cut : (inspectStream (cutRequest.map .octets)).map (·.1.host) = .ok (some "ab") := by
    decide +kernel
  rw [ran] at whole
  rw [reran] at cut
  have different : some "abc" = some "ab" :=
    ((Except.ok.inj whole).symm.trans equal).trans (Except.ok.inj cut)
  exact absurd different (by decide)

end Cuts

end OmniProxy.SniffedHosts
