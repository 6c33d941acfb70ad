import OmniProxy.Sniffing

/-!
# Server names in a growing buffer

A server name that was found in a buffer is found in every longer one: each octet that was
read is still where it was, and the bounds of the loops only grow. The search stops the
program only in a buffer of 43 or 44 octets that claims to hold a whole record.
-/

namespace OmniProxy.ServerNames

open ByteStrings CheckedLoops Sniffing

section Growing

variable {buf : Bytes} (more : Bytes)

/-- An octet that was read stays where it was. -/
theorem octet_at_grows {index : Nat} {octet : UInt8} (read : octetAt buf index = .ok octet) :
    octetAt (buf ++ more) index = .ok octet := by
  unfold octetAt at read ⊢
  cases there : buf[index]? with
  | none => simp [there] at read
  | some found =>
    have inside := (List.getElem?_eq_some_iff.mp there).1
    rw [there] at read
    rw [List.getElem?_append_left inside, there]
    exact read

/-- What could be read stays the same in a longer buffer. -/
theorem be16_at_grows {index value : Nat} (read : be16At buf index = .ok value) :
    be16At (buf ++ more) index = .ok value := by
  obtain ⟨high, first, read⟩ := (bind_ok_iff _ _ _).mp read
  obtain ⟨low, second, read⟩ := (bind_ok_iff _ _ _).mp read
  exact (bind_ok_iff _ _ _).mpr ⟨high, octet_at_grows more first,
    (bind_ok_iff _ _ _).mpr ⟨low, octet_at_grows more second, read⟩⟩

/-- A slice that could be taken stays the same in a longer buffer. -/
theorem slice_grows {first last : Nat} {octets : Bytes} (read : slice buf first last = .ok octets) :
    slice (buf ++ more) first last = .ok octets := by
  unfold slice at read ⊢
  split at read
  · next inside =>
    rw [if_pos ⟨inside.1, by rw [List.length_append]; omega⟩,
      List.take_append_of_le_length inside.2]
    exact read
  · contradiction

/-- Whatever the search among names found, it finds in a longer buffer. -/
theorem read_names_grows (listEnd r : Nat) (found : Option String)
    (read : readNames buf listEnd r = .ok found) :
    readNames (buf ++ more) listEnd r = .ok found := by
  induction r using readNames.induct listEnd with
  | case1 r inside inductionHypothesis =>
    rw [readNames, dif_pos inside] at read ⊢
    obtain ⟨nameType, kind, read⟩ := (bind_ok_iff _ _ _).mp read
    obtain ⟨nlen, length, read⟩ := (bind_ok_iff _ _ _).mp read
    refine (bind_ok_iff _ _ _).mpr ⟨nameType, octet_at_grows more kind,
      (bind_ok_iff _ _ _).mpr ⟨nlen, be16_at_grows more length, ?_⟩⟩
    split at read
    · next named =>
      rw [if_pos named]
      obtain ⟨name, cut, read⟩ := (bind_ok_iff _ _ _).mp read
      exact (bind_ok_iff _ _ _).mpr ⟨name, slice_grows more cut, read⟩
    · next other =>
      rw [if_neg other]
      exact inductionHypothesis nlen read
  | case2 r outside =>
    rw [readNames, dif_neg outside] at read ⊢
    exact read

/-- A name found among extensions is found in a longer buffer up to a later end. -/
theorem read_extensions_grows (extEnd later q : Nat) (further : extEnd ≤ later) (host : String)
    (read : readExtensions buf extEnd q = .ok (some host)) :
    readExtensions (buf ++ more) later q = .ok (some host) := by
  induction q using readExtensions.induct extEnd with
  | case1 q inside inductionHypothesis =>
    rw [readExtensions, dif_pos inside] at read
    rw [readExtensions, dif_pos (Nat.le_trans inside further)]
    obtain ⟨etype, kind, read⟩ := (bind_ok_iff _ _ _).mp read
    obtain ⟨elen, length, read⟩ := (bind_ok_iff _ _ _).mp read
    refine (bind_ok_iff _ _ _).mpr ⟨etype, be16_at_grows more kind,
      (bind_ok_iff _ _ _).mpr ⟨elen, be16_at_grows more length, ?_⟩⟩
    split at read
    · next names =>
      rw [if_pos names]
      split at read
      · cases read
      · next whole =>
        rw [if_neg (by rw [List.length_append]; omega)]
        obtain ⟨listLen, list, read⟩ := (bind_ok_iff _ _ _).mp read
        exact (bind_ok_iff _ _ _).mpr ⟨listLen, be16_at_grows more list,
          read_names_grows more _ _ _ read⟩
    · next other =>
      rw [if_neg other]
      exact inductionHypothesis elen read
  | case2 q outside =>
    rw [readExtensions, dif_neg outside] at read
    cases read

/-- A search that may give up finds something exactly when it goes on and finds it. -/
theorem guarded_some_iff {α : Type} (givesUp : Prop) [Decidable givesUp]
    (next : Checked (Option α)) (found : α) :
    (if givesUp then pure none else next) = .ok (some found) ↔
      ¬givesUp ∧ next = .ok (some found) := by
  by_cases refused : givesUp <;> simp [refused, pure, Except.pure]

/-- A server name that was found is found in every longer buffer. -/
theorem parse_sni_grows (host : String) (read : parseSni buf = .ok (some host)) :
    parseSni (buf ++ more) = .ok (some host) := by
  simp only [parseSni, guarded_some_iff, bind_ok_iff] at read ⊢
  obtain ⟨long, recLen, record, whole, hsType, kind, hello, sidLen, session, suites, csLen,
    ciphers, methods, cmLen, compression, extensions, extLen, length, read⟩ := read
  have longer : buf.length ≤ (buf ++ more).length := by simp
  refine ⟨by omega, recLen, be16_at_grows more record, by omega, hsType,
    octet_at_grows more kind, hello, sidLen, be16_at_grows more session, by omega, csLen,
    be16_at_grows more ciphers, by omega, cmLen, octet_at_grows more compression, by omega,
    extLen, be16_at_grows more length, ?_⟩
  exact read_extensions_grows more _ _ _ (by omega) host read

end Growing

section Bounds

variable {buf : Bytes}

/-- A computation returns. -/
def Returns {α : Type} (computation : Checked α) : Prop := ∃ value, computation = .ok value

/-- Two steps in sequence return when the first does and the second does on its value. -/
theorem returns_bind {α β : Type} {first : Checked α} {next : α → Checked β}
    (returns : Returns first) (after : ∀ value, first = .ok value → Returns (next value)) :
    Returns (first >>= next) := by
  obtain ⟨value, done⟩ := returns
  obtain ⟨result, ended⟩ := after value done
  exact ⟨result, (bind_ok_iff _ _ _).mpr ⟨value, done, ended⟩⟩

/-- A step that may give up returns when it returns otherwise. -/
theorem returns_unless {α : Type} {givesUp : Prop} [Decidable givesUp]
    {next : Checked (Option α)} (after : ¬givesUp → Returns next) :
    Returns (if givesUp then pure none else next) := by
  by_cases refused : givesUp
  · exact ⟨none, if_pos refused⟩
  · rw [if_neg refused]
    exact after refused

/-- Two octets inside the buffer are read. -/
theorem be16_at_inside {index : Nat} (inside : index + 1 < buf.length) :
    be16At buf index = .ok (ofBigEndian16 buf[index] buf[index + 1]).toNat := by
  rw [be16At, octet_at_inside (Nat.lt_of_succ_lt inside), octet_at_inside inside]
  rfl

/-- The search among names stays in the buffer when its end does. -/
theorem read_names_returns (listEnd r : Nat) (bounded : listEnd ≤ buf.length) :
    Returns (readNames buf listEnd r) := by
  induction r using readNames.induct listEnd with
  | case1 r inside inductionHypothesis =>
    rw [readNames, dif_pos inside]
    refine returns_bind ⟨_, octet_at_inside (by omega)⟩ fun nameType _ =>
      returns_bind ⟨_, be16_at_inside (by omega)⟩ fun nlen _ => ?_
    split
    · next named =>
      refine returns_bind ⟨_, slice_inside (by omega) (by omega)⟩ fun name _ => ⟨_, rfl⟩
    · exact inductionHypothesis nlen
  | case2 r outside => exact ⟨none, by rw [readNames, dif_neg outside]; rfl⟩

/-- The search among extensions stays in the buffer when its end does. -/
theorem read_extensions_returns (extEnd q : Nat) (bounded : extEnd ≤ buf.length) :
    Returns (readExtensions buf extEnd q) := by
  induction q using readExtensions.induct extEnd with
  | case1 q inside inductionHypothesis =>
    rw [readExtensions, dif_pos inside]
    refine returns_bind ⟨_, be16_at_inside (by omega)⟩ fun etype _ =>
      returns_bind ⟨_, be16_at_inside (by omega)⟩ fun elen _ => ?_
    split
    · apply returns_unless
      intro whole
      exact returns_bind ⟨_, be16_at_inside (by omega)⟩ fun listLen _ =>
        read_names_returns _ _ (by omega)
    · exact inductionHypothesis elen
  | case2 q outside => exact ⟨none, by rw [readExtensions, dif_neg outside]; rfl⟩

/-- A handshake that claims to be whole ends inside the two octets of the length of its
session id. -/
structure CutShort (buf : Bytes) : Prop where
  short : buf.length = 43 ∨ buf.length = 44
  whole : 5 + (ofBigEndian16 (buf.getD 3 0) (buf.getD 4 0)).toNat ≤ buf.length
  hello : buf.getD 5 0 = 1

/-- The length of the session id cannot be read from a buffer that ends inside it. -/
theorem session_length_outside (short : buf.length = 43 ∨ buf.length = 44) :
    be16At buf 43 = .error .outOfRange := by
  rcases short with first | second
  · have missing : octetAt buf 43 = .error .outOfRange := by
      rw [octetAt, List.getElem?_eq_none (by omega)]
    rw [be16At, missing]
    rfl
  · have missing : octetAt buf 44 = .error .outOfRange := by
      rw [octetAt, List.getElem?_eq_none (by omega)]
    rw [be16At, octet_at_inside (by omega), missing]
    rfl

/-- A handshake that is cut short stops the program. -/
theorem cut_short_stops (cut : CutShort buf) : ¬Returns (parseSni buf) := by
  obtain ⟨short, whole, hello⟩ := cut
  rintro ⟨found, read⟩
  rw [List.getD_eq_getElem _ _ (by omega), List.getD_eq_getElem _ _ (by omega)] at whole
  rw [List.getD_eq_getElem _ _ (by omega)] at hello
  have long : ¬buf.length < 43 := by omega
  rw [parseSni, if_neg long, be16_at_inside (by omega)] at read
  simp only [bind, Except.bind] at read
  rw [if_neg (Nat.not_lt.mpr whole), octet_at_inside (by omega)] at read
  simp only [hello, ne_eq, not_true_eq_false, if_false, session_length_outside short] at read
  contradiction

/-- The search for a server name stops the program exactly in a handshake that is cut
short. -/
theorem parse_sni_returns_iff : Returns (parseSni buf) ↔ ¬CutShort buf := by
  constructor
  · exact fun returns cut => cut_short_stops cut returns
  · intro apart
    unfold parseSni
    apply returns_unless
    intro long
    refine returns_bind ⟨_, be16_at_inside (by omega)⟩ fun recLen record => returns_unless
      fun whole => returns_bind ⟨_, octet_at_inside (by omega)⟩ fun hsType kind =>
        returns_unless fun hello => ?_
    have enough : 45 ≤ buf.length := by
      by_contra short
      refine apart ⟨by omega, ?_, ?_⟩
      · rw [be16_at_inside (by omega)] at record
        rw [List.getD_eq_getElem _ _ (by omega), List.getD_eq_getElem _ _ (by omega),
          Except.ok.inj record]
        omega
      · rw [octet_at_inside (by omega)] at kind
        rw [List.getD_eq_getElem _ _ (by omega), Except.ok.inj kind]
        exact not_not.mp hello
    exact returns_bind ⟨_, be16_at_inside (by omega)⟩ fun sidLen _ => returns_unless
      fun suites => returns_bind ⟨_, be16_at_inside (by omega)⟩ fun csLen _ => returns_unless
        fun methods => returns_bind ⟨_, octet_at_inside (by omega)⟩ fun cmLen _ =>
          returns_unless fun extensions => returns_bind ⟨_, be16_at_inside (by omega)⟩
            fun extLen _ => read_extensions_returns _ _ (Nat.min_le_right _ _)

end Bounds

section Rounds

/-- A loop that goes from each position to the next ends after so many further rounds. -/
inductive EndsAfter (next : Nat → Option Nat) : Nat → Nat → Prop where
  | stops {position : Nat} (last : next position = none) : EndsAfter next position 0
  | goesOn {position later rounds : Nat} (step : next position = some later)
      (rest : EndsAfter next later rounds) : EndsAfter next position (rounds + 1)

/-- A loop that advances by a stride or more and not past a limit ends, and the limit bounds
its rounds. -/
theorem ends_after (next : Nat → Option Nat) (stride limit : Nat) (positive : 0 < stride)
    (advances : ∀ position later, next position = some later →
      position + stride ≤ limit ∧ position + stride ≤ later) (position : Nat) :
    ∃ rounds, EndsAfter next position rounds ∧ rounds * stride ≤ limit - position := by
  induction distance : limit - position using Nat.strongRecOn generalizing position with
  | ind distance inductionHypothesis =>
    cases step : next position with
    | none => exact ⟨0, .stops step, by omega⟩
    | some later =>
      obtain ⟨inside, further⟩ := advances position later step
      obtain ⟨rounds, ends, few⟩ := inductionHypothesis (limit - later) (by omega) later rfl
      refine ⟨rounds + 1, .goesOn step ends, ?_⟩
      rw [Nat.succ_mul]
      omega

variable (buf : Bytes)

/-- Where the search among names goes on after a name, if it does. -/
def nextName (listEnd r : Nat) : Option Nat :=
  if r + 3 ≤ listEnd then
    match octetAt buf r, be16At buf (r + 1) with
    | .ok nameType, .ok nlen =>
        if nameType = 0 ∧ r + 3 + nlen ≤ listEnd then none else some (r + 3 + nlen)
    | _, _ => none
  else none

/-- Where the search among extensions goes on after an extension, if it does. -/
def nextExtension (extEnd q : Nat) : Option Nat :=
  if q + 4 ≤ extEnd then
    match be16At buf q, be16At buf (q + 2) with
    | .ok etype, .ok elen => if etype = 0 then none else some (q + 4 + elen)
    | _, _ => none
  else none

/-- The search among names is the one from the next position, one name further on. -/
theorem next_name_step (listEnd r later : Nat) (step : nextName buf listEnd r = some later) :
    readNames buf listEnd r = readNames buf listEnd later ∧ r + 3 ≤ listEnd ∧ r + 3 ≤ later := by
  unfold nextName at step
  split at step
  · next inside =>
    split at step
    · next nameType nlen kind length =>
      split at step
      · simp at step
      · next other =>
        obtain rfl := Option.some.inj step
        refine ⟨?_, inside, by omega⟩
        rw [readNames, dif_pos inside, kind, length]
        exact if_neg other
    · simp at step
  · simp at step

/-- The search among extensions is the one from the next position, one extension further
on. -/
theorem next_extension_step (extEnd q later : Nat)
    (step : nextExtension buf extEnd q = some later) :
    readExtensions buf extEnd q = readExtensions buf extEnd later ∧ q + 4 ≤ extEnd ∧
      q + 4 ≤ later := by
  unfold nextExtension at step
  split at step
  · next inside =>
    split at step
    · next etype elen kind length =>
      split at step
      · simp at step
      · next other =>
        obtain rfl := Option.some.inj step
        refine ⟨?_, inside, by omega⟩
        rw [readExtensions, dif_pos inside, kind, length]
        exact if_neg other
    · simp at step
  · simp at step

/-- The loop over the names ends, as every round takes at least three octets. -/
theorem names_end (listEnd r : Nat) :
    ∃ rounds, EndsAfter (nextName buf listEnd) r rounds ∧ rounds * 3 ≤ listEnd - r :=
  ends_after _ 3 listEnd (by decide)
    (fun position later step => (next_name_step buf listEnd position later step).2) r

/-- The loop over the extensions ends, as every round takes at least four octets. -/
theorem extensions_end (extEnd q : Nat) :
    ∃ rounds, EndsAfter (nextExtension buf extEnd) q rounds ∧ rounds * 4 ≤ extEnd - q :=
  ends_after _ 4 extEnd (by decide)
    (fun position later step => (next_extension_step buf extEnd position later step).2) q

/-- The parser returns, which it does only without an access out of range, and both of its
loops end wherever they start. -/
structure SafeSearch : Prop where
  returns : Returns (parseSni buf)
  extensionsEnd : ∀ extEnd q, ∃ rounds, EndsAfter (nextExtension buf extEnd) q rounds
  namesEnd : ∀ listEnd r, ∃ rounds, EndsAfter (nextName buf listEnd) r rounds

/-- The parser is safe on all buffers but those that are cut short. -/
theorem safe_search_iff : SafeSearch buf ↔ ¬CutShort buf := by
  constructor
  · exact fun safe cut => cut_short_stops cut safe.returns
  · intro apart
    refine ⟨parse_sni_returns_iff.mpr apart, fun extEnd q => ?_, fun listEnd r => ?_⟩
    · obtain ⟨rounds, ends, -⟩ := extensions_end buf extEnd q
      exact ⟨rounds, ends⟩
    · obtain ⟨rounds, ends, -⟩ := names_end buf listEnd r
      exact ⟨rounds, ends⟩

/-- A record of 43 octets that ends with the random octets of its hello. -/
def headOfHello : Bytes := [0x16, 3, 1, 0, 38, 1, 0, 0, 34, 3, 3] ++ List.replicate 32 0

/-- The length of its session id is read from behind its end. -/
theorem head_of_hello_unsafe : ¬SafeSearch headOfHello := by
  have cut : CutShort headOfHello := ⟨by decide, by decide, by decide⟩
  exact fun safe => cut_short_stops cut safe.returns

end Rounds

end OmniProxy.ServerNames
