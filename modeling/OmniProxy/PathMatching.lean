import Mathlib.Data.List.DropRight
import OmniProxy.UpgradeHandshakes

/-!
# Which paths the transports take

Three transports compare the path of a request with the configured one. The two that upgrade
a connection compare the target as it is written, without its query and its last slashes, and
take the configured path and what lies below it. The one that serves streams compares the path
the library finds in front of the query; it also takes every path that begins with the
configured one as it is written.

All three are compared with one meaning. They agree on it exactly when paths of slashes alone
are alike, the request does not go on inside a name, and what lies below the configured path
begins with it as it is written.
-/

namespace OmniProxy.PathMatching

open ByteStrings UpgradeHandshakes

section Decisions

/-- What a request asks for: a path and, behind a question mark, a query. A target has no
fragment, so no number sign stands in its path. -/
structure RequestTarget where
  path : String
  query : Option String
  plain : '?' ∉ path.toList
  unfragmented : '#' ∉ path.toList

/-- The target as it is written in a request line. -/
def RequestTarget.written (target : RequestTarget) : String :=
  match target.query with
  | none => target.path
  | some query => target.path ++ "?" ++ query

/-- The path of the target as the library of the streams gives it, which is never empty. The
library would cut a fragment off. -/
def RequestTarget.uriPath (target : RequestTarget) : String :=
  let path := String.ofList (target.path.toList.takeWhile (· ≠ '#'))
  if path = "" then "/" else path

/-- The test inside the handshake of the bare stream. -/
def HttpUp.refusesPath (actual want : String) : Prop :=
  normalize actual ≠ normalize want ∧
    ¬(trimEndSlashes (normalize want) ++ "/").toList <+: (normalize actual).toList

/-- The test in front of the streams. -/
def H2.refusesPath (path want : String) : Prop :=
  ¬want.toList <+: path.toList ∧ normalize path ≠ normalize want

instance (actual want : String) : Decidable (HttpUp.refusesPath actual want) :=
  inferInstanceAs (Decidable (_ ∧ _))

instance (path want : String) : Decidable (H2.refusesPath path want) :=
  inferInstanceAs (Decidable (_ ∧ _))

/-- The status of the response to a request for a stream. -/
def H2.serveStatus (expectPathPrefix : Option String) (path : String) : Nat :=
  if ∃ want ∈ expectPathPrefix, H2.refusesPath path want then 404 else 200

/-- A request is served exactly when its path is not refused. -/
theorem serve_status_iff (path want : String) :
    H2.serveStatus (some want) path = 200 ↔ ¬H2.refusesPath path want := by
  simp [H2.serveStatus]

/-- The two upgrades have the same test. -/
theorem http_up_takes_iff (actual want : String) :
    ¬HttpUp.refusesPath actual want ↔ pathMatches actual want := by
  rw [HttpUp.refusesPath, pathMatches, not_and_or, not_not, not_not]

/-- The path test of the first listener decides whether it goes on. -/
theorem ws_request_key (httparse : Httparse) (want : String) (head : Bytes)
    (request : ParsedRequest) (parsed : httparse head = .ok request)
    (complete : request.complete) :
    Ws.requestKey httparse ⟨some want⟩ head =
      if pathMatches (request.path.getD "/") want then Ws.requestKey httparse ⟨none⟩ head
      else .error (Ws.ioerr "ws: path mismatch") := by
  unfold Ws.requestKey
  rw [parsed]
  by_cases takes : pathMatches (request.path.getD "/") want
  · simp [Except.mapError, bind, Except.bind, complete, takes]
  · simp [Except.mapError, bind, Except.bind, complete, takes]
    rfl

/-- The path test of the second listener decides whether it accepts. -/
theorem http_up_admits (httparse : Httparse) (want : String) (buf : Bytes)
    (request : ParsedRequest) (parsed : httparse buf = .ok request) (path : String)
    (given : request.path = some path) (some_path : path ≠ "") :
    HttpUp.admits httparse ⟨some want⟩ buf =
      if HttpUp.refusesPath path want then .error (HttpUp.ioerr "httpup: path mismatch")
      else .ok () := by
  unfold HttpUp.admits
  rw [parsed]
  by_cases takes : pathMatches path want
  · have kept := (http_up_takes_iff path want).mpr takes
    simp [Except.mapError, bind, Except.bind, given, some_path, takes, kept]
    rfl
  · have refused : HttpUp.refusesPath path want := by
      by_contra kept
      exact takes ((http_up_takes_iff path want).mp kept)
    simp [Except.mapError, bind, Except.bind, given, some_path, takes, refused]
    rfl

end Decisions

section Texts

/-- A text in front of its query. -/
def queryless (text : String) : List Char := text.toList.takeWhile (· ≠ '?')

/-- A text without its query and the slashes in front of it. -/
def bare (text : String) : List Char := (queryless text).rdropWhile (· = '/')

/-- Nothing is in front of the query, or one slash. -/
def Rooted (text : String) : Prop := queryless text = [] ∨ queryless text = ['/']

/-- The meaning of a match: without queries and last slashes the one is the other, or lies below
it behind a slash. -/
def AtOrBelow (actual want : String) : Prop :=
  bare actual = bare want ∨ bare want ++ ['/'] <+: bare actual

/-- Trimming drops the slashes at the end, and nothing else. -/
theorem trim_end_slashes_list (text : String) :
    (trimEndSlashes text).toList = text.toList.rdropWhile (· = '/') := by
  rw [trimEndSlashes, String.toList_ofList]
  rfl

/-- What is left does not end in a slash. -/
theorem bare_trimmed (text : String) : (bare text).rdropWhile (· = '/') = bare text :=
  List.rdropWhile_idempotent _ _

/-- A rooted text has nothing left without its query and slashes. -/
theorem rooted_bare {text : String} (rooted : Rooted text) : bare text = [] := by
  rw [bare]
  rcases rooted with nothing | slash
  · rw [nothing]
    rfl
  · rw [slash]
    rfl

/-- A text is normalized to one slash or to what trimming leaves in front of the query. -/
theorem normalize_eq (text : String) :
    normalize text =
      if String.ofList (queryless text) = "" ∨ String.ofList (queryless text) = "/" then "/"
      else trimEndSlashes (String.ofList (queryless text)) := rfl

/-- The two comparisons of the source together say that the text is rooted. -/
theorem rooted_iff (text : String) :
    (String.ofList (queryless text) = "" ∨ String.ofList (queryless text) = "/") ↔
      Rooted text := by
  simp only [Rooted, ← String.toList_inj, String.toList_ofList]
  rfl

/-- A rooted text is normalized to one slash. -/
theorem normalize_rooted {text : String} (rooted : Rooted text) :
    (normalize text).toList = ['/'] := by
  rw [normalize_eq, if_pos ((rooted_iff text).mpr rooted)]
  rfl

/-- A text that is not rooted is normalized to its bare form. -/
theorem normalize_deep {text : String} (deep : ¬Rooted text) :
    (normalize text).toList = bare text := by
  rw [normalize_eq, if_neg (fun root => deep ((rooted_iff text).mp root)),
    trim_end_slashes_list, String.toList_ofList, bare]

/-- A bare text is not a slash. -/
theorem bare_ne_slash (text : String) : bare text ≠ ['/'] := by
  intro slash
  have trimmed := bare_trimmed text
  rw [slash] at trimmed
  exact absurd trimmed (by decide)

/-- Two texts are normalized alike when they are bare alike, and neither is one slash at the
root where the other is several. -/
theorem normalize_eq_iff (actual want : String) :
    normalize actual = normalize want ↔
      bare actual = bare want ∧ (bare actual = [] → (Rooted actual ↔ Rooted want)) := by
  rw [← String.toList_inj]
  by_cases here : Rooted actual <;> by_cases there : Rooted want
  · rw [normalize_rooted here, normalize_rooted there, rooted_bare here, rooted_bare there]
    simp [here, there]
  · rw [normalize_rooted here, normalize_deep there, rooted_bare here]
    simp [here, there, (bare_ne_slash want).symm]
  · rw [normalize_deep here, normalize_rooted there, rooted_bare there]
    simp [here, there, bare_ne_slash actual]
  · rw [normalize_deep here, normalize_deep there]
    simp [here, there]

/-- What is put in front of a slash to look for paths below. -/
theorem trim_normalize (want : String) :
    (trimEndSlashes (normalize want) ++ "/").toList = bare want ++ ['/'] := by
  have front : (trimEndSlashes (normalize want)).toList = bare want := by
    rw [trim_end_slashes_list]
    by_cases rooted : Rooted want
    · rw [normalize_rooted rooted, rooted_bare rooted]
      rfl
    · rw [normalize_deep rooted, bare_trimmed]
  rw [String.toList_append, front]
  rfl

/-- The tests of the upgrades have the meaning, but for a request of several slashes where the
configured path is the root. -/
theorem path_matches_iff (actual want : String) :
    pathMatches actual want ↔
      AtOrBelow actual want ∧ (bare actual = [] → Rooted want → Rooted actual) := by
  rw [pathMatches, trim_normalize, normalize_eq_iff]
  by_cases here : Rooted actual
  · have nothing := rooted_bare here
    rw [normalize_rooted here, AtOrBelow, nothing]
    by_cases empty : bare want = []
    · simp [empty, here]
    · have other : ¬[] = bare want := fun same => empty same.symm
      simp [empty, here, other, List.prefix_cons_iff]
  · rw [normalize_deep here, AtOrBelow]
    by_cases there : Rooted want
    · simp only [here, there, rooted_bare there, iff_true, imp_false, not_true_eq_false,
        List.nil_append]
      constructor
      · rintro (⟨nothing, deep⟩ | below)
        · exact absurd nothing deep
        · refine ⟨.inr below, fun nothing => ?_⟩
          simp [nothing] at below
      · rintro ⟨nothing | below, deep⟩
        · exact absurd nothing deep
        · exact .inr below
    · simp [here, there]

end Texts

section Fronts

/-- Dropping at the end of two parts reaches the first only when the second is dropped
whole. -/
theorem rdrop_while_append (front back : List Char) (condition : Char → Bool) :
    (front ++ back).rdropWhile condition =
      if back.rdropWhile condition = [] then front.rdropWhile condition
      else front ++ back.rdropWhile condition := by
  rw [List.rdropWhile, List.rdropWhile, List.rdropWhile, List.reverse_append,
    List.dropWhile_append]
  by_cases empty : back.reverse.dropWhile condition = []
  · simp [empty]
  · simp [empty]

/-- A text that does not end in a slash keeps what is in front of the last slashes behind it. -/
theorem trimmed_behind (front back : List Char) (trimmed : front.rdropWhile (· = '/') = front) :
    (front ++ back).rdropWhile (· = '/') = front ++ back.rdropWhile (· = '/') := by
  rw [rdrop_while_append]
  split
  · next nothing => rw [nothing, trimmed, List.append_nil]
  · rfl

/-- What begins at a slash is nothing but slashes, or keeps the first of them. -/
theorem slash_kept (rest : List Char) :
    ('/' :: rest).rdropWhile (· = '/') = [] ∨ ['/'] <+: ('/' :: rest).rdropWhile (· = '/') := by
  change (['/'] ++ rest).rdropWhile _ = [] ∨ ['/'] <+: (['/'] ++ rest).rdropWhile _
  rw [rdrop_while_append]
  split
  · exact .inl rfl
  · exact .inr (List.prefix_append _ _)

/-- Where a path goes on behind the configured one as it is written, it does so at a slash or
behind one. -/
def GoesOn (path want : String) : Prop :=
  ∀ next rest, path.toList = want.toList ++ next :: rest →
    next = '/' ∨ want.toList.getLast? = some '/'

variable {path want : String}

/-- A text without a query is all in front of it. -/
theorem queryless_plain {text : String} (plain : '?' ∉ text.toList) :
    queryless text = text.toList := by
  refine List.takeWhile_eq_self_iff.mpr fun letter member => ?_
  have other : letter ≠ '?' := fun same => plain (same ▸ member)
  simpa using other

/-- What does not go on at a slash is neither the text in front of it nor below that. -/
theorem inside_not_below (want rest : List Char) (next : Char) (inside : next ≠ '/')
    (open_end : want.getLast? ≠ some '/') :
    ¬(((want ++ next :: rest).rdropWhile (· = '/') = want.rdropWhile (· = '/')) ∨
      want.rdropWhile (· = '/') ++ ['/'] <+: (want ++ next :: rest).rdropWhile (· = '/')) := by
  have kept : want.rdropWhile (· = '/') = want := by
    refine List.rdropWhile_eq_self_iff.mpr fun some_end slash => open_end ?_
    rw [List.getLast?_eq_some_getLast some_end, of_decide_eq_true slash]
  have first : (next :: rest).rdropWhile (· = '/') = next :: rest.rdropWhile (· = '/') :=
    trimmed_behind [next] rest (by simp [List.rdropWhile_singleton, inside])
  rw [trimmed_behind _ _ kept, kept, first]
  rintro (same | below)
  · simp at same
  · rw [List.prefix_append_right_inj, List.cons_prefix_cons] at below
    exact inside below.1.symm

/-- What comes behind the bare form of a text begins at a slash, when what comes behind the text
does or the text ends in one. -/
theorem behind_bare (want back : List Char)
    (goes : ∀ next rest, back = next :: rest → next = '/' ∨ want.getLast? = some '/') :
    want.rtakeWhile (· = '/') ++ back = [] ∨
      ∃ more, want.rtakeWhile (· = '/') ++ back = '/' :: more := by
  cases slashes : want.rtakeWhile (· = '/') with
  | cons letter tail =>
    have member : letter ∈ want.rtakeWhile (· = '/') := by
      rw [slashes]
      exact List.mem_cons_self
    have slash : letter = '/' := by simpa using List.mem_rtakeWhile_imp member
    exact .inr ⟨tail ++ back, by rw [slash]; rfl⟩
  | nil =>
    cases back with
    | nil => exact .inl rfl
    | cons next rest =>
      rcases goes next rest rfl with slash | ends
      · exact .inr ⟨rest, by rw [slash]; rfl⟩
      · have some_end : want ≠ [] := by
          rintro rfl
          cases ends
        rw [List.getLast?_eq_some_getLast some_end] at ends
        have no_slash := List.rtakeWhile_eq_nil_iff.mp slashes some_end
        exact absurd (decide_eq_true (Option.some.inj ends)) no_slash

/-- A path with the configured one in front is at it or below it exactly when it goes on
at a slash or behind one. -/
theorem front_iff (plain : '?' ∉ path.toList) (front : want.toList <+: path.toList) :
    AtOrBelow path want ↔ GoesOn path want := by
  obtain ⟨back, whole⟩ := front
  have bare_path : bare path = (want.toList ++ back).rdropWhile (· = '/') := by
    rw [bare, queryless_plain plain, whole]
  have bare_want : bare want = want.toList.rdropWhile (· = '/') := by
    rw [bare, queryless_plain fun query => plain (whole ▸ List.mem_append_left back query)]
  rw [AtOrBelow, bare_path, bare_want]
  constructor
  · intro below next rest goes
    obtain rfl : back = next :: rest := List.append_cancel_left (whole.trans goes)
    by_contra neither
    obtain ⟨inside, open_end⟩ := not_or.mp neither
    exact inside_not_below want.toList rest next inside open_end below
  · intro goes
    have behind := behind_bare want.toList back fun next rest same =>
      goes next rest (whole.symm.trans (congrArg _ same))
    have parts : want.toList ++ back =
        want.toList.rdropWhile (· = '/') ++ (want.toList.rtakeWhile (· = '/') ++ back) := by
      rw [← List.append_assoc, List.rdropWhile_append_rtakeWhile]
    rw [parts, trimmed_behind _ _ (List.rdropWhile_idempotent _ _)]
    rcases behind with nothing | ⟨more, goes_on⟩
    · rw [nothing]
      exact .inl (List.append_nil _)
    · rw [goes_on]
      rcases slash_kept more with nothing | kept
      · rw [nothing]
        exact .inl (List.append_nil _)
      · exact .inr ((List.prefix_append_right_inj _).mpr kept)

/-- What lies below a text does not have the same bare form. -/
theorem below_other (path want : String) (below : bare want ++ ['/'] <+: bare path) :
    bare path ≠ bare want := by
  intro same
  have longer := below.length_le
  rw [same, List.length_append, List.length_singleton] at longer
  omega

/-- When the test in front of the streams has the meaning. -/
theorem h2_takes_iff (plain : '?' ∉ path.toList) :
    (¬H2.refusesPath path want ↔ AtOrBelow path want) ↔
      (bare path = [] → bare want = [] →
          (Rooted path ↔ Rooted want) ∨ want.toList <+: path.toList) ∧
        GoesOn path want ∧
        (bare want ++ ['/'] <+: bare path → want.toList <+: path.toList) := by
  rw [H2.refusesPath, not_and_or, not_not, not_not, normalize_eq_iff]
  constructor
  · intro takes
    refine ⟨fun here there => ?_, fun next rest goes => ?_, fun below => ?_⟩
    · rcases takes.mpr (.inl (here.trans there.symm)) with front | ⟨-, rooted⟩
      · exact .inr front
      · exact .inl (rooted here)
    · have front : want.toList <+: path.toList := goes ▸ List.prefix_append _ _
      exact (front_iff plain front).mp (takes.mp (.inl front)) next rest goes
    · rcases takes.mpr (.inr below) with front | ⟨same, -⟩
      · exact front
      · exact absurd same (below_other path want below)
  · rintro ⟨slashes, goes, whole⟩
    constructor
    · rintro (front | ⟨same, -⟩)
      · exact (front_iff plain front).mpr goes
      · exact .inl same
    · rintro (same | below)
      · by_cases here : bare path = []
        · rcases slashes here (same ▸ here) with rooted | front
          · exact .inr ⟨same, fun _ => rooted⟩
          · exact .inl front
        · exact .inr ⟨same, fun nothing => absurd nothing here⟩
      · exact .inl (whole below)

end Fronts

section Targets

/-- What is in front of a path at the root is the root. -/
theorem rooted_front {path want : String} (root : Rooted path) (plain : '?' ∉ path.toList)
    (front : want.toList <+: path.toList) : Rooted want := by
  have short : want.toList = [] ∨ want.toList = ['/'] := by
    rw [Rooted, queryless_plain plain] at root
    rcases root with nothing | slash
    · rw [nothing] at front
      exact .inl (List.prefix_nil.mp front)
    · rw [slash] at front
      simpa [List.prefix_cons_iff] using front
  rw [Rooted, queryless]
  rcases short with nothing | slash
  · rw [nothing]
    exact .inl rfl
  · rw [slash]
    exact .inr rfl

/-- In front of the query of a written target is its path. -/
theorem queryless_written (target : RequestTarget) :
    queryless target.written = target.path.toList := by
  have before : ∀ letter ∈ target.path.toList, decide (letter ≠ '?') = true := by
    intro letter member
    have other : letter ≠ '?' := fun same => target.plain (same ▸ member)
    exact decide_eq_true other
  rw [RequestTarget.written]
  cases target.query with
  | none => exact List.takeWhile_eq_self_iff.mpr before
  | some query =>
    have question : "?".toList = ['?'] := rfl
    rw [queryless, String.toList_append, String.toList_append, question, List.append_assoc,
      List.takeWhile_append_of_pos before, List.singleton_append,
      List.takeWhile_cons_of_neg (by decide), List.append_nil]

/-- Nothing is cut off the path of a target. -/
theorem uri_path_whole (target : RequestTarget) :
    target.uriPath = if target.path = "" then "/" else target.path := by
  have whole : target.path.toList.takeWhile (· ≠ '#') = target.path.toList := by
    refine List.takeWhile_eq_self_iff.mpr fun letter member => decide_eq_true ?_
    rintro rfl
    exact target.unfragmented member
  rw [RequestTarget.uriPath, whole, String.ofList_toList]

/-- The path that the library gives has no query. -/
theorem uri_path_plain (target : RequestTarget) : '?' ∉ target.uriPath.toList := by
  rw [uri_path_whole]
  split
  · decide
  · exact target.plain

/-- The written target and the path the library gives are bare alike and rooted alike. -/
theorem uri_path_alike (target : RequestTarget) :
    bare target.uriPath = bare target.written ∧
      (Rooted target.uriPath ↔ Rooted target.written) := by
  have written := queryless_written target
  have given := queryless_plain (uri_path_plain target)
  rw [bare, bare, Rooted, Rooted, written, given, uri_path_whole]
  split
  · next empty =>
    rw [empty]
    exact ⟨by decide, by decide⟩
  · exact ⟨rfl, Iff.rfl⟩

/-- The three transports take the same targets, those with the meaning. -/
structure Consistent (target : RequestTarget) (want : String) : Prop where
  ws : pathMatches target.written want ↔ AtOrBelow target.written want
  httpUp : ¬HttpUp.refusesPath target.written want ↔ AtOrBelow target.written want
  h2 : H2.serveStatus (some want) target.uriPath = 200 ↔ AtOrBelow target.written want

/-- Where only slashes are left on both sides, the root is not compared with several slashes;
the path goes on behind the configured one at a slash or behind one; and a path below the
configured one begins with it as it is written. -/
structure PathsAlike (target : RequestTarget) (want : String) : Prop where
  slashes : bare target.written = [] → bare want = [] → (Rooted target.written ↔ Rooted want)
  goesOn : GoesOn target.uriPath want
  whole : bare want ++ ['/'] <+: bare target.written → want.toList <+: target.uriPath.toList

/-- The transports are consistent on exactly the targets and configured paths that are alike. -/
theorem transports_consistent_iff (target : RequestTarget) (want : String) :
    Consistent target want ↔ PathsAlike target want := by
  obtain ⟨same, rooted⟩ := uri_path_alike target
  have upgrades := path_matches_iff target.written want
  have streams : (¬H2.refusesPath target.uriPath want ↔ AtOrBelow target.uriPath want) ↔ _ :=
    h2_takes_iff (uri_path_plain target)
  rw [AtOrBelow, same, ← AtOrBelow, rooted] at streams
  constructor
  -- A root against several slashes is what the upgrades miss one way round and the streams
  -- the other way round.
  · rintro ⟨ws, -, h2⟩
    obtain ⟨slashes, goes, whole⟩ := streams.mp ((serve_status_iff _ _).symm.trans h2)
    refine ⟨fun here there => ⟨fun root => ?_, fun root => ?_⟩, goes, whole⟩
    · rcases slashes here there with alike | front
      · exact alike.mp root
      · exact rooted_front (rooted.mpr root) (uri_path_plain target) front
    · exact (upgrades.mp (ws.mpr (.inl (here.trans there.symm)))).2 here root
  · rintro ⟨slashes, goes, whole⟩
    have ws : pathMatches target.written want ↔ AtOrBelow target.written want := by
      refine upgrades.trans (and_iff_left_of_imp fun _ here root => ?_)
      exact (slashes here (rooted_bare root)).mpr root
    have h2 := streams.mpr ⟨fun here there => .inl (slashes here there), goes, whole⟩
    exact ⟨ws, (http_up_takes_iff _ _).trans ws, (serve_status_iff _ _).trans h2⟩

/-- A target that begins with the name of another. -/
def nameTarget : RequestTarget := ⟨"/apix", none, by decide, by decide⟩

/-- A path that goes on inside the configured name is taken for streams, and not by an
upgrade. -/
theorem inside_name_taken :
    H2.serveStatus (some "/api") nameTarget.uriPath = 200 ∧
      ¬pathMatches nameTarget.written "/api" ∧ ¬Consistent nameTarget "/api" := by
  have taken : H2.serveStatus (some "/api") nameTarget.uriPath = 200 := by decide
  have refused : ¬pathMatches nameTarget.written "/api" := by decide
  refine ⟨taken, refused, ?_⟩
  rintro ⟨ws, -, h2⟩
  exact refused (ws.mpr (h2.mp taken))

end Targets

end OmniProxy.PathMatching
