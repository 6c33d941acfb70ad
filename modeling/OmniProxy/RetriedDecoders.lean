import OmniProxy.CheckedLoops
import OmniProxy.IncrementalDecoding

/-!
# Decoders that are retried when more octets arrive

A decoder takes a value from the front of some octets and returns what follows it. It is
stable if it does not change its mind: what it accepts it accepts with more octets behind
it, and what it refuses it refuses, unless the refusal says that the octets are too few.

A loop that reads into a buffer of limited size and retries a stable decoder after every
read comes to the same verdict however its input is cut into reads. The octets that are
left behind the accepted value are another matter: of them the last read may have taken
some.

Nothing here refers to a particular program.
-/

namespace OmniProxy.RetriedDecoders

open CheckedLoops IncrementalDecoding

variable {Octet Value Other Error : Type}

section Decoders

/-- What follows an accepted value are the last octets, and more of them change neither an
acceptance nor a refusal that is not for want of octets. -/
structure Stable (short : Error → Prop) (decode : List Octet → Except Error (Value × List Octet)) :
    Prop where
  suffix : ∀ input value rest, decode input = .ok (value, rest) → ∃ front, input = front ++ rest
  accepted : ∀ input more value rest, decode input = .ok (value, rest) →
    decode (input ++ more) = .ok (value, rest ++ more)
  refused : ∀ input more error, decode input = .error error → ¬short error →
    decode (input ++ more) = .error error

/-- Go on from the first octet. -/
def fromFirst (error : Error) (next : Octet → List Octet → Except Error (Value × List Octet)) :
    List Octet → Except Error (Value × List Octet)
  | [] => .error error
  | octet :: rest => next octet rest

variable {short : Error → Prop}

/-- A refusal that looks at nothing is stable. -/
theorem stable_refusal (error : Error) :
    Stable short (fun _ : List Octet => (.error error : Except Error (Value × List Octet))) where
  suffix _ _ _ decoded := by simp at decoded
  accepted _ _ _ _ decoded := by simp at decoded
  refused _ _ _ decoded _ := decoded

/-- To take a known number of octets is stable, if too few of them are refused as such. -/
theorem stable_take (count : Nat) (error : Error) (value : List Octet → Value)
    (few : short error) :
    Stable short (fun input : List Octet =>
      if input.length < count then .error error
      else .ok (value (input.take count), input.drop count)) where
  suffix input _ rest decoded := by
    rw [check_ok_iff] at decoded
    obtain ⟨-, rfl⟩ := Prod.mk.inj (Except.ok.inj decoded.2)
    exact ⟨input.take count, (List.take_append_drop count input).symm⟩
  accepted input more _ _ decoded := by
    rw [check_ok_iff] at decoded
    obtain ⟨enough, decoded⟩ := decoded
    obtain ⟨rfl, rfl⟩ := Prod.mk.inj (Except.ok.inj decoded)
    rw [if_neg (by rw [List.length_append]; omega),
      List.take_append_of_le_length (by omega), List.drop_append_of_le_length (by omega)]
  refused input more other decoded lasting := by
    split at decoded
    · exact absurd (Except.error.inj decoded ▸ few) lasting
    · simp at decoded

/-- To go on from the first octet with a stable decoder is stable, if there being none is
refused as such. -/
theorem stable_first (error : Error)
    (next : Octet → List Octet → Except Error (Value × List Octet)) (few : short error)
    (onward : ∀ octet, Stable short (next octet)) : Stable short (fromFirst error next) where
  suffix input value rest decoded := by
    cases input with
    | nil => simp [fromFirst] at decoded
    | cons octet input =>
      obtain ⟨front, rfl⟩ := (onward octet).suffix _ _ _ decoded
      exact ⟨octet :: front, rfl⟩
  accepted input more value rest decoded := by
    cases input with
    | nil => simp [fromFirst] at decoded
    | cons octet input => exact (onward octet).accepted _ more _ _ decoded
  refused input more other decoded lasting := by
    cases input with
    | nil => exact absurd (Except.error.inj decoded ▸ few) lasting
    | cons octet input => exact (onward octet).refused _ more _ decoded lasting

/-- A check of something else in front of a stable decoder. -/
theorem Stable.guarded (failed : Prop) [Decidable failed] (error : Error)
    {decode : List Octet → Except Error (Value × List Octet)} (stable : Stable short decode) :
    Stable short (fun input => if failed then .error error else decode input) := by
  by_cases reached : failed
  · simp only [if_pos reached]
    exact stable_refusal error
  · simpa only [if_neg reached] using stable

/-- A stable decoder followed by another one is stable. -/
theorem Stable.bind {first : List Octet → Except Error (Other × List Octet)}
    {next : Other → List Octet → Except Error (Value × List Octet)}
    (stable : Stable short first) (onward : ∀ other, Stable short (next other)) :
    Stable short fun input => first input >>= fun found => next found.1 found.2 where
  suffix input value rest decoded := by
    obtain ⟨⟨other, middle⟩, started, finished⟩ := (bind_ok_iff _ _ _).mp decoded
    obtain ⟨front, rfl⟩ := stable.suffix _ _ _ started
    obtain ⟨back, rfl⟩ := (onward other).suffix _ _ _ finished
    exact ⟨front ++ back, (List.append_assoc front back rest).symm⟩
  accepted input more value rest decoded := by
    obtain ⟨⟨other, middle⟩, started, finished⟩ := (bind_ok_iff _ _ _).mp decoded
    refine (bind_ok_iff _ _ _).mpr ⟨(other, middle ++ more), ?_, ?_⟩
    · exact stable.accepted _ more _ _ started
    · exact (onward other).accepted _ more _ _ finished
  refused input more error decoded lasting := by
    cases started : first input with
    | error early =>
      rw [started] at decoded
      obtain rfl : early = error := Except.error.inj decoded
      rw [stable.refused _ more _ started lasting]
      rfl
    | ok taken =>
      obtain ⟨other, middle⟩ := taken
      rw [started] at decoded
      rw [stable.accepted _ more _ _ started]
      exact (onward other).refused _ more _ decoded lasting

/-- A proper part of what a stable decoder takes is refused for want of octets. -/
theorem Stable.cut {decode : List Octet → Except Error (Value × List Octet)}
    (stable : Stable short decode) {front missing rest : List Octet} {value : Value}
    (decoded : decode (front ++ missing) = .ok (value, rest))
    (inside : rest.length < missing.length) :
    ∃ error, decode front = .error error ∧ short error := by
  cases early : decode front with
  | ok taken =>
    obtain ⟨other, left⟩ := taken
    have longer := stable.accepted _ missing _ _ early
    rw [decoded] at longer
    have same := congrArg List.length (Prod.mk.inj (Except.ok.inj longer)).2
    rw [List.length_append] at same
    omega
  | error error =>
    refine ⟨error, rfl, ?_⟩
    by_contra lasting
    rw [stable.refused _ missing _ early lasting] at decoded
    simp at decoded

end Decoders

section Retrying

/-- How a loop of reads ends: with a value, the octets read behind it and those not read,
with a refusal, with a full buffer, or with the end of its input. -/
inductive Outcome (Octet Value Error : Type) where
  | accepted (value : Value) (rest unread : List Octet)
  | failed (error : Error)
  | full
  | waiting

/-- What a loop of reads decides. -/
inductive Verdict (Value Error : Type) where
  | accepted (value : Value)
  | failed (error : Error)
  | full
  | waiting

/-- The decision of an outcome. -/
def Outcome.verdict : Outcome Octet Value Error → Verdict Value Error
  | .accepted value _ _ => .accepted value
  | .failed error => .failed error
  | .full => .full
  | .waiting => .waiting

variable (decode : List Octet → Except Error (Value × List Octet)) (short : Error → Bool)
  (limit : Nat)

/-- Read a piece at a time into what is left of the buffer and retry the decoder. -/
def retry (held : List Octet) : List (List Octet) → Outcome Octet Value Error
  | [] => .waiting
  | piece :: pieces =>
      let room := limit - held.length
      let taken := held ++ piece.take room
      match decode taken with
      | .ok (value, rest) => .accepted value rest (piece.drop room ++ pieces.flatten)
      | .error error =>
          if short error then
            if limit ≤ taken.length then .full else retry taken pieces
          else .failed error

/-- What a stream decides: only as much of it counts as the buffer holds. -/
def verdictOn (stream : List Octet) : Verdict Value Error :=
  match decode (stream.take limit) with
  | .ok (value, _) => .accepted value
  | .error error =>
      if short error then if limit ≤ stream.length then .full else .waiting
      else .failed error

variable {decode short limit}

/-- A read that does not fill the buffer is taken whole. -/
theorem read_whole {held piece : List Octet}
    (space : (held ++ piece.take (limit - held.length)).length < limit) :
    piece.take (limit - held.length) = piece ∧ piece.drop (limit - held.length) = [] := by
  rw [List.length_append, List.length_take] at space
  exact ⟨List.take_of_length_le (by omega), List.drop_eq_nil_of_le (by omega)⟩

/-- The octets taken by a read are the first ones of the stream. -/
theorem taken_front (held piece rest : List Octet) (room : held.length ≤ limit) :
    ∃ more, (held ++ (piece ++ rest)).take limit =
      held ++ piece.take (limit - held.length) ++ more ∧
        (limit ≤ (held ++ piece.take (limit - held.length)).length → more = []) := by
  refine ⟨rest.take (limit - held.length - piece.length), ?_, ?_⟩
  · rw [List.take_append, List.take_of_length_le room, List.take_append, List.append_assoc]
  · intro filled
    rw [List.length_append, List.length_take] at filled
    rw [show limit - held.length - piece.length = 0 by omega, List.take_zero]

/-- The loop decides what the stream decides, however it is cut. The induction is on the
reads; between them the decoder asks for more octets. -/
theorem retry_verdict (stable : Stable (fun error => short error) decode)
    (pieces : List (List Octet)) (held : List Octet) (room : held.length < limit)
    (pending : ∃ error, decode held = .error error ∧ short error) :
    (retry decode short limit held pieces).verdict =
      verdictOn decode short limit (held ++ pieces.flatten) := by
  induction pieces generalizing held with
  | nil =>
    obtain ⟨error, refused, few⟩ := pending
    rw [List.flatten_nil, List.append_nil, verdictOn, List.take_of_length_le (by omega), refused]
    simp only [few, if_true, if_neg (Nat.not_le.mpr room)]
    rfl
  | cons piece pieces inductionHypothesis =>
    obtain ⟨more, front, whole⟩ :=
      taken_front held piece pieces.flatten (Nat.le_of_lt room)
    rw [retry, List.flatten_cons, verdictOn, front]
    generalize taking : held ++ piece.take (limit - held.length) = taken at *
    cases decoded : decode taken with
    | ok found =>
      obtain ⟨value, rest⟩ := found
      rw [stable.accepted _ more _ _ decoded]
      rfl
    | error error =>
      dsimp only
      cases few : short error with
      | false =>
        rw [stable.refused _ more _ decoded (by simp [few])]
        simp only [few]
        rfl
      | true =>
        rw [if_pos rfl]
        by_cases filled : limit ≤ taken.length
        · have long : limit ≤ (held ++ (piece ++ pieces.flatten)).length := by
            have width := congrArg List.length taking
            rw [List.length_append, List.length_take] at width
            rw [List.length_append, List.length_append]
            omega
          rw [if_pos filled, whole filled, List.append_nil, decoded]
          simp only [few, if_true, if_pos long]
          rfl
        · rw [if_neg filled, inductionHypothesis taken (by omega) ⟨error, decoded, few⟩,
            verdictOn, ← front]
          rw [← taking] at filled
          rw [← taking, (read_whole (Nat.not_le.mp filled)).1, List.append_assoc]

/-- The octets held and some of the reads are exactly the octets of the header. -/
def ReadEndsAt (header held : List Octet) (pieces : List (List Octet)) : Prop :=
  ∃ first later, pieces = first ++ later ∧ held ++ first.flatten = header

/-- While some of the header is missing, a read ends at its end if it is this one or a
later one. -/
theorem read_ends_cons (header held piece : List Octet) (pieces : List (List Octet))
    (before : held.length < header.length) :
    ReadEndsAt header held (piece :: pieces) ↔ ReadEndsAt header (held ++ piece) pieces := by
  constructor
  · rintro ⟨first, later, split, whole⟩
    cases first with
    | nil =>
      rw [List.flatten_nil, List.append_nil] at whole
      rw [whole] at before
      omega
    | cons other first =>
      rw [List.cons_append, List.cons.injEq] at split
      obtain ⟨rfl, others⟩ := split
      exact ⟨first, later, others, by rw [List.append_assoc, ← List.flatten_cons, whole]⟩
  · rintro ⟨first, later, rfl, whole⟩
    exact ⟨piece :: first, later, rfl, by rw [List.flatten_cons, ← List.append_assoc, whole]⟩

/-- A read that holds all of the header holds nothing behind it exactly when it fills the
buffer with it or ends at its end. -/
theorem nothing_behind_iff {header held piece more : List Octet}
    (longer : held ++ piece.take (limit - held.length) = header ++ more)
    (before : held.length < header.length) (fits : header.length ≤ limit)
    (pieces : List (List Octet)) :
    more = [] ↔ header.length = limit ∨ ReadEndsAt header (held ++ piece) pieces := by
  have width := congrArg List.length longer
  simp only [List.length_append, List.length_take] at width
  constructor
  · rintro rfl
    by_cases beyond : limit - held.length < piece.length
    · rw [List.length_nil] at width
      exact .inl (by omega)
    · rw [List.take_of_length_le (by omega), List.append_nil] at longer
      exact .inr ⟨[], pieces, rfl, by rw [List.flatten_nil, List.append_nil, longer]⟩
  · rintro (full | ⟨first, later, -, whole⟩)
    · exact List.eq_nil_of_length_eq_zero (by omega)
    · have header := congrArg List.length whole
      simp only [List.length_append] at header
      exact List.eq_nil_of_length_eq_zero (by omega)

/-- A value whose octets fit into the buffer is accepted, and what was read behind them and
what was not are the rest of the stream. Nothing was read behind them exactly when a read
ended there, be it only because the buffer was full. -/
theorem retry_accepts (stable : Stable (fun error => short error) decode)
    {header payload : List Octet} {value : Value} (decoded : decode header = .ok (value, []))
    (fits : header.length ≤ limit) (pieces : List (List Octet)) (held : List Octet)
    (before : held.length < header.length)
    (stream : held ++ pieces.flatten = header ++ payload) :
    ∃ rest unread, retry decode short limit held pieces = .accepted value rest unread ∧
      rest ++ unread = payload ∧
      (rest = [] ↔ header.length = limit ∨ ReadEndsAt header held pieces) := by
  induction pieces generalizing held with
  | nil =>
    have width := congrArg List.length stream
    simp only [List.flatten_nil, List.append_nil, List.length_append] at width
    omega
  | cons piece pieces inductionHypothesis =>
    have cut : held ++ piece.take (limit - held.length) ++
        (piece.drop (limit - held.length) ++ pieces.flatten) = header ++ payload := by
      rw [← stream, List.flatten_cons, List.append_assoc, ← List.append_assoc (piece.take _),
        List.take_append_drop]
    rw [retry, read_ends_cons header held piece pieces before]
    obtain ⟨missing, front, lacking⟩ | ⟨more, longer, rest⟩ := front_arrives cut
    · have space : (held ++ piece.take (limit - held.length)).length < limit := by
        have width := congrArg List.length front
        have positive := List.length_pos_of_ne_nil lacking
        rw [List.length_append] at width
        omega
      obtain ⟨all, nothing⟩ := read_whole space
      rw [all] at front cut space
      rw [nothing, List.nil_append] at cut
      have inside : ([] : List Octet).length < missing.length :=
        List.length_pos_of_ne_nil lacking
      obtain ⟨error, refused, few⟩ := stable.cut (by rw [front]; exact decoded) inside
      have shorter : (held ++ piece).length < header.length := by
        rw [← front, @List.length_append _ (held ++ piece)]
        exact Nat.lt_add_of_pos_right inside
      simp only [all, refused, few, if_true, if_neg (Nat.not_le.mpr space)]
      exact inductionHypothesis (held ++ piece) shorter cut
    · have read := stable.accepted header more value [] decoded
      rw [List.nil_append, ← longer] at read
      simp only [read]
      exact ⟨more, _, rfl, rest, nothing_behind_iff longer before fits pieces⟩

end Retrying

end OmniProxy.RetriedDecoders
