import OmniProxy.Hysteria2Wire
import OmniProxy.RetriedDecoders

/-!
# Requests for TCP streams at a Hysteria2 server

The task of a stream reads into a buffer of 4096 octets and retries the decoder of a
request after every read. The decoder is stable, so what the task decides does not depend
on how the stream is cut into reads, and a request is accepted exactly when it fits into
the buffer, which the limits of the decoder do not promise.

What the last read took behind the request is another matter: the task sends it back to
the client, in front of its answer, and hands on only what it has not read.

Octets arrive in pieces, and a read takes of a piece what the buffer has room for. What
the task sends to the client is taken to be accepted.
-/

namespace OmniProxy.Hysteria2Requests

open ByteStrings CheckedLoops Connections Hysteria2Wire RetriedDecoders

section Stability

/-- The refusals after which the octets are decoded again with more of them. -/
def wantsMore (error : IoError) : Bool := error.kind = .unexpectedEof

/-- Read a value and return what follows it. -/
def takeVarint (data : Bytes) : Except IoError (UInt64 × Bytes) :=
  readVarint data >>= fun (value, used) => .ok (value, data.drop used)

/-- Read as many octets of a value as its first one announces. -/
def takeAnnounced (first : UInt8) (rest : Bytes) : Except IoError (UInt64 × Bytes) :=
  if rest.length < announcedLen first - 1 then
    .error ⟨.unexpectedEof, "hysteria2: truncated varint"⟩
  else .ok ((rest.take (announcedLen first - 1)).foldl shiftIn (first &&& 0x3F).toUInt64,
    rest.drop (announcedLen first - 1))

/-- A value is read from its first octet and as many octets as that announces. -/
theorem take_varint_eq :
    takeVarint = fromFirst ⟨.unexpectedEof, "hysteria2: empty varint"⟩ takeAnnounced := by
  funext data
  cases data with
  | nil => rfl
  | cons first rest =>
    have widths := announced_len_cases first
    obtain ⟨more, width⟩ : ∃ more, announcedLen first = more + 1 :=
      ⟨announcedLen first - 1, by omega⟩
    simp only [takeVarint, readVarint, fromFirst, takeAnnounced, width, List.length_cons,
      Nat.add_sub_cancel, Nat.add_lt_add_iff_right]
    by_cases short : rest.length < more
    · simp only [if_pos short]
      rfl
    · simp only [if_neg short]
      rfl

/-- A number does not change with more octets, once it does not want more. -/
theorem take_varint_stable : Stable (fun error => wantsMore error) takeVarint := by
  rw [take_varint_eq]
  refine stable_first _ _ (by rfl) fun first => ?_
  exact stable_take (announcedLen first - 1) _
    (fun octets => octets.foldl shiftIn (first &&& 0x3F).toUInt64) (by rfl)

/-- What is decoded behind a value depends on the value and on what follows it. -/
theorem read_varint_bind {Result : Type} (data : Bytes)
    (next : UInt64 → Bytes → Except IoError Result) :
    (readVarint data >>= fun found => next found.1 (data.drop found.2)) =
      takeVarint data >>= fun found => next found.1 found.2 := by
  rw [takeVarint]
  cases readVarint data with
  | error error => rfl
  | ok found => rfl

/-- Skip as many octets as a length says. -/
def paddingBehind (addr : String) (padLen : UInt64) (rest : Bytes) :
    Except IoError (String × Bytes) :=
  if maxPaddingLength < padLen.toNat then
    .error ⟨.invalidData, "hysteria2: padding too large"⟩
  else if rest.length < padLen.toNat then
    .error ⟨.unexpectedEof, "hysteria2: truncated padding"⟩
  else .ok (addr, rest.drop padLen.toNat)

/-- The padding is a number and as many octets behind it. -/
theorem skip_padding_eq (addr : String) :
    (fun rest => skipPadding rest >>= fun left => .ok (addr, left)) =
      fun rest => takeVarint rest >>= fun found => paddingBehind addr found.1 found.2 := by
  funext rest
  rw [← read_varint_bind, skipPadding, bind_assoc]
  congr 1
  funext found
  dsimp only [paddingBehind]
  split
  · rfl
  · split
    · rfl
    · rfl

/-- The answer to padding does not change with more octets, once it does not want more. -/
theorem skip_padding_stable (addr : String) :
    Stable (fun error => wantsMore error)
      (fun rest => skipPadding rest >>= fun left => .ok (addr, left)) := by
  rw [skip_padding_eq]
  refine take_varint_stable.bind fun padLen => ?_
  refine Stable.guarded _ _ ?_
  exact stable_take padLen.toNat _ (fun _ => addr) (by rfl)

/-- Take as many octets of an address as a length says, and skip the padding. -/
def addressBehind (addrLen : UInt64) (rest : Bytes) : Except IoError (String × Bytes) :=
  if addrLen = 0 ∨ maxAddressLength < addrLen.toNat then
    .error ⟨.invalidData, "hysteria2: invalid address length"⟩
  else
    (if rest.length < addrLen.toNat then
      .error ⟨.unexpectedEof, "hysteria2: truncated address"⟩
    else .ok (fromUtf8Lossy (rest.take addrLen.toNat), rest.drop addrLen.toNat)) >>= fun found =>
      skipPadding found.2 >>= fun left => .ok (found.1, left)

/-- An address is a number and as many octets behind it. -/
theorem decode_address_eq :
    decodeAddress = fun rest => takeVarint rest >>= fun found => addressBehind found.1 found.2 := by
  funext rest
  rw [← read_varint_bind, decodeAddress]
  congr 1
  funext found
  dsimp only [addressBehind]
  split
  · rfl
  · split
    · rfl
    · rfl

/-- The answer to an address does not change with more octets, once it does not want more.
-/
theorem decode_address_stable : Stable (fun error => wantsMore error) decodeAddress := by
  rw [decode_address_eq]
  refine take_varint_stable.bind fun addrLen => ?_
  refine Stable.guarded _ _ ?_
  exact (stable_take addrLen.toNat _ fromUtf8Lossy (by rfl)).bind skip_padding_stable

/-- Go on to the address behind the frame type of a request. -/
def requestBehind (frameType : UInt64) (rest : Bytes) : Except IoError (String × Bytes) :=
  if frameType ≠ frameTypeTcpRequest then
    .error ⟨.invalidData, "hysteria2: unexpected frame type 0x" ++
      String.ofList (Nat.toDigits 16 frameType.toNat)⟩
  else decodeAddress rest

/-- A request is the number of its kind and what that kind has behind it. -/
theorem decode_tcp_request_eq :
    decodeTcpRequest =
      fun buf => takeVarint buf >>= fun found => requestBehind found.1 found.2 := by
  funext buf
  rw [← read_varint_bind]
  rfl

/-- The decoder of requests is stable. -/
theorem decode_tcp_request_stable : Stable (fun error => wantsMore error) decodeTcpRequest := by
  rw [decode_tcp_request_eq]
  exact take_varint_stable.bind fun frameType => decode_address_stable.guarded _ _

end Stability

section Reading

/-- The size of the buffer for a request. -/
def headSize : Nat := 4096

/-- How the task of a stream ends its reading: with an address, what it has sent to the
client and what it has not read, with a refusal it has sent, or with nothing. -/
inductive RequestRead where
  | accepted (addr : String) (sent unread : Bytes)
  | refused (sent : Bytes)
  | ended
deriving DecidableEq

/-- Read into what is left of the buffer and decode what is in it. What follows a request
in the buffer is sent to the client in front of the answer. -/
def readRequest (head : Bytes) : List Bytes → RequestRead
  | [] => .ended
  | piece :: pieces =>
      let room := headSize - head.length
      let head := head ++ piece.take room
      match decodeTcpRequest head with
      | .ok (addr, rest) =>
          .accepted addr (rest ++ encodeTcpResponse true "") (piece.drop room ++ pieces.flatten)
      | .error e =>
          if e.kind = .unexpectedEof then
            if headSize ≤ head.length then .refused (encodeTcpResponse false "addr too long")
            else readRequest head pieces
          else .refused (encodeTcpResponse false e.message)

/-- What the task does with the outcome of its reads. -/
def answered : Outcome UInt8 String IoError → RequestRead
  | .accepted addr rest unread => .accepted addr (rest ++ encodeTcpResponse true "") unread
  | .failed error => .refused (encodeTcpResponse false error.message)
  | .full => .refused (encodeTcpResponse false "addr too long")
  | .waiting => .ended

/-- The task is a loop that retries the decoder. -/
theorem read_request_retries (head : Bytes) (pieces : List Bytes) :
    readRequest head pieces = answered (retry decodeTcpRequest wantsMore headSize head pieces) := by
  induction pieces generalizing head with
  | nil => rfl
  | cons piece pieces inductionHypothesis =>
    rw [readRequest, retry]
    cases decodeTcpRequest (head ++ piece.take (headSize - head.length)) with
    | ok found => rfl
    | error error =>
      simp only [wantsMore, decide_eq_true_eq]
      split
      · split
        · rfl
        · exact inductionHypothesis _
      · rfl

/-- What the task decides: whom to connect to, or with which answer to refuse. -/
inductive Decision where
  | connect (addr : String)
  | refuse (answer : Bytes)
  | wait
deriving DecidableEq

def RequestRead.decision : RequestRead → Decision
  | .accepted addr _ _ => .connect addr
  | .refused sent => .refuse sent
  | .ended => .wait

/-- The decision for a verdict. -/
def decisionFor : Verdict String IoError → Decision
  | .accepted addr => .connect addr
  | .failed error => .refuse (encodeTcpResponse false error.message)
  | .full => .refuse (encodeTcpResponse false "addr too long")
  | .waiting => .wait

/-- The answer to an outcome decides as its verdict does. -/
theorem decision_answered (outcome : Outcome UInt8 String IoError) :
    (answered outcome).decision = decisionFor outcome.verdict := by
  cases outcome <;> rfl

/-- Without any octets the decoder asks for some. -/
theorem nothing_wants_more : ∃ error, decodeTcpRequest [] = .error error ∧ wantsMore error :=
  ⟨⟨.unexpectedEof, "hysteria2: empty varint"⟩, rfl, rfl⟩

/-- The decision depends on the stream alone. -/
theorem read_request_decision (pieces : List Bytes) :
    (readRequest [] pieces).decision =
      decisionFor (verdictOn decodeTcpRequest wantsMore headSize pieces.flatten) := by
  rw [read_request_retries, decision_answered, retry_verdict decode_tcp_request_stable pieces []
    (by decide) nothing_wants_more, List.nil_append]

/-- An error for want of octets has its own kind. -/
theorem wants_more_iff (error : IoError) : wantsMore error ↔ error.kind = .unexpectedEof := by
  simp [wantsMore]

/-- Decoding is stable when octets are added, and so the task decides the same for every
cutting of a stream into reads. A header is what an accepted request has in front of what
follows it. -/
theorem retried_request_stable :
    (∀ b x addr rest, decodeTcpRequest b = .ok (addr, rest) →
        decodeTcpRequest (b ++ x) = .ok (addr, rest ++ x)) ∧
      (∀ b x error, decodeTcpRequest b = .error error → error.kind ≠ .unexpectedEof →
        decodeTcpRequest (b ++ x) = .error error) ∧
      (∀ b addr rest, decodeTcpRequest b = .ok (addr, rest) →
        ∃ header, b = header ++ rest ∧ ∀ front missing, front ++ missing = header →
          missing ≠ [] → ∃ error, decodeTcpRequest front = .error error ∧
            error.kind = .unexpectedEof) ∧
      ∀ pieces others : List Bytes, pieces.flatten = others.flatten →
        (readRequest [] pieces).decision = (readRequest [] others).decision := by
  refine ⟨?_, ?_, ?_, ?_⟩
  · intro b x addr rest decoded
    exact decode_tcp_request_stable.accepted b x addr rest decoded
  · intro b x error refused lasting
    exact decode_tcp_request_stable.refused b x error refused
      (fun few => lasting ((wants_more_iff error).mp few))
  · intro b addr rest decoded
    obtain ⟨header, rfl⟩ := decode_tcp_request_stable.suffix b addr rest decoded
    refine ⟨header, rfl, ?_⟩
    rintro front missing rfl lacking
    rw [List.append_assoc] at decoded
    have positive := List.length_pos_of_ne_nil lacking
    obtain ⟨error, refused, few⟩ := decode_tcp_request_stable.cut decoded
      (by rw [List.length_append]; omega)
    exact ⟨error, refused, (wants_more_iff error).mp few⟩
  · intro pieces others same
    rw [read_request_decision, read_request_decision, same]

end Reading

section Requests

/-- Some octets are a variable-length integer of one of the reader's forms. -/
def IsVarint (octets : Bytes) (value : UInt64) : Prop :=
  readVarint octets = .ok (value, octets.length)

instance (octets : Bytes) (value : UInt64) : Decidable (IsVarint octets value) :=
  inferInstanceAs (Decidable (_ = _))

/-- A request within the limits of its decoder, with its integers in any form. -/
structure TcpRequest where
  frameType : Bytes
  addrLen : Bytes
  addr : Bytes
  padLen : Bytes
  padding : Bytes
  typed : IsVarint frameType frameTypeTcpRequest
  measured : IsVarint addrLen (UInt64.ofNat addr.length)
  nonempty : 0 < addr.length
  bounded : addr.length ≤ maxAddressLength
  padded : IsVarint padLen (UInt64.ofNat padding.length)
  paddingBounded : padding.length ≤ maxPaddingLength

/-- The octets of a request. -/
def TcpRequest.octets (request : TcpRequest) : Bytes :=
  request.frameType ++ (request.addrLen ++ (request.addr ++ (request.padLen ++ request.padding)))

/-- The address of a request as the server takes it. -/
def TcpRequest.address (request : TcpRequest) : String := fromUtf8Lossy request.addr

/-- An integer is taken from the front of other octets. -/
theorem take_varint_append (octets : Bytes) (value : UInt64) (more : Bytes)
    (isVarint : IsVarint octets value) : takeVarint (octets ++ more) = .ok (value, more) := by
  have alone : takeVarint octets = .ok (value, []) := by
    rw [takeVarint, isVarint, ← List.drop_length (l := octets)]
    rfl
  exact take_varint_stable.accepted octets more value [] alone

/-- A small length is read as itself. -/
theorem length_value (length : Nat) (small : length ≤ 4096) :
    (UInt64.ofNat length).toNat = length := by
  rw [UInt64.toNat_ofNat']
  omega

/-- A request is decoded with its address, whatever follows it. -/
theorem decode_octets (request : TcpRequest) (more : Bytes) :
    decodeTcpRequest (request.octets ++ more) = .ok (request.address, more) := by
  have small : request.addr.length ≤ 4096 := Nat.le_trans request.bounded (by decide)
  have addrValue := length_value request.addr.length small
  have padValue := length_value request.padding.length request.paddingBounded
  have usable : ¬(UInt64.ofNat request.addr.length = 0 ∨
      maxAddressLength < request.addr.length) := by
    rintro (zero | large)
    · have positive := request.nonempty
      rw [zero, UInt64.toNat_zero] at addrValue
      omega
    · exact absurd request.bounded (Nat.not_le.mpr large)
  have skipped : (skipPadding (request.padLen ++ (request.padding ++ more)) >>=
      fun left => .ok (request.address, left)) = .ok (request.address, more) := by
    have whole := congrFun (skip_padding_eq request.address)
      (request.padLen ++ (request.padding ++ more))
    rw [whole, take_varint_append _ _ _ request.padded, bind_ok_iff]
    refine ⟨_, rfl, ?_⟩
    rw [paddingBehind, padValue, if_neg (Nat.not_lt.mpr request.paddingBounded),
      if_neg (by rw [List.length_append]; omega), List.drop_left]
  have addressed : decodeAddress (request.addrLen ++ (request.addr ++ (request.padLen ++
      (request.padding ++ more)))) = .ok (request.address, more) := by
    rw [decode_address_eq]
    dsimp only
    rw [take_varint_append _ _ _ request.measured, bind_ok_iff]
    refine ⟨_, rfl, ?_⟩
    rw [addressBehind, addrValue, if_neg usable, if_neg (by rw [List.length_append]; omega),
      List.take_left, List.drop_left]
    exact skipped
  rw [decode_tcp_request_eq, TcpRequest.octets]
  simp only [List.append_assoc]
  rw [take_varint_append _ _ _ request.typed, bind_ok_iff]
  refine ⟨_, rfl, ?_⟩
  rw [requestBehind, if_neg (by simp)]
  exact addressed

/-- The octets of a request are read back without a rest. -/
theorem decode_octets_exact (request : TcpRequest) :
    decodeTcpRequest request.octets = .ok (request.address, []) := by
  simpa using decode_octets request []

/-- What a value is taken from are the octets of a varint and the octets left. -/
theorem take_varint_ok (data rest : Bytes) (value : UInt64)
    (taken : takeVarint data = .ok (value, rest)) :
    ∃ octets, data = octets ++ rest ∧ IsVarint octets value := by
  rw [takeVarint, bind_ok_iff] at taken
  obtain ⟨⟨found, used⟩, read, same⟩ := taken
  obtain ⟨rfl, rfl⟩ := Prod.mk.inj (Except.ok.inj same)
  cases data with
  | nil => simp [readVarint] at read
  | cons first data =>
    have width := read_varint_length first data found used read
    have widths := announced_len_cases first
    have enough : announcedLen first ≤ data.length + 1 := by
      by_contra short
      rw [readVarint] at read
      simp only [List.length_cons] at read
      rw [if_pos (by omega)] at read
      simp at read
    refine ⟨(first :: data).take used, (List.take_append_drop used _).symm, ?_⟩
    obtain ⟨more, rfl⟩ : ∃ more, used = more + 1 := ⟨used - 1, by omega⟩
    have count : (first :: data.take more).length = announcedLen first := by
      rw [List.length_cons, List.length_take]
      omega
    rw [List.take_succ_cons, IsVarint, readVarint]
    rw [readVarint] at read
    simp only [List.length_cons, ← width, Nat.add_sub_cancel] at read count ⊢
    rw [if_neg (by omega)] at read ⊢
    rw [count, List.take_take, Nat.min_self]
    exact read

/-- What the decoder accepts is a request and what follows it. -/
theorem decoded_iff (buf : Bytes) (addr : String) (rest : Bytes) :
    decodeTcpRequest buf = .ok (addr, rest) ↔
      ∃ request : TcpRequest, buf = request.octets ++ rest ∧ addr = request.address := by
  constructor
  · intro decoded
    rw [decode_tcp_request_eq] at decoded
    obtain ⟨⟨frame, behindFrame⟩, framed, decoded⟩ := (bind_ok_iff _ _ _).mp decoded
    obtain ⟨typed, decoded⟩ := (check_ok_iff _ _ _ _).mp decoded
    rw [decode_address_eq] at decoded
    obtain ⟨⟨addrLen, behindLen⟩, measured, decoded⟩ := (bind_ok_iff _ _ _).mp decoded
    obtain ⟨usable, decoded⟩ := (check_ok_iff _ _ _ _).mp decoded
    obtain ⟨⟨found, behindAddr⟩, addressed, decoded⟩ := (bind_ok_iff _ _ _).mp decoded
    obtain ⟨enough, addressed⟩ := (check_ok_iff _ _ _ _).mp addressed
    obtain ⟨rfl, rfl⟩ := Prod.mk.inj (Except.ok.inj addressed)
    have skipped := (congrFun (skip_padding_eq _) _).symm.trans decoded
    obtain ⟨⟨padLen, behindPad⟩, padded, skipped⟩ := (bind_ok_iff _ _ _).mp skipped
    obtain ⟨modest, skipped⟩ := (check_ok_iff _ _ _ _).mp skipped
    obtain ⟨there, skipped⟩ := (check_ok_iff _ _ _ _).mp skipped
    obtain ⟨rfl, rfl⟩ := Prod.mk.inj (Except.ok.inj skipped)
    obtain ⟨frameType, rfl, isFrame⟩ := take_varint_ok _ _ _ framed
    obtain ⟨lengthOctets, rfl, isLength⟩ := take_varint_ok _ _ _ measured
    obtain ⟨padOctets, behind, isPad⟩ := take_varint_ok _ _ _ padded
    dsimp only at typed usable enough modest there isFrame isLength isPad behind ⊢
    rw [not_or, Nat.not_lt] at usable
    have width : (behindLen.take addrLen.toNat).length = addrLen.toNat := by
      rw [List.length_take]
      omega
    have padWidth : (behindPad.take padLen.toNat).length = padLen.toNat := by
      rw [List.length_take]
      omega
    refine ⟨⟨frameType, lengthOctets, behindLen.take addrLen.toNat, padOctets,
      behindPad.take padLen.toNat, ?_, ?_, ?_, ?_, ?_, ?_⟩, ?_, rfl⟩
    · rw [← Decidable.not_not.mp typed]
      exact isFrame
    · rw [width, UInt64.ofNat_toNat]
      exact isLength
    · rw [width]
      exact Nat.pos_of_ne_zero fun zero => usable.1 (UInt64.toNat_inj.mp zero)
    · rw [width]
      exact usable.2
    · rw [padWidth, UInt64.ofNat_toNat]
      exact isPad
    · rw [padWidth]
      exact Nat.not_lt.mp modest
    · simp only [TcpRequest.octets, List.append_assoc, List.take_append_drop]
      rw [← behind, List.take_append_drop]
  · rintro ⟨request, rfl, rfl⟩
    exact decode_octets request rest

/-- A request has octets. -/
theorem octets_positive (request : TcpRequest) : 0 < request.octets.length := by
  have positive := request.nonempty
  simp only [TcpRequest.octets, List.length_append]
  omega

/-- A request larger than the buffer is refused, although the decoder accepts it. -/
theorem large_request_refused (request : TcpRequest) (pieces : List Bytes)
    (cut : pieces.flatten = request.octets) (large : headSize < request.octets.length) :
    (readRequest [] pieces).decision = .refuse (encodeTcpResponse false "addr too long") := by
  have decoded := decode_octets_exact request
  rw [← List.take_append_drop headSize request.octets] at decoded
  obtain ⟨error, refused, few⟩ := decode_tcp_request_stable.cut decoded
    (by rw [List.length_drop, List.length_nil]; omega)
  rw [read_request_decision, cut, verdictOn, refused]
  simp only [few, if_true, if_pos (Nat.le_of_lt large)]
  rfl

/-- A request that fits into the buffer is accepted, with some of what follows it sent back
and the rest not read. Nothing is sent back exactly when a read ended behind the request. -/
theorem fitting_request_accepted (request : TcpRequest) (payload : Bytes) (pieces : List Bytes)
    (cut : pieces.flatten = request.octets ++ payload)
    (fits : request.octets.length ≤ headSize) :
    ∃ rest unread, readRequest [] pieces =
        .accepted request.address (rest ++ encodeTcpResponse true "") unread ∧
      rest ++ unread = payload ∧
      (rest = [] ↔ request.octets.length = headSize ∨ ReadEndsAt request.octets [] pieces) := by
  obtain ⟨rest, unread, accepted, whole, ends⟩ := retry_accepts decode_tcp_request_stable
    (decode_octets_exact request) fits pieces [] (octets_positive request) cut
  refine ⟨rest, unread, ?_, whole, ends⟩
  rw [read_request_retries, accepted]
  rfl

/-- However its octets are cut into reads, a request is accepted with its address exactly
when it fits into the buffer. -/
theorem request_accepted_iff (request : TcpRequest) (pieces : List Bytes)
    (cut : pieces.flatten = request.octets) :
    (∃ sent unread, readRequest [] pieces = .accepted request.address sent unread) ↔
      request.octets.length ≤ headSize := by
  constructor
  · rintro ⟨sent, unread, read⟩
    by_contra large
    have refused := large_request_refused request pieces cut (by omega)
    rw [read] at refused
    simp [RequestRead.decision] at refused
  · intro fits
    obtain ⟨rest, unread, accepted, -⟩ :=
      fitting_request_accepted request [] pieces (by simpa using cut) fits
    exact ⟨_, _, accepted⟩

/-- A request for the address "a:1" without padding. -/
def bareRequest : TcpRequest where
  frameType := [0x44, 0x01]
  addrLen := [3]
  addr := [0x61, 0x3A, 0x31]
  padLen := [0]
  padding := []
  typed := by decide
  measured := by decide
  nonempty := by decide
  bounded := by decide
  padded := by decide
  paddingBounded := by decide

/-- The bare request arrives in two reads and is accepted. -/
theorem bare_request_accepted :
    (∃ sent unread, readRequest [] [[0x44, 0x01, 3, 0x61], [0x3A, 0x31, 0]] =
      .accepted bareRequest.address sent unread) ↔ bareRequest.octets.length ≤ headSize :=
  request_accepted_iff bareRequest [[0x44, 0x01, 3, 0x61], [0x3A, 0x31, 0]] (by decide)

/-- The same request with as much padding as the decoder allows. -/
def paddedRequest : TcpRequest :=
  { bareRequest with
    padLen := [0x50, 0]
    padding := List.replicate 4096 0
    padded := by
      rw [List.length_replicate]
      decide
    paddingBounded := by
      rw [List.length_replicate]
      decide }

/-- The padded request is refused although it is within all limits of the decoder. -/
theorem padded_request_refused :
    (readRequest [] [paddedRequest.octets]).decision =
        .refuse (encodeTcpResponse false "addr too long") ∧
      ¬∃ sent unread, readRequest [] [paddedRequest.octets] =
        .accepted paddedRequest.address sent unread := by
  have large : headSize < paddedRequest.octets.length := by
    have width : paddedRequest.padding.length = 4096 := List.length_replicate
    have typed : paddedRequest.frameType.length = 2 := rfl
    simp only [TcpRequest.octets, List.length_append, headSize]
    omega
  have refused := large_request_refused paddedRequest [paddedRequest.octets]
    (by rw [List.flatten_singleton]) large
  refine ⟨refused, ?_⟩
  rintro ⟨sent, unread, accepted⟩
  rw [accepted] at refused
  simp [RequestRead.decision] at refused

/-- What the client sends behind its request is what the stream yields, and the client
receives the answer alone. -/
def ForwardsEarlyData (request : TcpRequest) (payload : Bytes) (pieces : List Bytes) : Prop :=
  readRequest [] pieces = .accepted request.address (encodeTcpResponse true "") payload

/-- What is sent early reaches the stream exactly when no read takes it together with the
end of the request: one ends there, or the request fills the buffer. -/
theorem early_data_iff (request : TcpRequest) (payload : Bytes) (pieces : List Bytes)
    (cut : pieces.flatten = request.octets ++ payload)
    (fits : request.octets.length ≤ headSize) :
    ForwardsEarlyData request payload pieces ↔
      request.octets.length = headSize ∨ ReadEndsAt request.octets [] pieces := by
  obtain ⟨rest, unread, accepted, whole, ends⟩ :=
    fitting_request_accepted request payload pieces cut fits
  rw [← ends, ForwardsEarlyData, accepted]
  constructor
  · intro forwarded
    obtain ⟨-, answer, -⟩ := RequestRead.accepted.inj forwarded
    exact List.append_left_eq_self.mp answer
  · rintro rfl
    rw [List.nil_append] at whole ⊢
    rw [whole]

/-- Data that arrive after the request are forwarded. -/
theorem later_data_forwarded :
    ForwardsEarlyData bareRequest [0x68, 0x69]
        [[0x44, 0x01, 3, 0x61, 0x3A, 0x31, 0], [0x68, 0x69]] ↔
      bareRequest.octets.length = headSize ∨
        ReadEndsAt bareRequest.octets [] [[0x44, 0x01, 3, 0x61, 0x3A, 0x31, 0], [0x68, 0x69]] :=
  early_data_iff bareRequest [0x68, 0x69] [[0x44, 0x01, 3, 0x61, 0x3A, 0x31, 0], [0x68, 0x69]]
    (by decide) (by decide)

/-- Data that arrive with the request are sent back to the client and not forwarded. -/
theorem early_data_echoed :
    readRequest [] [[0x44, 0x01, 3, 0x61, 0x3A, 0x31, 0, 0x68, 0x69]] =
        .accepted bareRequest.address ([0x68, 0x69] ++ encodeTcpResponse true "") [] ∧
      ¬ForwardsEarlyData bareRequest [0x68, 0x69]
        [[0x44, 0x01, 3, 0x61, 0x3A, 0x31, 0, 0x68, 0x69]] := by
  have decoded := decode_octets bareRequest [0x68, 0x69]
  have octets : bareRequest.octets ++ [0x68, 0x69] =
      [0x44, 0x01, 3, 0x61, 0x3A, 0x31, 0, 0x68, 0x69] := by decide
  have echoed : readRequest [] [[0x44, 0x01, 3, 0x61, 0x3A, 0x31, 0, 0x68, 0x69]] =
      .accepted bareRequest.address ([0x68, 0x69] ++ encodeTcpResponse true "") [] := by
    rw [octets] at decoded
    rw [readRequest]
    simp only [headSize, List.length_nil, List.nil_append, List.take_succ_cons, List.take_nil,
      decoded]
    rfl
  refine ⟨echoed, ?_⟩
  rw [ForwardsEarlyData, echoed]
  decide

end Requests

end OmniProxy.Hysteria2Requests
