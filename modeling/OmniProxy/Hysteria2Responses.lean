import OmniProxy.Hysteria2Requests
import OmniProxy.Hysteria2Targets

/-!
# Answers to requests at a Hysteria2 client

The client reads once, at most 512 octets, takes what it has read for the whole answer
and hands on what it has not read. The decoder of answers does not tell where the answer
ends. So data behind the answer reach the stream exactly when that one read ends behind
it, and the answer is understood: the length of its message must survive on the wire, or
the message begins with octets that make another answer of it.
-/

namespace OmniProxy.Hysteria2Responses

open ByteStrings CheckedLoops Connections Hysteria2Wire Hysteria2Targets RetriedDecoders
open Hysteria2Requests

section Opening

/-- The error texts carry the name of the protocol. -/
def ioErr (msg : String) : IoError := .ofText ("hysteria2: " ++ msg)

/-- The size of the buffer for an answer. -/
def respSize : Nat := 512

/-- Read an answer with one read and return what is not read. -/
def awaitResponse : List Bytes → Except IoError Bytes
  | [] => .error (ioErr "closed")
  | piece :: pieces =>
      decodeTcpResponse (piece.take respSize) >>= fun (ok, msg) =>
        if !ok then .error (ioErr ("server refused TCP: " ++ msg))
        else .ok (piece.drop respSize ++ pieces.flatten)

/-- Open a stream to a target: what is sent, and what the stream yields then. -/
def openTcp (targetHost : String) (targetPort : UInt16) (pieces : List Bytes) :
    Bytes × Except IoError Bytes :=
  (encodeTcpRequest (addrStr targetHost targetPort), awaitResponse pieces)

/-- The first read takes some octets and no others. -/
def ReadAlone (octets : Bytes) (pieces : List Bytes) : Prop :=
  ∃ piece later, pieces = piece :: later ∧ piece.take respSize = octets

/-- The data behind an answer are what the stream yields exactly when the first read takes
the answer and no more, and the answer is understood as an acceptance. -/
theorem await_response_iff (response data : Bytes) (pieces : List Bytes)
    (cut : pieces.flatten = response ++ data) :
    awaitResponse pieces = .ok data ↔
      ReadAlone response pieces ∧ ∃ msg, decodeTcpResponse response = .ok (true, msg) := by
  constructor
  · intro opened
    cases pieces with
    | nil => simp [awaitResponse] at opened
    | cons piece pieces =>
      obtain ⟨⟨ok, msg⟩, decoded, opened⟩ := (bind_ok_iff _ _ _).mp opened
      obtain ⟨accepted, opened⟩ := (check_ok_iff _ _ _ _).mp opened
      have unread : piece.drop respSize ++ pieces.flatten = data := Except.ok.inj opened
      rw [List.flatten_cons, ← List.take_append_drop respSize piece, List.append_assoc,
        unread] at cut
      have alone := List.append_cancel_right cut
      have isTrue : ok = true := by simpa using accepted
      rw [alone, isTrue] at decoded
      exact ⟨⟨piece, pieces, rfl, alone⟩, msg, decoded⟩
  · rintro ⟨⟨piece, later, rfl, alone⟩, msg, decoded⟩
    rw [List.flatten_cons, ← List.take_append_drop respSize piece, List.append_assoc,
      alone] at cut
    have unread := List.append_cancel_left cut
    rw [awaitResponse, alone, decoded, bind_ok_iff]
    exact ⟨_, rfl, by simp [unread]⟩

end Opening

section Decoding

/-- Read a message of known length and the length of the padding behind it. -/
def messageBehind (status : UInt8) (msgLen : UInt64) (rest : Bytes) :
    Except IoError (Bool × String) :=
  if maxMessageLength < msgLen.toNat then
    .error ⟨.invalidData, "hysteria2: message too long"⟩
  else if rest.length < msgLen.toNat then
    .error ⟨.unexpectedEof, "hysteria2: truncated message"⟩
  else
    takeVarint (rest.drop msgLen.toNat) >>= fun pad =>
      if maxPaddingLength < pad.1.toNat then
        .error ⟨.invalidData, "hysteria2: padding too large"⟩
      else .ok (status == 0, fromUtf8Lossy (rest.take msgLen.toNat))

/-- A response is its status, a counted message and counted padding. -/
theorem decode_tcp_response_eq (status : UInt8) (body : Bytes) :
    decodeTcpResponse (status :: body) =
      takeVarint body >>= fun found => messageBehind status found.1 found.2 := by
  rw [← read_varint_bind, decodeTcpResponse]
  congr 1
  funext found
  dsimp only [messageBehind]
  split
  · rfl
  · split
    · rfl
    · exact read_varint_bind _ fun padLen _ =>
        if maxPaddingLength < padLen.toNat then
          .error ⟨.invalidData, "hysteria2: padding too large"⟩
        else .ok (status == 0, fromUtf8Lossy ((body.drop found.2).take found.1.toNat))

/-- Which octets are understood as an answer: a status, the length of a message in any
form, as many octets, and a length of padding, with anything behind it. -/
theorem decode_tcp_response_iff (status : UInt8) (body : Bytes) (ok : Bool) (msg : String) :
    decodeTcpResponse (status :: body) = .ok (ok, msg) ↔
      ∃ msgLen kept padLen more value padding,
        body = msgLen ++ (kept ++ (padLen ++ more)) ∧ IsVarint msgLen value ∧
        kept.length = value.toNat ∧ value.toNat ≤ maxMessageLength ∧
        IsVarint padLen padding ∧ padding.toNat ≤ maxPaddingLength ∧
        (status == 0) = ok ∧ fromUtf8Lossy kept = msg := by
  rw [decode_tcp_response_eq, bind_ok_iff]
  constructor
  · rintro ⟨⟨value, rest⟩, measured, decoded⟩
    obtain ⟨modest, decoded⟩ := (check_ok_iff _ _ _ _).mp decoded
    obtain ⟨enough, decoded⟩ := (check_ok_iff _ _ _ _).mp decoded
    obtain ⟨⟨padding, more⟩, padded, decoded⟩ := (bind_ok_iff _ _ _).mp decoded
    obtain ⟨small, decoded⟩ := (check_ok_iff _ _ _ _).mp decoded
    obtain ⟨rfl, rfl⟩ := Prod.mk.inj (Except.ok.inj decoded)
    obtain ⟨msgLen, rfl, isLength⟩ := take_varint_ok _ _ _ measured
    obtain ⟨padLen, behind, isPad⟩ := take_varint_ok _ _ _ padded
    dsimp only at modest enough small behind
    refine ⟨msgLen, rest.take value.toNat, padLen, more, value, padding, ?_, isLength, ?_,
      Nat.not_lt.mp modest, isPad, Nat.not_lt.mp small, rfl, rfl⟩
    · rw [← behind, List.take_append_drop]
    · rw [List.length_take]
      omega
  · rintro ⟨msgLen, kept, padLen, more, value, padding, rfl, isLength, width, modest, isPad,
      small, rfl, rfl⟩
    refine ⟨_, take_varint_append msgLen value _ isLength, ?_⟩
    change messageBehind status value (kept ++ (padLen ++ more)) = _
    rw [messageBehind, if_neg (Nat.not_lt.mpr modest),
      if_neg (by rw [List.length_append]; omega), ← width, List.drop_left, List.take_left,
      take_varint_append padLen padding more isPad, bind_ok_iff]
    exact ⟨_, rfl, if_neg (Nat.not_lt.mpr small)⟩

/-- Which octets are a varint, and of which value. -/
theorem is_varint_cons_iff (first : UInt8) (more : Bytes) (value : UInt64) :
    IsVarint (first :: more) value ↔ more.length + 1 = announcedLen first ∧
      value.toNat = (first &&& 0x3F).toNat * 256 ^ more.length + bigEndianValue more := by
  rw [IsVarint, List.length_cons]
  constructor
  · intro read
    have width := read_varint_length first more value _ read
    obtain ⟨found, again, meaning⟩ := read_varint_exact first more [] width
    rw [List.append_nil, read] at again
    obtain ⟨rfl, -⟩ := Prod.mk.inj (Except.ok.inj again)
    exact ⟨width, meaning⟩
  · rintro ⟨width, meaning⟩
    obtain ⟨found, read, same⟩ := read_varint_exact first more [] width
    rw [List.append_nil, ← width] at read
    rw [read, UInt64.toNat_inj.mp (same.trans meaning.symm)]

/-- The octet of a length from 64 to 255 and the first octets of the message are read as
the number of some octets behind them, and what follows these as a length of padding. -/
def Misread (msg : Bytes) : Prop :=
  ∃ taken kept padLen more padding,
    msg ++ [0] = taken ++ (kept ++ (padLen ++ more)) ∧
    taken.length + 1 = announcedLen (UInt8.ofNat msg.length) ∧
    kept.length = msg.length % 64 * 256 ^ taken.length + bigEndianValue taken ∧
    IsVarint padLen padding ∧ padding.toNat ≤ maxPaddingLength

/-- An acceptance whose length survives is understood. -/
theorem surviving_understood (msg : String) (bounded : msg.utf8ByteSize ≤ maxMessageLength)
    (surviving : SurvivingLength msg.utf8ByteSize) :
    ∃ found, decodeTcpResponse (encodeTcpResponse true msg) = .ok (true, found) := by
  obtain ⟨value, read⟩ := surviving_length_read msg.utf8ByteSize bounded surviving
  have isLength : IsVarint (encodeVarint (UInt64.ofNat msg.utf8ByteSize))
      (UInt64.ofNat msg.utf8ByteSize) := by simpa [IsVarint] using read []
  rw [encode_tcp_response_eq]
  simp only [if_true, decode_tcp_response_iff]
  refine ⟨_, _, asBytes msg, [0], [], _, 0, rfl, isLength, ?_, ?_, ?_, ?_, rfl, rfl⟩
  · rw [value, as_bytes_length]
  · rw [value]
    exact bounded
  · decide
  · decide

/-- One whose length takes one octet more than it is written with is understood if it is
misread. -/
theorem short_understood_iff (msg : String) (low : 64 ≤ msg.utf8ByteSize)
    (high : msg.utf8ByteSize < 256) :
    (∃ found, decodeTcpResponse (encodeTcpResponse true msg) = .ok (true, found)) ↔
      Misread (asBytes msg) := by
  obtain ⟨written, bits, -⟩ := encode_short_length msg.utf8ByteSize low high
  rw [encode_tcp_response_eq]
  simp only [if_true, decode_tcp_response_iff, Misread, written, as_bytes_length]
  constructor
  · rintro ⟨-, msgLen, kept, padLen, more, value, padding, whole, isLength, width, modest,
      isPad, small, -, -⟩
    cases msgLen with
    | nil => simp [IsVarint, readVarint] at isLength
    | cons first taken =>
      rw [List.singleton_append, List.cons_append, List.cons.injEq] at whole
      obtain ⟨rfl, whole⟩ := whole
      obtain ⟨announced, meaning⟩ := (is_varint_cons_iff _ _ _).mp isLength
      rw [bits] at meaning
      exact ⟨taken, kept, padLen, more, padding, whole, announced, width.trans meaning, isPad,
        small⟩
  · rintro ⟨taken, kept, padLen, more, padding, whole, announced, width, isPad, small⟩
    obtain ⟨value, -, meaning⟩ := read_varint_exact _ taken [] announced
    rw [bits] at meaning
    have inside := congrArg List.length whole
    simp only [List.length_append, List.length_singleton, as_bytes_length] at inside
    refine ⟨_, UInt8.ofNat msg.utf8ByteSize :: taken, kept, padLen, more, value, padding, ?_,
      ?_, width.trans meaning.symm, ?_, isPad, small, rfl, rfl⟩
    · rw [List.singleton_append, List.cons_append, whole]
    · exact (is_varint_cons_iff _ _ _).mpr ⟨announced, by rw [bits, meaning]⟩
    · rw [meaning, ← width, maxMessageLength]
      omega

/-- An acceptance with a message is understood as one exactly when the length of the
message survives, or the message is misread as another one. -/
theorem acceptance_understood_iff (msg : String) (bounded : msg.utf8ByteSize ≤ maxMessageLength) :
    (∃ found, decodeTcpResponse (encodeTcpResponse true msg) = .ok (true, found)) ↔
      SurvivingLength msg.utf8ByteSize ∨
        64 ≤ msg.utf8ByteSize ∧ msg.utf8ByteSize < 256 ∧ Misread (asBytes msg) := by
  by_cases surviving : SurvivingLength msg.utf8ByteSize
  · exact iff_of_true (surviving_understood msg bounded surviving) (.inl surviving)
  · have ⟨low, high⟩ : 64 ≤ msg.utf8ByteSize ∧ msg.utf8ByteSize < 256 := by
      simp only [SurvivingLength] at surviving
      omega
    rw [short_understood_iff msg low high, or_iff_right surviving]
    exact ⟨fun misread => ⟨low, high, misread⟩, fun short => short.2.2⟩

/-- Only messages of 64, 128 or 192 octets can be misread as an answer. -/
theorem misread_lengths (msg : Bytes) (low : 64 ≤ msg.length) (high : msg.length < 256)
    (misread : Misread msg) : msg.length = 64 ∨ msg.length = 128 ∨ msg.length = 192 := by
  obtain ⟨taken, kept, padLen, more, padding, whole, announced, width, isPad, -⟩ := misread
  have inside := congrArg List.length whole
  simp only [List.length_append, List.length_singleton] at inside
  by_contra other
  have written := (encode_short_length msg.length low high).2.2.1
  have power : 256 ≤ 256 ^ taken.length := Nat.le_self_pow (by omega) 256
  have large : 256 ^ taken.length ≤ msg.length % 64 * 256 ^ taken.length :=
    Nat.le_mul_of_pos_left _ (by omega)
  omega

end Decoding

section Keeping

/-- However the answer and the data behind it are cut into reads, the stream yields the
data exactly when the first read takes the answer alone, and its message survives or is
misread as another one. -/
theorem open_tcp_keeps_data_iff (targetHost : String) (targetPort : UInt16) (msg : String)
    (data : Bytes) (pieces : List Bytes) (bounded : msg.utf8ByteSize ≤ maxMessageLength)
    (cut : pieces.flatten = encodeTcpResponse true msg ++ data) :
    (openTcp targetHost targetPort pieces).2 = .ok data ↔
      ReadAlone (encodeTcpResponse true msg) pieces ∧
        (SurvivingLength msg.utf8ByteSize ∨
          64 ≤ msg.utf8ByteSize ∧ msg.utf8ByteSize < 256 ∧ Misread (asBytes msg)) := by
  rw [← acceptance_understood_iff msg bounded]
  exact await_response_iff _ data pieces cut

/-- The answer without a message in one read, and data in the next. -/
theorem later_data_kept :
    (openTcp "a" 1 [[0, 0, 0], [0x68, 0x69]]).2 = .ok [0x68, 0x69] ↔
      ReadAlone (encodeTcpResponse true "") [[0, 0, 0], [0x68, 0x69]] ∧
        (SurvivingLength "".utf8ByteSize ∨
          64 ≤ "".utf8ByteSize ∧ "".utf8ByteSize < 256 ∧ Misread (asBytes "")) :=
  open_tcp_keeps_data_iff "a" 1 "" [0x68, 0x69] [[0, 0, 0], [0x68, 0x69]] (by decide) (by decide)

/-- Data in the same read as the answer are lost, and half an answer is refused. -/
theorem glued_data_lost :
    encodeTcpResponse true "" = [0, 0, 0] ∧
      (openTcp "a" 1 [[0, 0, 0, 0x68, 0x69]]).2 = .ok [] ∧
      (openTcp "a" 1 [[0], [0, 0, 0x68, 0x69]]).2 =
        .error ⟨.unexpectedEof, "hysteria2: empty varint"⟩ ∧
      (openTcp "a" 1 [[0, 0, 0, 0x68, 0x69]]).2 ≠ .ok [0x68, 0x69] := by
  have lost : (openTcp "a" 1 [[0, 0, 0, 0x68, 0x69]]).2 = .ok [] := rfl
  refine ⟨by decide, lost, rfl, ?_⟩
  rw [lost]
  simp

end Keeping

end OmniProxy.Hysteria2Responses
