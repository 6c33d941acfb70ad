import OmniProxy.BlockReads
import OmniProxy.Digests
import OmniProxy.TrojanHeads

/-!
# Inbound upgrade handshakes

Two listeners take a request that asks to upgrade the connection, one for WebSocket and one
for a bare stream. Each reads in blocks until an empty line is there, has the head of the
request parsed by a library, answers that the protocols are switched, and passes the
connection on.

The octets behind the head that were read with it belong to the stream. The WebSocket
listener writes them back to the client, and the other one drops them.
-/

namespace OmniProxy.UpgradeHandshakes

open BlockReads ByteStrings Connections RetriedDecoders
open TrojanHeads (eqIgnoreAsciiCase)

section Requests

/-- What the parser of the library finds in a request: whether its head is there as a whole,
its path, and the names and the values of its headers. -/
structure ParsedRequest where
  complete : Bool
  path : Option String
  headers : List (String × Bytes)

/-- The parser, with the text of its refusals. -/
abbrev Httparse := Bytes → Except String ParsedRequest

def trimEndSlashes (p : String) : String :=
  String.ofList (p.toList.reverse.dropWhile (· = '/')).reverse

/-- A path without its query and its last slashes. -/
def normalize (p : String) : String :=
  let p := String.ofList (p.toList.takeWhile (· ≠ '?'))
  if p = "" ∨ p = "/" then "/" else trimEndSlashes p

/-- The wanted path or one below it. -/
def pathMatches (actual want : String) : Prop :=
  let a := normalize actual
  let w := normalize want
  a = w ∨ (trimEndSlashes w ++ "/").toList <+: a.toList

instance (actual want : String) : Decidable (pathMatches actual want) :=
  inferInstanceAs (Decidable (_ ∨ _))

/-- The parser looks at nothing behind a head that is complete. -/
def StopsAtHead (httparse : Httparse) : Prop :=
  ∀ head more request, httparse head = .ok request → request.complete →
    httparse (head ++ more) = .ok request

end Requests

namespace Ws

def ioerr (msg : String) : IoError := ⟨.other, msg⟩

/-- What a handshake reads of its configuration. -/
structure WsInboundSpec where
  path : Option String

def wsGuid : String := "258EAFA5-E914-47DA-95CA-C5AB0DC85B11"

/-- The answer to the key of a client, in the encoding of the library. -/
def acceptKey (base64 : Bytes → String) (key : String) : String :=
  base64 (Digests.sha1 (asBytes key ++ asBytes wsGuid)).toList

/-- The key and whether an upgrade to WebSocket is asked for, after one more header. -/
def readHeader (seen : Option String × Bool) (header : String × Bytes) : Option String × Bool :=
  let (key, upgradeOk) := seen
  (if eqIgnoreAsciiCase header.1 "sec-websocket-key" then some (fromUtf8Lossy header.2) else key,
    if eqIgnoreAsciiCase header.1 "upgrade" then
      decide (eqIgnoreAsciiCase (fromUtf8Lossy header.2) "websocket")
    else upgradeOk)

/-- The key of a head, unless the request is refused. -/
def requestKey (httparse : Httparse) (spec : WsInboundSpec) (head : Bytes) :
    Except IoError String := do
  let req ← (httparse head).mapError fun e => ⟨.invalidData, "ws: " ++ e⟩
  if ¬req.complete then throw (ioerr "ws: incomplete request")
  if ∃ want ∈ spec.path, ¬pathMatches (req.path.getD "/") want then
    throw (ioerr "ws: path mismatch")
  let (key, upgradeOk) := req.headers.foldl readHeader (none, false)
  if ¬upgradeOk then throw (ioerr "ws: not an upgrade request")
  match key with
  | some key => return key
  | none => throw (ioerr "ws: missing sec-websocket-key")

def response (base64 : Bytes → String) (key : String) : Bytes :=
  asBytes ("HTTP/1.1 101 Switching Protocols\r\nUpgrade: websocket\r\n" ++
    "Connection: Upgrade\r\nSec-WebSocket-Accept: " ++ acceptKey base64 key ++ "\r\n\r\n")

/-- Answer the request at the front of what has been read. -/
def answerRequest (httparse : Httparse) (base64 : Bytes → String) (spec : WsInboundSpec)
    (buf : Bytes) : SocketIo Unit := do
  let headerEnd ← MonadExcept.ofExcept <|
    match markAt emptyLine buf with
    | some p => .ok (p + 4)
    | none => .error (ioerr "ws: malformed request")
  let leftover := buf.drop headerEnd
  let key ← MonadExcept.ofExcept (requestKey httparse spec (buf.take headerEnd))
  write (response base64 key)
  if leftover ≠ [] then write leftover

/-- Take a request and answer it. The WebSocket of the library then begins on what is left of
the connection. -/
def handshakeInbound (httparse : Httparse) (base64 : Bytes → String) (spec : WsInboundSpec) :
    SocketIo Unit := do
  let buf ← readLoop (heldWith emptyLine) 2048 (64 * 1024) (ioerr "ws: oversized handshake")
    fun ending => ending.getD (ioerr "ws: closed during handshake")
  answerRequest httparse base64 spec buf

end Ws

namespace HttpUp

def ioerr (msg : String) : IoError := ⟨.other, msg⟩

/-- What a handshake reads of its configuration. -/
structure HttpUpSpec where
  path : Option String

/-- Accept what has been read, or refuse it. -/
def admits (httparse : Httparse) (spec : HttpUpSpec) (buf : Bytes) : Except IoError Unit := do
  let req ← (httparse buf).mapError fun e => ⟨.invalidData, "httpup: " ++ e⟩
  if req.path.getD "" = "" then throw (ioerr "httpup: missing path")
  if ∃ want ∈ spec.path, ¬pathMatches (req.path.getD "/") want then
    throw (ioerr "httpup: path mismatch")

def response : Bytes :=
  asBytes ("HTTP/1.1 101 Switching Protocols\r\nUpgrade: websocket\r\n" ++
    "Connection: Upgrade\r\n\r\n")

/-- Answer the request at the front of what has been read. -/
def answerRequest (httparse : Httparse) (spec : HttpUpSpec) (buf : Bytes) : SocketIo Unit := do
  MonadExcept.ofExcept (admits httparse spec buf)
  write response

/-- Take a request and answer it. The stream is what is left of the connection. -/
def handshakeInbound (httparse : Httparse) (spec : HttpUpSpec) : SocketIo Unit := do
  let buf ← readLoop (heldWith emptyLine) 2048 (64 * 1024) (ioerr "httpup: oversized handshake")
    fun ending => ending.getD (ioerr "httpup: closed during handshake")
  answerRequest httparse spec buf

end HttpUp

section EarlyData

variable {httparse : Httparse} {base64 : Bytes → String} {head : Bytes}

/-- A handshake that succeeds has written its answer and nothing else, and leaves the early
data, all of it, on the connection. -/
def KeepsEarlyData (handshake : SocketIo Unit) (socket : Socket) (answer d : Bytes) : Prop :=
  ∀ after, handshake.run socket = .ok () after →
    after.arriving.flatten = d ∧ after.written = socket.written ++ answer

/-- The WebSocket listener writes back what it has read behind the head. -/
theorem Ws.answer_request_run (spec : Ws.WsInboundSpec) {key : String}
    (ends : EndsAtMark emptyLine head) (accepted : Ws.requestKey httparse spec head = .ok key)
    (more : Bytes) (socket : Socket) :
    (Ws.answerRequest httparse base64 spec (head ++ more)).run socket =
      .ok () { socket with written := socket.written ++ Ws.response base64 key ++ more } := by
  obtain ⟨place, found, width⟩ := ends_at_mark_place ends more
  have front : (head ++ more).take (place + 4) = head := List.take_left' width.symm
  have behind : (head ++ more).drop (place + 4) = more := List.drop_left' width.symm
  refine (bind_yields_iff _ _ _ _ _).mpr ⟨place + 4, socket, ?_, ?_⟩
  · rw [found]
    rfl
  · dsimp only
    rw [front, behind]
    refine (bind_yields_iff _ _ _ _ _).mpr
      ⟨key, socket, (of_except_yields_iff _ _ _ _).mpr ⟨accepted, rfl⟩, ?_⟩
    refine (bind_yields_iff _ _ _ _ _).mpr ⟨(), _, (write_yields_iff _ _ _ _).mpr rfl, ?_⟩
    by_cases empty : more = []
    · subst empty
      rw [if_neg (not_not.mpr rfl), List.append_nil]
      rfl
    · rw [if_pos empty]
      rfl

/-- What is accepted depends on what the parser finds. -/
theorem HttpUp.admits_agrees (spec : HttpUp.HttpUpSpec) {buf other : Bytes}
    (same : httparse buf = httparse other) :
    HttpUp.admits httparse spec buf = HttpUp.admits httparse spec other := by
  rw [HttpUp.admits, HttpUp.admits, same]

/-- The other listener forgets what it has read behind the head. -/
theorem HttpUp.answer_request_run (spec : HttpUp.HttpUpSpec) {request : ParsedRequest}
    (stops : StopsAtHead httparse) (parsed : httparse head = .ok request)
    (complete : request.complete) (accepted : HttpUp.admits httparse spec head = .ok ())
    (more : Bytes) (socket : Socket) :
    (HttpUp.answerRequest httparse spec (head ++ more)).run socket =
      .ok () { socket with written := socket.written ++ HttpUp.response } := by
  have same := (stops head more request parsed complete).trans parsed.symm
  refine (bind_yields_iff _ _ _ _ _).mpr
    ⟨(), socket, (of_except_yields_iff _ _ _ _).mpr ⟨?_, rfl⟩, rfl⟩
  rw [HttpUp.admits_agrees spec same, accepted]

/-- A handshake that answers a whole head, and echoes what it has read behind it or does not,
keeps the early data exactly when it has read none of it. -/
theorem keeps_early_data_iff {answer : Bytes → SocketIo Unit} {reply : Bytes}
    {echo : Bytes → Bytes} (silent : echo [] = [])
    (answers : ∀ more socket, (answer (head ++ more)).run socket =
      .ok () { socket with written := socket.written ++ reply ++ echo more })
    (ends : EndsAtMark emptyLine head) (oversized : IoError) (ended : Option IoError → IoError)
    (segments : List Bytes) (ending : Option IoError) (written d : Bytes)
    (stream : segments.flatten = head ++ d) :
    KeepsEarlyData
        (readLoop (heldWith emptyLine) 2048 (64 * 1024) oversized ended >>= answer)
        ⟨segments, ending, written⟩ reply d ↔
      ReadEndsAt head [] (readsOf 2048 segments) ∨
        StopsInside (64 * 1024) head [] (readsOf 2048 segments) := by
  have appears := held_with_mark ends
  have nonempty : head ≠ [] := by
    rintro rfl
    obtain ⟨place, found, -⟩ := ends
    cases found
  have whole : (readsOf 2048 segments).flatten = head ++ d := by
    rw [reads_of_flatten (by decide), stream]
  rw [← leaves_payload_iff appears _ nonempty whole]
  constructor
  · intro keeps more unread search rest
    have left := (keeps _ ((bind_yields_iff _ _ _ _ _).mpr ⟨head ++ more, _,
      (read_loop_yields_iff _ _ _ _ _ _ _ _).mpr ⟨unread, search, rfl⟩, answers more _⟩)).1
    dsimp only at left
    rw [← left] at rest
    exact List.append_left_eq_self.mp rest
  · intro leaves after reached
    obtain ⟨buf, middle, read, answered⟩ := (bind_yields_iff _ _ _ _ _).mp reached
    obtain ⟨unread, search, rfl⟩ := (read_loop_yields_iff _ _ _ _ _ _ _ _).mp read
    obtain ⟨more, rfl, rest⟩ := found_whole appears _ nonempty whole search
    rw [answers] at answered
    obtain ⟨-, rfl⟩ := EStateM.Result.ok.inj answered
    obtain rfl := leaves more unread search rest
    exact ⟨rest, by rw [silent, List.append_nil]⟩

/-- With a head that is accepted, either handshake keeps the early data exactly when a read
ends at the end of the head, or it does not succeed since a read ends inside the head behind
its first 65536 octets. -/
theorem handshakes_keep_early_data_iff (httparse : Httparse) (base64 : Bytes → String)
    (stops : StopsAtHead httparse) (head d : Bytes) (ends : EndsAtMark emptyLine head)
    (segments : List Bytes) (ending : Option IoError) (written : Bytes)
    (stream : segments.flatten = head ++ d) :
    (∀ spec key, Ws.requestKey httparse spec head = .ok key →
      (KeepsEarlyData (Ws.handshakeInbound httparse base64 spec) ⟨segments, ending, written⟩
          (Ws.response base64 key) d ↔
        ReadEndsAt head [] (readsOf 2048 segments) ∨
          StopsInside (64 * 1024) head [] (readsOf 2048 segments))) ∧
    ∀ spec request, httparse head = .ok request → request.complete →
      HttpUp.admits httparse spec head = .ok () →
      (KeepsEarlyData (HttpUp.handshakeInbound httparse spec) ⟨segments, ending, written⟩
          HttpUp.response d ↔
        ReadEndsAt head [] (readsOf 2048 segments) ∨
          StopsInside (64 * 1024) head [] (readsOf 2048 segments)) := by
  constructor
  · intro spec key accepted
    have answers (more : Bytes) (socket : Socket) :
        (Ws.answerRequest httparse base64 spec (head ++ more)).run socket =
          .ok () { socket with written := socket.written ++ Ws.response base64 key ++ more } :=
      Ws.answer_request_run spec ends accepted more socket
    exact keeps_early_data_iff rfl answers ends _ _ segments ending written d stream
  · intro spec request parsed complete accepted
    have answers (more : Bytes) (socket : Socket) :
        (HttpUp.answerRequest httparse spec (head ++ more)).run socket =
          .ok () { socket with written := socket.written ++ HttpUp.response ++ [] } := by
      rw [HttpUp.answer_request_run spec stops parsed complete accepted, List.append_nil]
    exact keeps_early_data_iff (@rfl Bytes []) answers ends _ _ segments ending written d stream

/-- A request for an upgrade. -/
def exampleHead : Bytes :=
  asBytes ("GET / HTTP/1.1\r\nUpgrade: websocket\r\n" ++
    "Sec-WebSocket-Key: dGhlIHNhbXBsZSBub25jZQ==\r\n\r\n")

/-- What the parser of the library finds in it. -/
def exampleRequest : ParsedRequest :=
  ⟨true, some "/", [("Upgrade", asBytes "websocket"),
    ("Sec-WebSocket-Key", asBytes "dGhlIHNhbXBsZSBub25jZQ==")]⟩

/-- The parser on what begins with that request. -/
def exampleParser : Httparse := fun buf =>
  if exampleHead.isPrefixOf buf then .ok exampleRequest else .error "invalid token"

/-- The sample parser stops at the end of the head. -/
theorem example_parser_stops : StopsAtHead exampleParser := by
  intro head more request parsed complete
  by_cases front : exampleHead.isPrefixOf head
  · have longer : exampleHead.isPrefixOf (head ++ more) :=
      List.isPrefixOf_iff_prefix.mpr
        ((List.isPrefixOf_iff_prefix.mp front).trans (List.prefix_append head more))
    rw [exampleParser, if_pos front] at parsed
    rw [exampleParser, if_pos longer, parsed]
  · rw [exampleParser, if_neg front] at parsed
    cases parsed

/-- The encoding of the library, on the digest for the key of that request. -/
def exampleBase64 (_ : Bytes) : String := "s3pPLMBiTxaQ9kYGzzhZRbK+xOo="

/-- The sample head ends at its empty line. -/
theorem example_head_ends : EndsAtMark emptyLine exampleHead := ⟨79, by decide, by decide⟩

/-- The sample head is parsed as the sample request. -/
theorem example_parsed : exampleParser exampleHead = .ok exampleRequest :=
  if_pos (List.isPrefixOf_iff_prefix.mpr (List.prefix_refl exampleHead))

/-- The sample head has the sample key. -/
theorem example_key : Ws.requestKey exampleParser ⟨none⟩ exampleHead =
    .ok "dGhlIHNhbXBsZSBub25jZQ==" := by
  decide

/-- The sample head is admitted. -/
theorem example_admitted : HttpUp.admits exampleParser ⟨none⟩ exampleHead = .ok () := by
  decide

/-- Either handshake keeps early data that arrives after the head. -/
theorem early_data_behind_head_kept :
    KeepsEarlyData (Ws.handshakeInbound exampleParser exampleBase64 ⟨none⟩)
      ⟨[exampleHead, [104, 105]], none, []⟩
      (Ws.response exampleBase64 "dGhlIHNhbXBsZSBub25jZQ==") [104, 105] ∧
    KeepsEarlyData (HttpUp.handshakeInbound exampleParser ⟨none⟩)
      ⟨[exampleHead, [104, 105]], none, []⟩ HttpUp.response [104, 105] := by
  have reads : readsOf 2048 [exampleHead, [104, 105]] = [exampleHead, [104, 105]] := by
    have first := pieces_single 2048 exampleHead (by decide) (by decide)
    have second := pieces_single 2048 [(104 : UInt8), 105] (by decide) (by decide)
    rw [readsOf, List.flatMap_cons, List.flatMap_cons, List.flatMap_nil, first, second]
    rfl
  have separate : ReadEndsAt exampleHead [] (readsOf 2048 [exampleHead, [104, 105]]) :=
    ⟨[exampleHead], [[104, 105]], by rw [reads]; rfl, by simp⟩
  have kept := handshakes_keep_early_data_iff exampleParser exampleBase64 example_parser_stops
    exampleHead [104, 105] example_head_ends [exampleHead, [104, 105]] none []
    (by simp)
  exact ⟨(kept.1 _ _ example_key).mpr (.inl separate),
    (kept.2 ⟨none⟩ exampleRequest example_parsed rfl example_admitted).mpr (.inl separate)⟩

/-- Of early data that arrives with the head, one handshake writes the octets back to the client
and the other drops them. -/
theorem early_data_with_head_lost :
    (Ws.handshakeInbound exampleParser exampleBase64 ⟨none⟩).run
        ⟨[exampleHead ++ [104, 105]], none, []⟩ =
      .ok () ⟨[], none, Ws.response exampleBase64 "dGhlIHNhbXBsZSBub25jZQ==" ++ [104, 105]⟩ ∧
    (HttpUp.handshakeInbound exampleParser ⟨none⟩).run ⟨[exampleHead ++ [104, 105]], none, []⟩ =
      .ok () ⟨[], none, HttpUp.response⟩ ∧
    ¬KeepsEarlyData (Ws.handshakeInbound exampleParser exampleBase64 ⟨none⟩)
      ⟨[exampleHead ++ [104, 105]], none, []⟩
      (Ws.response exampleBase64 "dGhlIHNhbXBsZSBub25jZQ==") [104, 105] ∧
    ¬KeepsEarlyData (HttpUp.handshakeInbound exampleParser ⟨none⟩)
      ⟨[exampleHead ++ [104, 105]], none, []⟩ HttpUp.response [104, 105] := by
  have reads : readsOf 2048 [exampleHead ++ [104, 105]] = [exampleHead ++ [104, 105]] := by
    rw [readsOf, List.flatMap_cons, List.flatMap_nil, List.append_nil]
    exact pieces_single 2048 _ (by decide) (by decide)
  have search : readUntil (heldWith emptyLine) (64 * 1024) []
      (readsOf 2048 [exampleHead ++ [104, 105]]) = .found (exampleHead ++ [104, 105]) [] := by
    rw [reads]
    exact found_in_one_read (held_with_mark example_head_ends) (by decide) [104, 105]
  have echoed : (Ws.handshakeInbound exampleParser exampleBase64 ⟨none⟩).run
      ⟨[exampleHead ++ [104, 105]], none, []⟩ =
        .ok () ⟨[], none, Ws.response exampleBase64 "dGhlIHNhbXBsZSBub25jZQ==" ++ [104, 105]⟩ :=
    (bind_yields_iff _ _ _ _ _).mpr ⟨exampleHead ++ [104, 105], ⟨[], none, []⟩,
      (read_loop_yields_iff _ _ _ _ _ _ _ _).mpr ⟨[], search, rfl⟩,
      Ws.answer_request_run ⟨none⟩ example_head_ends example_key [104, 105] ⟨[], none, []⟩⟩
  have dropped : (HttpUp.handshakeInbound exampleParser ⟨none⟩).run
      ⟨[exampleHead ++ [104, 105]], none, []⟩ = .ok () ⟨[], none, HttpUp.response⟩ :=
    (bind_yields_iff _ _ _ _ _).mpr ⟨exampleHead ++ [104, 105], ⟨[], none, []⟩,
      (read_loop_yields_iff _ _ _ _ _ _ _ _).mpr ⟨[], search, rfl⟩,
      HttpUp.answer_request_run ⟨none⟩ example_parser_stops example_parsed rfl example_admitted
        [104, 105] ⟨[], none, []⟩⟩
  refine ⟨echoed, dropped, fun keeps => ?_, fun keeps => ?_⟩
  · have left := (keeps _ echoed).1
    cases left
  · have left := (keeps _ dropped).1
    cases left

end EarlyData

end OmniProxy.UpgradeHandshakes
