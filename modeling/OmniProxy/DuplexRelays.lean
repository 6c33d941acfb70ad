import OmniProxy.FedReaders
import OmniProxy.GuardedRuns
import OmniProxy.PolledReaders

/-!
# Two duplexes and the connection between them

A duplex has two pumps. The write pump takes slices from a channel and writes each that is not
empty as chunks; when the channel is closed, or a write has failed, it writes the empty slice.
The read pump reads into blocks of 16384 octets and sends what it got through another channel,
then an error if there is one, then an empty block. Polling the duplex hands the blocks out as
far as the buffers go; an empty block is the end.

The code is the same for both chunk streams that use it, so the chunk stream is a parameter: a
framing with a fed reader, and what writing a slice does. A relay is the write half of one
duplex, the octets that are on their way and the read half of the other. Its steps come in any
order: calls on the duplexes, rounds of the pumps, octets that arrive, the end of the
connection at any place, and a write that fails after any number of octets. Once a write has
failed, the connection takes nothing more.
-/

namespace OmniProxy.DuplexRelays

open ByteStrings BufferedReads EStateM FedReaders FramedStreams GuardedRuns PolledReaders

variable {σ ω ε : Type}

section Model

/-- The write half of a duplex with its pump: what the channel holds, the pump's writer, whether
the pump is still in its loop, whether the duplex is held, and what has been accepted. -/
structure WriteHalf (ω : Type) where
  queue : List Bytes
  writer : ω
  pumping : Bool
  held : Bool
  accepted : List Bytes

/-- The read half of a duplex with its pump: the pump's reader, what the channel holds, whether
the pump is still in its loop, the octets taken from the channel and not handed out, whether
the end was seen, and whether the duplex is held. -/
structure ReadHalf (σ ε : Type) where
  reader : σ
  channel : List (Except ε Bytes)
  pumping : Bool
  pending : Bytes
  eof : Bool
  held : Bool

/-- One direction between two duplexes. `wire` has been sent and has not arrived; the last two
fields record what the reads have given. -/
structure Relay (σ ω ε : Type) where
  sender : WriteHalf ω
  wire : Bytes
  broken : Bool
  closed : Bool
  receiver : ReadHalf σ ε
  delivered : Bytes
  errors : List ε

/-- A call on a duplex, a round of a pump, or a step of the connection. -/
inductive Event where
  | pollWrite (buf : Bytes)
  | dropSender
  | writeRound
  | writeFails (count : Nat)
  | arrive (count : Nat)
  | close
  | readRound
  | pollRead (size : Nat)
  | dropReceiver

/-- Poll the read half into a buffer of some size. Every turn of the loop that does not end
takes a block from the channel. -/
def ReadHalf.pollRead (size : Nat) (half : ReadHalf σ ε) :
    Poll (Except ε Bytes) × ReadHalf σ ε :=
  if half.pending ≠ [] then
    (.ready (.ok (half.pending.take size)), { half with pending := half.pending.drop size })
  else if half.eof then (.ready (.ok []), half)
  else
    match _taken : half.channel with
    | [] => if half.pumping then (.pending, half) else (.ready (.ok []), { half with eof := true })
    | .ok data :: channel =>
        if data.isEmpty then pollRead size { half with eof := true, channel := channel }
        else pollRead size { half with pending := data, channel := channel }
    | .error error :: channel =>
        (.ready (.error error), { half with eof := true, channel := channel })
termination_by half.channel.length
decreasing_by all_goals simp [_taken]

/-- Hand a slice to the channel; it is refused when the pump has gone. -/
def WriteHalf.pollWrite (half : WriteHalf ω) (buf : Bytes) : WriteHalf ω :=
  if half.held && half.pumping then
    { half with queue := half.queue ++ [buf], accepted := half.accepted ++ [buf] }
  else half

/-- The error that a completed read has reported. -/
def reported : Poll (Except ε Bytes) → List ε
  | .ready (.error error) => [error]
  | _ => []

/-- The state in which a write leaves its writer, whatever its result. -/
def afterWrite : Result ε ω Unit → ω
  | .ok _ writer => writer
  | .error _ writer => writer

variable (framed : FedFraming σ ω ε) (writeChunk : ω → Bytes → Result ε ω Unit)

/-- A relay between a writer and a reader, before anything was written. -/
def Relay.start (writer : ω) (reader : σ) : Relay σ ω ε where
  sender := ⟨[], writer, true, true, []⟩
  wire := []
  broken := false
  closed := false
  receiver := ⟨reader, [], true, [], false, true⟩
  delivered := []
  errors := []

/-- The octets that a writer has sent since it was another. -/
def sentSince (before after : ω) : Bytes :=
  (framed.framing.sent after).drop (framed.framing.sent before).length

/-- The write pump leaves its loop: it writes the empty slice and ignores the result. -/
def Relay.finish (relay : Relay σ ω ε) : Relay σ ω ε :=
  let writer := afterWrite (writeChunk relay.sender.writer [])
  { relay with
    sender := { relay.sender with queue := [], writer := writer, pumping := false }
    wire := relay.wire ++ sentSince framed relay.sender.writer writer }

/-- A round of the write pump: it takes the first slice of the channel, or learns that the
channel is closed, or waits. -/
def Relay.writeRound (relay : Relay σ ω ε) : Relay σ ω ε :=
  if relay.sender.pumping then
    match relay.sender.queue with
    | [] => if relay.sender.held then relay else relay.finish framed writeChunk
    | slice :: queue =>
        if slice.isEmpty then { relay with sender := { relay.sender with queue := queue } }
        else
          let result := writeChunk relay.sender.writer slice
          let writer := afterWrite result
          let after := { relay with
            sender := { relay.sender with queue := queue, writer := writer }
            wire := relay.wire ++ sentSince framed relay.sender.writer writer }
          match result with
          | .ok _ _ => after
          | .error _ _ => after.finish framed writeChunk
  else relay

/-- The write that a round of the pump would make fails after some octets, and the pump leaves
its loop. The connection takes nothing more, so what the pump still writes is lost. -/
def Relay.writeFails (relay : Relay σ ω ε) (count : Nat) : Relay σ ω ε :=
  let fail (slice : Bytes) : Relay σ ω ε :=
    let writer := afterWrite (writeChunk relay.sender.writer slice)
    { relay with
      sender := { relay.sender with queue := [], writer := writer, pumping := false }
      wire := relay.wire ++ (sentSince framed relay.sender.writer writer).take count
      broken := true }
  if relay.sender.pumping then
    match relay.sender.queue with
    | [] => if relay.sender.held then relay else fail []
    | slice :: _ => if slice.isEmpty then relay else fail slice
  else relay

/-- The room of a read of the read pump. -/
def readBlock : Nat := 16384

variable [DecidableEq ε]

/-- A round of the read pump. It waits when its input runs dry while the connection is open;
what it sends is lost, and the first block ends its loop, when the duplex was dropped. -/
def Relay.readRound (relay : Relay σ ω ε) : Relay σ ω ε :=
  let receiver := relay.receiver
  if receiver.pumping then
    match readData framed.source.toSource readBlock receiver.reader with
    | .ok out reader =>
        if out.isEmpty then
          let channel := if receiver.held then receiver.channel ++ [.ok []] else []
          { relay with
            receiver := { receiver with reader := reader, channel := channel, pumping := false } }
        else if receiver.held then
          let channel := receiver.channel ++ [.ok out]
          { relay with receiver := { receiver with reader := reader, channel := channel } }
        else { relay with receiver := { receiver with reader := reader, pumping := false } }
    | .error error reader =>
        if error = framed.source.dry ∧ relay.closed = false then relay
        else
          let channel :=
            if receiver.held then receiver.channel ++ [.error error, .ok []] else []
          { relay with
            receiver := { receiver with reader := reader, channel := channel, pumping := false } }
  else relay

/-- Poll the receiving duplex and record what it gives. -/
def Relay.pollRead (relay : Relay σ ω ε) (size : Nat) : Relay σ ω ε :=
  if relay.receiver.held then
    let (completion, receiver) := relay.receiver.pollRead size
    { relay with
      receiver := receiver
      delivered := relay.delivered ++ given completion
      errors := relay.errors ++ reported completion }
  else relay

def Relay.step (relay : Relay σ ω ε) : Event → Relay σ ω ε
  | .pollWrite buf => { relay with sender := relay.sender.pollWrite buf }
  | .dropSender => { relay with sender := { relay.sender with held := false } }
  | .writeRound => relay.writeRound framed writeChunk
  | .writeFails count => relay.writeFails framed writeChunk count
  | .arrive count =>
      if relay.closed then relay
      else
        { relay with
          wire := relay.wire.drop count
          receiver := { relay.receiver with
            reader := framed.source.feed relay.receiver.reader (relay.wire.take count) } }
  | .close => { relay with closed := true }
  | .readRound => relay.readRound framed
  | .pollRead size => relay.pollRead size
  | .dropReceiver =>
      { relay with receiver := { relay.receiver with held := false, channel := [], pending := [] } }

/-- A run of a relay between a writer and a reader. -/
abbrev relayRun (writer : ω) (reader : σ) (events : List Event) : Relay σ ω ε :=
  GuardedRuns.run (Relay.step framed writeChunk) (.start writer reader) events

end Model

section Polls

/-- Octets that are left over answer a poll. -/
theorem poll_pending (half : ReadHalf σ ε) (size : Nat) (nonempty : half.pending ≠ []) :
    half.pollRead size = (.ready (.ok (half.pending.take size)),
      { half with pending := half.pending.drop size }) := by
  rw [ReadHalf.pollRead, if_pos nonempty]

/-- The end is reported again and again. -/
theorem poll_ended (half : ReadHalf σ ε) (size : Nat) (empty : half.pending = [])
    (ended : half.eof = true) : half.pollRead size = (.ready (.ok []), half) := by
  rw [ReadHalf.pollRead, if_neg (not_not.mpr empty), if_pos ended]

/-- Without a block, a poll waits while the pump is in its loop. -/
theorem poll_waits (half : ReadHalf σ ε) (size : Nat) (nothing : half.pending = [])
    (open_ : half.eof = false) (empty : half.channel = []) (pumping : half.pumping = true) :
    half.pollRead size = (.pending, half) := by
  obtain ⟨reader, channel, running, pending, eof, held⟩ := half
  dsimp only at nothing open_ empty pumping
  subst nothing open_ empty pumping
  rw [ReadHalf.pollRead]
  simp

/-- The first block answers a poll as far as the buffer goes. -/
theorem poll_block (half : ReadHalf σ ε) (size : Nat) (empty : half.pending = [])
    (open_ : half.eof = false) {data : Bytes} {channel : List (Except ε Bytes)}
    (first : half.channel = .ok data :: channel) (nonempty : data ≠ []) :
    half.pollRead size = (.ready (.ok (data.take size)),
      { half with pending := data.drop size, channel := channel }) := by
  obtain ⟨reader, blocks, running, pending, eof, held⟩ := half
  dsimp only at empty open_ first
  subst empty open_ first
  rw [ReadHalf.pollRead]
  simp only [ne_eq, not_true_eq_false, if_false, Bool.false_eq_true, List.isEmpty_iff, nonempty]
  exact poll_pending _ size nonempty

/-- An empty block is the end. -/
theorem poll_blank (half : ReadHalf σ ε) (size : Nat) (empty : half.pending = [])
    (open_ : half.eof = false) {channel : List (Except ε Bytes)}
    (first : half.channel = .ok [] :: channel) :
    half.pollRead size = (.ready (.ok []), { half with eof := true, channel := channel }) := by
  obtain ⟨reader, blocks, running, pending, eof, held⟩ := half
  dsimp only at empty open_ first
  subst empty open_ first
  rw [ReadHalf.pollRead]
  simp only [ne_eq, not_true_eq_false, if_false, Bool.false_eq_true, List.isEmpty_iff, if_true]
  exact poll_ended _ size rfl rfl

/-- An error is reported, and the end is seen with it. -/
theorem poll_error (half : ReadHalf σ ε) (size : Nat) (empty : half.pending = [])
    (open_ : half.eof = false) {error : ε} {channel : List (Except ε Bytes)}
    (first : half.channel = .error error :: channel) :
    half.pollRead size =
      (.ready (.error error), { half with eof := true, channel := channel }) := by
  obtain ⟨reader, blocks, running, pending, eof, held⟩ := half
  dsimp only at empty open_ first
  subst empty open_ first
  rw [ReadHalf.pollRead]
  simp

/-- Without a pump or a block, a poll gives the end. -/
theorem poll_gone (half : ReadHalf σ ε) (size : Nat) (nothing : half.pending = [])
    (open_ : half.eof = false) (empty : half.channel = []) (stopped : half.pumping = false) :
    half.pollRead size = (.ready (.ok []), { half with eof := true }) := by
  obtain ⟨reader, channel, running, pending, eof, held⟩ := half
  dsimp only at nothing open_ empty stopped
  subst nothing open_ empty stopped
  rw [ReadHalf.pollRead]
  simp

/-- A poll keeps the pump and the hold of a read half. -/
theorem poll_keeps (half : ReadHalf σ ε) (size : Nat) :
    (half.pollRead size).2.held = half.held ∧
      (half.pollRead size).2.pumping = half.pumping := by
  by_cases empty : half.pending = []
  · cases open_ : half.eof with
    | true => rw [poll_ended half size empty open_]; exact ⟨rfl, rfl⟩
    | false =>
      cases filled : half.channel with
      | nil =>
        cases pumping : half.pumping with
        | true => rw [poll_waits half size empty open_ filled pumping]; exact ⟨rfl, pumping⟩
        | false => rw [poll_gone half size empty open_ filled pumping]; exact ⟨rfl, pumping⟩
      | cons block channel =>
        cases block with
        | error error => rw [poll_error half size empty open_ filled]; exact ⟨rfl, rfl⟩
        | ok data =>
          by_cases nothing : data = []
          · subst nothing
            rw [poll_blank half size empty open_ filled]
            exact ⟨rfl, rfl⟩
          · rw [poll_block half size empty open_ filled nothing]
            exact ⟨rfl, rfl⟩
  · rw [poll_pending half size empty]
    exact ⟨rfl, rfl⟩

/-- A poll with room gives the end only when nothing is left over, and the end was seen, or the
channel is closed, or its first block is empty. -/
theorem poll_end_found (half : ReadHalf σ ε) {size : Nat} (room : 0 < size)
    (ended : (half.pollRead size).1 = .ready (.ok [])) :
    half.pending = [] ∧ (half.eof = true ∨ (half.channel = [] ∧ half.pumping = false) ∨
      ∃ channel, half.channel = .ok [] :: channel) := by
  have taken : ∀ octets : Bytes,
      (.ready (.ok (octets.take size)) : Poll (Except ε Bytes)) = .ready (.ok []) →
      octets = [] := by
    intro octets same
    rcases List.take_eq_nil_iff.mp (Except.ok.inj (Poll.ready.inj same)) with zero | nothing
    · omega
    · exact nothing
  by_cases empty : half.pending = []
  · refine ⟨empty, ?_⟩
    cases open_ : half.eof with
    | true => exact .inl rfl
    | false =>
      right
      cases filled : half.channel with
      | nil =>
        cases pumping : half.pumping with
        | true =>
          rw [poll_waits half size empty open_ filled pumping] at ended
          cases ended
        | false => exact .inl ⟨rfl, rfl⟩
      | cons block channel =>
        cases block with
        | error error =>
          rw [poll_error half size empty open_ filled] at ended
          cases ended
        | ok data =>
          by_cases bare : data = []
          · exact .inr ⟨channel, by rw [bare]⟩
          · rw [poll_block half size empty open_ filled bare] at ended
            exact absurd (taken data ended) bare
  · rw [poll_pending half size empty] at ended
    exact absurd (taken _ ended) empty

end Polls

section Account

/-- The octets of the blocks that a channel holds. -/
def blocksOf : List (Except ε Bytes) → Bytes
  | [] => []
  | .ok data :: channel => data ++ blocksOf channel
  | .error _ :: channel => blocksOf channel

/-- The blocks of two parts of a channel are those of the one and then those of the other.
-/
theorem blocks_append (front rest : List (Except ε Bytes)) :
    blocksOf (front ++ rest) = blocksOf front ++ blocksOf rest := by
  induction front with
  | nil => rfl
  | cons block front inductionHypothesis =>
    cases block with
    | error error => exact inductionHypothesis
    | ok data =>
      rw [List.cons_append, blocksOf, blocksOf, inductionHypothesis, List.append_assoc]

variable (framed : FedFraming σ ω ε) (writeChunk : ω → Bytes → Result ε ω Unit) (marked : Bool)

/-- What a relay needs of its writer: slices are carried, and the empty slice is either a mark
that ends the stream or writes nothing that a reader would see. -/
structure Writing : Prop where
  carries : ∀ slice writer last, slice ≠ [] →
    Carries framed.framing last (fun writer => writeChunk writer slice) slice writer
  ends : ∀ writer, ∃ frames after, writeChunk writer [] = .ok () after ∧
    framed.framing.sent after = framed.framing.sent writer ++ frames ∧
    Expects framed.framing (if marked then SeenEnd framed else AtWriter framed after) frames []
      writer

/-- What the sender still owes: the reader comes to `tail` once the octets on their way and the
`missing` ones have arrived, which a failed write has kept back; `unsent` is not written. -/
structure Due (sender : WriteHalf ω) (broken : Bool) (tail : σ → Prop) (missing unsent : Bytes) :
    Prop where
  running : sender.pumping = true → broken = false ∧ tail = AtWriter framed sender.writer ∧
    missing = [] ∧ unsent = sender.queue.flatten
  finished : sender.pumping = false → broken = false →
    missing = [] ∧ unsent = [] ∧ sender.held = false ∧ (marked = true → tail = SeenEnd framed)
  kind : (∃ writer, tail = AtWriter framed writer) ∨ (marked = true ∧ tail = SeenEnd framed ∧
    unsent = [] ∧ sender.held = false ∧ sender.pumping = false)

/-- Everything was written with its end, and the reader has decoded all of it. -/
structure Complete (sender : WriteHalf ω) (rest unsent : Bytes) : Prop where
  marked : marked = true
  decoded : rest = []
  written : unsent = []
  dropped : sender.held = false
  ended : sender.pumping = false

/-- What the channel of the read half holds, by what has become of its pump. -/
inductive Phase (relay : Relay σ ω ε) (rest unsent : Bytes) : Prop where
  | flowing (chunks : List Bytes) (nonempty : ∀ chunk ∈ chunks, chunk ≠ [])
      (pumping : relay.receiver.pumping = true) (open_ : relay.receiver.eof = false)
      (silent : relay.errors = []) (channel : relay.receiver.channel = chunks.map .ok)
  | ending (chunks : List Bytes) (nonempty : ∀ chunk ∈ chunks, chunk ≠ [])
      (stopped : relay.receiver.pumping = false) (open_ : relay.receiver.eof = false)
      (silent : relay.errors = [])
      (channel : relay.receiver.channel = chunks.map .ok ++ [.ok []])
      (complete : Complete marked relay.sender rest unsent)
  | failing (chunks : List Bytes) (nonempty : ∀ chunk ∈ chunks, chunk ≠ [])
      (stopped : relay.receiver.pumping = false) (open_ : relay.receiver.eof = false)
      (silent : relay.errors = [])
      (channel : relay.receiver.channel =
        chunks.map .ok ++ [.error framed.source.dry, .ok []])
      (closed : relay.closed = true)
  | ended (stopped : relay.receiver.pumping = false) (seen : relay.receiver.eof = true)
      (nothing : relay.receiver.pending = []) (empty : blocksOf relay.receiver.channel = [])
      (result : relay.errors = [] ∧ Complete marked relay.sender rest unsent ∨
        relay.errors = [framed.source.dry] ∧ relay.closed = true)

/-- What was accepted is what was delivered, what the read half holds, what its reader will
decode and what is not written, in this order. -/
structure Account (relay : Relay σ ω ε) (tail : σ → Prop) (rest missing unsent : Bytes) :
    Prop where
  balance : relay.sender.accepted.flatten = relay.delivered ++ (relay.receiver.pending ++
    (blocksOf relay.receiver.channel ++ (rest ++ unsent)))
  feeds : relay.receiver.pumping = true → Feeds framed.source.toSource tail
    (framed.source.feed relay.receiver.reader (relay.wire ++ missing)) rest
  due : Due framed marked relay.sender relay.broken tail missing unsent
  phase : Phase framed marked relay rest unsent

/-- What is delivered is a front of what was accepted, and the account is kept while the
receiving duplex is held. -/
structure Relayed (relay : Relay σ ω ε) : Prop where
  following : relay.delivered <+: relay.sender.accepted.flatten
  account : relay.receiver.held = true →
    ∃ tail rest missing unsent, Account framed marked relay tail rest missing unsent

variable {framed writeChunk marked}

/-- The phase is that of another relay with the same read half, if what ended one is true of
the other. -/
theorem Phase.moved {relay other : Relay σ ω ε} {rest unsent restAfter unsentAfter : Bytes}
    (phase : Phase framed marked relay rest unsent)
    (receiver : other.receiver.channel = relay.receiver.channel ∧
      other.receiver.pumping = relay.receiver.pumping ∧ other.receiver.eof = relay.receiver.eof ∧
      (relay.receiver.pending = [] → other.receiver.pending = []))
    (errors : other.errors = relay.errors) (closed : relay.closed = true → other.closed = true)
    (complete : Complete marked relay.sender rest unsent →
      Complete marked other.sender restAfter unsentAfter) :
    Phase framed marked other restAfter unsentAfter := by
  obtain ⟨sameChannel, samePumping, sameEof, samePending⟩ := receiver
  cases phase with
  | flowing chunks nonempty pumping open_ silent channel =>
    exact .flowing chunks nonempty (samePumping.trans pumping) (sameEof.trans open_)
      (errors.trans silent) (sameChannel.trans channel)
  | ending chunks nonempty stopped open_ silent channel whole =>
    exact .ending chunks nonempty (samePumping.trans stopped) (sameEof.trans open_)
      (errors.trans silent) (sameChannel.trans channel) (complete whole)
  | failing chunks nonempty stopped open_ silent channel shut =>
    exact .failing chunks nonempty (samePumping.trans stopped) (sameEof.trans open_)
      (errors.trans silent) (sameChannel.trans channel) (closed shut)
  | ended stopped seen none empty result =>
    refine .ended (samePumping.trans stopped) (sameEof.trans seen) (samePending none)
      (by rw [sameChannel, empty]) ?_
    rcases result with ⟨silent, whole⟩ | ⟨failed, shut⟩
    · exact .inl ⟨errors.trans silent, complete whole⟩
    · exact .inr ⟨errors.trans failed, closed shut⟩

/-- While the write pump is in its loop nothing is complete. -/
theorem complete_running {sender : WriteHalf ω} {rest unsent : Bytes}
    (pumping : sender.pumping = true) : ¬Complete marked sender rest unsent := by
  intro complete
  rw [complete.ended] at pumping
  cases pumping

/-- The octets that a write has sent. -/
theorem sent_since {before after : ω} {frames : Bytes}
    (sent : framed.framing.sent after = framed.framing.sent before ++ frames) :
    sentSince framed before after = frames := by
  rw [sentSince, sent, List.drop_left]

end Account

section Sending

variable {framed : FedFraming σ ω ε} {writeChunk : ω → Bytes → Result ε ω Unit} {marked : Bool}

/-- An account of a relay whose receiving half is untouched shows what was delivered. -/
theorem Account.following {relay : Relay σ ω ε} {tail : σ → Prop} {rest missing unsent : Bytes}
    (account : Account framed marked relay tail rest missing unsent) :
    relay.delivered <+: relay.sender.accepted.flatten :=
  ⟨_, account.balance.symm⟩

/-- Handing over a slice lengthens what is not written. -/
theorem poll_write_relayed {relay : Relay σ ω ε} (buf : Bytes)
    (relayed : Relayed framed marked relay) :
    Relayed framed marked { relay with sender := relay.sender.pollWrite buf } := by
  rw [WriteHalf.pollWrite]
  split
  next open_ =>
    obtain ⟨held, pumping⟩ := Bool.and_eq_true_iff.mp open_
    refine ⟨?_, fun receiving => ?_⟩
    · obtain ⟨rest, whole⟩ := relayed.following
      exact ⟨rest ++ buf, by simp [← whole]⟩
    · obtain ⟨tail, rest, missing, unsent, account⟩ := relayed.account receiving
      obtain ⟨whole, atWriter, nothing, owed⟩ := account.due.running pumping
      refine ⟨tail, rest, missing, unsent ++ buf, ?_, account.feeds, ⟨?_, ?_, ?_⟩, ?_⟩
      · simp [account.balance]
      · intro _
        exact ⟨whole, atWriter, nothing, by simp [owed]⟩
      · intro ended
        exact absurd (pumping.symm.trans ended) (by simp)
      · exact .inl ⟨_, atWriter⟩
      · exact account.phase.moved ⟨rfl, rfl, rfl, id⟩ rfl id
          fun complete => absurd complete (complete_running pumping)
  next => exact relayed

/-- Dropping the sender changes nothing that is due. -/
theorem drop_sender_relayed {relay : Relay σ ω ε} (relayed : Relayed framed marked relay) :
    Relayed framed marked { relay with sender := { relay.sender with held := false } } := by
  refine ⟨relayed.following, fun receiving => ?_⟩
  obtain ⟨tail, rest, missing, unsent, account⟩ := relayed.account receiving
  refine ⟨tail, rest, missing, unsent, account.balance, account.feeds,
    ⟨account.due.running, ?_, ?_⟩, ?_⟩
  · intro ended whole
    obtain ⟨nothing, written, -, mark⟩ := account.due.finished ended whole
    exact ⟨nothing, written, rfl, mark⟩
  · rcases account.due.kind with atWriter | ⟨mark, seen, written, -, ended⟩
    · exact .inl atWriter
    · exact .inr ⟨mark, seen, written, rfl, ended⟩
  · exact account.phase.moved ⟨rfl, rfl, rfl, id⟩ rfl id
      fun complete => ⟨complete.marked, complete.decoded, complete.written, rfl, complete.ended⟩

/-- The read half after the sender has sent some of what it wrote: the reader comes to where
the writer is, behind the octets that were kept back. -/
theorem account_sent (count : Nat) (sender : WriteHalf ω) (broken : Bool) (left : Bytes)
    {relay : Relay σ ω ε} {tail later : σ → Prop} {rest missing unsent frames extra : Bytes}
    (account : Account framed marked relay tail rest missing unsent)
    (pumping : relay.sender.pumping = true)
    (expects : Expects framed.framing later frames extra relay.sender.writer)
    (accepted : sender.accepted = relay.sender.accepted) (owed : unsent = extra ++ left)
    (due : Due framed marked sender broken later (frames.drop count) left) :
    ∃ tail rest missing unsent, Account framed marked { relay with
      sender := sender, wire := relay.wire ++ frames.take count, broken := broken }
      tail rest missing unsent := by
  obtain ⟨-, atWriter, nothing, -⟩ := account.due.running pumping
  refine ⟨later, rest ++ extra, frames.drop count, left, ?_, fun reading => ?_, due, ?_⟩
  · rw [accepted, account.balance, owed]
    simp
  · have feeds := account.feeds reading
    rw [atWriter, nothing, List.append_nil] at feeds
    have written := feeds_written framed feeds expects
    rw [framed.source.feed_append] at written
    rw [List.append_assoc, List.take_append_drop]
    exact written
  · exact account.phase.moved ⟨rfl, rfl, rfl, id⟩ rfl id
      fun complete => absurd complete (complete_running pumping)

variable (writing : Writing framed writeChunk marked)

include writing

/-- Leaving the loop of the write pump after everything was written. -/
theorem finish_relayed {relay : Relay σ ω ε} (relayed : Relayed framed marked relay)
    (pumping : relay.sender.pumping = true) (drained : relay.sender.queue = [])
    (dropped : relay.sender.held = false) :
    Relayed framed marked (relay.finish framed writeChunk) := by
  refine ⟨relayed.following, fun receiving => ?_⟩
  obtain ⟨tail, rest, missing, unsent, account⟩ := relayed.account receiving
  obtain ⟨whole, atWriter, nothing, owed⟩ := account.due.running pumping
  obtain ⟨frames, after, ended, sent, expects⟩ := writing.ends relay.sender.writer
  have left : unsent = [] ++ [] := by rw [owed, drained]; rfl
  have moved := account_sent frames.length ⟨[], after, false, false, relay.sender.accepted⟩
    relay.broken [] account pumping expects rfl left ?_
  · simpa only [Relay.finish, ended, afterWrite, sent_since sent, List.take_length, dropped]
      using moved
  · rw [List.drop_length]
    refine ⟨fun running => (by cases running), fun _ _ => ⟨rfl, rfl, rfl, fun mark => ?_⟩, ?_⟩
    · rw [if_pos mark]
    · cases marked with
      | true => exact .inr ⟨rfl, rfl, rfl, rfl, rfl⟩
      | false => exact .inl ⟨after, rfl⟩

/-- A round of the write pump. -/
theorem write_round_relayed {relay : Relay σ ω ε} (relayed : Relayed framed marked relay) :
    Relayed framed marked (relay.writeRound framed writeChunk) := by
  obtain ⟨⟨waiting, writer, pumping, held, accepted⟩, wire, broken, closed, receiver, delivered,
    errors⟩ := relay
  cases pumping with
  | false => exact relayed
  | true =>
    cases waiting with
    | nil =>
      cases held with
      | true => exact relayed
      | false => exact finish_relayed writing relayed rfl rfl rfl
    | cons slice queue =>
      by_cases empty : slice = []
      · subst empty
        refine ⟨relayed.following, fun receiving => ?_⟩
        obtain ⟨tail, rest, missing, unsent, account⟩ := relayed.account receiving
        obtain ⟨whole, atWriter, nothing, owed⟩ := account.due.running rfl
        refine ⟨tail, rest, missing, unsent, account.balance, account.feeds,
          ⟨fun _ => ⟨whole, atWriter, nothing, owed⟩, fun ended => (by cases ended),
            .inl ⟨_, atWriter⟩⟩, ?_⟩
        exact account.phase.moved ⟨rfl, rfl, rfl, id⟩ rfl id
          fun complete => absurd complete (complete_running rfl)
      · obtain ⟨frames, after, wrote, sent, expects⟩ := carries_at_writer framed
          fun last => writing.carries slice writer last empty
        simp only [Relay.writeRound, if_true, List.isEmpty_iff, empty, if_false, wrote, afterWrite,
          sent_since sent]
        refine ⟨relayed.following, fun receiving => ?_⟩
        obtain ⟨tail, rest, missing, unsent, account⟩ := relayed.account receiving
        obtain ⟨whole, atWriter, nothing, owed⟩ := account.due.running rfl
        have moved := account_sent frames.length ⟨queue, after, true, held, accepted⟩ broken
          queue.flatten account rfl expects rfl owed ?_
        · simpa only [List.take_length] using moved
        · rw [List.drop_length]
          exact ⟨fun _ => ⟨whole, rfl, rfl, rfl⟩, fun ended => (by cases ended), .inl ⟨after, rfl⟩⟩

/-- A write that fails after some octets keeps the others back. -/
theorem write_fails_relayed {relay : Relay σ ω ε} (count : Nat)
    (relayed : Relayed framed marked relay) :
    Relayed framed marked (relay.writeFails framed writeChunk count) := by
  obtain ⟨⟨waiting, writer, pumping, held, accepted⟩, wire, broken, closed, receiver, delivered,
    errors⟩ := relay
  cases pumping with
  | false => exact relayed
  | true =>
    cases waiting with
    | nil =>
      cases held with
      | true => exact relayed
      | false =>
        obtain ⟨frames, after, ended, sent, expects⟩ := writing.ends writer
        simp only [Relay.writeFails, if_true, Bool.false_eq_true, if_false, ended, afterWrite,
          sent_since sent]
        refine ⟨relayed.following, fun receiving => ?_⟩
        obtain ⟨tail, rest, missing, unsent, account⟩ := relayed.account receiving
        obtain ⟨whole, atWriter, nothing, owed⟩ := account.due.running rfl
        refine account_sent count _ true [] account rfl expects rfl owed ?_
        refine ⟨fun running => (by cases running), fun _ whole => (by cases whole), ?_⟩
        cases marked with
        | true => exact .inr ⟨rfl, rfl, rfl, rfl, rfl⟩
        | false => exact .inl ⟨after, rfl⟩
    | cons slice queue =>
      by_cases empty : slice = []
      · subst empty
        exact relayed
      · obtain ⟨frames, after, wrote, sent, expects⟩ := carries_at_writer framed
          fun last => writing.carries slice writer last empty
        simp only [Relay.writeFails, if_true, List.isEmpty_iff, empty, if_false, wrote, afterWrite,
          sent_since sent]
        refine ⟨relayed.following, fun receiving => ?_⟩
        obtain ⟨tail, rest, missing, unsent, account⟩ := relayed.account receiving
        obtain ⟨whole, atWriter, nothing, owed⟩ := account.due.running rfl
        exact account_sent count _ true _ account rfl expects rfl owed
          ⟨fun running => (by cases running), fun _ whole => (by cases whole), .inl ⟨after, rfl⟩⟩

end Sending

section Receiving

variable {framed : FedFraming σ ω ε} {marked : Bool}

/-- Octets that arrive are no longer on their way. -/
theorem arrive_relayed {relay : Relay σ ω ε} (count : Nat)
    (relayed : Relayed framed marked relay) :
    Relayed framed marked { relay with
      wire := relay.wire.drop count
      receiver := { relay.receiver with
        reader := framed.source.feed relay.receiver.reader (relay.wire.take count) } } := by
  refine ⟨relayed.following, fun receiving => ?_⟩
  obtain ⟨tail, rest, missing, unsent, account⟩ := relayed.account receiving
  refine ⟨tail, rest, missing, unsent, account.balance, fun reading => ?_, account.due,
    account.phase.moved ⟨rfl, rfl, rfl, id⟩ rfl id id⟩
  have feeds := account.feeds reading
  dsimp only
  rw [framed.source.feed_append, ← List.append_assoc, List.take_append_drop]
  exact feeds

/-- The connection may end at any time. -/
theorem close_relayed {relay : Relay σ ω ε} (relayed : Relayed framed marked relay) :
    Relayed framed marked { relay with closed := true } := by
  refine ⟨relayed.following, fun receiving => ?_⟩
  obtain ⟨tail, rest, missing, unsent, account⟩ := relayed.account receiving
  exact ⟨tail, rest, missing, unsent, account.balance, account.feeds, account.due,
    account.phase.moved ⟨rfl, rfl, rfl, id⟩ rfl (fun _ => rfl) id⟩

/-- Dropping the receiver leaves what was delivered. -/
theorem drop_receiver_relayed {relay : Relay σ ω ε} (relayed : Relayed framed marked relay) :
    Relayed framed marked { relay with
      receiver := { relay.receiver with held := false, channel := [], pending := [] } } :=
  ⟨relayed.following, fun receiving => by cases receiving⟩

/-- What a read of the pump can find, whatever else is to arrive: the next octets of the data,
the mark of the end when everything was written and decoded, or that its input ran dry. -/
theorem read_finds {relay : Relay σ ω ε} {tail : σ → Prop} {rest missing unsent : Bytes}
    (account : Account framed marked relay tail rest missing unsent)
    (reading : relay.receiver.pumping = true) :
    (∃ out reader later, readData framed.source.toSource readBlock relay.receiver.reader =
        .ok out reader ∧ out ≠ [] ∧ rest = out ++ later ∧
      Feeds framed.source.toSource tail
        (framed.source.feed reader (relay.wire ++ missing)) later) ∨
    (∃ reader, readData framed.source.toSource readBlock relay.receiver.reader = .ok [] reader ∧
      Complete marked relay.sender rest unsent) ∨
    ∃ reader, readData framed.source.toSource readBlock relay.receiver.reader =
      .error framed.source.dry reader := by
  have room : 0 < readBlock := by decide
  have found := read_data_feeds (account.feeds reading) readBlock room
  cases read : readData framed.source.toSource readBlock relay.receiver.reader with
  | ok out reader =>
    have whole := read_data_feed readBlock _ reader out (relay.wire ++ missing) read
    obtain ⟨others, after, later, again, something, -, split, onward⟩ |
      ⟨last, decoded, empty, reached, again⟩ := found
    · obtain ⟨rfl, rfl⟩ := Result.ok.inj (whole.symm.trans again)
      exact .inl ⟨out, reader, later, rfl, something, split, onward⟩
    · rw [again] at whole
      obtain ⟨writer, rfl⟩ | ⟨mark, rfl, written, dropped, ended⟩ := account.due.kind
      · obtain ⟨after, refused⟩ := at_writer_dry framed readBlock empty reached
        rw [refused] at whole
        cases whole
      · rw [read_data_ended readBlock last empty reached] at whole
        obtain ⟨rfl, -⟩ := Result.ok.inj whole
        exact .inr (.inl ⟨reader, rfl, mark, decoded, written, dropped, ended⟩)
  | error error reader =>
    by_cases dry : error = framed.source.dry
    · subst dry
      exact .inr (.inr ⟨reader, rfl⟩)
    · obtain ⟨other, refused⟩ :=
        read_data_refused_feed readBlock _ reader error (relay.wire ++ missing) read dry
      obtain ⟨others, after, later, again, -⟩ | ⟨last, decoded, empty, reached, again⟩ := found
      · rw [refused] at again
        cases again
      · rw [again] at refused
        obtain ⟨writer, rfl⟩ | ⟨mark, rfl, -⟩ := account.due.kind
        · obtain ⟨after, waits⟩ := at_writer_dry framed readBlock empty reached
          rw [waits] at refused
          exact absurd (Result.error.inj refused).1.symm dry
        · rw [read_data_ended readBlock last empty reached] at refused
          cases refused

/-- Handing out a front of some octets leaves the others in front of what follows. -/
theorem taken_moved (handed octets rest : Bytes) (size : Nat) :
    handed ++ (octets ++ rest) = (handed ++ octets.take size) ++ (octets.drop size ++ rest) := by
  rw [List.append_assoc, ← List.append_assoc (octets.take size), List.take_append_drop]

/-- What is handed out of a block moves from the rest to what was handed. -/
theorem block_taken (handed chunk : Bytes) (channel : List (Except ε Bytes)) (rest : Bytes)
    (size : Nat) : handed ++ ([] ++ (blocksOf (.ok chunk :: channel) ++ rest)) =
      (handed ++ chunk.take size) ++ (chunk.drop size ++ (blocksOf channel ++ rest)) := by
  rw [List.nil_append, blocksOf, List.append_assoc chunk]
  exact taken_moved handed chunk _ size

/-- The relay after a poll of its receiver. -/
theorem poll_read_held {relay : Relay σ ω ε} (size : Nat)
    (receiving : relay.receiver.held = true) : relay.pollRead size = { relay with
      receiver := (relay.receiver.pollRead size).2
      delivered := relay.delivered ++ given (relay.receiver.pollRead size).1
      errors := relay.errors ++ reported (relay.receiver.pollRead size).1 } := by
  rw [Relay.pollRead, if_pos receiving]

/-- Polling moves octets from the read half to what was delivered. The cases are those of what is
left over and what the channel holds. -/
theorem poll_read_account {relay : Relay σ ω ε} {tail : σ → Prop} {rest missing unsent : Bytes}
    (size : Nat) (receiving : relay.receiver.held = true)
    (account : Account framed marked relay tail rest missing unsent) :
    Account framed marked (relay.pollRead size) tail rest missing unsent := by
  rw [poll_read_held size receiving]
  obtain ⟨sender, wire, broken, closed, ⟨reader, channel, pumping, pending, eof, held⟩,
    delivered, errors⟩ := relay
  have balance := account.balance
  have feeds := account.feeds
  dsimp only at balance feeds ⊢
  by_cases left : pending = []
  · subst left
    rcases account.phase with ⟨chunks, nonempty, running, open_, silent, filled⟩ |
      ⟨chunks, nonempty, stopped, open_, silent, filled, complete⟩ |
      ⟨chunks, nonempty, stopped, open_, silent, filled, shut⟩ |
      ⟨stopped, seen, -, empty, result⟩
    · dsimp only at running open_ silent filled
      cases chunks with
      | nil =>
        rw [poll_waits _ size rfl open_ filled running]
        refine ⟨by simpa [given] using balance, feeds, account.due,
          .flowing [] (by simp) running open_ ?_ filled⟩
        simpa [reported] using silent
      | cons chunk chunks =>
        have octets := nonempty chunk List.mem_cons_self
        rw [poll_block _ size rfl open_ filled octets]
        refine ⟨?_, feeds, account.due,
          .flowing chunks (fun other member => nonempty other (.tail _ member)) running open_ ?_
            rfl⟩
        · rw [balance, filled]
          exact block_taken delivered chunk _ _ size
        · simpa [reported] using silent
    · dsimp only at stopped open_ silent filled
      cases chunks with
      | nil =>
        rw [poll_blank _ size rfl open_ filled]
        refine ⟨?_, feeds, account.due, .ended stopped rfl rfl rfl (.inl ⟨?_, complete⟩)⟩
        · rw [filled] at balance
          simpa [given, blocksOf] using balance
        · simpa [reported] using silent
      | cons chunk chunks =>
        have found := nonempty chunk List.mem_cons_self
        rw [poll_block _ size rfl open_ filled found]
        refine ⟨?_, feeds, account.due, .ending chunks
          (fun other member => nonempty other (.tail _ member)) stopped open_ ?_ rfl
          complete⟩
        · rw [balance, filled]
          exact block_taken delivered chunk _ _ size
        · simpa [reported] using silent
    · dsimp only at stopped open_ silent filled shut
      cases chunks with
      | nil =>
        rw [poll_error _ size rfl open_ filled]
        refine ⟨?_, feeds, account.due, .ended stopped rfl rfl rfl (.inr ⟨?_, shut⟩)⟩
        · rw [filled] at balance
          simpa [given, blocksOf] using balance
        · simp [silent, reported]
      | cons chunk chunks =>
        have octets := nonempty chunk List.mem_cons_self
        rw [poll_block _ size rfl open_ filled octets]
        refine ⟨?_, feeds, account.due, .failing chunks
          (fun other member => nonempty other (.tail _ member)) stopped open_ ?_ rfl shut⟩
        · rw [balance, filled]
          exact block_taken delivered chunk _ _ size
        · simpa [reported] using silent
    · dsimp only at seen stopped empty result
      rw [poll_ended _ size rfl seen]
      refine ⟨?_, feeds, account.due, .ended stopped seen rfl empty ?_⟩
      · simpa [given] using balance
      · rcases result with ⟨silent, complete⟩ | failed
        · exact .inl ⟨by simpa [reported] using silent, complete⟩
        · exact .inr (by simpa [reported] using failed)
  · rw [poll_pending _ size left]
    refine ⟨?_, feeds, account.due, account.phase.moved
      ⟨rfl, rfl, rfl, fun nothing => absurd nothing left⟩ (by simp [reported]) id id⟩
    rw [balance]
    exact taken_moved delivered pending _ size

/-- A read of the relay keeps what the wire and the reader say together. -/
theorem poll_read_relayed {relay : Relay σ ω ε} (size : Nat)
    (relayed : Relayed framed marked relay) : Relayed framed marked (relay.pollRead size) := by
  by_cases receiving : relay.receiver.held = true
  · obtain ⟨tail, rest, missing, unsent, account⟩ := relayed.account receiving
    have after := poll_read_account size receiving account
    exact ⟨after.following, fun _ => ⟨_, _, _, _, after⟩⟩
  · rw [Relay.pollRead, if_neg receiving]
    exact relayed

variable [DecidableEq ε]

/-- A round of the read pump touches nothing but the pump and its channel. -/
theorem read_round_keeps (relay : Relay σ ω ε) :
    (relay.readRound framed).receiver.held = relay.receiver.held ∧
      (relay.readRound framed).delivered = relay.delivered ∧
      (relay.readRound framed).sender = relay.sender ∧
      (relay.readRound framed).closed = relay.closed ∧
      (relay.readRound framed).broken = relay.broken ∧
      (relay.readRound framed).wire = relay.wire := by
  rw [Relay.readRound]
  dsimp only
  repeat' split
  all_goals exact ⟨rfl, rfl, rfl, rfl, rfl, rfl⟩

/-- A round of the read pump moves octets from what its reader decodes to the channel, or it
stops, or its input has run dry. The cases are those of what its read finds. -/
theorem read_round_account {relay : Relay σ ω ε} {tail : σ → Prop} {rest missing unsent : Bytes}
    (receiving : relay.receiver.held = true)
    (account : Account framed marked relay tail rest missing unsent) :
    ∃ later, Account framed marked (relay.readRound framed) tail later missing unsent ∧
      ((∃ out, out ≠ [] ∧ rest = out ++ later) ∨
        later = rest ∧ ((relay.readRound framed).receiver.pumping = false ∨
          ∃ reader, readData framed.source.toSource readBlock relay.receiver.reader =
            .error framed.source.dry reader)) := by
  obtain ⟨sender, wire, broken, closed, ⟨reader, channel, pumping, pending, eof, held⟩, delivered,
    errors⟩ := relay
  dsimp only at receiving
  subst receiving
  cases pumping with
  | false => exact ⟨rest, account, .inr ⟨rfl, .inl rfl⟩⟩
  | true =>
    have balance := account.balance
    dsimp only at balance
    rcases account.phase with ⟨chunks, nonempty, -, open_, silent, filled⟩ |
      ⟨-, -, stopped, -⟩ | ⟨-, -, stopped, -⟩ | ⟨stopped, -⟩
    · dsimp only at open_ silent filled
      subst filled
      obtain ⟨out, next, later, read, something, rfl, onward⟩ | ⟨next, read, complete⟩ |
        ⟨next, read⟩ := read_finds account rfl
      · simp only [Relay.readRound, if_true, read, List.isEmpty_iff, something, if_false]
        refine ⟨later, ⟨?_, fun _ => onward, account.due,
          .flowing (chunks ++ [out]) ?_ rfl open_ silent (by simp)⟩, .inl ⟨out, something, rfl⟩⟩
        · simp [balance, blocks_append, blocksOf]
        · intro chunk member
          rcases List.mem_append.mp member with earlier | last
          · exact nonempty chunk earlier
          · rw [List.mem_singleton.mp last]
            exact something
      · simp only [Relay.readRound, if_true, read, List.isEmpty_nil]
        refine ⟨rest, ⟨?_, fun running => (by cases running), account.due,
          .ending chunks nonempty rfl open_ silent rfl complete⟩, .inr ⟨rfl, .inl trivial⟩⟩
        simp [balance, blocks_append, blocksOf]
      · refine ⟨rest, ?_, .inr ⟨rfl, .inr ⟨next, read⟩⟩⟩
        cases closed with
        | false =>
          simp only [Relay.readRound, if_true, read, and_self]
          exact account
        | true =>
          simp only [Relay.readRound, if_true, read, Bool.true_eq_false, and_false, if_false]
          refine ⟨?_, fun running => (by cases running), account.due,
            .failing chunks nonempty rfl open_ silent rfl rfl⟩
          simp [balance, blocks_append, blocksOf]
    · cases stopped
    · cases stopped
    · cases stopped

/-- A round of the reading task keeps what the wire and the reader say together. -/
theorem read_round_relayed {relay : Relay σ ω ε} (relayed : Relayed framed marked relay) :
    Relayed framed marked (relay.readRound framed) := by
  obtain ⟨sameHeld, sameDelivered, sameSender, -⟩ := @read_round_keeps _ _ _ framed _ relay
  refine ⟨by rw [sameDelivered, sameSender]; exact relayed.following, fun receiving => ?_⟩
  rw [sameHeld] at receiving
  obtain ⟨tail, rest, missing, unsent, account⟩ := relayed.account receiving
  obtain ⟨later, after, -⟩ := read_round_account receiving account
  exact ⟨tail, later, missing, unsent, after⟩

end Receiving

section Runs

variable [DecidableEq ε] {framed : FedFraming σ ω ε} {writeChunk : ω → Bytes → Result ε ω Unit}
  {marked : Bool} (writing : Writing framed writeChunk marked)

include writing

/-- Every step keeps the account. -/
theorem step_relayed (relay : Relay σ ω ε) (event : Event)
    (relayed : Relayed framed marked relay) :
    Relayed framed marked (relay.step framed writeChunk event) := by
  cases event with
  | pollWrite buf => exact poll_write_relayed buf relayed
  | dropSender => exact drop_sender_relayed relayed
  | writeRound => exact write_round_relayed writing relayed
  | writeFails count => exact write_fails_relayed writing count relayed
  | arrive count =>
    simp only [Relay.step]
    split
    · exact relayed
    · exact arrive_relayed count relayed
  | close => exact close_relayed relayed
  | readRound => exact read_round_relayed relayed
  | pollRead size => exact poll_read_relayed size relayed
  | dropReceiver => exact drop_receiver_relayed relayed

/-- A relay between a writer and a reader that expects what it writes next is accounted for in
every state of its runs. -/
theorem run_relayed {writer : ω} {reader : σ} (reached : AtWriter framed writer reader)
    (empty : framed.source.unread reader = []) (events : List Event) :
    Relayed framed marked (relayRun framed writeChunk writer reader events) := by
  refine run_kept ⟨List.prefix_refl _, fun _ => ⟨AtWriter framed writer, [], [], [], rfl,
    fun _ => ?_, ⟨fun _ => ⟨rfl, rfl, rfl, rfl⟩, fun ended => (by cases ended), .inl ⟨writer, rfl⟩⟩,
    .flowing [] (by simp) rfl rfl rfl rfl⟩⟩ (fun relay event => step_relayed writing relay event)
    events
  have nothing : framed.source.feed reader ([] ++ []) = reader := framed.source.feed_nil reader
  exact nothing.symm ▸ Feeds.done empty reached

end Runs

section Results

variable {framed : FedFraming σ ω ε} {marked : Bool}

/-- A poll with room that gives the end without an error before it comes after everything that
was accepted, and the sender was dropped. -/
theorem end_complete {relay : Relay σ ω ε} (relayed : Relayed framed marked relay)
    (receiving : relay.receiver.held = true) (silent : relay.errors = []) {size : Nat}
    (room : 0 < size) (ended : (relay.receiver.pollRead size).1 = .ready (.ok [])) :
    marked = true ∧ relay.delivered = relay.sender.accepted.flatten ∧
      relay.sender.held = false := by
  obtain ⟨tail, rest, missing, unsent, account⟩ := relayed.account receiving
  have whole : relay.receiver.pending = [] → blocksOf relay.receiver.channel = [] →
      Complete marked relay.sender rest unsent →
      marked = true ∧ relay.delivered = relay.sender.accepted.flatten ∧
        relay.sender.held = false := by
    intro nothing empty complete
    refine ⟨complete.marked, ?_, complete.dropped⟩
    rw [account.balance, nothing, empty, complete.decoded, complete.written]
    simp
  obtain ⟨absent, found⟩ := poll_end_found relay.receiver room ended
  rcases account.phase with ⟨chunks, nonempty, running, open_, -, filled⟩ |
    ⟨chunks, nonempty, stopped, open_, -, filled, complete⟩ |
    ⟨chunks, nonempty, stopped, open_, -, filled, shut⟩ | ⟨stopped, seen, -, empty, result⟩
  · cases chunks with
    | nil => simp [open_, filled, running] at found
    | cons chunk chunks => simp [open_, filled, nonempty chunk List.mem_cons_self] at found
  · cases chunks with
    | nil => exact whole absent (by rw [filled]; rfl) complete
    | cons chunk chunks => simp [open_, filled, nonempty chunk List.mem_cons_self] at found
  · cases chunks with
    | nil => simp [open_, filled] at found
    | cons chunk chunks => simp [open_, filled, nonempty chunk List.mem_cons_self] at found
  · rcases result with ⟨-, complete⟩ | ⟨failed, -⟩
    · exact whole absent empty complete
    · rw [silent] at failed
      cases failed

/-- At most one error is reported: that the input ran dry, after the connection has ended. -/
theorem errors_dry {relay : Relay σ ω ε} (relayed : Relayed framed marked relay)
    (receiving : relay.receiver.held = true) :
    relay.errors = [] ∨ relay.errors = [framed.source.dry] ∧ relay.closed = true := by
  obtain ⟨tail, rest, missing, unsent, account⟩ := relayed.account receiving
  rcases account.phase with ⟨-, -, -, -, silent, -⟩ | ⟨-, -, -, -, silent, -⟩ |
    ⟨-, -, -, -, silent, -⟩ | ⟨-, -, -, -, ⟨silent, -⟩ | failed⟩
  · exact .inl silent
  · exact .inl silent
  · exact .inl silent
  · exact .inl silent
  · exact .inr failed

end Results

section Progress

/-- The steps that the pumps, the connection and the reader take by themselves. -/
def Event.Internal : Event → Prop
  | .writeRound => True
  | .arrive _ => True
  | .readRound => True
  | .pollRead _ => True
  | _ => False

/-- The connection is whole and the receiver is held; `accepted` was accepted, and `held` says
whether the sender is. -/
structure Whole (accepted : List Bytes) (held : Bool) (relay : Relay σ ω ε) : Prop where
  accepted : relay.sender.accepted = accepted
  held : relay.sender.held = held
  unbroken : relay.broken = false
  open_ : relay.closed = false
  receiving : relay.receiver.held = true

/-- The write pump has taken everything from its channel and waits for more, or has ended. -/
def Drained (relay : Relay σ ω ε) : Prop :=
  relay.sender.pumping = true → relay.sender.queue = [] ∧ relay.sender.held = true

/-- How many accepted octets have not come out of the reader. -/
def undecoded (relay : Relay σ ω ε) : Nat :=
  relay.sender.accepted.flatten.length -
    (relay.delivered ++ (relay.receiver.pending ++ blocksOf relay.receiver.channel)).length

/-- What the read half holds. -/
def unread (relay : Relay σ ω ε) : Nat :=
  relay.receiver.pending.length + (blocksOf relay.receiver.channel).length

variable {framed : FedFraming σ ω ε} {writeChunk : ω → Bytes → Result ε ω Unit} {marked : Bool}

/-- A drained sender on a whole connection owes nothing. -/
theorem due_drained {relay : Relay σ ω ε} {tail : σ → Prop} {missing unsent : Bytes}
    (due : Due framed marked relay.sender relay.broken tail missing unsent)
    (drained : Drained relay) (unbroken : relay.broken = false) :
    missing = [] ∧ unsent = [] := by
  cases pumping : relay.sender.pumping with
  | true =>
    obtain ⟨-, -, nothing, owed⟩ := due.running pumping
    obtain ⟨empty, -⟩ := drained pumping
    exact ⟨nothing, by rw [owed, empty]; rfl⟩
  | false =>
    obtain ⟨nothing, written, -⟩ := due.finished pumping unbroken
    exact ⟨nothing, written⟩

/-- What is not decoded is the rest of the account. -/
theorem undecoded_rest {relay : Relay σ ω ε} {tail : σ → Prop} {rest missing : Bytes}
    (account : Account framed marked relay tail rest missing []) :
    undecoded relay = rest.length := by
  rw [undecoded, account.balance]
  simp only [List.append_nil, List.length_append]
  omega

/-- A round of the write pump takes a slice, or ends the loop when the duplex was dropped. -/
theorem write_round_drains (writing : Writing framed writeChunk marked)
    {relay : Relay σ ω ε}
    (pumping : relay.sender.pumping = true)
    (more : ¬Drained relay) :
    (relay.writeRound framed writeChunk).sender.queue.length +
        (relay.writeRound framed writeChunk).sender.pumping.toNat <
      relay.sender.queue.length + 1 := by
  obtain ⟨⟨waiting, writer, running, held, accepted⟩, wire, broken, closed, receiver, delivered,
    errors⟩ := relay
  dsimp only at pumping
  subst pumping
  cases waiting with
  | nil =>
    cases held with
    | true => exact absurd (fun _ => ⟨rfl, rfl⟩) more
    | false => simp [Relay.writeRound, Relay.finish]
  | cons slice queue =>
    by_cases empty : slice = []
    · simp [Relay.writeRound, empty]
    · obtain ⟨frames, after, wrote, -⟩ := carries_at_writer framed
        fun last => writing.carries slice writer last empty
      simp [Relay.writeRound, empty, wrote]

/-- What the read half holds gets shorter when it is polled. -/
theorem poll_read_shorter {relay : Relay σ ω ε} {tail : σ → Prop} {rest missing unsent : Bytes}
    (account : Account framed marked relay tail rest missing unsent)
    (receiving : relay.receiver.held = true) (several : unread relay ≠ 0) :
    unread (relay.pollRead 1) < unread relay := by
  rw [poll_read_held 1 receiving]
  simp only [unread]
  by_cases nothing : relay.receiver.pending = []
  · have first : ∃ chunk channel, relay.receiver.channel = .ok chunk :: channel ∧ chunk ≠ [] ∧
        relay.receiver.eof = false := by
      simp only [unread, nothing, List.length_nil, Nat.zero_add] at several
      rcases account.phase with ⟨chunks, nonempty, -, open_, -, filled⟩ |
        ⟨chunks, nonempty, -, open_, -, filled, -⟩ | ⟨chunks, nonempty, -, open_, -, filled, -⟩ |
        ⟨-, -, -, empty, -⟩
      · rcases chunks with _ | ⟨chunk, chunks⟩
        · exact absurd (by rw [filled]; rfl) several
        · exact ⟨chunk, _, filled, nonempty chunk List.mem_cons_self, open_⟩
      · rcases chunks with _ | ⟨chunk, chunks⟩
        · exact absurd (by rw [filled]; rfl) several
        · exact ⟨chunk, _, filled, nonempty chunk List.mem_cons_self, open_⟩
      · rcases chunks with _ | ⟨chunk, chunks⟩
        · exact absurd (by rw [filled]; rfl) several
        · exact ⟨chunk, _, filled, nonempty chunk List.mem_cons_self, open_⟩
      · exact absurd (by rw [empty]; rfl) several
    obtain ⟨chunk, channel, filled, octets, open_⟩ := first
    have positive : 0 < chunk.length := List.length_pos_iff.mpr octets
    rw [poll_block relay.receiver 1 nothing open_ filled octets, nothing, filled, blocksOf]
    simp only [List.length_drop, List.length_append, List.length_nil]
    omega
  · have positive : 0 < relay.receiver.pending.length := List.length_pos_iff.mpr nothing
    rw [poll_pending relay.receiver 1 nothing]
    simp only [List.length_drop]
    omega

/-- Once nothing is left, a poll gives the end if the pump has stopped. -/
theorem poll_at_end {relay : Relay σ ω ε} {tail : σ → Prop} {rest missing unsent : Bytes}
    (account : Account framed marked relay tail rest missing unsent) (open_ : relay.closed = false)
    (stopped : relay.receiver.pumping = false) (zero : unread relay = 0) (size : Nat) :
    (relay.receiver.pollRead size).1 = .ready (.ok []) := by
  obtain ⟨left, empty⟩ := Nat.add_eq_zero_iff.mp zero
  have left : relay.receiver.pending = [] := List.length_eq_zero_iff.mp left
  rcases account.phase with ⟨-, -, running, -⟩ | ⟨chunks, nonempty, -, fresh, -, filled, -⟩ |
    ⟨-, -, -, -, -, -, shut⟩ | ⟨-, seen, -, -, -⟩
  · rw [stopped] at running
    cases running
  · rcases chunks with _ | ⟨chunk, chunks⟩
    · rw [poll_blank relay.receiver size left fresh filled]
    · have positive := List.length_pos_iff.mpr (nonempty chunk List.mem_cons_self)
      rw [filled, List.map_cons, List.cons_append, blocksOf, List.length_append] at empty
      omega
  · rw [open_] at shut
    cases shut
  · rw [poll_ended relay.receiver size left seen]

variable [DecidableEq ε]

/-- Internal steps keep a connection whole, what was accepted, and who is held. -/
theorem internal_whole {accepted : List Bytes} {held : Bool} {relay : Relay σ ω ε} {event : Event}
    (internal : event.Internal) (whole : Whole accepted held relay) :
    Whole accepted held (relay.step framed writeChunk event) := by
  obtain ⟨same, holds, unbroken, open_, receiving⟩ := whole
  cases event with
  | pollWrite buf => exact internal.elim
  | dropSender => exact internal.elim
  | writeFails count => exact internal.elim
  | close => exact internal.elim
  | dropReceiver => exact internal.elim
  | writeRound =>
    simp only [Relay.step, Relay.writeRound, Relay.finish]
    repeat' split
    all_goals exact ⟨same, holds, unbroken, open_, receiving⟩
  | arrive count =>
    simp only [Relay.step, open_, Bool.false_eq_true, if_false]
    exact ⟨same, holds, unbroken, rfl, receiving⟩
  | readRound =>
    obtain ⟨sameHeld, -, sameSender, sameClosed, sameBroken, -⟩ :=
      @read_round_keeps _ _ _ framed _ relay
    refine ⟨?_, ?_, sameBroken.trans unbroken, sameClosed.trans open_, sameHeld.trans receiving⟩
    · simp only [Relay.step, sameSender, same]
    · simp only [Relay.step, sameSender, holds]
  | pollRead size =>
    simp only [Relay.step, poll_read_held size receiving]
    exact ⟨same, holds, unbroken, open_, (poll_keeps relay.receiver size).1.trans receiving⟩

variable {accepted : List Bytes} {held : Bool}

/-- On a whole connection the write pump drains its channel. -/
theorem leads_drained (writing : Writing framed writeChunk marked) {relay : Relay σ ω ε}
    (relayed : Relayed framed marked relay)
    (whole : Whole accepted held relay) :
    Leads (Relay.step framed writeChunk) Event.Internal (fun other =>
      (Relayed framed marked other ∧ Whole accepted held other) ∧ Drained other) relay := by
  refine leads_by_weight (fun other => other.sender.queue.length + other.sender.pumping.toNat)
    (fun other => ?_) ⟨relayed, whole⟩
  rintro ⟨again, still⟩
  by_cases drained : Drained other
  · exact .inl drained
  · have pumping : other.sender.pumping = true := by
      by_contra stopped
      exact drained fun running => absurd running stopped
    refine .inr ⟨.writeRound, trivial,
      ⟨step_relayed writing other .writeRound again, internal_whole trivial still⟩, ?_⟩
    rw [pumping]
    exact write_round_drains writing pumping drained

/-- Then everything on its way arrives. -/
theorem leads_arrived (writing : Writing framed writeChunk marked) {relay : Relay σ ω ε}
    (relayed : Relayed framed marked relay)
    (whole : Whole accepted held relay) (drained : Drained relay) :
    Leads (Relay.step framed writeChunk) Event.Internal (fun other =>
      Relayed framed marked other ∧ Whole accepted held other ∧ Drained other ∧
        other.wire = []) relay := by
  have arrives : relay.step framed writeChunk (.arrive relay.wire.length) =
      { relay with
        wire := relay.wire.drop relay.wire.length
        receiver := { relay.receiver with
          reader := framed.source.feed relay.receiver.reader
            (relay.wire.take relay.wire.length) } } := by
    simp only [Relay.step, whole.open_, Bool.false_eq_true, if_false]
  refine @leads_step _ _ _ _ _ _ (.arrive relay.wire.length) trivial (leads_now
    ⟨step_relayed writing relay _ relayed, internal_whole trivial whole, ?_, ?_⟩)
  · rw [arrives]
    exact drained
  · rw [arrives]
    exact List.drop_length

/-- The reader has decoded everything, and has seen the end if there is one. -/
structure Decoded (marked : Bool) (relay : Relay σ ω ε) : Prop where
  none : undecoded relay = 0
  ended : relay.sender.held = false → marked = true → relay.receiver.pumping = false

/-- Then the read pump decodes all of it. What it has not decoded gets shorter with every round. -/
theorem leads_decoded {relay : Relay σ ω ε} (relayed : Relayed framed marked relay)
    (whole : Whole accepted held relay) (drained : Drained relay) (arrived : relay.wire = []) :
    Leads (Relay.step framed writeChunk) Event.Internal (fun other =>
      (Relayed framed marked other ∧ Whole accepted held other ∧ Drained other ∧
        other.wire = []) ∧ Decoded marked other) relay := by
  refine leads_by_weight (fun other => undecoded other + other.receiver.pumping.toNat)
    (fun other => ?_) ⟨relayed, whole, drained, arrived⟩
  rintro ⟨again, still, dry, nothing⟩
  obtain ⟨tail, rest, missing, unsent, account⟩ := again.account still.receiving
  obtain ⟨rfl, rfl⟩ := due_drained account.due dry still.unbroken
  rw [undecoded_rest account]
  obtain ⟨-, -, sameSender, -, -, sameWire⟩ := @read_round_keeps _ _ _ framed _ other
  have next : Relayed framed marked (other.readRound framed) ∧
      Whole accepted held (other.readRound framed) ∧ Drained (other.readRound framed) ∧
        (other.readRound framed).wire = [] := by
    refine ⟨read_round_relayed again,
      @internal_whole _ _ _ framed writeChunk _ _ _ _ .readRound trivial still, ?_,
      sameWire.trans nothing⟩
    rw [Drained, sameSender]
    exact dry
  cases pumping : other.receiver.pumping with
  | false =>
    refine .inl ⟨?_, fun _ _ => pumping⟩
    rw [undecoded_rest account]
    rcases account.phase with ⟨-, -, running, -⟩ | ⟨-, -, -, -, -, -, complete⟩ |
      ⟨-, -, -, -, -, -, shut⟩ | ⟨-, -, -, -, ⟨-, complete⟩ | ⟨-, shut⟩⟩
    · rw [pumping] at running
      cases running
    · rw [complete.decoded]
      rfl
    · rw [still.open_] at shut
      cases shut
    · rw [complete.decoded]
      rfl
    · rw [still.open_] at shut
      cases shut
  | true =>
    obtain ⟨later, after, more⟩ := read_round_account still.receiving account
    rcases more with ⟨out, something, split⟩ | ⟨rfl, stopped | ⟨reader, ran⟩⟩
    · refine .inr ⟨.readRound, trivial, next, ?_⟩
      have shorter : 0 < out.length := List.length_pos_iff.mpr something
      have atMost := (other.readRound framed).receiver.pumping.toNat_le
      change undecoded (other.readRound framed) + _ < _
      rw [undecoded_rest after, split, List.length_append, Bool.toNat_true]
      change _ + (other.readRound framed).receiver.pumping.toNat < _
      omega
    · refine .inr ⟨.readRound, trivial, next, ?_⟩
      change undecoded (other.readRound framed) +
        (other.readRound framed).receiver.pumping.toNat < _
      rw [undecoded_rest after, stopped]
      simp
    · have feeds := account.feeds pumping
      rw [nothing, List.append_nil, framed.source.feed_nil] at feeds
      obtain ⟨out, reached, onward, read, -⟩ | ⟨last, decoded, empty, reached, same⟩ :=
        read_data_feeds feeds readBlock (by decide)
      · rw [ran] at read
        cases read
      · refine .inl ⟨by rw [undecoded_rest account, decoded]; rfl, fun dropped mark => ?_⟩
        have ended : other.sender.pumping = false := by
          by_contra running
          have holds := (dry (by simpa using running)).2
          rw [dropped] at holds
          cases holds
        obtain ⟨-, -, -, marks⟩ := account.due.finished ended still.unbroken
        rw [marks mark] at reached
        rw [read_data_ended readBlock last empty reached, ran] at same
        cases same

/-- Then the polls hand it out. -/
theorem leads_delivered {accepted : List Bytes} {held : Bool} {relay : Relay σ ω ε}
    (relayed : Relayed framed marked relay) (whole : Whole accepted held relay)
    (drained : Drained relay) (decoded : Decoded marked relay) :
    Leads (Relay.step framed writeChunk) Event.Internal (fun other =>
      other.delivered = accepted.flatten ∧ (held = false → marked = true →
        ∀ size, (other.receiver.pollRead size).1 = .ready (.ok []))) relay := by
  obtain ⟨tail, rest, missing, unsent, account⟩ := relayed.account whole.receiving
  obtain ⟨rfl, rfl⟩ := due_drained account.due drained whole.unbroken
  have nothing : rest = [] :=
    List.length_eq_zero_iff.mp ((undecoded_rest account).symm.trans decoded.none)
  subst nothing
  have polled : Leads (Relay.step framed writeChunk) Event.Internal (fun other =>
      (Account framed marked other tail [] [] [] ∧ Whole accepted held other ∧
        other.receiver.pumping = relay.receiver.pumping) ∧ unread other = 0) relay := by
    refine leads_by_weight unread (fun other => ?_) ⟨account, whole, rfl⟩
    rintro ⟨again, still, same⟩
    by_cases zero : unread other = 0
    · exact .inl zero
    · refine .inr ⟨.pollRead 1, trivial, ⟨poll_read_account 1 still.receiving again,
        internal_whole trivial still, ?_⟩, poll_read_shorter again still.receiving zero⟩
      change (other.pollRead 1).receiver.pumping = _
      rw [poll_read_held 1 still.receiving, ← same]
      exact (poll_keeps other.receiver 1).2
  refine leads_trans polled fun other => ?_
  rintro ⟨⟨again, still, same⟩, absent⟩
  refine leads_now ⟨?_, fun dropped mark size => ?_⟩
  · obtain ⟨left, empty⟩ := Nat.add_eq_zero_iff.mp absent
    have whole := again.balance
    rw [List.length_eq_zero_iff.mp left, List.length_eq_zero_iff.mp empty, still.accepted] at whole
    simpa using whole.symm
  · have stopped := same.trans (decoded.ended (whole.held.trans dropped) mark)
    exact poll_at_end again still.open_ stopped absent size

/-- From every state of a relay whose connection is whole, the steps that the pumps, the connection
and the reader take by themselves lead to a state in which everything that was accepted is
delivered, and a poll gives the end if the end is marked and the sender was dropped. -/
theorem leads_through (writing : Writing framed writeChunk marked) {relay : Relay σ ω ε}
    (relayed : Relayed framed marked relay) (unbroken : relay.broken = false)
    (open_ : relay.closed = false) (receiving : relay.receiver.held = true) :
    Leads (Relay.step framed writeChunk) Event.Internal (fun other =>
      other.delivered = relay.sender.accepted.flatten ∧
        (relay.sender.held = false → marked = true →
          ∀ size, (other.receiver.pollRead size).1 = .ready (.ok []))) relay := by
  have whole : Whole relay.sender.accepted relay.sender.held relay :=
    ⟨rfl, rfl, unbroken, open_, receiving⟩
  refine leads_trans (leads_drained writing relayed whole) fun first => ?_
  rintro ⟨⟨relayed, whole⟩, drained⟩
  refine leads_trans (leads_arrived writing relayed whole drained) fun second => ?_
  rintro ⟨relayed, whole, drained, arrived⟩
  refine leads_trans (leads_decoded relayed whole drained arrived) fun third => ?_
  rintro ⟨⟨relayed, whole, drained, -⟩, decoded⟩
  exact leads_delivered relayed whole drained decoded

/-- In every run of a relay between a writer and a reader: what is delivered is a front of what
was accepted; a poll with room gives the end only after an error, or after everything and the
mark of a dropped sender; at most one error is reported, that the input ran dry, after the
connection has ended; and as long as the connection is whole, everything accepted can still be
delivered by the steps that the pumps, the connection and the reader take by themselves. -/
structure RelaysExactly (framed : FedFraming σ ω ε) (writeChunk : ω → Bytes → Result ε ω Unit)
    (marked : Bool) (writer : ω) (reader : σ) : Prop where
  following : ∀ events, (relayRun framed writeChunk writer reader events).delivered <+:
    (relayRun framed writeChunk writer reader events).sender.accepted.flatten
  ends : ∀ events size, 0 < size →
    (relayRun framed writeChunk writer reader events).receiver.held = true →
    ((relayRun framed writeChunk writer reader events).receiver.pollRead size).1 =
      .ready (.ok []) →
    (relayRun framed writeChunk writer reader events).errors ≠ [] ∨ marked = true ∧
      (relayRun framed writeChunk writer reader events).delivered =
        (relayRun framed writeChunk writer reader events).sender.accepted.flatten ∧
      (relayRun framed writeChunk writer reader events).sender.held = false
  errors : ∀ events, (relayRun framed writeChunk writer reader events).receiver.held = true →
    (relayRun framed writeChunk writer reader events).errors = [] ∨
      (relayRun framed writeChunk writer reader events).errors = [framed.source.dry] ∧
      (relayRun framed writeChunk writer reader events).closed = true
  completes : ∀ events, (relayRun framed writeChunk writer reader events).broken = false →
    (relayRun framed writeChunk writer reader events).closed = false →
    (relayRun framed writeChunk writer reader events).receiver.held = true →
    ∃ more, (∀ event ∈ more, event.Internal) ∧
      (relayRun framed writeChunk writer reader (events ++ more)).delivered =
        (relayRun framed writeChunk writer reader events).sender.accepted.flatten ∧
      ((relayRun framed writeChunk writer reader events).sender.held = false → marked = true →
        ∀ size, ((relayRun framed writeChunk writer reader
          (events ++ more)).receiver.pollRead size).1 = .ready (.ok []))

/-- A relay between a writer and a reader that expects what it writes next relays exactly. -/
theorem relays_exactly (writing : Writing framed writeChunk marked) {writer : ω} {reader : σ}
    (reached : AtWriter framed writer reader) (empty : framed.source.unread reader = []) :
    RelaysExactly framed writeChunk marked writer reader := by
  have relayed := run_relayed writing reached empty
  refine ⟨fun events => (relayed events).following, fun events size room receiving ended => ?_,
    fun events receiving => errors_dry (relayed events) receiving,
    fun events unbroken open_ receiving => ?_⟩
  · by_cases silent : (relayRun framed writeChunk writer reader events).errors = []
    · exact .inr (end_complete (relayed events) receiving silent room ended)
    · exact .inl silent
  · obtain ⟨more, internal, delivered, ends⟩ :=
      leads_through writing (relayed events) unbroken open_ receiving
    refine ⟨more, internal, ?_, ?_⟩
    · rw [relayRun, run_append]
      exact delivered
    · rw [relayRun, relayRun, run_append]
      exact ends

end Progress

end OmniProxy.DuplexRelays
