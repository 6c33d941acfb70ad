import OmniProxy.Connections
import OmniProxy.PolledReaders

/-!
# The stream of an HTTP/2 body

The stream reads the chunks of the data frames. It hands a chunk out as far as there is room,
keeps the rest in front of the next chunk, and remembers the end. So the octets keep their
order. A chunk without octets completes a read as the end does, but the library hands one out
for nothing but the frame that ends the body, behind all other chunks.
-/

namespace OmniProxy.H2Streams

open ByteStrings Connections PolledReaders

section Streams

/-- The body that is received, with the octets whose window has been given back. -/
structure RecvStream where
  answers : List (Answer String Bytes)
  released : Nat

structure H2Stream where
  recv : RecvStream
  wbuf : Bytes
  eof : Bool

def H2Stream.new (recv : RecvStream) : H2Stream := ⟨recv, [], false⟩

def ioerr (msg : String) : IoError := .ofText ("h2: " ++ msg)

def RecvStream.pollData (self : RecvStream) : Answer String Bytes × RecvStream :=
  let (answer, answers) := pollNext self.answers
  (answer, { self with answers := answers })

def RecvStream.releaseCapacity (self : RecvStream) (size : Nat) : RecvStream :=
  { self with released := self.released + size }

def H2Stream.pollRead (remaining : Nat) (self : H2Stream) :
    Poll (Except IoError Bytes) × H2Stream :=
  if self.wbuf ≠ [] then
    let n := min remaining self.wbuf.length
    (.ready (.ok (self.wbuf.take n)), { self with wbuf := self.wbuf.drop n })
  else if self.eof then (.ready (.ok []), self)
  else
    let (answer, recv) := self.recv.pollData
    let self := { self with recv := recv }
    match answer with
    | .ready (some (.ok chunk)) =>
        let self := { self with recv := self.recv.releaseCapacity chunk.length }
        let capped := min remaining chunk.length
        (.ready (.ok (chunk.take capped)),
          if capped < chunk.length then { self with wbuf := self.wbuf ++ chunk.drop capped }
          else self)
    | .ready (some (.error e)) => (.ready (.error (ioerr e)), self)
    | .ready none => (.ready (.ok []), { self with eof := true })
    | .pending => (.pending, self)

end Streams

section Reading

/-- The answers of the body with its errors as those of the stream. -/
def chunkOf : Answer String Bytes → Answer IoError Bytes
  | .ready (some (.ok chunk)) => .ready (some (.ok chunk))
  | .ready (some (.error e)) => .ready (some (.error (ioerr e)))
  | .ready none => .ready none
  | .pending => .pending

/-- The stream as a reader of such chunks. -/
def readerOf (self : H2Stream) : Reader IoError :=
  ⟨self.wbuf, self.eof, self.recv.answers.map chunkOf⟩

/-- A chunk is handed out as far as there is room, and what does not fit is kept. -/
theorem poll_chunk (size : Nat) (chunk : Bytes) (answers : List (Answer String Bytes))
    (released : Nat) :
    H2Stream.pollRead size ⟨⟨.ready (some (.ok chunk)) :: answers, released⟩, [], false⟩ =
      (.ready (.ok (chunk.take size)),
        ⟨⟨answers, released + chunk.length⟩, chunk.drop size, false⟩) := by
  rw [H2Stream.pollRead, if_neg (not_not.mpr rfl), if_neg Bool.false_ne_true]
  dsimp only [RecvStream.pollData, pollNext, RecvStream.releaseCapacity]
  rw [take_capped, drop_capped, List.nil_append]
  by_cases short : min size chunk.length < chunk.length
  · rw [if_pos short]
  · have all : chunk.length ≤ size := by omega
    rw [if_neg short, List.drop_eq_nil_of_le all]

/-- What is left over is handed out first. -/
theorem poll_leftover (size : Nat) (recv : RecvStream) {wbuf : Bytes} (nonempty : wbuf ≠ [])
    (eof : Bool) :
    H2Stream.pollRead size ⟨recv, wbuf, eof⟩ =
      (.ready (.ok (wbuf.take size)), ⟨recv, wbuf.drop size, eof⟩) := by
  rw [H2Stream.pollRead, if_pos nonempty]
  dsimp only
  rw [take_capped, drop_capped]

/-- The stream reads as that reader. The cases are the answers of the body. -/
theorem reads_as_reader : ReadAs true H2Stream.pollRead readerOf := by
  intro size self
  obtain ⟨⟨answers, released⟩, wbuf, eof⟩ := self
  by_cases empty : wbuf = []
  · subst empty
    cases eof with
    | true => rfl
    | false =>
      rcases answers with _ | ⟨(_ | (error | chunk)) | _, answers⟩
      · rfl
      · rfl
      · rfl
      · rw [poll_chunk]
        rfl
      · rfl
  · have nonempty : (readerOf ⟨⟨answers, released⟩, wbuf, eof⟩).leftover ≠ [] := empty
    rw [pollRead, if_pos nonempty, poll_leftover size _ empty]
    rfl

/-- The stream sees an end exactly when the library gives one. -/
theorem chunk_of_end_iff (answer : Answer String Bytes) :
    chunkOf answer = .ready none ↔ answer = .ready none := by
  rcases answer with (_ | (error | chunk)) | _ <;> simp [chunkOf]

/-- The stream sees a chunk exactly when the library gives it. -/
theorem chunk_of_chunk_iff (answer : Answer String Bytes) (chunk : Bytes) :
    chunkOf answer = .ready (some (.ok chunk)) ↔ answer = .ready (some (.ok chunk)) := by
  rcases answer with (_ | (error | other)) | _ <;> simp [chunkOf]

/-- The errors of the stream instead of those of the body change nothing about the chunks. -/
theorem no_chunk_chunks_iff (answers : List (Answer String Bytes)) :
    NoChunk (answers.map chunkOf) ↔ NoChunk answers := by
  constructor
  · rintro noChunk before chunk after rfl
    have ended := noChunk (before.map chunkOf) chunk (after.map chunkOf) (by simp [chunkOf])
    obtain ⟨answer, member, last⟩ := List.mem_map.mp ended
    rwa [(chunk_of_end_iff answer).mp last] at member
  · intro noChunk before chunk after split
    obtain ⟨front, rest, rfl, rfl, others⟩ := List.map_eq_append_iff.mp split
    obtain ⟨answer, back, rfl, same, rfl⟩ := List.map_eq_cons_iff.mp others
    obtain rfl := (chunk_of_chunk_iff answer chunk).mp same
    exact List.mem_map.mpr ⟨_, noChunk front chunk back rfl, rfl⟩

/-- Nor about which of them is the last. -/
theorem blank_last_chunks_iff (answers : List (Answer String Bytes)) :
    BlankLast (answers.map chunkOf) ↔ BlankLast answers := by
  constructor
  · rintro blankLast before after rfl
    rcases blankLast (before.map chunkOf) (after.map chunkOf) (by simp [chunkOf]) with
      ended | noChunk
    · obtain ⟨answer, member, last⟩ := List.mem_map.mp ended
      rw [(chunk_of_end_iff answer).mp last] at member
      exact .inl member
    · exact .inr ((no_chunk_chunks_iff after).mp noChunk)
  · intro blankLast before after split
    obtain ⟨front, rest, rfl, rfl, others⟩ := List.map_eq_append_iff.mp split
    obtain ⟨answer, back, rfl, same, rfl⟩ := List.map_eq_cons_iff.mp others
    obtain rfl := (chunk_of_chunk_iff answer []).mp same
    rcases blankLast front back rfl with ended | noChunk
    · exact .inl (List.mem_map.mpr ⟨_, ended, rfl⟩)
    · exact .inr ((no_chunk_chunks_iff back).mpr noChunk)

/-- For all answers of a body: the stream reads to the end exactly when only the last chunk is
ever empty. -/
theorem reads_body_iff (recv : RecvStream) :
    ReadsToEnd H2Stream.pollRead (fun self => self.recv.answers.map chunkOf) (.new recv) ↔
      BlankLast recv.answers := by
  rw [← blank_last_chunks_iff]
  exact view_reads_to_end_iff reads_as_reader ⟨rfl, rfl⟩

/-- The reads of an HTTP/2 stream are ordered and complete. For all chunks that the library
hands out and all buffers that are not empty, the octets of the chunks are given in order, and
a read completes with no octets only when all of them have been given and no chunk is left.
The library hands an empty chunk out for the frame that ends the body only. -/
theorem h2_reads_in_order (recv : RecvStream) (library : BlankLast recv.answers) :
    ReadsToEnd H2Stream.pollRead (fun self => self.recv.answers.map chunkOf) (.new recv) :=
  (reads_body_iff recv).mpr library

/-- A body of one chunk, that ends with an empty frame. -/
theorem closing_frame_reads_in_order :
    ReadsToEnd H2Stream.pollRead (fun self => self.recv.answers.map chunkOf)
      (.new ⟨[.ready (some (.ok [104, 105])), .pending, .ready (some (.ok [])), .ready none],
        0⟩) := by
  refine h2_reads_in_order _ fun before after split => .inr ?_
  rintro early chunk late rfl
  rcases before with _ | ⟨first, _ | ⟨second, _ | ⟨third, _ | ⟨fourth, before⟩⟩⟩⟩ <;>
    rcases early with _ | ⟨one, _ | ⟨two, early⟩⟩ <;> simp at split

/-- In front of another chunk an empty one would complete a read as the end does. -/
example : (H2Stream.pollRead 4
    (.new ⟨[.ready (some (.ok [])), .ready (some (.ok [104, 105]))], 0⟩)).1 =
      .ready (.ok []) := rfl

end Reading

end OmniProxy.H2Streams
