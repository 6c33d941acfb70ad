import OmniProxy.Digests
import OmniProxy.IncrementalDecoding
import OmniProxy.ProxyTargets

/-!
# AnyTLS frames

A frame is a command, the number of a stream and some data with its length in two
octets. A decoder takes a whole frame from the front of what has arrived. What a client
sends for a stream is fixed by its target and its writes: an opening frame, the address,
the data in frames of limited size and a closing frame.
-/

namespace OmniProxy.AnytlsFrames

open ByteStrings Digests IncrementalDecoding ProxyTargets

def cmdWaste : UInt8 := 0
def cmdSyn : UInt8 := 1
def cmdPsh : UInt8 := 2
def cmdFin : UInt8 := 3
def cmdSettings : UInt8 := 4
def cmdAlert : UInt8 := 5

def headerSize : Nat := 7

/-- The most data of a frame that a stream writes. -/
def maxPayload : Nat := 16384

/-- A frame. -/
structure Frame where
  cmd : UInt8
  sid : UInt32
  data : Bytes
deriving DecidableEq

/-- A frame without data. -/
def Frame.new (cmd : UInt8) (sid : UInt32) : Frame := ⟨cmd, sid, []⟩

/-- Append the octets of a frame. The length is cut to sixteen bits. -/
def Frame.encodeInto (buf : Bytes) (frame : Frame) : Bytes :=
  buf ++ [frame.cmd] ++ bigEndian 4 frame.sid.toNat ++
    bigEndian16 (UInt16.ofNat frame.data.length) ++ frame.data

def Frame.encode (frame : Frame) : Bytes := frame.encodeInto []

/-- What a buffer has in front. -/
inductive DecodeOutcome where
  | needMore
  | frame (frame : Frame) (consumed : Nat)
deriving DecidableEq

/-- Take a frame from the front of a buffer. -/
def tryDecode (buf : Bytes) : DecodeOutcome :=
  if buf.length < headerSize then .needMore
  else
    let cmd := buf.getD 0 0
    let sid := UInt32.ofNat (bigEndianValue ((buf.drop 1).take 4))
    let dlen := (ofBigEndian16 (buf.getD 5 0) (buf.getD 6 0)).toNat
    if buf.length < headerSize + dlen then .needMore
    else .frame ⟨cmd, sid, (buf.drop headerSize).take dlen⟩ (headerSize + dlen)

/-- The octets of frames that follow one another. -/
def encodeAll (frames : List Frame) : Bytes := (frames.map Frame.encode).flatten

/-- No frames are encoded as no octets. -/
@[simp] theorem encode_all_nil : encodeAll [] = [] := rfl

/-- The first frame is encoded in front of the others. -/
@[simp] theorem encode_all_cons (frame : Frame) (frames : List Frame) :
    encodeAll (frame :: frames) = frame.encode ++ encodeAll frames := rfl

/-- The data of a frame fit its length field. -/
def Frame.fits (frame : Frame) : Prop := frame.data.length < 2 ^ 16

/-- A frame takes its header and its data on the wire. -/
theorem encode_length (frame : Frame) : frame.encode.length = headerSize + frame.data.length := by
  simp only [Frame.encode, Frame.encodeInto, List.length_append, List.length_nil,
    List.length_singleton, big_endian_length, big_endian16_length]
  rfl

/-- The fields of the header of a frame, whatever follows. -/
theorem try_decode_header (frame : Frame) (part : Bytes) :
    ∃ a b c d high low, ofBigEndian16 high low = UInt16.ofNat frame.data.length ∧
      bigEndianValue [a, b, c, d] = frame.sid.toNat ∧
      [frame.cmd] ++ bigEndian 4 frame.sid.toNat ++
        bigEndian16 (UInt16.ofNat frame.data.length) ++ part =
        frame.cmd :: a :: b :: c :: d :: high :: low :: part := by
  obtain ⟨high, low, written, read⟩ := of_big_endian16_exact (UInt16.ofNat frame.data.length)
  have digits := big_endian_value_fits 4 frame.sid.toNat frame.sid.toNat_lt
  refine ⟨_, _, _, _, high, low, read, digits, ?_⟩
  rw [written]
  rfl

/-- A whole frame in front is taken, whatever follows it. -/
theorem try_decode_encode (frame : Frame) (fits : frame.fits) (rest : Bytes) :
    tryDecode (frame.encode ++ rest) = .frame frame frame.encode.length := by
  obtain ⟨a, b, c, d, high, low, length, sid, octets⟩ :=
    try_decode_header frame (frame.data ++ rest)
  have octets : frame.encode ++ rest =
      frame.cmd :: a :: b :: c :: d :: high :: low :: (frame.data ++ rest) := by
    rw [← octets]
    simp only [Frame.encode, Frame.encodeInto, List.nil_append, List.append_assoc]
  have dlen : (ofBigEndian16 high low).toNat = frame.data.length := by
    rw [length, UInt16.toNat_ofNat_of_lt' fits]
  have whole : ¬(frame.encode ++ rest).length < headerSize + frame.data.length := by
    rw [List.length_append, encode_length]
    omega
  rw [encode_length]
  rw [octets] at whole ⊢
  have header : ¬(frame.cmd :: a :: b :: c :: d :: high :: low :: (frame.data ++ rest)).length <
      headerSize := by omega
  have sidRead : UInt32.ofNat (bigEndianValue [a, b, c, d]) = frame.sid := by
    rw [sid, UInt32.ofNat_toNat]
  rw [tryDecode, if_neg header]
  simp only [List.getD_cons_zero, List.getD_cons_succ, dlen, if_neg whole]
  simp only [headerSize, List.drop_succ_cons, List.drop_zero, List.take_succ_cons, List.take_zero,
    sidRead, List.take_left']

/-- A frame that is taken uses the octets of its header and of its data. -/
theorem try_decode_size {buf : Bytes} {frame : Frame} {consumed : Nat}
    (decoded : tryDecode buf = .frame frame consumed) :
    consumed = headerSize + frame.data.length ∧ consumed ≤ buf.length := by
  unfold tryDecode at decoded
  split at decoded
  · simp at decoded
  · simp only at decoded
    split at decoded
    · simp at decoded
    · obtain ⟨rfl, rfl⟩ := DecodeOutcome.frame.inj decoded
      rw [List.length_take, List.length_drop]
      omega

/-- A frame that is taken used octets that were there, and is taken the same when more
follow. -/
theorem try_decode_more (buf more : Bytes) (frame : Frame) (consumed : Nat)
    (decoded : tryDecode buf = .frame frame consumed) :
    consumed ≤ buf.length ∧ tryDecode (buf ++ more) = .frame frame consumed := by
  unfold tryDecode at decoded ⊢
  split at decoded
  · simp at decoded
  · rename_i header
    have there : headerSize ≤ buf.length := Nat.not_lt.mp header
    simp only [headerSize] at there
    have longer : ¬(buf ++ more).length < headerSize := by
      rw [List.length_append]
      omega
    rw [if_neg longer, List.getD_append _ _ _ 0 (by omega), List.getD_append _ _ _ 5 (by omega),
      List.getD_append _ _ _ 6 (by omega), List.drop_append_of_le_length (by omega),
      List.take_append_of_le_length (by rw [List.length_drop]; omega)]
    simp only at decoded ⊢
    split at decoded
    · simp at decoded
    · rename_i whole
      obtain ⟨rfl, rfl⟩ := DecodeOutcome.frame.inj decoded
      refine ⟨Nat.not_lt.mp whole, ?_⟩
      rw [if_neg (by rw [List.length_append]; omega),
        List.drop_append_of_le_length (by simp only [headerSize]; omega),
        List.take_append_of_le_length (by rw [List.length_drop]; omega)]

/-- Part of a frame is not taken: it would be taken the same with the rest of the
octets, and using all of them. -/
theorem try_decode_part (frame : Frame) (fits : frame.fits) (part missing : Bytes)
    (framed : part ++ missing = frame.encode) (lacking : missing ≠ []) :
    tryDecode part = .needMore := by
  cases decoded : tryDecode part with
  | needMore => rfl
  | frame taken consumed =>
    obtain ⟨bound, whole⟩ := try_decode_more part missing taken consumed decoded
    have encoded := try_decode_encode frame fits []
    rw [List.append_nil, ← framed, whole] at encoded
    obtain ⟨-, used⟩ := DecodeOutcome.frame.inj encoded
    have positive := List.length_pos_of_ne_nil lacking
    rw [used, List.length_append] at bound
    omega

/-- Of a stream of frames some has arrived: not yet all of the first frame, or the first
frame is taken and the rest is a stream of the others. -/
theorem try_decode_stream (frame : Frame) (fits : frame.fits) (frames : List Frame)
    (buf later : Bytes) (stream : buf ++ later = encodeAll (frame :: frames)) :
    (tryDecode buf = .needMore ∧ later ≠ []) ∨
      ∃ consumed, tryDecode buf = .frame frame consumed ∧
        buf.drop consumed ++ later = encodeAll frames := by
  obtain ⟨missing, framed, lacking⟩ | ⟨more, rfl, remaining⟩ := front_arrives stream
  · refine .inl ⟨try_decode_part frame fits buf missing framed lacking, ?_⟩
    rintro rfl
    rw [List.append_nil, encode_all_cons, ← framed, List.append_assoc] at stream
    have empty := List.append_cancel_left (stream.symm.trans (List.append_nil buf).symm)
    exact lacking (List.append_eq_nil_iff.mp empty).1
  · refine .inr ⟨frame.encode.length, try_decode_encode frame fits more, ?_⟩
    rw [List.drop_left]
    exact remaining

section Streams

variable {frame : Frame} {rest : List Frame}

/-- The frames of a stream. -/
def framesOf (sid : UInt32) (frames : List Frame) : List Frame := frames.filter (·.sid = sid)

/-- A frame of the number stands first among the frames of the number. -/
theorem frames_of_own {sid : UInt32} (own : frame.sid = sid) :
    framesOf sid (frame :: rest) = frame :: framesOf sid rest :=
  List.filter_cons_of_pos (decide_eq_true own)

/-- A frame of another number is passed by. -/
theorem frames_of_other {sid : UInt32} (foreign : frame.sid ≠ sid) :
    framesOf sid (frame :: rest) = framesOf sid rest :=
  List.filter_cons_of_neg (by simpa using foreign)

/-- The frames of a number are collected in order. -/
theorem frames_of_append (sid : UInt32) (before after : List Frame) :
    framesOf sid (before ++ after) = framesOf sid before ++ framesOf sid after :=
  List.filter_append _ _

end Streams

section Clients

/-- The text that a client sends first. -/
def settings : String :=
  "v=2\nclient=omni-rs/" ++ "0.1.5" ++ "\npadding-md5=" ++ hexEncode (md5Digest [[]]).toList

def settingsFrame : Frame := ⟨cmdSettings, 0, asBytes settings⟩

/-- The settings are short enough for the length field of a frame. -/
theorem settings_fits : settingsFrame.fits := by
  have size : (asBytes settings).length < 2 ^ 16 := by decide +kernel
  exact size

/-- The address that a client sends ahead of the data. -/
def addressOf (target : ProxyTarget) : Bytes := (Socks5Addr.fromProxyTarget target).encodeInto []

/-- The frames that open a stream. -/
def openFrames (sid : UInt32) (target : ProxyTarget) : List Frame :=
  [.new cmdSyn sid, ⟨cmdPsh, sid, addressOf target⟩]

/-- The frames of one write. An empty write has none. -/
def writeFrames (sid : UInt32) (buf : Bytes) : List Frame :=
  (pieces maxPayload buf).map fun chunk => ⟨cmdPsh, sid, chunk⟩

/-- The frame that closes a stream. -/
def finFrame (sid : UInt32) : Frame := .new cmdFin sid

/-- A stream of a client, from its opening to its shutdown. -/
structure ClientStream where
  sid : UInt32
  target : ProxyTarget
  writes : List Bytes

/-- The frames of a stream in the order in which they are sent. -/
def ClientStream.frames (client : ClientStream) : List Frame :=
  openFrames client.sid client.target ++ client.writes.flatMap (writeFrames client.sid) ++
    [finFrame client.sid]

/-- What is written to a stream. -/
def ClientStream.written (client : ClientStream) : Bytes := client.writes.flatten

end Clients

end OmniProxy.AnytlsFrames
