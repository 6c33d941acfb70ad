import OmniProxy.Connections
import OmniProxy.ProxyTargets

/-!
# Frames of datagrams

A datagram travels to and from a client with its address in front. SOCKS5 sends it
as a datagram with three zero octets and an address. Trojan and VLESS send it in a
stream: Trojan as address, line break, length, line break and payload, VLESS as
length, address and payload. Their decoders collect octets and take frames from
the front; one that has taken a frame holds fewer octets than before.
-/

namespace OmniProxy.UdpFrames

open ByteStrings Connections ProxyTargets

/-- A datagram with its address. -/
structure UdpPacket where
  source : Option SocketAddr
  target : ProxyTarget
  data : Bytes
deriving DecidableEq

/-- Read a SOCKS5 datagram. -/
def parseUdpPacket (buf : Bytes) : Except IoError (Socks5Addr × Bytes) :=
  if buf.length < 4 then .error (.ofText "socks5: empty address buffer")
  else if buf.getD 0 0 ≠ 0 ∨ buf.getD 1 0 ≠ 0 ∨ buf.getD 2 0 ≠ 0 then
    .error (.ofText "socks5: bad UDP RSV/FRAG")
  else
    match Socks5Addr.decode (buf.drop 3) with
    | .error error => .error ⟨.invalidData, error⟩
    | .ok (addr, used) =>
        if buf.length < 3 + used then .error (.ofText "socks5: UDP packet truncated")
        else .ok (addr, buf.drop (3 + used))

/-- Write a SOCKS5 datagram. -/
def encodeUdpPacket (addr : Socks5Addr) (data : Bytes) : Bytes :=
  addr.encodeInto [0, 0, 0] ++ data

/-- The octets a decoder has collected, and whether its stream has ended. -/
structure Decoder where
  buf : Bytes
  eof : Bool
deriving DecidableEq

def Decoder.new : Decoder := ⟨[], false⟩

def Decoder.feed (decoder : Decoder) (data : Bytes) : Decoder :=
  { decoder with buf := decoder.buf ++ data }

def Decoder.markEof (decoder : Decoder) : Decoder := { decoder with eof := true }

/-- What a decoder answers: nothing yet, an error, or a frame. -/
abbrev Answer (Address : Type) := Option (Except IoError (Address × Bytes))

namespace Trojan

def encode (addr : Socks5Addr) (payload : Bytes) : Bytes :=
  addr.encodeInto [] ++ [0x0D, 0x0A] ++ bigEndian16 (UInt16.ofNat payload.length) ++
    [0x0D, 0x0A] ++ payload

/-- The outcome of looking for a frame at the front of a buffer. -/
inductive TryParse where
  | need
  | bad
  | ok (addr : Socks5Addr) (payload : Bytes) (used : Nat)

/-- Look for a frame. An address that cannot be read counts as incomplete while
the buffer is short. -/
def tryParse (buf : Bytes) : TryParse :=
  match Socks5Addr.decode buf with
  | .error _ => if buf.length < 260 then .need else .bad
  | .ok (addr, used) =>
      let rest := buf.drop used
      if rest.length < 2 then .need
      else if rest.take 2 ≠ [0x0D, 0x0A] then .bad
      else if rest.length < 4 then .need
      else
        let len := (portAt rest 2).toNat
        if rest.length < 6 + len then .need
        else .ok addr ((rest.drop 6).take len) (used + 6 + len)

/-- Take the next frame. -/
def nextPacket (decoder : Decoder) : Answer Socks5Addr × Decoder :=
  if decoder.buf.isEmpty && decoder.eof then (none, decoder)
  else
    match tryParse decoder.buf with
    | .need =>
        if decoder.eof then (some (.error (.ofText "trojan: truncated UDP frame")), decoder)
        else (none, decoder)
    | .bad => (some (.error (.ofText "trojan: invalid UDP frame")), decoder)
    | .ok addr payload used =>
        (some (.ok (addr, payload)), { decoder with buf := decoder.buf.drop used })

/-- Taking a frame leaves fewer octets. -/
theorem next_packet_shrinks (decoder after : Decoder) (frame : Socks5Addr × Bytes)
    (taken : nextPacket decoder = (some (.ok frame), after)) :
    after.buf.length < decoder.buf.length := by
  unfold nextPacket at taken
  split at taken
  · simp at taken
  · split at taken
    · split at taken <;> simp at taken
    · simp at taken
    · rename_i addr payload used parsed
      obtain ⟨-, rfl⟩ := Prod.mk.inj taken
      have counted : 0 < used ∧ used ≤ decoder.buf.length := by
        unfold tryParse at parsed
        split at parsed
        · split at parsed <;> simp at parsed
        · simp only [List.length_drop] at parsed
          split at parsed
          · simp at parsed
          · split at parsed
            · simp at parsed
            · split at parsed
              · simp at parsed
              · split at parsed
                · simp at parsed
                · simp only [TryParse.ok.injEq] at parsed
                  omega
      simp only [List.length_drop]
      omega

end Trojan

namespace Vless

/-- The address of a frame with its tag, and then the port. -/
def encodeAddr : ProxyTarget → Bytes
  | .tcp ⟨.v4 ip, _⟩ => 0x01 :: ip.toList
  | .tcp ⟨.v6 ip, _⟩ => 0x03 :: ip.toList
  | .domain host _ => 0x02 :: UInt8.ofNat (asBytes host).length :: asBytes host

def encode (target : ProxyTarget) (data : Bytes) : Bytes :=
  bigEndian16 (UInt16.ofNat data.length) ++ encodeAddr target ++ bigEndian16 target.port ++ data

/-- The length of the address at the front of a buffer as far as it can be told,
port and tag included. -/
def frameAddrLen : Bytes → Nat
  | [] => 0
  | atyp :: rest =>
      if atyp = 0x01 then 7
      else if atyp = 0x03 then 19
      else if atyp = 0x02 then
        match rest with
        | [] => 2
        | len :: _ => 1 + 1 + len.toNat + 2
      else 1

/-- Octets of a frame at an offset. -/
def octetsAt (n : Nat) (frame : Bytes) (offset : Nat) : Octets n :=
  ⟨List.ofFn fun index : Fin n => frame.getD (offset + index) 0, by simp⟩

/-- The target of a frame and the offset of its data. -/
def frameTarget (frame : Bytes) : Except IoError (ProxyTarget × Nat) :=
  let atyp := frame.getD 2 0
  if atyp = 0x01 then .ok (.tcp ⟨.v4 (octetsAt 4 frame 3), portAt frame 7⟩, 9)
  else if atyp = 0x02 then
    let dl := (frame.getD 3 0).toNat
    .ok (.domain (fromUtf8Lossy ((frame.drop 4).take dl)) (portAt frame (4 + dl)), 6 + dl)
  else if atyp = 0x03 then .ok (.tcp ⟨.v6 (octetsAt 16 frame 3), portAt frame 19⟩, 21)
  else .error (.ofText "vless: unknown UDP address type")

/-- Take the next frame. It takes two octets more than the length, the address with
its port and the announced data have together. -/
def nextPacket (decoder : Decoder) : Answer ProxyTarget × Decoder :=
  if decoder.buf.length < 3 then (none, decoder)
  else
    let len := (portAt decoder.buf 0).toNat
    let need := 2 + frameAddrLen (decoder.buf.drop 2) + 2 + len
    if decoder.buf.length < need then
      if decoder.eof then (some (.error (.ofText "vless: truncated UDP packet")), decoder)
      else (none, decoder)
    else
      let frame := decoder.buf.take need
      let decoder := { decoder with buf := decoder.buf.drop need }
      match frameTarget frame with
      | .error error => (some (.error error), decoder)
      | .ok (target, offset) => (some (.ok (target, frame.drop offset)), decoder)

/-- Taking a frame leaves fewer octets. -/
theorem next_packet_shrinks (decoder after : Decoder) (frame : ProxyTarget × Bytes)
    (taken : nextPacket decoder = (some (.ok frame), after)) :
    after.buf.length < decoder.buf.length := by
  unfold nextPacket at taken
  split at taken
  · simp at taken
  · simp only at taken
    split at taken
    · split at taken <;> simp at taken
    · split at taken
      · simp at taken
      · obtain ⟨-, rfl⟩ := Prod.mk.inj taken
        simp only [List.length_drop]
        omega

end Vless

end OmniProxy.UdpFrames
