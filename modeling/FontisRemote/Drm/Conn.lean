import FontisRemote.Lib.LittleEndian
import FontisRemote.Lib.Run

/-!
# Messages, bodies and descriptors on one socket

`ipc/drm.rs`: each message and each raw body goes as a length of four bytes and its payload, and a descriptor
goes with the first byte of the length. The socket takes and gives as many bytes at a time as it likes, so a
write and a read are loops; a step here is one turn of such a loop. A call that fails is the last one: its
callers close the connection then.

On the wire each byte has the descriptor that arrives with it. `serde_json` is a parameter. `sent`, `received`
and the last three fields of `DrmConn` are what happened so far, oldest first.
-/

namespace FontisRemote.Drm

open FontisRemote.Lib

def MAX_DRM_JSON_BYTES : Nat := 8 * 1024 * 1024
def MAX_DRM_RAW_BYTES : Nat := 512 * 1024 * 1024

def beBytes (n : Nat) : List UInt8 := (leBytes 4 n).reverse

def ofBeBytes (bytes : List UInt8) : Nat := ofLeBytes bytes.reverse

/-- `Vec::resize` with zeros. -/
def resize (buf : List UInt8) (len : Nat) : List UInt8 := buf.take len ++ List.replicate (len - buf.length) 0

abbrev Wire (Fd : Type) := List (UInt8 × Option Fd)

/-- What one `sendmsg` puts on the wire: the descriptor goes with the first byte. -/
def marked {Fd : Type} (fd : Option Fd) : List UInt8 → Wire Fd
  | [] => []
  | b :: bytes => (b, fd) :: bytes.map fun b => (b, none)

/-! ## The sender -/

structure Outgoing (Fd : Type) where
  payload : List UInt8
  fd : Option Fd
deriving DecidableEq, Repr

inductive Send (Fd Data : Type)
  | sendMsg (data : Data) (fd : Option Fd)
  | sendRaw (data : List UInt8)

inductive Sending (Fd : Type)
  | idle
  /-- In `drm_write_all`; after the length comes the payload. -/
  | writing (buf : List UInt8) (passFd : Option Fd) (payload : Option (List UInt8))
  | failed

namespace Sending

variable {Fd : Type}

/-- The next `drm_write_all`, once this one has written its buffer. -/
def written (buf : List UInt8) (passFd : Option Fd) : Option (List UInt8) → Sending Fd
  | some payload =>
    if buf = [] then (if payload = [] then .idle else .writing payload none none) else .writing buf passFd payload
  | none => if buf = [] then .idle else .writing buf passFd none

/-- The bytes that one turn of the loop writes, when the socket takes `n`. -/
def drmWriteAll (n : Nat) : Sending Fd → Option (Wire Fd × Sending Fd)
  | .writing buf passFd payload =>
    if 0 < n ∧ n ≤ buf.length then some (marked passFd (buf.take n), written (buf.drop n) none payload) else none
  | _ => none

end Sending

def drmSendFrame {Fd : Type} (o : Outgoing Fd) : Option (Sending Fd) :=
  if 2 ^ 32 ≤ o.payload.length then none else some (.writing (beBytes o.payload.length) o.fd (some o.payload))

/-! ## The receiver -/

/-- In `drm_read_full`: the first `len` bytes of the buffer are filled, from `off` on. -/
structure ReadFull (Fd : Type) where
  buf : List UInt8
  len : Nat
  off : Nat := 0
  wantCmsg : Bool
  got : Option Fd := none

namespace ReadFull

variable {Fd : Type} (read : ReadFull Fd)

/-- One turn. `recvmsg` keeps the first descriptor that comes with the bytes; `read` takes none. -/
def took (chunk : Wire Fd) : ReadFull Fd :=
  { read with
    buf := read.buf.take read.off ++ chunk.map Prod.fst ++ read.buf.drop (read.off + chunk.length)
    off := read.off + chunk.length
    got := if read.wantCmsg && read.got.isNone then (chunk.filterMap Prod.snd).head? else read.got }

end ReadFull

inductive RecvCall
  | recvMsg
  | recvMsgTimeout2
  | nextRawInto (out : List UInt8)
deriving DecidableEq, Repr

inductive Receiving (Fd : Type)
  | idle
  /-- `recv_msg_timeout2` before its first byte. -/
  | readable
  | header (call : RecvCall) (read : ReadFull Fd)
  | body (call : RecvCall) (fd : Option Fd) (read : ReadFull Fd)
  | closed

inductive Received (Fd Data : Type)
  | msg (data : Data) (fd : Option Fd)
  | raw (out : List UInt8)

structure DrmConn (Fd Data : Type) where
  readBuf : List UInt8 := []
  consumed : Bool := false
  receiving : Receiving Fd := .idle
  received : List (Received Fd Data) := []
  /-- All bytes that were read. -/
  taken : Nat := 0
  /-- As many were when the call began. -/
  begun : Nat := 0
  /-- Both numbers, at each `None` that was returned. -/
  nones : List (Nat × Nat) := []

namespace DrmConn

variable {Fd Data : Type} (fromSlice : List UInt8 → Option Data) (c : DrmConn Fd Data)

/-- `recv_msg` or `next_raw_into` begins. -/
def start (call : RecvCall) : DrmConn Fd Data :=
  { c with
    consumed := if call matches .nextRawInto _ then c.consumed else false
    receiving := .header call { buf := [0, 0, 0, 0], len := 4, wantCmsg := true } }

def recv (call : RecvCall) : Option (DrmConn Fd Data) :=
  match c.receiving with
  | .idle =>
    match call with
    | .recvMsgTimeout2 => some { c with receiving := .readable, begun := c.taken }
    | call => some { c.start call with begun := c.taken }
  | _ => none

def ready : Option (DrmConn Fd Data) :=
  match c.receiving with
  | .readable => some (c.start .recvMsgTimeout2)
  | _ => none

/-- The body is complete. -/
def finish (call : RecvCall) (fd : Option Fd) (read : ReadFull Fd) : DrmConn Fd Data :=
  match call with
  | .nextRawInto _ => { c with receiving := .idle, received := c.received ++ [.raw read.buf] }
  | _ =>
    match fromSlice (read.buf.take read.len) with
    | some data => { c with readBuf := read.buf, receiving := .idle, received := c.received ++ [.msg data fd] }
    | none => { c with readBuf := read.buf, receiving := .closed }

def readBody (call : RecvCall) (fd : Option Fd) (read : ReadFull Fd) : DrmConn Fd Data :=
  if read.off < read.len then { c with receiving := .body call fd read } else c.finish fromSlice call fd read

/-- The length is complete. -/
def startBody (call : RecvCall) (fd : Option Fd) (lenBytes : List UInt8) : DrmConn Fd Data :=
  let len := ofBeBytes lenBytes
  match call with
  | .nextRawInto out =>
    if MAX_DRM_RAW_BYTES < len then { c with receiving := .closed }
    else c.readBody fromSlice call none { buf := resize out len, len := len, wantCmsg := false }
  | _ =>
    if MAX_DRM_JSON_BYTES < len then { c with receiving := .closed }
    else
      let readBuf := if c.readBuf.length < len then resize c.readBuf len else c.readBuf
      c.readBody fromSlice call fd { buf := readBuf, len := len, wantCmsg := false }

/-- What the socket gave in one turn of `drm_read_full`. -/
def readChunk (chunk : Wire Fd) : Option (DrmConn Fd Data) :=
  let c' := { c with consumed := true, taken := c.taken + chunk.length }
  match c.receiving with
  | .header call read =>
    if chunk ≠ [] ∧ read.off + chunk.length ≤ read.len then
      let read := read.took chunk
      if read.off < read.len then some { c' with receiving := .header call read }
      else some (c'.startBody fromSlice call read.got (read.buf.take read.len))
    else none
  | .body call fd read =>
    if chunk ≠ [] ∧ read.off + chunk.length ≤ read.len then
      some (c'.readBody fromSlice call fd (read.took chunk))
    else none
  | _ => none

def returnNone : DrmConn Fd Data :=
  { c with receiving := .idle, nones := c.nones ++ [(c.begun, c.taken)] }

/-- A timer runs out. `recv_msg` has none. -/
def expired (call : RecvCall) : Option (DrmConn Fd Data) :=
  match call with
  | .recvMsg => none
  | .recvMsgTimeout2 => some (if c.consumed then { c with receiving := .closed } else c.returnNone)
  | .nextRawInto _ => some { c with receiving := .closed }

def timeout : Option (DrmConn Fd Data) :=
  match c.receiving with
  | .readable => some c.returnNone
  | .header call _ => c.expired call
  | .body call _ _ => c.expired call
  | _ => none

/-- The socket has an error or is closed by the peer, or a control message was cut off. -/
def fail : Option (DrmConn Fd Data) :=
  match c.receiving with
  | .idle => none
  | .closed => none
  | _ => some { c with receiving := .closed }

inductive Event (Fd : Type)
  | recv (call : RecvCall)
  | ready
  | readChunk (chunk : Wire Fd)
  | timeout
  | fail

def step : Event Fd → Option (DrmConn Fd Data)
  | .recv call => c.recv call
  | .ready => c.ready
  | .readChunk chunk => c.readChunk fromSlice chunk
  | .timeout => c.timeout
  | .fail => c.fail

end DrmConn

/-! ## Both ends -/

structure DrmLink (Fd Data : Type) where
  sending : Sending Fd := .idle
  wire : Wire Fd := []
  conn : DrmConn Fd Data := {}
  sent : List (Outgoing Fd) := []

namespace DrmLink

variable {Fd Data : Type} (toVec : Data → Option (List UInt8)) (fromSlice : List UInt8 → Option Data)
  (s : DrmLink Fd Data)

inductive Event (Fd Data : Type)
  | send (send : Send Fd Data)
  | write (n : Nat)
  | sendFails
  | read (n : Nat)
  | receive (e : DrmConn.Event Fd)

def outgoing : Send Fd Data → Option (Outgoing Fd)
  | .sendMsg data fd => (toVec data).map fun payload => ⟨payload, fd⟩
  | .sendRaw data => some ⟨data, none⟩

def send (x : Send Fd Data) : Option (DrmLink Fd Data) :=
  match s.sending with
  | .idle =>
    some (match outgoing toVec x with
    | some o =>
      match drmSendFrame o with
      | some sending => { s with sending := sending, sent := s.sent ++ [o] }
      | none => { s with sending := .failed }
    | none => { s with sending := .failed })
  | _ => none

def step : Event Fd Data → Option (DrmLink Fd Data)
  | .send x => s.send toVec x
  | .write n => (s.sending.drmWriteAll n).map fun w => { s with sending := w.2, wire := s.wire ++ w.1 }
  | .sendFails => some { s with sending := .failed }
  | .read n =>
    if n ≤ s.wire.length then
      (s.conn.readChunk fromSlice (s.wire.take n)).map fun conn => { s with conn := conn, wire := s.wire.drop n }
    else none
  | .receive (.readChunk _) => none
  | .receive e => (s.conn.step fromSlice e).map fun conn => { s with conn := conn }

def Init (s : DrmLink Fd Data) : Prop := s = {}

end DrmLink

end FontisRemote.Drm
