import FontisRemote.Lib.Blocks
import FontisRemote.Lib.Run
import FontisRemote.Transport.Codec

/-!
# Messages in fragments

`send_bytes` and `next` of `WebRTCStream` in `hbb_common`: a message goes over the data channel in
fragments with one byte in front that says whether more follow. There is neither a length nor a number
in it. The permit of `send_gate` covers a whole message, a send that fails after a fragment has gone out
hands its permit to the task that closes the connection, and what `next` has put together so far outlives
the future.

`Link` is one direction of an ordered and reliable data channel. Its fragments carry the call that wrote
them, which the code cannot see. `pc.close()` is taken to close.
-/

namespace FontisRemote.WebRtc

open FontisRemote.Lib

def MAX_FRAGMENT_PAYLOAD : Nat := 60000

def RECV_BUF_SIZE : Nat := 64 * 1024

/-- More fragments follow. -/
def FRAG_MORE : UInt8 := 1

/-- The last fragment, or the only one. -/
def FRAG_END : UInt8 := 0

def MAX_RECV_MESSAGE : Nat := Transport.BytesCodec.MAX_FRAME_LENGTH

/-! ## The sender -/

structure Fragment where
  framed : List UInt8
  /-- The call of `send_bytes` that wrote it. -/
  call : Nat
deriving DecidableEq, Repr

/-- A call of `send_bytes_inner` in its loop. -/
structure Send where
  call : Nat
  data : List UInt8
  offset : Nat := 0
  wroteAny : Bool := false
deriving DecidableEq, Repr

namespace Send

variable (send : Send)

/-- `end` in the source. -/
def stop : Nat :=
  min (send.offset + MAX_FRAGMENT_PAYLOAD) send.data.length

def isLast : Bool :=
  decide (send.stop ≥ send.data.length)

def chunk : List UInt8 :=
  (send.data.take send.stop).drop send.offset

def framed : List UInt8 :=
  (if send.isLast then FRAG_END else FRAG_MORE) :: send.chunk

def wrote : Send :=
  { send with wroteAny := true, offset := send.stop }

end Send

/-- Who has the permit of `send_gate`. -/
inductive Gate
  | free
  | held (send : Send)
  /-- The task of `close_detached_with`. -/
  | closing
deriving DecidableEq, Repr

/-! ## The receiver -/

/-- `RecvState` without the buffer, with the calls whose fragments are in `acc`. -/
structure RecvState where
  acc : List UInt8 := []
  calls : List Nat := []
deriving DecidableEq, Repr

/-- What `next` comes back with. A message and the complaint about its length keep the limit there was. -/
inductive Returned
  | message (msg : List UInt8) (calls : List Nat) (limit : Nat)
  | ended
  | notConnected
  | readError
  | noPayload
  | badHeader (header : UInt8)
  | tooBig (limit : Nat)
deriving DecidableEq, Repr

/-- The loop of `next`, from `read` on. -/
def RecvState.take (recv : RecvState) (limit : Nat) (fragment : Fragment) :
    RecvState × Option Returned :=
  -- `read` fails where the buffer is too short
  if fragment.framed.length > RECV_BUF_SIZE then ({}, some .readError)
  else
    match fragment.framed with
    | [] => ({}, some .ended)
    | header :: payload =>
      if header ≠ FRAG_END ∧ header ≠ FRAG_MORE then ({}, some (.badHeader header))
      else if header = FRAG_MORE ∧ payload = [] then ({}, some .noPayload)
      else if recv.acc.length + payload.length > limit then ({}, some (.tooBig limit))
      else if header = FRAG_END ∧ recv.acc = [] then
        ({}, some (.message payload [fragment.call] limit))
      else
        let acc := recv.acc ++ payload
        let calls := recv.calls ++ [fragment.call]
        if header = FRAG_END then ({}, some (.message acc calls limit))
        else ({ acc := acc, calls := calls }, none)

/-! ## The channel -/

structure Link where
  /-- Everything that was written, in order. -/
  wire : List Fragment := []
  isOpen : Bool := true
  gate : Gate := .free
  /-- The messages of the calls that came as far as the loop, in the order of their permits. -/
  begun : List (List UInt8) := []
  /-- The messages whose call returned `Ok`. -/
  sent : List (List UInt8) := []
  /-- How much of `wire` has been read. -/
  cursor : Nat := 0
  /-- A `next` that has the lock of `recv_state`. -/
  reading : Bool := false
  recv : RecvState := {}
  maxRecvMessage : Nat := MAX_RECV_MESSAGE
  returned : List Returned := []
deriving DecidableEq, Repr

namespace Link

/-- A send fails before a fragment or between two of them (`writeFails`, `sendTimesOut`). -/
inductive Event
  | sendBytes (data : List UInt8)
  | write
  | writeFails
  | sendTimesOut
  /-- `pc.close()` of `close_detached_with` has come back. -/
  | closed
  /-- Another call of `close`, or the connection is lost. -/
  | shut
  | next
  /-- The future of `next` is dropped. -/
  | cancel
  | nextFails
  | read
  | readEnds
  | readFails
  | setMaxPacketLength (n : Nat)
deriving DecidableEq, Repr

variable (l : Link)

/-- `next` returns and drops its lock. -/
def finish (recv : RecvState) (returned : Returned) : Link :=
  { l with recv := recv, reading := false, returned := l.returned ++ [returned] }

def sendBytes (data : List UInt8) : Option Link :=
  match l.gate with
  | .free =>
    if data.length > MAX_RECV_MESSAGE then some l
    else some { l with gate := .held { call := l.begun.length, data := data },
                       begun := l.begun ++ [data] }
  | _ => none

def write : Option Link :=
  match l.gate with
  | .held send =>
    if l.isOpen then
      let l' : Link := { l with wire := l.wire ++ [⟨send.framed, send.call⟩] }
      if send.isLast then some { l' with gate := .free, sent := l.sent ++ [send.data] }
      else some { l' with gate := .held send.wrote }
    else none
  | _ => none

def writeFails : Option Link :=
  match l.gate with
  | .held send =>
    -- `desynced` is `wrote_any`
    some { l with gate := if send.wroteAny then .closing else .free }
  | _ => none

def sendTimesOut : Option Link :=
  match l.gate with
  | .held _ => some { l with gate := .closing }
  | _ => none

def read : Option Link :=
  match l.reading, l.wire[l.cursor]? with
  | true, some fragment =>
    let l' : Link := { l with cursor := l.cursor + 1 }
    match l.recv.take l.maxRecvMessage fragment with
    | (recv, none) => some { l' with recv := recv }
    | (recv, some returned) => some (l'.finish recv returned)
  | _, _ => none

def step : Event → Option Link
  | .sendBytes data => l.sendBytes data
  | .write => l.write
  | .writeFails => l.writeFails
  | .sendTimesOut => l.sendTimesOut
  | .closed => if l.gate = .closing then some { l with gate := .free, isOpen := false } else none
  | .shut => some { l with isOpen := false }
  | .next => if l.reading then none else some { l with reading := true }
  | .cancel => if l.reading then some { l with reading := false } else none
  -- before the lock is taken, so `acc` stays
  | .nextFails => some { l with returned := l.returned ++ [.notConnected] }
  | .read => l.read
  | .readEnds => if l.reading then some (l.finish {} .ended) else none
  | .readFails => if l.reading then some (l.finish {} .readError) else none
  | .setMaxPacketLength n => some { l with maxRecvMessage := min n MAX_RECV_MESSAGE }

end Link

/-! ## What goes out -/

namespace Fragment

def isEnd (fragment : Fragment) : Bool :=
  fragment.framed.head? == some FRAG_END

def payload (fragment : Fragment) : List UInt8 :=
  fragment.framed.tail

/-- What the loop of `send_bytes_inner` writes. -/
structure Proper (fragment : Fragment) : Prop where
  fits : fragment.framed.length ≤ RECV_BUF_SIZE
  header : ∃ payload, fragment.framed = FRAG_END :: payload ∨
    fragment.framed = FRAG_MORE :: payload ∧ payload ≠ []

/-- The payloads of the fragments of a message, put together. -/
def join (block : List Fragment) : List UInt8 :=
  block.flatMap payload

@[simp] theorem join_nil : join [] = [] := rfl

@[simp] theorem join_append (a b : List Fragment) : join (a ++ b) = join a ++ join b :=
  List.flatMap_append

@[simp] theorem join_singleton (fragment : Fragment) : join [fragment] = fragment.payload := by
  simp [join]

end Fragment

namespace Send

variable (send : Send)

@[simp] theorem payload_framed (call : Nat) : Fragment.payload ⟨send.framed, call⟩ = send.chunk := rfl

@[simp] theorem isEnd_framed (call : Nat) : Fragment.isEnd ⟨send.framed, call⟩ = send.isLast := by
  unfold Fragment.isEnd framed
  cases send.isLast <;> simp [FRAG_END, FRAG_MORE]

/-- What was written before the chunk, and the chunk. -/
theorem take_append_chunk (h : send.offset ≤ send.data.length) :
    send.data.take send.offset ++ send.chunk = send.data.take send.stop := by
  have hstop : send.offset ≤ send.stop := by
    unfold stop
    omega
  have htake : send.data.take send.offset = (send.data.take send.stop).take send.offset := by
    rw [List.take_take, Nat.min_eq_left hstop]
  rw [htake, chunk, List.take_append_drop]

theorem take_stop_of_isLast (h : send.isLast) : send.data.take send.stop = send.data :=
  List.take_of_length_le (of_decide_eq_true h)

theorem proper_framed (h : send.offset ≤ send.data.length) (call : Nat) :
    Fragment.Proper ⟨send.framed, call⟩ where
  fits := by
    simp only [framed, chunk, stop, List.length_cons, List.length_drop, List.length_take,
      MAX_FRAGMENT_PAYLOAD, RECV_BUF_SIZE]
    omega
  header := by
    refine ⟨send.chunk, ?_⟩
    unfold framed
    cases hlast : send.isLast with
    | true => exact .inl rfl
    | false =>
      refine .inr ⟨rfl, fun hnil => ?_⟩
      -- a chunk that is not the last is a full one
      have hmore : send.stop < send.data.length := by
        have := of_decide_eq_false hlast
        omega
      have hlen : send.chunk.length = send.stop - send.offset := by
        simp only [chunk, List.length_drop, List.length_take]
        omega
      rw [hnil, List.length_nil] at hlen
      simp only [stop, MAX_FRAGMENT_PAYLOAD] at hlen hmore
      omega

end Send

end FontisRemote.WebRtc
