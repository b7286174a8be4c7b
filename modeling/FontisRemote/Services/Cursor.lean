import FontisRemote.Lib.LittleEndian
import FontisRemote.Services.Service

/-!
# The cursor service

`run_cursor` of `src/server/input_service.rs` and the caches it fills: the messages by the platform's handle
(`cached_cursor_data`), the shapes by their content (`CURSOR_SHAPES`), and by id what each subscriber was sent
(`MouseCursorSub`). The thread of the service takes one step for each lock it takes, and connections come and
go between any two of them. xxh3 and the compression are parameters.

The platform is free: what `get_cursor` returns, and what `get_cursor_data` would return if it were called.
-/

namespace FontisRemote.Services.Cursor

open FontisRemote.Lib

structure CursorShape where
  hotx : Int32
  hoty : Int32
  width : Int32
  height : Int32
  colors : List UInt8
deriving DecidableEq

structure CursorData extends CursorShape where
  id : UInt64
deriving DecidableEq

/-- The messages of this service; one without a union is `empty`. -/
inductive Message
  | empty
  | cursorData (cd : CursorData)
  | cursorId (id : UInt64)
deriving DecidableEq

/-- `Arc<Message>`: which object it is, and the message. -/
structure Arc where
  addr : Nat
  msg : Message
deriving DecidableEq

def Arc.ptrEq (a b : Arc) : Bool := a.addr == b.addr

/-! ## Subscribers -/

/-- `inner` has what was sent to the connection. -/
structure MouseCursorSub where
  inner : List Message := []
  cached : List (UInt64 × Message) := []

namespace MouseCursorSub

def send (s : MouseCursorSub) : Message → MouseCursorSub
  | .cursorData cd =>
    match Assoc.get s.cached cd.id with
    | some msg => { s with inner := s.inner ++ [msg] }
    | none =>
      { inner := s.inner ++ [.cursorData cd]
        -- only send id out, require client side cache also
        cached := Assoc.put s.cached cd.id (some (.cursorId cd.id)) }
  | msg => { s with inner := s.inner ++ [msg] }

/-- A connection that subscribes has nothing cached yet. -/
def ofCalls (calls : List Message) : MouseCursorSub := calls.foldl send {}

end MouseCursorSub

/-! ## Shapes -/

/-- Held to 53 bits for the web client. -/
def cursorContentId (xxh3 : List UInt8 → UInt64) (width height hotx hoty : Int32) (colors : List UInt8) : UInt64 :=
  xxh3 (([width, height, hotx, hoty].flatMap fun v => leBytes 4 v.toUInt32.toNat) ++ colors) &&&
    (((1 : UInt64) <<< 53) - 1)

def CursorShape.contentId (xxh3 : List UInt8 → UInt64) (s : CursorShape) : UInt64 :=
  cursorContentId xxh3 s.width s.height s.hotx s.hoty s.colors

structure CursorShapes where
  shapes : List (UInt64 × Arc) := []
  bytes : Nat := 0

namespace CursorShapes

variable (s : CursorShapes)

def get (id : UInt64) : Option Arc := Assoc.get s.shapes id

def clear (_ : CursorShapes) : CursorShapes := {}

/-- The message kept for this shape, `msg` if there was none. -/
def keep (cd : CursorData) (msg : Arc) : CursorShapes × Arc :=
  match Assoc.get s.shapes cd.id with
  | some kept => (s, kept)
  | none =>
    ({ s with
        shapes := Assoc.put s.shapes cd.id (some msg)
        bytes := s.bytes + cd.colors.length }, msg)

def sharedCursorShape (msg : Arc) : CursorShapes × Arc :=
  match msg.msg with
  | .cursorData cd => s.keep cd msg
  | _ => (s, msg)

/-- `addr` is where the message goes if it has to be made. -/
def cursorShapeMessage (xxh3 : List UInt8 → UInt64) (compress : List UInt8 → List UInt8) (addr : Nat)
    (data : CursorData) : CursorShapes × Arc :=
  let id := cursorContentId xxh3 data.width data.height data.hotx data.hoty data.colors
  match s.get id with
  | some msg => (s, msg)
  | none => s.sharedCursorShape ⟨addr, .cursorData { data with id := id, colors := compress data.colors }⟩

/-- The shapes start over, and the one being sent is kept past the clear. -/
def restart (sending : Arc) : CursorShapes := (s.clear.sharedCursorShape sending).1

end CursorShapes

def CURSOR_CACHE_MAX : Nat := 64
def CURSOR_HANDLES_MAX : Nat := 4096
def CURSOR_SHAPES_BYTES_MAX : Nat := 32 <<< 20

abbrev Handles := List (UInt64 × Arc)

/-- The ceiling of the build with DRM. -/
def limitDrmHandles (handles : Handles) (shapes : CursorShapes) (sending : Arc) : Handles × CursorShapes :=
  if CURSOR_CACHE_MAX ≤ handles.length then ([], shapes.restart sending) else (handles, shapes)

def limitCursorHandles (handles : Handles) (shapes : CursorShapes) (sending : Arc) : Handles × CursorShapes :=
  if CURSOR_HANDLES_MAX ≤ handles.length ∨ CURSOR_SHAPES_BYTES_MAX ≤ shapes.bytes then
    ([], shapes.restart sending)
  else (handles, shapes)

/-! ## The service -/

/-- What the program is built for. -/
structure Build where
  drm : Bool := false
  macos : Bool := false
  xxh3 : List UInt8 → UInt64
  compress : List UInt8 → List UInt8

structure StateCursor where
  hcursor : UInt64 := 0
  cursorData : Arc
  cachedCursorData : Handles := []

/-- Where the thread is. -/
inductive Pc
  | idle
  /-- `has_subscribes` was true, `run_cursor` is called. -/
  | running
  /-- `has_subscribes` was false after a call of `run_cursor`. -/
  | resetting
  | sending (msg : Arc)
  | snapshot
  /-- In the callback of `snapshot`, before its `send_shared`. -/
  | snapshotting
  /-- After it. -/
  | swapping
deriving DecidableEq

structure CursorService where
  state : StateCursor
  shapes : CursorShapes := {}
  /-- Where the next message is allocated. -/
  next : Nat
  sp : ServiceTmpl Arc
  mayReset : Bool := false
  pc : Pc := .idle

namespace CursorService

variable (b : Build) (c : CursorService)

/-- The handle is the one shown now, its message `msg`: sent if it is not the same object. -/
def shown (hcursor : UInt64) (msg : Arc) : CursorService :=
  { c with
    state := { c.state with hcursor := hcursor }
    pc := if msg.ptrEq c.state.cursorData then .snapshot else .sending msg }

/-- The id that a captured shape is filed under. -/
def cacheKey (hcursor : UInt64) (data : CursorData) : UInt64 := if b.drm then data.id else hcursor

/-- The message for what `get_cursor_data` returned. -/
def shapeMessage (data : CursorData) : CursorShapes × Arc :=
  c.shapes.cursorShapeMessage b.xxh3 b.compress c.next data

/-- The handles and the shapes once the ceilings were looked at. -/
def limited (data : CursorData) : Handles × CursorShapes :=
  let msg := (c.shapeMessage b data).2
  let drm := if b.drm then limitDrmHandles c.state.cachedCursorData (c.shapeMessage b data).1 msg
    else (c.state.cachedCursorData, (c.shapeMessage b data).1)
  limitCursorHandles drm.1 drm.2 msg

/-- File a captured shape. A seed of macOS is never filed. -/
def filed (hcursor : UInt64) (data : CursorData) : CursorService :=
  { c with
    shapes := (c.limited b data).2
    next := c.next + 1
    state :=
      { c.state with
        cachedCursorData :=
          if b.macos then (c.limited b data).1
          else Assoc.put (c.limited b data).1 (cacheKey b hcursor data) (some (c.shapeMessage b data).2) } }

/-- `run_cursor` up to its `send_shared`. An error leaves it at once. -/
def getCursor (cursor : Except Unit (Option UInt64)) (data : Except Unit CursorData) : CursorService :=
  match cursor with
  | .error _ => { c with pc := .idle }
  | .ok none => { c with pc := .snapshot }
  | .ok (some hcursor) =>
    if hcursor = c.state.hcursor then { c with pc := .snapshot }
    else match Assoc.get c.state.cachedCursorData hcursor with
      | some msg => c.shown hcursor msg
      | none =>
        match data with
        | .error _ => { c with pc := .idle }
        | .ok data => (c.filed b hcursor data).shown (cacheKey b hcursor data) (c.shapeMessage b data).2

def hasSubscribes : Bool := 0 < c.sp.subscribes.length || 0 < c.sp.newSubscribes.length

/-- The loop of `repeat`, once around. -/
def poll : CursorService :=
  if c.hasSubscribes then { c with mayReset := true, pc := .running }
  else if c.mayReset then { c with pc := .resetting }
  else c

def reset : CursorService :=
  { c with
    state := { cursorData := ⟨c.next, .empty⟩ }
    shapes := c.shapes.clear
    next := c.next + 1
    mayReset := false
    pc := .idle }

/-- The next step of the thread, where it does not ask the platform. -/
def thread : Option CursorService :=
  match c.pc with
  | .idle => some c.poll
  | .running => none
  | .resetting => some c.reset
  | .sending msg =>
    some
      { c with
        sp := c.sp.sendShared msg
        state := { c.state with cursorData := msg }
        pc := .snapshot }
  | .snapshot =>
    some { c with sp := c.sp.snapshot, pc := if 0 < c.sp.newSubscribes.length then .snapshotting else .idle }
  | .snapshotting => some { c with sp := c.sp.swapSend [] c.state.cursorData, pc := .swapping }
  | .swapping => some { c with sp := c.sp.swapDrop [c.state.cursorData] true, pc := .idle }

inductive Event
  | thread
  | getCursor (cursor : Except Unit (Option UInt64)) (data : Except Unit CursorData)
  | onSubscribe (id : ConnId)
  | onUnsubscribe (id : ConnId)

def step : Event → Option CursorService
  | .thread => c.thread
  | .getCursor cursor data => if c.pc = .running then some (c.getCursor b cursor data) else none
  | .onSubscribe id => some { c with sp := c.sp.onSubscribe id }
  | .onUnsubscribe id => some { c with sp := c.sp.onUnsubscribe id }

/-- `new_cursor`. -/
def new : CursorService where
  state := { cursorData := ⟨0, .empty⟩ }
  next := 1
  sp := ServiceTmpl.new Arc true

def Init (c : CursorService) : Prop := c = new

end CursorService

end FontisRemote.Services.Cursor
