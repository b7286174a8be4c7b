import FontisRemote.PortForward.Tunnel
import FontisRemote.PortForward.ChannelSteps

/-!
# One side of a tunnel against any peer

`TunnelHandle` and `PortForwardMux` on their own: the frames of the other side are whatever they are.
A demultiplexer entry holds the sender of one task's inbound queue, its credit and its window, so it
names the task (`Slot.task`); the tasks stand in the order in which they were spawned and stay, also
after their entry is gone or an entry for the same id belongs to another task.

Every frame handed to the sink is recorded with the number of the open it belongs to: of the call of
`TunnelHandle::open` on the controller, of the `open` frame handled on the controlled side.
-/

namespace FontisRemote.PortForward

open FontisRemote.Lib

/-- A demultiplexer entry and the task it leads to. -/
structure Slot where
  task : Nat
  entry : Entry
  deriving DecidableEq, Repr

/-- What the two demultiplexers have in common. -/
structure Side where
  channels : List (ChannelId × Slot) := []
  tasks : List Channel := []
  down : Bool := false
  gone : Bool := false
  opens : Nat := 0
  sent : List (Nat × Frame) := []

namespace Side

/-- What the entry of an id leads to. -/
def under (s : Side) (id : ChannelId) : Option (Slot × Channel) :=
  match Assoc.get s.channels id with
  | none => none
  | some slot => (s.tasks[slot.task]?).map (slot, ·)

/-- A frame for a channel: its entry is kept or dropped, its queue, credit and window change. -/
def deliver (s : Side) (id : ChannelId) (f : End → End) : Side :=
  match s.under id with
  | none => s
  | some (slot, c) =>
    let e := f ⟨some slot.entry, some c⟩
    { s with
      channels := Assoc.put s.channels id (e.entry.map (⟨slot.task, ·⟩))
      tasks := s.tasks.set slot.task (e.chan.getD c) }

/-- Insert an entry and spawn its task. -/
def spawn (s : Side) (id : ChannelId) (c : Channel) : Side :=
  { s with
    channels := Assoc.put s.channels id (some ⟨s.tasks.length, ⟨false⟩⟩)
    tasks := s.tasks ++ [c]
    opens := s.opens + 1 }

/-- Some entry holds the inbound sender of this task. -/
def holds (s : Side) (i : Nat) : Bool := s.channels.any (·.2.task = i)

/-- A step of a task. -/
def taskStep (s : Side) (i : Nat) (e : TaskEvent) : Option (Side × Emit) :=
  match s.tasks[i]? with
  | none => none
  | some c =>
    match c.step s.down s.gone (s.holds i) e with
    | none => none
    | some (c', em) =>
      some ({ s with
        tasks := s.tasks.set i c'
        sent := s.sent ++ (em.ordered ++ em.control).map (c.serial, ·) }, em)

/-- `close_all`. -/
def closeAll (s : Side) : Side := { s with channels := [], down := true }

end Side

/-! ## The controller -/

structure TunnelHandle extends Side where
  nextId : ChannelId := 1
  dataQ : Nat := 0

inductive HandleEvent where
  | open (host : String) (port : Int) (prebuf : Bytes)
  /-- A frame of the peer's, whatever it is. -/
  | frame (f : Frame)
  | task (i : Nat) (e : TaskEvent)
  /-- `tunnel_loop` takes a frame from the ordered queue. -/
  | pump
  | closeAll
  /-- `tunnel_loop` is over and its receivers are dropped. -/
  | gone
  deriving DecidableEq, Repr

namespace TunnelHandle

/-- The ids in use, as `open` looks them up. -/
def table (t : TunnelHandle) : List (ChannelId × Entry) := t.channels.map fun p => (p.1, p.2.entry)

/-- The id the next `open` is given. -/
def openId (t : TunnelHandle) : ChannelId := freshId t.table t.table.length t.nextId

/-- `TunnelHandle::open`. -/
def openChannel (t : TunnelHandle) (host : String) (port : Int) (prebuf : Bytes) :
    Option TunnelHandle :=
  if t.gone then none
  else if maxChannels ≤ t.channels.length then none
  else
    let id := t.openId
    some { t with
      toSide := t.spawn id (.opening id t.opens host port prebuf)
      nextId := id + 1 }

/-- `TunnelHandle::on_frame`. -/
def onFrame (t : TunnelHandle) : Frame → TunnelHandle
  | .opened id success _ window =>
    if success then { t with toSide := t.deliver id (·.onOpened window) }
    else { t with toSide := t.deliver id (·.onClose) }
  | .data id d => { t with toSide := t.deliver id (·.onData d) }
  | .close id => { t with toSide := t.deliver id (·.onClose) }
  | .windowUpdate id add => { t with toSide := t.deliver id (·.onWindowUpdate add) }
  | .open .. => t

/-- A step of a task. A frame for a full queue has to wait. A task that ends removes the entry of its
id, whoever's it is. -/
def task (t : TunnelHandle) (i : Nat) (e : TaskEvent) : Option TunnelHandle :=
  match t.taskStep i e with
  | none => none
  | some (s, em) =>
    if em.ordered ≠ [] ∧ dataQueueFrames ≤ t.dataQ then none
    else
      let s := if e = .leave then
          match t.tasks[i]? with
          | some c => { s with channels := Assoc.erase s.channels c.id }
          | none => s
        else s
      some { t with toSide := s, dataQ := t.dataQ + em.ordered.length }

def step (t : TunnelHandle) : HandleEvent → Option TunnelHandle
  | .open host port prebuf => t.openChannel host port prebuf
  | .frame f => if t.down then none else some (t.onFrame f)
  | .task i e => t.task i e
  | .pump => if t.down ∨ t.dataQ = 0 then none else some { t with dataQ := t.dataQ - 1 }
  | .closeAll => some { t with toSide := t.toSide.closeAll }
  | .gone => if t.down then some { t with toSide := { t.toSide with gone := true } } else none

def Init (t : TunnelHandle) : Prop := t = {}

end TunnelHandle

/-! ## The controlled side -/

structure PortForwardMux extends Side where
  loginTarget : String

inductive MuxEvent where
  /-- A frame of the peer's, whatever it is. `permitted` is `tunnel_permitted()`. -/
  | frame (permitted : Bool) (f : Frame)
  | task (i : Nat) (e : TaskEvent)
  | closeAll
  /-- The connection's writer is dropped. -/
  | gone
  deriving DecidableEq, Repr

namespace PortForwardMux

/-- `channels.retain(|_, e| !e.inbound.is_closed())`. -/
def sweep (m : PortForwardMux) : PortForwardMux :=
  { m with channels := m.channels.filter fun p =>
      match m.tasks[p.2.task]? with
      | some c => c.receiving
      | none => false }

/-- `reply` with an `opened` that refuses. -/
def refuse (m : PortForwardMux) (id : ChannelId) (message : String) : PortForwardMux :=
  { m with
    opens := m.opens + 1
    sent := if m.gone then m.sent else m.sent ++ [(m.opens, .opened id false message 0)] }

/-- An `open` that is let in: its target is the one the tunnel is logged in for. -/
def accepts (m : PortForwardMux) (permitted : Bool) (id : ChannelId) (host : String) (port : Int) : Bool :=
  permitted && decide (m.channels.length < maxChannels) && (Assoc.get m.channels id).isNone &&
    decide ((normalizePortForwardTarget host port).1 = m.loginTarget)

/-- `PortForwardMux::on_open`. -/
def onOpen (m : PortForwardMux) (permitted : Bool) (id : ChannelId) (host : String) (port : Int)
    (window : Nat) : PortForwardMux :=
  let m := m.sweep
  if !permitted then m.refuse id "No permission of IP tunneling"
  else if maxChannels ≤ m.channels.length then m.refuse id "Too many port forward channels"
  else if (Assoc.get m.channels id).isSome then { m with opens := m.opens + 1 }
  else if (normalizePortForwardTarget host port).1 ≠ m.loginTarget then
    m.refuse id "Port forward target not authorized"
  else { m with toSide := m.spawn id (.connecting id m.opens host port window) }

/-- `PortForwardMux::handle`. -/
def handle (m : PortForwardMux) (permitted : Bool) : Frame → PortForwardMux
  | .open id host port window _ => m.onOpen permitted id host port window
  | .data id d => { m with toSide := m.deliver id (·.onData d) }
  | .close id => { m with toSide := m.deliver id (·.onClose) }
  | .windowUpdate id add => { m with toSide := m.deliver id (·.onWindowUpdate add) }
  | .opened .. => m

def step (m : PortForwardMux) : MuxEvent → Option PortForwardMux
  | .frame permitted f => if m.down then none else some (m.handle permitted f)
  | .task i e => (m.taskStep i e).map fun r => { m with toSide := r.1 }
  | .closeAll => some { m with toSide := m.toSide.closeAll }
  | .gone => if m.down then some { m with toSide := { m.toSide with gone := true } } else none

def Init (m : PortForwardMux) : Prop := ∃ target, m = { loginTarget := target }

/-- A tunnel that is logged in for the default port of RDP. -/
def rdp : PortForwardMux := { loginTarget := (normalizePortForwardTarget "RDP" 0).1 }

end PortForwardMux

end FontisRemote.PortForward
