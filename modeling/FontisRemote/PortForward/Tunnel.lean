import FontisRemote.Lib.Run
import FontisRemote.Lib.Assoc
import FontisRemote.PortForward.Channel

/-!
# A multiplexed tunnel

Two endpoints over one reliable stream: the controller's `TunnelHandle` with its two queues and
`tunnel_loop`, and the controlled side's `PortForwardMux`, whose sink is the connection's single
ordered queue (merged here with the stream it is written to). Any number of channels run at once.

A channel id can come round again: the counter is an `AtomicI32`. The task that had the id before
may still be running then, so each endpoint keeps, besides the latest channel of every id (the one
the demultiplexer's entry belongs to), the earlier ones.
-/

namespace FontisRemote.PortForward

open FontisRemote.Lib

/-- A demultiplexer entry. The controlled side has no `opened` flag and never reads it. -/
structure Entry where
  opened : Bool
  deriving DecidableEq, Repr

/-- What one endpoint has under one id: the demultiplexer's entry and the latest channel. -/
structure End where
  entry : Option Entry
  chan : Option Channel
  deriving DecidableEq, Repr

namespace Channel

/-- `inbound.send(..)`, which fails once the receiver is gone. -/
def push (c : Channel) (i : Inbound) : Channel :=
  if c.receiving then { c with inbound := c.inbound ++ [i] } else c

end Channel

namespace End

/-- A `data` frame: charged, queued, and on a failure of either the entry is dropped. -/
def onData (e : End) (d : Bytes) : End :=
  match e.entry, e.chan with
  | some ent, some c =>
    match c.window.accept d.length with
    | some w =>
      let c := { c with window := w }
      if c.receiving then ⟨some ent, some (c.push (.data d))⟩ else ⟨none, some c⟩
    | none => ⟨none, some (c.push .violation)⟩
  | _, _ => e

/-- A `close` frame, and a refused `opened`. -/
def onClose (e : End) : End :=
  match e.entry, e.chan with
  | some _, some c => ⟨none, some (c.push .close)⟩
  | _, _ => e

def onWindowUpdate (e : End) (add : Nat) : End :=
  match e.entry, e.chan with
  | some ent, some c => ⟨some ent, some { c with credit := SendCredit.add c.credit add }⟩
  | _, _ => e

/-- `opened` with success. A repeated one must not raise the credit again. -/
def onOpened (e : End) (window : Nat) : End :=
  match e.entry, e.chan with
  | some ent, some c =>
    if ent.opened then e
    else ⟨some ⟨true⟩, some { c with credit := SendCredit.raiseInitial c.credit window }⟩
  | _, _ => e

end End

/-- One endpoint of the tunnel. `down` is `close_all` having run, `gone` the receiver of the sink
being dropped after it. -/
structure Endpoint where
  entries : List (ChannelId × Entry)
  chan : ChannelId → Option Channel
  old : List Channel
  down : Bool
  gone : Bool

namespace Endpoint

def empty : Endpoint := ⟨[], fun _ => none, [], false, false⟩

/-- What is stored under an id. -/
def under (p : Endpoint) (id : ChannelId) : End := ⟨Assoc.get p.entries id, p.chan id⟩

/-- Replace what is stored under an id. -/
def set (p : Endpoint) (id : ChannelId) (e : End) : Endpoint :=
  { p with
    entries := Assoc.put p.entries id e.entry
    chan := Function.update p.chan id e.chan }

/-- Put a new channel under an id; one that was there before is kept among the earlier ones. -/
def insert (p : Endpoint) (id : ChannelId) (c : Channel) : Endpoint :=
  { (p.set id ⟨some ⟨false⟩, some c⟩) with old := (p.chan id).toList ++ p.old }

end Endpoint

/-- A channel task: the latest of an id, or an earlier one by its place in the list. -/
inductive TaskRef where
  | live (id : ChannelId)
  | old (i : Nat)
  deriving DecidableEq, Repr

namespace Endpoint

def task (p : Endpoint) : TaskRef → Option Channel
  | .live id => p.chan id
  | .old i => p.old[i]?

/-- The demultiplexer still holds the inbound sender of this very channel. -/
def holds (p : Endpoint) : TaskRef → Bool
  | .live id => (Assoc.get p.entries id).isSome
  | .old _ => false

def setTask (p : Endpoint) (c : Channel) : TaskRef → Endpoint
  | .live id => { p with chan := Function.update p.chan id (some c) }
  | .old i => { p with old := p.old.set i c }

end Endpoint

/-- The whole tunnel. `loginTarget` is what the login was approved for. `opens` counts the calls of
`TunnelHandle::open` and labels the channels. -/
structure Tunnel where
  ctl : Endpoint
  srv : Endpoint
  nextId : ChannelId
  opens : Nat
  dataQ : List Frame
  controlQ : List Frame
  c2s : List Frame
  s2c : List Frame
  loginTarget : String

inductive TunnelEvent where
  | open (host : String) (port : Int) (prebuf : Bytes)
  | ctlTask (t : TaskRef) (e : TaskEvent)
  | srvTask (t : TaskRef) (e : TaskEvent)
  /-- `tunnel_loop` moves one frame from a queue to the stream. -/
  | pumpData
  | pumpControl
  /-- The head of a stream is handled. `permitted` is `tunnel_permitted()`. -/
  | deliverSrv (permitted : Bool)
  | deliverCtl
  /-- `close_all`, and the sink's receiver dropped after it. -/
  | ctlDown
  | ctlGone
  | srvDown
  | srvGone
  deriving DecidableEq, Repr

/-- The id `TunnelHandle::open` settles on: the counter's value, stepped past ids still in the
table. The table has fewer entries than the fuel, so a free one is found. -/
def freshId (entries : List (ChannelId × Entry)) : Nat → ChannelId → ChannelId
  | 0, id => id
  | n + 1, id => if (Assoc.get entries id).isSome then freshId entries n (id + 1) else id

namespace Tunnel

/-- The id the next `open` is given. -/
def openId (t : Tunnel) : ChannelId := freshId t.ctl.entries t.ctl.entries.length t.nextId

/-- `TunnelHandle::open`. -/
def openChannel (t : Tunnel) (host : String) (port : Int) (prebuf : Bytes) : Option Tunnel :=
  if t.ctl.gone then none
  else if maxChannels ≤ t.ctl.entries.length then none
  else
    let id := t.openId
    some { t with
      ctl := t.ctl.insert id (.opening id t.opens host port prebuf)
      nextId := id + 1
      opens := t.opens + 1 }

/-- `channels.retain(|_, e| !e.inbound.is_closed())`. -/
def sweep (t : Tunnel) : Tunnel :=
  let live (k : ChannelId) : Bool := match t.srv.chan k with
    | some c => c.receiving
    | none => false
  { t with srv := { t.srv with entries := Assoc.retain t.srv.entries live } }

/-- `PortForwardMux::reply` with an `opened` that refuses. -/
def refuse (t : Tunnel) (id : ChannelId) (message : String) : Tunnel :=
  { t with s2c := t.s2c ++ [.opened id false message 0] }

/-- `PortForwardMux::on_open`. -/
def onOpen (t : Tunnel) (permitted : Bool) (id : ChannelId) (host : String) (port : Int)
    (window serial : Nat) : Tunnel :=
  let t := t.sweep
  if !permitted then t.refuse id "No permission of IP tunneling"
  else if maxChannels ≤ t.srv.entries.length then t.refuse id "Too many port forward channels"
  else if (Assoc.get t.srv.entries id).isSome then t
  else if (normalizePortForwardTarget host port).1 ≠ t.loginTarget then
    t.refuse id "Port forward target not authorized"
  else { t with srv := t.srv.insert id (.connecting id serial host port window) }

/-- `PortForwardMux::handle`. -/
def handle (t : Tunnel) (permitted : Bool) : Frame → Tunnel
  | .open id host port window serial => t.onOpen permitted id host port window serial
  | .data id d => { t with srv := t.srv.set id ((t.srv.under id).onData d) }
  | .close id => { t with srv := t.srv.set id (t.srv.under id).onClose }
  | .windowUpdate id add => { t with srv := t.srv.set id ((t.srv.under id).onWindowUpdate add) }
  | .opened .. => t

/-- `TunnelHandle::on_frame`. The text it may return for a dialog is not kept. -/
def onFrame (t : Tunnel) : Frame → Tunnel
  | .opened id success _ window =>
    if success then { t with ctl := t.ctl.set id ((t.ctl.under id).onOpened window) }
    else { t with ctl := t.ctl.set id (t.ctl.under id).onClose }
  | .data id d => { t with ctl := t.ctl.set id ((t.ctl.under id).onData d) }
  | .close id => { t with ctl := t.ctl.set id (t.ctl.under id).onClose }
  | .windowUpdate id add => { t with ctl := t.ctl.set id ((t.ctl.under id).onWindowUpdate add) }
  | .open .. => t

/-- A step of one of the controller's tasks. The ordered queue is bounded; a task whose frame does
not fit waits. When the task ends it removes the entry of its id, whoever holds it. -/
def ctlTask (t : Tunnel) (r : TaskRef) (e : TaskEvent) : Option Tunnel :=
  match t.ctl.task r with
  | none => none
  | some c =>
    match c.step t.ctl.down t.ctl.gone (t.ctl.holds r) e with
    | none => none
    | some (c', em) =>
      if em.ordered ≠ [] ∧ dataQueueFrames ≤ t.dataQ.length then none
      else
        let p := t.ctl.setTask c' r
        let p := if e = .leave then { p with entries := Assoc.erase p.entries c.id } else p
        some { t with ctl := p, dataQ := t.dataQ ++ em.ordered, controlQ := t.controlQ ++ em.control }

/-- A step of one of the controlled side's tasks. -/
def srvTask (t : Tunnel) (r : TaskRef) (e : TaskEvent) : Option Tunnel :=
  match t.srv.task r with
  | none => none
  | some c =>
    match c.step t.srv.down t.srv.gone (t.srv.holds r) e with
    | none => none
    | some (c', em) =>
      some { t with srv := t.srv.setTask c' r, s2c := t.s2c ++ em.ordered ++ em.control }

def step (t : Tunnel) : TunnelEvent → Option Tunnel
  | .open host port prebuf => t.openChannel host port prebuf
  | .ctlTask r e => t.ctlTask r e
  | .srvTask r e => t.srvTask r e
  | .pumpData =>
    if t.ctl.down then none
    else match t.dataQ with
      | [] => none
      | f :: q => some { t with dataQ := q, c2s := t.c2s ++ [f] }
  | .pumpControl =>
    if t.ctl.down then none
    else match t.controlQ with
      | [] => none
      | f :: q => some { t with controlQ := q, c2s := t.c2s ++ [f] }
  | .deliverSrv permitted =>
    if t.srv.down then none
    else match t.c2s with
      | [] => none
      | f :: q => some ({ t with c2s := q }.handle permitted f)
  | .deliverCtl =>
    if t.ctl.down then none
    else match t.s2c with
      | [] => none
      | f :: q => some ({ t with s2c := q }.onFrame f)
  | .ctlDown => some { t with ctl := { t.ctl with entries := [], down := true } }
  | .ctlGone => if t.ctl.down then some { t with ctl := { t.ctl with gone := true } } else none
  | .srvDown => some { t with srv := { t.srv with entries := [], down := true } }
  | .srvGone => if t.srv.down then some { t with srv := { t.srv with gone := true } } else none

/-- A fresh tunnel, logged in for a target. -/
def start (loginTarget : String) : Tunnel :=
  ⟨.empty, .empty, 1, 0, [], [], [], [], loginTarget⟩

def Init (t : Tunnel) : Prop := ∃ target, t = start target

end Tunnel

end FontisRemote.PortForward
