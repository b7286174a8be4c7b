import FontisRemote.PortForward.Window

/-!
# The channel task

One end of one multiplexed channel: the two relay halves and `run_channel` of
`src/port_forward_mux.rs`, the spawned block of `TunnelHandle::open`, and
`run_controlled_channel` of `src/server/port_forward_mux.rs`. Both ends run the same relays over a
`FrameSink`; they differ in how they begin (`open` down the ordered queue, or connecting the target
and then `opened`).

The task is cut where the source awaits or takes a lock. Each step returns the frames it hands to
the sink, `ordered` for `send_ordered` and `control` for `send_control`. Whether a queued command
wins over a connect that completed on the same poll (`biased`) is left to the scheduler: a command
may also arrive between two polls.
-/

namespace FontisRemote.PortForward

/-- `Connection::normalize_port_forward_target`: the address to connect, and whether it is the RDP
shorthand. -/
def normalizePortForwardTarget (host : String) (port : Int) : String × Bool :=
  let isRdp := host = "RDP" && port = 0
  let (host, port) := if isRdp then ("localhost", 3389) else (host, port)
  let host := if host = "" then "localhost" else host
  (host ++ ":" ++ toString port, isRdp)

/-- `channel_id` on the wire: an `i32`, by its bits. -/
abbrev ChannelId := BitVec 32

/-- The `PortForwardChannel` union. `serial` is not on the wire: it says which call of
`TunnelHandle::open` built the frame, and no step reads it but to label the channel it opens. -/
inductive Frame where
  | open (id : ChannelId) (host : String) (port : Int) (window : Nat) (serial : Nat)
  | opened (id : ChannelId) (success : Bool) (message : String) (window : Nat)
  | data (id : ChannelId) (data : Bytes)
  | close (id : ChannelId)
  | windowUpdate (id : ChannelId) (add : Nat)
  deriving DecidableEq, Repr

namespace Frame

def id : Frame → ChannelId
  | .open id .. => id
  | .opened id .. => id
  | .data id _ => id
  | .close id => id
  | .windowUpdate id _ => id

end Frame

/-- What the demultiplexer hands to a channel task. -/
inductive Inbound where
  | data (data : Bytes)
  | close
  | violation
  deriving DecidableEq, Repr

/-- How a relay half ended. -/
inductive RelayEnd where
  | localEof
  | peerClosed
  | violation
  | cancelled
  | tunnelGone
  deriving DecidableEq, Repr

/-- Where `relay_socket_to_tunnel` stands: parked in `credit.take`, in `reader.read` with `allow`
taken, in `send_ordered`, or ended. -/
inductive ToTunnel where
  | taking
  | reading (allow : Nat)
  | sending (data : Bytes)
  | ended (r : RelayEnd)
  deriving DecidableEq, Repr

/-- Where `relay_tunnel_to_socket` stands: waiting for the next chunk, in `write_all` with `off`
bytes of the chunk written, about to `send_control` a `window_update`, or ended. -/
inductive ToSocket where
  | next
  | writing (chunk : Bytes) (off : Nat)
  | advertising (add : Nat)
  | ended (r : RelayEnd)
  deriving DecidableEq, Repr

/-- The stages of the task around the two halves. -/
inductive Stage where
  /-- The controller's task in `send_ordered(open)`. -/
  | opening
  /-- The controlled side's task in the connect loop. -/
  | connecting
  /-- Connected and granted, in `send_ordered(opened)`. -/
  | granted
  /-- `run_channel`. -/
  | running
  /-- Both halves joined, in `send_ordered(close)`. -/
  | closing
  /-- The task is over; on the controller its entry is still to be removed. -/
  | leaving
  | exited
  deriving DecidableEq, Repr

/-- One end of one channel. `credit`, `window` and `inbound` are shared with the demultiplexer's
entry. `pending` is the connect loop's buffer and then the head of `relay_tunnel_to_socket`'s queue.
`read` and `written` are what went through the local socket: everything read from the source
(`prebuf` first) and everything written to the destination. -/
structure Channel where
  id : ChannelId
  serial : Nat
  host : String
  port : Int
  stage : Stage
  credit : Nat
  window : RecvWindow
  inbound : List Inbound
  pending : List Bytes
  pendingLen : Nat
  toTunnel : ToTunnel
  toSocket : ToSocket
  cancel : Bool
  prebuf : Bytes
  read : Bytes
  written : Bytes
  deriving DecidableEq, Repr

/-- Frames handed to the sink by one step. -/
structure Emit where
  ordered : List Frame
  control : List Frame
  deriving DecidableEq, Repr

namespace Emit

def nothing : Emit := ⟨[], []⟩
def onOrdered (f : Frame) : Emit := ⟨[f], []⟩
def onControl (f : Frame) : Emit := ⟨[], [f]⟩

end Emit

namespace Channel

/-- The controller's end as `TunnelHandle::open` builds it. -/
def opening (id : ChannelId) (serial : Nat) (host : String) (port : Int) (prebuf : Bytes) :
    Channel where
  id := id
  serial := serial
  host := host
  port := port
  stage := .opening
  credit := SendCredit.new initialWindow
  window := RecvWindow.new channelWindow
  inbound := []
  pending := []
  pendingLen := 0
  toTunnel := .taking
  toSocket := .next
  cancel := false
  prebuf := prebuf
  read := []
  written := []

/-- The controlled end as `PortForwardMux::on_open` builds it. -/
def connecting (id : ChannelId) (serial : Nat) (host : String) (port : Int) (window : Nat) :
    Channel where
  id := id
  serial := serial
  host := host
  port := port
  stage := .connecting
  credit := SendCredit.new (effectiveWindow window)
  window := RecvWindow.new initialWindow
  inbound := []
  pending := []
  pendingLen := 0
  toTunnel := .taking
  toSocket := .next
  cancel := false
  prebuf := []
  read := []
  written := []

/-- The inbound receiver still exists: the connect loop or `relay_tunnel_to_socket` owns it. -/
def receiving (c : Channel) : Bool :=
  match c.stage with
  | .opening | .connecting | .granted => true
  | .running => match c.toSocket with
    | .ended _ => false
    | _ => true
  | .closing | .leaving | .exited => false

/-- One of the two halves has ended. -/
def halfEnded (c : Channel) : Bool :=
  match c.toTunnel, c.toSocket with
  | .ended _, _ => true
  | _, .ended _ => true
  | _, _ => false

/-- What `reader.read(&mut scratch[..allow])` may return from the prebuf chained with the socket:
the cursor copies as much as fits, the socket any number of bytes. -/
def offers (c : Channel) (allow : Nat) (bs : Bytes) : Bool :=
  match c.prebuf with
  | [] => bs ≠ [] && bs.length ≤ allow
  | _ => bs = c.prebuf.take allow

end Channel

/-- The steps of a channel task. -/
inductive TaskEvent where
  -- the controller's spawned block
  | sendOpen
  | sendOpenFails
  -- `run_controlled_channel`
  | connectRecv
  | connected
  | connectFails (message : String)
  | sendOpened
  | sendOpenedFails
  -- `relay_socket_to_tunnel`
  | take
  | takeCancelled
  | read (bs : Bytes)
  | readEof
  | readCancelled
  | sendData
  | sendDataFails
  -- `relay_tunnel_to_socket`
  | nextPending
  | nextInbound
  | nextCancelled
  | write (n : Nat)
  | writeDone
  | writeFails
  | writeCancelled
  | advertise
  | advertiseFails
  -- `run_channel`
  | signalCancel
  | join
  | sendClose
  | sendCloseFails
  | leave
  deriving DecidableEq, Repr

/-- Before `opened` the controller may only have used `initialWindow`. -/
def pendingFits (charged addLen : Nat) : Bool := charged + charge addLen ≤ initialWindow

/-- `relay_socket_to_tunnel`. `gone` is the sink's receiver being dropped. -/
def relaySocketToTunnel (gone : Bool) (c : Channel) : TaskEvent → Option (Channel × Emit)
  | .take =>
    match c.toTunnel, SendCredit.take c.credit maxFrame with
    | .taking, some (allow, left) =>
      some ({ c with credit := left, toTunnel := .reading allow }, .nothing)
    | _, _ => none
  | .takeCancelled =>
    match c.toTunnel with
    | .taking => if c.cancel then some ({ c with toTunnel := .ended .cancelled }, .nothing) else none
    | _ => none
  | .read bs =>
    match c.toTunnel with
    | .reading allow =>
      if c.offers allow bs then
        let spent := charge bs.length
        let credit := if spent < allow then SendCredit.add c.credit (allow - spent) else c.credit
        some ({ c with
          credit := credit
          toTunnel := .sending bs
          prebuf := c.prebuf.drop bs.length
          read := c.read ++ bs }, .nothing)
      else none
    | _ => none
  | .readEof =>
    -- end of file and a read error alike: `unwrap_or(0)`
    match c.toTunnel with
    | .reading allow =>
      if c.prebuf = [] then
        let credit := if 0 < allow then SendCredit.add c.credit allow else c.credit
        some ({ c with credit := credit, toTunnel := .ended .localEof }, .nothing)
      else none
    | _ => none
  | .readCancelled =>
    match c.toTunnel with
    | .reading allow =>
      if c.cancel then
        some ({ c with credit := SendCredit.add c.credit allow, toTunnel := .ended .cancelled },
          .nothing)
      else none
    | _ => none
  | .sendData =>
    match c.toTunnel with
    | .sending bs => some ({ c with toTunnel := .taking }, .onOrdered (.data c.id bs))
    | _ => none
  | .sendDataFails =>
    match c.toTunnel with
    | .sending _ => if gone then some ({ c with toTunnel := .ended .tunnelGone }, .nothing) else none
    | _ => none
  | _ => none

/-- `relay_tunnel_to_socket`. `entry` is the demultiplexer still holding the inbound sender. -/
def relayTunnelToSocket (gone entry : Bool) (c : Channel) : TaskEvent → Option (Channel × Emit)
  | .nextPending =>
    match c.toSocket, c.pending with
    | .next, chunk :: rest =>
      some ({ c with toSocket := .writing chunk 0, pending := rest }, .nothing)
    | _, _ => none
  | .nextInbound =>
    match c.toSocket, c.pending, c.inbound with
    | .next, [], .data chunk :: rest =>
      some ({ c with toSocket := .writing chunk 0, inbound := rest }, .nothing)
    | .next, [], .close :: rest =>
      some ({ c with toSocket := .ended .peerClosed, inbound := rest }, .nothing)
    | .next, [], .violation :: rest =>
      some ({ c with toSocket := .ended .violation, inbound := rest }, .nothing)
    | .next, [], [] =>
      -- `recv` returns `None` once the sender is dropped
      if entry then none else some ({ c with toSocket := .ended .tunnelGone }, .nothing)
    | _, _, _ => none
  | .nextCancelled =>
    match c.toSocket, c.pending with
    | .next, [] => if c.cancel then some ({ c with toSocket := .ended .cancelled }, .nothing) else none
    | _, _ => none
  | .write n =>
    match c.toSocket with
    | .writing chunk off =>
      if off + n ≤ chunk.length then
        some ({ c with
          toSocket := .writing chunk (off + n)
          written := c.written ++ (chunk.drop off).take n }, .nothing)
      else none
    | _ => none
  | .writeDone =>
    match c.toSocket with
    | .writing chunk off =>
      if off = chunk.length then
        match c.window.drained chunk.length with
        | (w, none) => some ({ c with window := w, toSocket := .next }, .nothing)
        | (w, some add) => some ({ c with window := w, toSocket := .advertising add }, .nothing)
      else none
    | _ => none
  | .writeFails =>
    match c.toSocket with
    | .writing _ _ => some ({ c with toSocket := .ended .localEof }, .nothing)
    | _ => none
  | .writeCancelled =>
    match c.toSocket with
    | .writing _ _ => if c.cancel then some ({ c with toSocket := .ended .cancelled }, .nothing) else none
    | _ => none
  | .advertise =>
    match c.toSocket with
    | .advertising add => some ({ c with toSocket := .next }, .onControl (.windowUpdate c.id add))
    | _ => none
  | .advertiseFails =>
    match c.toSocket with
    | .advertising _ => if gone then some ({ c with toSocket := .ended .tunnelGone }, .nothing) else none
    | _ => none
  | _ => none

/-- `close` goes out once, when the channel ended for a local reason and neither half saw the
peer's own `close` or the tunnel gone. -/
def sendsClose (first second : RelayEnd) : Bool :=
  let peerClosed := first = .peerClosed || second = .peerClosed
  let tunnelGone := first = .tunnelGone || second = .tunnelGone
  let localReason := first = .localEof || first = .violation ||
    second = .localEof || second = .violation
  !peerClosed && !tunnelGone && localReason

/-- The part of `run_channel` around the two halves: whichever ends first, or the teardown,
cancels the other; then both are joined and `close` is decided. -/
def runChannel (down : Bool) (c : Channel) : TaskEvent → Option (Channel × Emit)
  | .signalCancel =>
    if c.halfEnded || down then some ({ c with cancel := true }, .nothing) else none
  | .join =>
    match c.toTunnel, c.toSocket with
    | .ended first, .ended second =>
      some ({ c with stage := if sendsClose first second then .closing else .leaving }, .nothing)
    | _, _ => none
  | _ => none

/-- One step of the task. The connect loop and `send_ordered(opened)` belong to the controlled side,
`send_ordered(open)` to the controller; the stage says which. `down` is the teardown level. -/
def Channel.step (down gone entry : Bool) (c : Channel) (e : TaskEvent) : Option (Channel × Emit) :=
  match c.stage with
  | .opening =>
    match e with
    | .sendOpen =>
      some ({ c with stage := .running },
        .onOrdered (.open c.id c.host c.port channelWindow c.serial))
    | .sendOpenFails => if gone then some ({ c with stage := .leaving }, .nothing) else none
    | _ => none
  | .connecting =>
    match e with
    | .connectRecv =>
      match c.inbound with
      | .data b :: rest =>
        if pendingFits c.pendingLen b.length then
          some ({ c with
            inbound := rest
            pendingLen := c.pendingLen + charge b.length
            pending := c.pending ++ [b] }, .nothing)
        else some ({ c with inbound := rest, stage := .exited }, .onOrdered (.close c.id))
      | .close :: rest => some ({ c with inbound := rest, stage := .exited }, .nothing)
      | .violation :: rest =>
        some ({ c with inbound := rest, stage := .exited }, .onOrdered (.close c.id))
      | [] => if entry then none else some ({ c with stage := .exited }, .nothing)
    | .connected =>
      some ({ c with
        stage := .granted
        window := c.window.grant (channelWindow - initialWindow) }, .nothing)
    | .connectFails message =>
      some ({ c with stage := .exited }, .onOrdered (.opened c.id false message 0))
    | _ => none
  | .granted =>
    match e with
    | .sendOpened =>
      some ({ c with stage := .running }, .onOrdered (.opened c.id true "" channelWindow))
    | .sendOpenedFails => if gone then some ({ c with stage := .exited }, .nothing) else none
    | _ => none
  | .running =>
    match relaySocketToTunnel gone c e with
    | some r => some r
    | none =>
      match relayTunnelToSocket gone entry c e with
      | some r => some r
      | none => runChannel down c e
  | .closing =>
    match e with
    | .sendClose => some ({ c with stage := .leaving }, .onOrdered (.close c.id))
    | .sendCloseFails => if gone then some ({ c with stage := .leaving }, .nothing) else none
    | _ => none
  | .leaving =>
    match e with
    | .leave => some ({ c with stage := .exited }, .nothing)
    | _ => none
  | .exited => none

end FontisRemote.PortForward
