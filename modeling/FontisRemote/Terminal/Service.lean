import FontisRemote.Lib.Assoc
import FontisRemote.Lib.Run
import FontisRemote.Terminal.OutputBuffer

/-!
# The terminal service

One terminal service and the client it serves. The service's thread polls (`read_outputs`): it copies
the map of sessions, visits each session of the copy under the session's lock, and removes those whose
shell has exited. The connection opens terminals meanwhile (`handle_open`). One step is one region
under the service's lock or a session's; `Stage` is the place in `read_outputs` between two of them, with
the local variables that live there. The thread is joined when its connection ends, so the next
connection finds no poll under way.

A session is known by its place in `arena`, which stands for the `Arc`; the map of the service and the
copies of a poll hold places. The channel from the reader thread has no bound here: a full channel, where
the source drops output, is left out.

`written`, `opened` and `returned` are for the statements: what the shell's reader has put in the channel,
since when the client has the session open, and what the polls have returned.
-/

namespace FontisRemote.Terminal

open FontisRemote.Lib

def channelBufferSize : Nat := 500
def defaultReconnectBufferBytes : Nat := 8 * 1024
def maxSigwinchPhaseAttempts : Nat := 3

/-- The two-phase resize that makes a full-screen program redraw. -/
inductive SigwinchPhase
  | idle
  | tempResize (retries : Nat)
  | restore (retries : Nat)
deriving DecidableEq

/-- One attempt; the resize may fail. -/
def SigwinchPhase.attempt (resizeOk : Bool) : SigwinchPhase → SigwinchPhase
  | .idle => .idle
  | .tempResize 0 => .idle
  | .tempResize (n + 1) => if resizeOk then .restore maxSigwinchPhaseAttempts else .tempResize n
  | .restore 0 => .idle
  | .restore (n + 1) => if resizeOk then .idle else .restore n

inductive SessionState
  /-- Not streaming to the client. -/
  | closed
  /-- Streaming, with the history to be sent first. -/
  | active (pendingBuffer : Option Bytes) (sigwinch : SigwinchPhase)
deriving DecidableEq

inductive Response
  | data (terminalId : Int) (data : Bytes)
  | closed (terminalId : Int) (exitCode : Int)
deriving DecidableEq

namespace Response

def terminalId : Response → Int
  | .data id _ => id
  | .closed id _ => id

/-- The bytes of the data responses for an id, in order. -/
def bytesFor (id : Int) (responses : List Response) : Bytes :=
  responses.flatMap fun
    | .data terminalId bytes => if terminalId = id then bytes else []
    | .closed _ _ => []

/-- How many Closed responses there are for an id. -/
def closedFor (id : Int) (responses : List Response) : Nat :=
  responses.countP fun
    | .data _ _ => false
    | .closed terminalId _ => decide (terminalId = id)

section Responses

variable {id : Int} {l : List Response}

@[simp] theorem bytesFor_nil : bytesFor id [] = [] := rfl
@[simp] theorem closedFor_nil : closedFor id [] = 0 := rfl

@[simp] theorem bytesFor_append (l m : List Response) :
    bytesFor id (l ++ m) = bytesFor id l ++ bytesFor id m := List.flatMap_append

@[simp] theorem closedFor_append (l m : List Response) :
    closedFor id (l ++ m) = closedFor id l + closedFor id m := List.countP_append

@[simp] theorem bytesFor_closed (terminalId exitCode : Int) :
    bytesFor id [.closed terminalId exitCode] = [] := rfl

@[simp] theorem closedFor_closed (terminalId exitCode : Int) :
    closedFor id [.closed terminalId exitCode] = if terminalId = id then 1 else 0 := by
  simp [closedFor]

@[simp] theorem bytesFor_chunks (chunks : List Bytes) :
    bytesFor id (chunks.map (.data id)) = chunks.flatten := by
  simp [bytesFor, List.flatMap_map, List.flatMap_id']

theorem bytesFor_of_ne (h : ∀ r ∈ l, r.terminalId ≠ id) : bytesFor id l = [] := by
  refine List.flatMap_eq_nil_iff.2 fun r hr => ?_
  cases r with
  | data terminalId bytes => exact if_neg (h _ hr)
  | closed _ _ => rfl

end Responses

end Response

/-- Since when the client has a session open, and as what. -/
structure Opened where
  id : Int
  /-- How much the session had output. -/
  before : Nat
  /-- How many responses had been returned. -/
  mark : Nat
  /-- How many had been when the client opened the id again. -/
  till : Option Nat
deriving DecidableEq

structure TerminalSession where
  outputBuffer : OutputBuffer
  /-- The chunks in the channel from the reader thread. -/
  outputRx : List Bytes
  state : SessionState
  closedMessageSent : Bool
  /-- `reader_thread.is_finished()` -/
  readerFinished : Bool
  /-- The shell's process, with its exit code once it has exited. -/
  child : Option (Option Int)
  written : Bytes
  opened : Option Opened
deriving DecidableEq

/-- What a visit meets: `try_lock` fails, `try_wait` succeeds, the resize succeeds. -/
structure Look where
  locked : Bool := false
  waits : Bool := true
  resizeOk : Bool := true
  /-- The order in which the map is listed. -/
  listed : List (Int × Nat) := []

namespace TerminalSession

variable (x : TerminalSession)

/-- What is still to be sent of the history. -/
def pending : Bytes :=
  match x.state with
  | .active (some buffer) _ => buffer
  | _ => []

def streaming : Bool :=
  match x.state with
  | .closed => false
  | .active _ _ => true

/-- `reader_thread` has finished, or the child has been seen to exit. -/
def exited (waits : Bool) : Bool := x.readerFinished || (waits && x.child.join.isSome)

/-- The visit is the one that finds the shell exited. -/
def closes (look : Look) : Bool := !x.closedMessageSent && x.exited look.waits

/-- What a visit sends as the output of a terminal. -/
def emits (terminalId : Int) : List Response :=
  match x.state with
  | .closed => []
  | .active pendingBuffer _ =>
    (pendingBuffer.toList.filter (!·.isEmpty)).map (.data terminalId) ++ x.outputRx.map (.data terminalId)

/-- The session after its visit: the channel is drained into the buffer whatever its state. -/
def visited (look : Look) : TerminalSession :=
  { x with
    closedMessageSent := x.closedMessageSent || x.closes look
    outputBuffer := x.outputBuffer.appendAll x.outputRx
    outputRx := []
    state := match x.state with
      | .closed => .closed
      | .active _ sigwinch => .active none (sigwinch.attempt look.resizeOk) }

/-- The session after a reconnect: the history is the recent output with what was in the channel. -/
def reconnect (opened : Opened) : TerminalSession :=
  let backlog := x.outputRx.take channelBufferSize
  let outputBuffer := x.outputBuffer.appendAll backlog
  let buffer := outputBuffer.getRecent defaultReconnectBufferBytes
  { x with
    outputBuffer
    outputRx := x.outputRx.drop channelBufferSize
    state := .active (if buffer.isEmpty then none else some buffer) (.tempResize maxSigwinchPhaseAttempts)
    opened := some opened }

/-- `child.take()`, with the exit code if there is one. -/
def takeChild : TerminalSession := { x with child := none }

def exitCode (waits : Bool) : Int := if waits then x.child.join.getD 0 else 0

/-- `reset_status` and `stop`: not streaming, and the client has it open no more. -/
def reset : TerminalSession := { x with state := .closed, opened := none }

/-- The client opens an id: what it had open under it before, it has open no more. -/
def superseded (terminalId : Int) (returned : Nat) : TerminalSession :=
  { x with
    opened := x.opened.map fun o =>
      if o.id = terminalId ∧ o.till = none then { o with till := some returned } else o }

/-- A new terminal. -/
def new (opened : Opened) : TerminalSession where
  outputBuffer := .new
  outputRx := []
  state := .active none .idle
  closedMessageSent := false
  readerFinished := false
  child := some none
  written := []
  opened := some opened

end TerminalSession

/-- Where `read_outputs` is. `closed` is `closed_terminals`, or what is left of it to clean up. -/
inductive Stage
  | idle
  /-- Before the proxy reads whether the service is persistent. -/
  | starting
  | snapshotting
  | visiting (todo : List (Int × Nat)) (closed : List Int)
  | cloning (closed : List Int)
  | cleaning (clone : List (Int × Nat)) (closed : List Int)
  /-- Not persistent: the session is out of the map, its child is taken next. -/
  | takingChild (clone : List (Int × Nat)) (terminalId : Int) (σ : Nat) (closed : List Int)
  /-- Persistent: the child is taken, the session leaves the map next. -/
  | unmapping (clone : List (Int × Nat)) (terminalId exitCode : Int) (closed : List Int)
deriving DecidableEq

structure Terminals where
  arena : List TerminalSession
  /-- The map of the service. -/
  sessions : List (Int × Nat)
  needsSessionSync : Bool
  isPersistent : Bool
  attached : Bool
  stage : Stage
  /-- `is_persistent` of the poll's proxy. -/
  persistent : Bool
  /-- `responses` of the poll. -/
  responses : List Response
  returned : List Response
deriving DecidableEq

inductive Event
  /-- The reader thread puts a chunk in the channel. -/
  | output (σ : Nat) (data : Bytes)
  | readerEnds (σ : Nat)
  | childExits (σ : Nat) (exitCode : Int)
  /-- A connection of the client, after its login. -/
  | attaches (isPersistent : Bool)
  | disconnects
  /-- The thread of a service that is not persistent removes it when it ends. -/
  | removes
  | setPersistent (isPersistent : Bool)
  /-- An `OpenTerminal` of the client; a new terminal may fail to be made. -/
  | opens (terminalId : Int) (spawns : Bool)
  /-- The loop of the thread goes around. -/
  | pollStarts
  /-- The next region of the poll. -/
  | polls (look : Look)

namespace Terminals

variable (s : Terminals)

/-- The session that an id not in the map is remapped from: the lowest, until the client has synced. -/
def remapsFrom (terminalId : Int) : Option Int :=
  if (Assoc.get s.sessions terminalId).isNone && s.needsSessionSync then (s.sessions.map Prod.fst).min?
  else none

/-- The map after the remap. -/
def remapped (terminalId : Int) : List (Int × Nat) :=
  match s.remapsFrom terminalId with
  | none => s.sessions
  | some lowest =>
    Assoc.put (Assoc.erase s.sessions lowest) terminalId (Assoc.get s.sessions lowest)

/-- The sessions when the client opens an id. -/
def supersede (terminalId : Int) : List TerminalSession :=
  s.arena.map (·.superseded terminalId s.returned.length)

def handleOpen (terminalId : Int) (spawns : Bool) : Terminals :=
  match Assoc.get (s.remapped terminalId) terminalId with
  | some σ =>
    { s with
      arena := (s.supersede terminalId).modify σ fun x =>
        x.reconnect ⟨terminalId, x.written.length, s.returned.length, none⟩
      sessions := s.remapped terminalId
      needsSessionSync := false }
  | none =>
    if spawns then
      { s with
        arena := s.supersede terminalId ++ [.new ⟨terminalId, 0, s.returned.length, none⟩]
        sessions := Assoc.put s.sessions terminalId (some s.arena.length)
        needsSessionSync := false }
    else s

/-- The poll goes on to its next region. -/
def goto (stage : Stage) : Terminals := { s with stage }

def push (response : Response) : Terminals := { s with responses := s.responses ++ [response] }

def returns : Terminals :=
  { s with stage := .idle, responses := [], returned := s.returned ++ s.responses }

def set (σ : Nat) (x : TerminalSession) : Terminals := { s with arena := s.arena.set σ x }

/-- One region of `read_outputs`. -/
def readOutputs (look : Look) : Option Terminals :=
  match s.stage with
  | .idle => none
  | .starting => some { s with persistent := s.isPersistent, stage := .snapshotting }
  | .snapshotting => if look.listed.Perm s.sessions then some (s.goto (.visiting look.listed [])) else none
  | .visiting [] closed => if closed.isEmpty then some s.returns else some (s.goto (.cloning closed))
  | .visiting ((terminalId, σ) :: todo) closed =>
    if look.locked then some (s.goto (.visiting todo closed))
    else s.arena[σ]?.map fun x =>
      { s with
        arena := s.arena.set σ (x.visited look)
        responses := s.responses ++ x.emits terminalId
        stage := .visiting todo (if x.closes look then closed ++ [terminalId] else closed) }
  | .cloning closed => some (s.goto (.cleaning s.sessions closed))
  | .cleaning _ [] => some s.returns
  | .cleaning clone (terminalId :: closed) =>
    match Assoc.get clone terminalId with
    | none => some ((s.push (.closed terminalId 0)).goto (.cleaning clone closed))
    | some σ =>
      if s.persistent then
        s.arena[σ]?.map fun x =>
          if x.closedMessageSent then
            (s.set σ x.takeChild).goto (.unmapping clone terminalId (x.exitCode look.waits) closed)
          else
            ((s.set σ x.takeChild).push (.closed terminalId (x.exitCode look.waits))).goto
              (.cleaning clone closed)
      else
        some { s with
          sessions := Assoc.erase s.sessions terminalId
          stage := .takingChild (Assoc.erase clone terminalId) terminalId σ closed }
  | .takingChild clone terminalId σ closed =>
    s.arena[σ]?.map fun x =>
      ((s.set σ x.takeChild).push (.closed terminalId (x.exitCode look.waits))).goto (.cleaning clone closed)
  | .unmapping clone terminalId exitCode closed =>
    some { s with
      sessions := Assoc.erase s.sessions terminalId
      responses := s.responses ++ [.closed terminalId exitCode]
      stage := .cleaning (Assoc.erase clone terminalId) closed }

def step : Event → Option Terminals
  | .output σ data =>
    (s.arena[σ]?.filter (!·.readerFinished)).map fun x =>
      s.set σ { x with outputRx := x.outputRx ++ [data], written := x.written ++ data }
  | .readerEnds σ => s.arena[σ]?.map fun x => s.set σ { x with readerFinished := true }
  | .childExits σ exitCode =>
    (s.arena[σ]?.filter (·.child.isSome)).map fun x => s.set σ { x with child := some (some exitCode) }
  | .attaches isPersistent =>
    if s.attached = false ∧ s.stage = .idle then
      some { s with
        arena := s.arena.map (·.reset), needsSessionSync := true, isPersistent, attached := true }
    else none
  | .disconnects => some { s with attached := false }
  | .removes =>
    if s.attached = false ∧ s.stage = .idle ∧ s.isPersistent = false then
      some { s with arena := s.arena.map (·.reset), sessions := [] }
    else none
  | .setPersistent isPersistent => some { s with isPersistent }
  | .opens terminalId spawns => if s.attached then some (s.handleOpen terminalId spawns) else none
  | .pollStarts => if s.attached ∧ s.stage = .idle then some (s.goto .starting) else none
  | .polls look => s.readOutputs look

/-- A service is made for the first connection of a client. -/
def Init (s : Terminals) : Prop :=
  s = ⟨[], [], true, s.isPersistent, false, .idle, false, [], []⟩

end Terminals

end FontisRemote.Terminal
