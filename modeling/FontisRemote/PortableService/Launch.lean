import FontisRemote.Lib.Run
import FontisRemote.Lib.Slots
import FontisRemote.PortableService.Token

/-!
# One token for one helper

`start_portable_service` of the main process, beside the server that its helper connects to. The threads that launch,
the watchdog of each launch, the one handshake that the server is in, the connections it has and the exit hook share
what is behind a few locks; a step here is what one of them does while it holds the locks it takes. Where two locks are
held, they are taken in one order, and the name of the memory is only touched with the memory.
-/

namespace FontisRemote.PortableService

open FontisRemote.Lib

/-- How far a call of `start_portable_service` has come. -/
inductive Phase
  /-- It has read `RUNNING`. -/
  | asked (running : Bool)
  | began (launchToken : Nat)
  | cleared (launchToken : Nat)
  /-- The memory has the token, and `IPC_RUNTIME_TOKEN` not yet. -/
  | created (launchToken : Nat) (token : Bytes)
  | ready (launchToken : Nat)
  | failing
  | ended
deriving DecidableEq, Repr

def Phase.token : Phase → Option Bytes
  | .created _ token => some token
  | _ => none

inductive Watchdog
  | sleeping (launchToken : Nat)
  /-- It has read `STARTING_TOKEN`: whether that is still its launch's. -/
  | woken (current : Bool)
  /-- And `STARTING`. -/
  | looked (starting : Bool)
  | resetting
  | ended
deriving DecidableEq, Repr

/-- The server takes one connection after the other. -/
inductive Handshake
  | idle
  /-- The connection is authorized, and the token has not come. -/
  | waiting
  /-- The answer is to be sent; the token that was consumed, with the name of the memory then. -/
  | answering (consumed : Option (Bytes × Option String))
  /-- The answer could not be sent. -/
  | restoring (token : Bytes) (expectedShmemName : Option String)
  | resetting
deriving DecidableEq, Repr

def Handshake.consumed : Handshake → Option Bytes
  | .answering consumed => consumed.map Prod.fst
  | .restoring token _ => some token
  | _ => none

structure Client where
  running : Bool := false
  starting : Bool := false
  startingToken : Nat := 0
  shmem : Option Bytes := none
  shmemRuntimeName : Option String := none
  ipcRuntimeToken : Option Bytes := none
  launches : List Phase := []
  watchdogs : List Watchdog := []
  handshake : Handshake := .idle
  /-- Connections past the handshake, and those that have only `STARTING` left to reset. -/
  conns : Nat := 0
  closing : Nat := 0
  /-- The tokens that were generated, the names, and the tokens whose handshake was completed, which no code reads. -/
  generated : List Bytes := []
  names : List String := []
  completed : List Bytes := []
deriving DecidableEq

/-- What comes of running the helper. -/
inductive Ran
  | started
  | failed
  /-- `current_exe` has no answer; nothing is cleared. -/
  | noExe
deriving DecidableEq, Repr

inductive Event
  | ask
  | begin_ (i : Nat) (hasProcess : Bool)
  | clear (i : Nat)
  /-- The name, the random bytes and the size that come up, or an error. -/
  | create (i : Nat) (made : Option (String × Bytes × Nat))
  | set (i : Nat)
  | run (i : Nat) (ran : Ran)
  | fail (i : Nat)
  /-- The next of the three values that a watchdog reads, each by itself. -/
  | wake (k : Nat)
  | reset (k : Nat)
  | accept
  /-- What comes first on the connection: a token, or something else or nothing in time. -/
  | token (candidate : Option Bytes)
  | answer (sent : Bool)
  | restore
  | resetStarting
  | pong
  | close
  | closed
  | exitHook
deriving DecidableEq

namespace Client

variable (s : Client)

def setPhase (i : Nat) (phase : Phase) : Client := { s with launches := s.launches.set i phase }

/-- `clear_runtime_shmem_state`; the memory is gone for this process, and was cleared before. -/
def clearRuntimeShmemState : Client := { s with shmem := none, shmemRuntimeName := none, ipcRuntimeToken := none }

def consumeRuntimeIpcTokenIfMatch (candidate : Bytes) : Option (Bytes × Option String) × Client :=
  if s.ipcRuntimeToken.any (constantTimeIpcTokenEq · candidate) then
    (some (candidate, s.shmemRuntimeName),
      { s with ipcRuntimeToken := none, shmem := s.shmem.map clearIpcTokenInShmem })
  else (none, s)

def restoreRuntimeIpcToken (token : Bytes) (expectedShmemName : Option String) : Client :=
  if s.ipcRuntimeToken.any (· != token) then s
  else if s.shmemRuntimeName ≠ expectedShmemName then
    { s with ipcRuntimeToken := if s.ipcRuntimeToken == some token then none else s.ipcRuntimeToken }
  else
    match s.shmem.map fun mem => writeIpcTokenToShmem mem token with
    | some (.ok mem) => { s with shmem := some mem, ipcRuntimeToken := some token }
    | _ => { s with ipcRuntimeToken := if s.ipcRuntimeToken == some token then none else s.ipcRuntimeToken }

/-- The part of `start_portable_service` under the lock of the memory. -/
def create (i launchToken : Nat) (name : String) (randomBytes : Bytes) (size : Nat) : Client :=
  let token := generateOneTimeIpcToken randomBytes
  match writeIpcTokenToShmem (List.replicate size 0) token with
  | .ok mem =>
    { s.setPhase i (.created launchToken token) with
      shmem := some mem
      shmemRuntimeName := some name
      generated := token :: s.generated
      names := name :: s.names }
  | .error _ => s.clearRuntimeShmemState.setPhase i .failing

def step : Event → Option Client
  | .ask => some { s with launches := s.launches ++ [.asked s.running] }
  | .begin_ i hasProcess =>
    match s.launches[i]? with
    | some (.asked running) =>
      let starting := s.starting && !(!running && !hasProcess)
      if starting || running then some { s.setPhase i .ended with starting }
      else some { s.setPhase i (.began (s.startingToken + 1)) with starting := true, startingToken := s.startingToken + 1 }
    | _ => none
  | .clear i =>
    match s.launches[i]? with
    | some (.began launchToken) => some (s.clearRuntimeShmemState.setPhase i (.cleared launchToken))
    | _ => none
  | .create i made =>
    match s.launches[i]? with
    | some (.cleared launchToken) =>
      match made with
      | none => some (s.setPhase i .failing)
      | some (name, randomBytes, size) =>
        if randomBytes.length = IPC_TOKEN_RANDOM_BYTES ∧ IPC_TOKEN_LEN ≤ size then
          some (s.create i launchToken name randomBytes size)
        else none
    | _ => none
  | .set i =>
    match s.launches[i]? with
    | some (.created launchToken token) => some { s.setPhase i (.ready launchToken) with ipcRuntimeToken := some token }
    | _ => none
  | .run i ran =>
    match s.launches[i]? with
    | some (.ready launchToken) =>
      match ran with
      | .started => some { s.setPhase i .ended with watchdogs := s.watchdogs ++ [.sleeping launchToken] }
      | .failed => some (s.clearRuntimeShmemState.setPhase i .failing)
      | .noExe => some (s.setPhase i .failing)
    | _ => none
  | .fail i =>
    match s.launches[i]? with
    | some .failing => some { s.setPhase i .ended with starting := false }
    | _ => none
  | .wake k =>
    match s.watchdogs[k]? with
    | some (.sleeping launchToken) =>
      some { s with watchdogs := s.watchdogs.set k (.woken (s.startingToken == launchToken)) }
    | some (.woken current) => some { s with watchdogs := s.watchdogs.set k (.looked (current && s.starting)) }
    | some (.looked starting) =>
      some { s with watchdogs := s.watchdogs.set k (if starting && !s.running then .resetting else .ended) }
    | _ => none
  | .reset k =>
    match s.watchdogs[k]? with
    | some .resetting => some { s with watchdogs := s.watchdogs.set k .ended, starting := false }
    | _ => none
  | .accept =>
    match s.handshake with
    | .idle => some { s with handshake := .waiting }
    | _ => none
  | .token candidate =>
    match s.handshake with
    | .waiting =>
      match candidate with
      | none => some { s with handshake := .answering none }
      | some candidate =>
        let (consumed, s) := s.consumeRuntimeIpcTokenIfMatch candidate
        some { s with handshake := .answering consumed }
    | _ => none
  | .answer sent =>
    match s.handshake with
    | .answering none => some { s with handshake := .idle }
    | .answering (some (token, expectedShmemName)) =>
      if sent then some { s with handshake := .idle, conns := s.conns + 1, completed := token :: s.completed }
      else some { s with handshake := .restoring token expectedShmemName }
    | _ => none
  | .restore =>
    match s.handshake with
    | .restoring token expectedShmemName =>
      some { s.restoreRuntimeIpcToken token expectedShmemName with handshake := .resetting }
    | _ => none
  | .resetStarting =>
    match s.handshake with
    | .resetting => some { s with handshake := .idle, starting := false }
    | _ => none
  | .pong => if 0 < s.conns then some { s with running := true, starting := false } else none
  | .close => if 0 < s.conns then some { s with conns := s.conns - 1, closing := s.closing + 1, running := false } else none
  | .closed => if 0 < s.closing then some { s with closing := s.closing - 1, starting := false } else none
  | .exitHook => some s.clearRuntimeShmemState

end Client

end FontisRemote.PortableService
