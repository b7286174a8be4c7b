import FontisRemote.Login.Guessing
import FontisRemote.Connection.Handlers

/-!
# What connections share

`SESSIONS` with the clock each live connection keeps in its session, `SWITCH_SIDES_UUID`, the
temporary password with its failure counter, `LOGIN_FAILURES` and `AUTHED_CONNS`. A session's clock
is a cell shared by reference: a session that is removed and made again gets a new one.
-/

namespace FontisRemote.Connection

open FontisRemote.Login

structure SessionKey where
  peerId : String
  name : String
  sessionId : UInt64
  deriving DecidableEq

def LoginRequest.sessionKey (lr : LoginRequest) : SessionKey := ⟨lr.myId.1, lr.myName, lr.sessionId⟩

structure Session where
  /-- `last_recv_time`, by the cell that holds it. -/
  lastRecvTime : Nat
  randomPassword : String
  tfa : Bool
  deriving DecidableEq

structure AuthedConn where
  connId : Nat
  connType : AuthConnType
  sessionKey : SessionKey
  deriving DecidableEq

/-- `LOGIN_FAILURES`, by index. -/
inductive FailureIdx where
  | password
  | twoFactor
  | idWhitelist
  deriving DecidableEq, Repr

structure Shared where
  sessions : SessionKey → Option Session
  /-- The instants in the cells, and the next cell to be made. -/
  clocks : Nat → Nat
  nextClock : Nat
  switchSidesUuid : String → Option (Nat × Bytes)
  temporaryPassword : String
  temporaryFailures : TemporaryFailures
  loginFailures : FailureIdx → FailureMap
  authedConns : List AuthedConn

/-- `SESSION_TIMEOUT` and `SWITCH_SIDES_UUID_TTL`, in milliseconds. -/
def sessionTimeout : Nat := 30000

def switchSidesUuidTtl : Nat := 10000

namespace Shared

/-- A session whose connection was heard of within the timeout. -/
def Live (now : Nat) (sh : Shared) (s : Session) : Prop :=
  now - sh.clocks s.lastRecvTime < sessionTimeout

instance (now : Nat) (sh : Shared) (s : Session) : Decidable (Live now sh s) :=
  inferInstanceAs (Decidable (_ < _))

/-- `SESSIONS.retain`, before a session is looked up. -/
def retainSessions (now : Nat) (sh : Shared) : Shared :=
  { sh with sessions := fun k => (sh.sessions k).filter fun s => decide (sh.Live now s) }

/-- A new session with a clock of its own. -/
def insertSession (now : Nat) (k : SessionKey) (randomPassword : String) (tfa : Bool) (sh : Shared) :
    Shared :=
  { sh with
    sessions := Function.update sh.sessions k (some ⟨sh.nextClock, randomPassword, tfa⟩)
    clocks := Function.update sh.clocks sh.nextClock now
    nextClock := sh.nextClock + 1 }

/-- `update_or_insert_session`, as called with both values. -/
def updateOrInsertSession (now : Nat) (k : SessionKey) (password : String) (tfa : Bool) (sh : Shared) :
    Shared :=
  match sh.sessions k with
  | some s =>
    { sh with
      sessions := Function.update sh.sessions k (some { s with randomPassword := password, tfa := tfa }) }
  | none => sh.insertSession now k password tfa

def setSession2fa (now : Nat) (k : SessionKey) (sh : Shared) : Shared :=
  match sh.sessions k with
  | some s => { sh with sessions := Function.update sh.sessions k (some { s with tfa := true }) }
  | none => sh.insertSession now k "" true

/-- `check_remove_session`: the session goes with its remote connection, or if there is none. -/
def checkRemoveSession (connId : Nat) (k : SessionKey) (sh : Shared) : Shared :=
  let isRemote := sh.authedConns.any fun c => c.connId = connId && c.connType = .remote
  let anotherRemote := sh.authedConns.any fun c =>
    c.connId ≠ connId && c.sessionKey = k && c.connType = .remote
  if (sh.sessions k).isSome && (isRemote || !anotherRemote) then
    { sh with sessions := Function.update sh.sessions k none }
  else sh

/-- `session_reconnected`. -/
def sessionReconnected (connId : Nat) (k : SessionKey) (sh : Shared) : Bool :=
  sh.authedConns.any fun c => connId < c.connId && c.connType = .remote && c.sessionKey = k

/-- The clock of a connection's session is set whenever something is received. -/
def touch (now : Nat) (cell : Option Nat) (sh : Shared) : Shared :=
  match cell with
  | some i => { sh with clocks := Function.update sh.clocks i now }
  | none => sh

/-- `insert_switch_sides_uuid`. -/
def insertSwitchSidesUuid (now : Nat) (id : String) (uuid : Bytes) (sh : Shared) : Shared :=
  { sh with switchSidesUuid := Function.update sh.switchSidesUuid id (some (now, uuid)) }

/-- What a switch-sides response does first: forget what is expired, then take what is stored for the
id, whether or not it turns out to be the one the response carries. -/
def takeSwitchSidesUuid (now : Nat) (id : String) (sh : Shared) : Option Bytes × Shared :=
  let retained := fun k => (sh.switchSidesUuid k).filter fun v => decide (now - v.1 < switchSidesUuidTtl)
  ((retained id).map (·.2), { sh with switchSidesUuid := Function.update retained id none })

/-- `check_update_temporary_password`. -/
def checkUpdateTemporaryPassword (enabled success : Bool) (fresh : String) (sh : Shared) : Shared :=
  let r := Login.checkUpdateTemporaryPassword enabled sh.temporaryPassword sh.temporaryFailures
    success fresh
  { sh with temporaryPassword := r.1, temporaryFailures := r.2 }

/-- `update_failure` for the default scope. -/
def updateFailure (idx : FailureIdx) (ip : Address) (c : Checked) (remove : Bool) (sh : Shared) :
    Shared :=
  { sh with
    loginFailures := Function.update sh.loginFailures idx
      (Login.updateFailure (sh.loginFailures idx) ip c.failure c.time remove) }

/-- `decay_stale_failures` of the keys of an address, for the id whitelist. -/
def decayIdWhitelistFailures (minute : Int) (window : Int) (ip : Address) (sh : Shared) : Shared :=
  let m := sh.loginFailures .idWhitelist
  { sh with
    loginFailures := Function.update sh.loginFailures .idWhitelist fun k =>
      if k ∈ failureKeys ip then (m k).filter fun e => decide (minute - e.minute < window) else m k }

/-- `clear_id_whitelist_failures`. -/
def clearIdWhitelistFailures (ip : Address) (sh : Shared) : Shared :=
  let m := sh.loginFailures .idWhitelist
  { sh with
    loginFailures := Function.update sh.loginFailures .idWhitelist fun k =>
      if k ∈ failureKeys ip then none else m k }

end Shared

end FontisRemote.Connection
