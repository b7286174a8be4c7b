import FontisRemote.Lib.Run
import FontisRemote.Connection.Logon

/-!
# Connections and what happens to them

`on_message` as a whole, the messages of the connection manager, and the loop of `Connection::start`
around them, for any number of connections that share `Shared`. One step is one turn of one
connection's loop, cut at the connect to a port forward's target.

What ends a connection without asking anything of it (a timeout, an eviction, a broken stream, the
connection manager or the web console) is one event with the close reason it sends, if it sends one.
-/

namespace FontisRemote.Connection

open FontisRemote.Lib FontisRemote.Login

/-! ## Login requests -/

/-- `check_id_whitelist`; the flag is whether the id is let in. -/
def checkIdWhitelist (e : Env) (sh : Shared) (c : Conn) : Shared × Conn × Bool :=
  match e.idWhitelist with
  | none => (sh, c, true)
  | some allows =>
    let sh := sh.decayIdWhitelistFailures e.minute 10 c.login.ip
    let checked := checkFailure (sh.loginFailures .idWhitelist) c.login.ip e.minute
    match checked.refusal with
    | some r => (sh, c.sendLoginError r.message, false)
    | none =>
      if allows c.login.lr.myId.1 then (sh, c, true)
      else (sh.updateFailure .idWhitelist c.login.ip checked false,
        c.sendLoginError "Your ID is blocked by the peer", false)

/-- The kind of session a request asks for, if it is permitted. -/
def requestScope (b : Build) (e : Env) (c : Conn) : Except String Conn :=
  match c.login.lr.union with
  | some (.fileTransfer dir showHidden) =>
    if !e.permitFileTransfer then .error "No permission of file transfer"
    else .ok { c with scope := { c.scope with fileTransfer := some (dir.1, showHidden) } }
  | some .viewCamera =>
    if !e.permitCamera then .error "No permission of viewing camera"
    else .ok { c with scope := { c.scope with viewCamera := true } }
  | some (.terminal serviceId) =>
    if !e.permitTerminal then .error "No permission of terminal"
    else if b.windows && c.login.lr.osLogin.username ≠ "" && !e.installed then
      .error "Supported only in the installed version."
    else .ok { c with
      scope := { c.scope with terminal := true, terminalServiceId := serviceId.1 }
      desk := { c.desk with
        terminalPersistent := match c.login.optionsInLogin with
          | some o => o.terminalPersistent.enumValue = some .yes
          | none => c.desk.terminalPersistent } }
  | some (.portForward pf) =>
    if !e.permitTunnel then .error "No permission of IP tunneling"
    else .ok { c with scope := { c.scope with
      portForwardAddress := (normalizePortForwardTarget pf).1 } }
  | none =>
    if e.inPrivacyMode then .error "Someone turns on privacy mode, exit" else .ok c

/-- A request that can only be let in by the connection manager: it is shown there. -/
def askConnectionManager (b : Build) (e : Env) (noAccess : Bool) (sh : Shared) (c : Conn) : Outcome :=
  let prepared := if shouldUseTerminalOsLoginScope b c.scope.terminal c.login.lr.osLogin.username then
      prepareTerminalLogin b e c else (c, true)
  match prepared with
  | (c, false) => ⟨sh, c, .close⟩
  | (c, true) =>
    let c := c.tryStartCm false
    if noAccess && decide (getVersionNumber "1.2.0" ≤ getVersionNumber c.login.lr.version) then
      ⟨sh, c.sendLoginError "No Password Access", .keep⟩
    else ⟨sh, c, .keep⟩

/-- A password is offered: checked against the limits, then verified. -/
def tryPassword (k : Crypto) (b : Build) (e : Env) (sh : Shared) (c : Conn) : Outcome :=
  let checked := checkFailure (sh.loginFailures .password) c.login.ip e.minute
  match checked.refusal with
  | some r => ⟨sh, c.sendLoginError r.message, .keep⟩
  | none =>
    match validatePassword k e e.allowLogonScreenPassword sh c.login with
    | (some m, sh) =>
      let sh := sh.updateFailure .password c.login.ip checked true
      logon b e .login sh { c with login := { c.login with matched := some m } }
    | (none, sh) =>
      let sh := sh.updateFailure .password c.login.ip checked false
      let sh := sh.checkUpdateTemporaryPassword e.temporaryEnabled false e.freshPassword
      ⟨sh, (c.sendLoginError "Wrong Password").tryStartCm false, .keep⟩

/-- The end of a login request, once its scope is set: who may let it in. -/
def authenticate (k : Crypto) (b : Build) (e : Env) (sh : Shared) (c : Conn) : Outcome :=
  if (e.approveMode = .click && !e.allowLogonScreenPassword)
      || (e.approveMode = .both && !e.hasValidPassword) then
    askConnectionManager b e true sh c
  else
    let sh := sh.retainSessions e.now
    match recentSessionPassword k sh c.login with
    | some m => logon b e .login sh { c with login := { c.login with matched := some m } }
    | none =>
      if c.login.lr.password = [] then askConnectionManager b e false sh c
      else tryPassword k b e sh c

/-- `check_login_scope`: the digest of the first request stays. -/
def checkLoginScope (k : Crypto) (lr : LoginRequest) (c : Conn) : Option Conn :=
  match c.login.loginScope with
  | some initial => if initial ≠ loginScopeDigest k lr then none else some c
  | none => some { c with login := { c.login with loginScope := some (loginScopeDigest k lr) } }

/-- A login request on a connection that is not authorized. -/
def onLoginRequest (k : Crypto) (b : Build) (e : Env) (lr : LoginRequest) (sh : Shared) (c : Conn) :
    Outcome :=
  match checkLoginScope k lr c with
  | none => ⟨sh, c.sendLoginError "Connection not allowed", .close⟩
  | some c =>
    let c := { c with login := { c.login.takeRequest e lr with awaiting2fa := false, matched := none } }
    let c := c.resetSessionScopeForLogin
    match checkIdWhitelist e sh c with
    | (sh, c, false) => ⟨sh, c, .close⟩
    | (sh, c, true) =>
      match requestScope b e c with
      | .error msg => ⟨sh, c.sendLoginError msg, .close⟩
      | .ok c =>
        if !e.directIpAccess lr.username && lr.username ≠ e.id then
          ⟨sh, c.sendLoginError "Offline", .close⟩
        else if b.windows && c.scope.terminal && isBlank lr.osLogin.username && e.prelogin then
          ⟨sh, c.sendLoginError "No active console user logged on, please connect and logon first.",
            .close⟩
        else authenticate k b e sh c

/-! ## The second factor and switching sides -/

def onAuth2fa (k : Crypto) (b : Build) (e : Env) (tfa : Auth2fa) (sh : Shared) (c : Conn) : Outcome :=
  if !c.login.awaiting2fa then ⟨sh, c, .keep⟩
  else
    let checked := checkFailure (sh.loginFailures .twoFactor) c.login.ip e.minute
    match checked.refusal with
    | some r => ⟨sh, c.sendLoginError r.message, .keep⟩
    | none =>
      match c.login.require2fa with
      | none => ⟨sh, c, .keep⟩
      | some totp =>
        match k.checkCode totp e.now tfa.code with
        | some true =>
          let sh := sh.updateFailure .twoFactor c.login.ip checked true
          let sh := sh.setSession2fa e.now c.sessionKey
          logon b e (.twoFactor tfa) sh { c with login := { c.login with require2fa := none } }
        | some false =>
          ⟨sh.updateFailure .twoFactor c.login.ip checked false,
            c.sendLoginError "Wrong 2FA Code", .keep⟩
        | none => ⟨sh, c, .keep⟩

/-- `SwitchSidesResponse`, which a build with a desktop UI handles. -/
def onSwitchSidesResponse (b : Build) (e : Env) (r : SwitchSidesResponse) (sh : Shared) (c : Conn) :
    Outcome :=
  if !b.flutter || b.mobile then ⟨sh, c, .keep⟩
  else
    match r.lr with
    | none => ⟨sh, c, .keep⟩
    | some lr =>
      let (old, sh) := sh.takeSwitchSidesUuid e.now lr.myId.1
      if r.uuid.length = 16 ∧ old = some r.uuid then
        if lr.union.isSome then ⟨sh, c.sendLoginError "Connection not allowed", .close⟩
        else
          let c := c.resetSessionScopeForLogin
          let c := { c with login := c.login.takeRequest e lr }
          match checkIdWhitelist e sh c with
          | (sh, c, false) => ⟨sh, c, .close⟩
          | (sh, c, true) =>
            logon b e .switchSides sh { c with login := { c.login with fromSwitch := true } }
      else ⟨sh, c, .keep⟩

/-! ## Messages -/

/-- `on_close`. -/
def Conn.onClose (b : Build) (lock : Bool) (sh : Shared) (c : Conn) : Conn :=
  c.onDesk (·.onClose b lock (sh.sessionReconnected c.id c.sessionKey))

/-- The connection closes itself, telling the peer not to come back: `send_close_reason_no_retry`,
then `on_close`. -/
def closeNoRetry (b : Build) (lock : Bool) (reason : String) (sh : Shared) (c : Conn) : Shared × Conn :=
  let c := c.send (.closeReason reason)
  let sh := sh.checkRemoveSession c.id c.sessionKey
  (sh, c.onClose b lock sh)

/-- `handle_authorized_scope_violation`. -/
def onViolation (b : Build) (e : Env) (family : String) (sh : Shared) (c : Conn) : Outcome :=
  let c := c.onDesk (·.onScopeViolation e.toPlatform family)
  if e.allowScopeViolationClose then
    let r := closeNoRetry b true "Connection not allowed" sh c
    ⟨r.1, r.2, .close⟩
  else ⟨sh, c, .keep⟩

/-- A message past the gate. -/
def dispatch (k : Crypto) (b : Build) (e : Env) (msg : Message) (sh : Shared) (c : Conn) : Outcome :=
  match msg with
  | .loginRequest lr => onLoginRequest k b e lr sh c
  | .auth2fa tfa => onAuth2fa k b e tfa sh c
  | .testDelay time fromClient => ⟨sh, c.onDesk (·.onTestDelay e.toPlatform time fromClient), .keep⟩
  | .switchSidesResponse r => onSwitchSidesResponse b e r sh c
  | msg =>
    if c.login.authorized && c.scope.socket.isNone then
      let r := c.desk.onAuthorizedMessage b e.toPlatform c.scope c.login.lr
        c.login.terminalUserToken.isSome msg
      ⟨sh, { c with desk := r.1 }, if r.2 then .keep else .close⟩
    else ⟨sh, c, .keep⟩

/-- `on_message`. -/
def onMessage (k : Crypto) (b : Build) (e : Env) (msg : Message) (sh : Shared) (c : Conn) : Outcome :=
  match msg with
  | .misc (some (.closeReason _)) =>
    ⟨sh.checkRemoveSession c.id c.sessionKey, c.onClose b true sh, .close⟩
  | msg =>
    if c.login.authorized then
      match msg with
      | .loginRequest _ => ⟨sh, c, .keep⟩
      | msg =>
        match authorizedScopeViolation b.windows c.desk.authed msg with
        | some family => onViolation b e family sh c
        | none => dispatch k b e msg sh c
    else dispatch k b e msg sh c

/-! ## The loop -/

/-- What a connection starts with. -/
structure Meta where
  ip : Address
  hash : Hash
  require2fa : Option Totp
  keyboard : Bool := true
  clipboard : Bool := true
  audio : Bool := true
  file : Bool := true
  restart : Bool := true
  recording : Bool := true
  blockInput : Bool := true
  privacyMode : Bool := true

/-- What can happen to a connection. -/
inductive ConnEvent where
  | recv (msg : Message)
  /-- Something that is no message. -/
  | recvOther
  /-- The connect of a port forward is over. -/
  | connected (ok : Bool)
  | authorize
  | switchPermission (name : Permission) (enabled : Bool)
  | voiceCallResponse (accepted : Bool)
  | closeVoiceCall
  | chatMessage (text : String)
  /-- The delay probe goes out. -/
  | testDelay
  | printerData (path : String) (data : Bytes)
  /-- The read jobs after the file timer or an answer of the connection manager. -/
  | jobs (readJobs cmReadJobIds : List Int)
  /-- The connection is ended from outside, with a close reason for the peer or without. -/
  | finish (reason : Option String) (lock : Bool)
  deriving DecidableEq

/-- The initial state of `Connection::start`. -/
def Conn.start (id : Nat) (m : Meta) : Conn where
  id := id
  login := { hash := m.hash, ip := m.ip, require2fa := m.require2fa }
  desk := {
    keyboard := m.keyboard
    clipboard := m.clipboard
    audio := m.audio
    file := m.file
    restart := m.restart
    recording := m.recording
    blockInput := m.blockInput
    privacyMode := m.privacyMode }

/-- The end of `Connection::start`: no longer a subscriber of anything, no longer among the
authorized. -/
def endConn (b : Build) (sh : Shared) (c : Conn) : Shared × Conn :=
  let c := c.onClose b true sh
  ({ sh with authedConns := sh.authedConns.filter (·.connId ≠ c.id) },
    { c with
      scope := { c.scope with socket := none, mux := none }
      desk := { c.desk with subs := fun _ => false }
      phase := .ended })

/-- The loop after a handler. A plain port forward leaves it for `try_port_forward_loop`. -/
def afterHandler (b : Build) (waitForDelay : Bool) (o : Outcome) : Shared × Conn :=
  match o.logon with
  | .close => endConn b o.shared o.conn
  | .suspended => (o.shared, o.conn)
  | .keep =>
    if o.conn.scope.socket.isSome && o.conn.login.authorized &&
        (!waitForDelay || o.conn.desk.lastTestDelay.isNone) then
      (o.shared, { o.conn with phase := .forwarding })
    else (o.shared, o.conn)

/-- The target as the login error names it. -/
def Conn.failedTarget (c : Conn) : String :=
  match c.login.lr.union with
  | some (.portForward pf) =>
    if (normalizePortForwardTarget pf).2 then "RDP" else c.scope.portForwardAddress
  | _ => c.scope.portForwardAddress

/-- Resume `connect_port_forward_if_needed`. -/
def onConnected (b : Build) (e : Env) (kont : Kont) (ok : Bool) (sh : Shared) (c : Conn) : Outcome :=
  let c := { c with phase := .running }
  if ok then
    let c := { c with scope := { c.scope with socket := some c.scope.portForwardAddress } }
    ⟨sh.authorize e c, afterLogon kont ((c.authorize sh).beginSession b e), .keep⟩
  else
    ⟨sh, c.sendLoginError ("Failed to access remote " ++ c.failedTarget ++
      ". Please make sure it is reachable/open."), .close⟩

/-- One turn of a connection's loop; `none` if the connection is not waiting for this. -/
def connStep (k : Crypto) (b : Build) (e : Env) (ev : ConnEvent) (sh : Shared) (c : Conn) :
    Option (Shared × Conn) :=
  let c := c.onDesk fun d => { d with out := [], swapping := e.swapping }
  match c.phase with
  | .ended => none
  | .connecting kont =>
    match ev with
    | .connected ok => some (afterHandler b (kont ≠ .authorize) (onConnected b e kont ok sh c))
    | _ => none
  | .forwarding =>
    match ev with
    | .finish _ lock =>
      let c := c.onClose b lock sh
      some (endConn b (sh.checkRemoveSession c.id c.sessionKey) c)
    | .switchPermission _ _ => some (sh, c)
    | _ => none
  | .running =>
    match ev with
    | .recv msg =>
      let sh := sh.touch e.now c.login.sessionLastRecvTime
      some (afterHandler b true (onMessage k b e msg sh c))
    | .recvOther => some (sh.touch e.now c.login.sessionLastRecvTime, c)
    | .connected _ => none
    | .authorize =>
      let c := { c with login := { c.login with require2fa := none } }
      some (afterHandler b false (logon b e .authorize sh c))
    | .switchPermission name enabled =>
      some (sh, c.onDesk (·.switchPermission b e.toPlatform c.login.authorized name enabled))
    | .voiceCallResponse accepted => some (sh, c.onDesk (·.handleVoiceCall b accepted))
    | .closeVoiceCall => some (sh, c.onDesk fun d => (d.closeVoiceCall b).send (.voiceCallRequest false))
    | .chatMessage _ => some (sh, c.onDesk fun d => { d with chatUnanswered := false })
    | .testDelay =>
      if c.desk.lastTestDelay.isNone && !(c.scope.socket.isSome && c.login.authorized) then
        some (sh, c.onDesk fun d => { d with lastTestDelay := some e.now })
      else some (sh, c)
    | .printerData path data =>
      some (sh, c.onDesk fun d => { d with printerData := d.printerData ++ [(path, data)] })
    | .jobs readJobs cmReadJobIds =>
      some (sh, c.onDesk fun d => { d with readJobs := readJobs, cmReadJobIds := cmReadJobIds })
    | .finish reason lock =>
      let (sh, c) := match reason with
        | some text => closeNoRetry b lock text sh c
        | none => (sh, c.onClose b lock sh)
      some (endConn b sh c)

/-! ## All connections -/

structure World where
  shared : Shared
  conns : List Conn

inductive Event where
  /-- A new connection. -/
  | start (m : Meta)
  | conn (i : Nat) (e : Env) (ev : ConnEvent)
  /-- `insert_switch_sides_uuid`, for the peer this side asked to switch with. -/
  | insertSwitchSidesUuid (now : Nat) (id : String) (uuid : Bytes)
  /-- The temporary password is replaced, by the user or a setting. -/
  | updateTemporaryPassword (value : String)

namespace World

def step (k : Crypto) (b : Build) (w : World) : Event → Option World
  | .start m => some { w with conns := w.conns ++ [Conn.start w.conns.length m] }
  | .conn i e ev =>
    match w.conns[i]? with
    | none => none
    | some c => (connStep k b e ev w.shared c).map fun r => ⟨r.1, w.conns.set i r.2⟩
  | .insertSwitchSidesUuid now id uuid =>
    some { w with shared := w.shared.insertSwitchSidesUuid now id uuid }
  | .updateTemporaryPassword value =>
    some { w with shared := { w.shared with temporaryPassword := value } }

/-- Nothing has happened yet. -/
def Init (w : World) : Prop :=
  w.conns = [] ∧ w.shared.sessions = (fun _ => none) ∧ w.shared.switchSidesUuid = (fun _ => none) ∧
    w.shared.temporaryFailures = ⟨"", 0⟩ ∧ w.shared.loginFailures = (fun _ => .empty) ∧
    w.shared.authedConns = []

/-- A machine nobody has connected to. -/
def idle (temporaryPassword : String) : World where
  shared := {
    sessions := fun _ => none
    clocks := fun _ => 0
    nextClock := 0
    switchSidesUuid := fun _ => none
    temporaryPassword := temporaryPassword
    temporaryFailures := ⟨"", 0⟩
    loginFailures := fun _ => .empty
    authedConns := [] }
  conns := []

theorem init_idle (temporaryPassword : String) : Init (idle temporaryPassword) :=
  ⟨rfl, rfl, rfl, rfl, rfl, rfl⟩

end World

/-- A Linux desktop with everything built in. -/
def Build.linux : Build where
  os := .linux
  flutter := true
  unixFileCopyPaste := true
  oneWayClipboardRedirection := false
  oneWayFileTransfer := false
  cursorEmbedded := false
  x11 := true
  printer := false

/-- A peer at an IPv4 address, without a second factor. -/
def Meta.plain : Meta where
  ip := .v4 0x0a000002
  hash := ⟨"salt", "challenge"⟩
  require2fa := none

end FontisRemote.Connection
