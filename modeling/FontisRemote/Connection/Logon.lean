import FontisRemote.Connection.Shared

/-!
# Logging in

From a login request to an authorized connection: the scope digest, the passwords, the second factor
and `send_logon_response_and_keep_alive` with everything it leads to.

The one place where this is suspended between a password that matched and the authorization is the
connect to the target of a plain port forward: `Logon.suspended` is what comes back there, and the
connection waits in `Phase.connecting` with what is to be done afterwards.

Hashes, the storage of passwords and the time-based codes are parameters (`Crypto`). `Env` is what is
read from the configuration and the machine in one step.
-/

namespace FontisRemote.Connection

open FontisRemote.Login

def utf8 (s : String) : Bytes := s.toUTF8.data.toList

structure Hash where
  salt : String
  challenge : String
  deriving DecidableEq

/-- A secret for time-based codes, by number. -/
abbrev Totp := Nat

structure Crypto where
  sha256 : Bytes → Bytes
  /-- `decode_permanent_password_h1_from_storage` and the one for a preset password. -/
  decodePermanentPasswordH1 : String → Option Bytes
  decodePresetPasswordH1 : String → Option Bytes
  /-- Whether a storage with its salt is fit to be checked against. -/
  localStorageUsable : String → String → Bool
  presetStorageUsable : String → String → Bool
  /-- `TOTP::check_current` at an instant; `none` is an error of the clock. -/
  checkCode : Totp → Nat → String → Option Bool

inductive ApproveMode where
  | both
  | password
  | click
  deriving DecidableEq, Repr

structure TrustedDevice where
  hwid : Bytes
  id : String
  name : String
  platform : String
  outdated : Bool
  deriving DecidableEq

structure Env extends Platform where
  minute : Int := 0
  temporaryEnabled : Bool := true
  permanentEnabled : Bool := true
  /-- The storage of the permanent password and of the preset one, each with its salt. -/
  localStorage : String × String := ("", "")
  presetStorage : String × String := ("", "")
  approveMode : ApproveMode := .both
  hasValidPassword : Bool := true
  /-- `OPTION_ALLOW_LOGON_SCREEN_PASSWORD` is on and the logon screen is showing. -/
  allowLogonScreenPassword : Bool := false
  /-- The ids let in, if there is a whitelist. -/
  idWhitelist : Option (String → Bool) := none
  enableTrustedDevices : Bool := false
  trustedDevices : List TrustedDevice := []
  permitFileTransfer : Bool := true
  permitCamera : Bool := true
  permitTerminal : Bool := true
  permitTunnel : Bool := true
  inPrivacyMode : Bool := false
  installed : Bool := true
  prelogin : Bool := false
  directIpAccess : String → Bool := fun _ => true
  id : String := ""
  /-- The failure policy and the concurrency gate of logins with OS credentials. -/
  osLoginBlocked : Option String := none
  osLoginGate : Bool := true
  osLoginAdmin : Bool := true
  installedUser : Except String Nat := .ok 0
  serviceSpecifiedUser : String → Option Bool := fun _ => none
  generatedServiceId : String := "ts_"
  /-- The next temporary password. -/
  freshPassword : String
  /-- What keeps a Linux desktop from being shown. -/
  unsupportedDesktop : Option String := none
  /-- The sessions of several users are shared and the peer has to choose one. -/
  waitSessionIdConfirm : Bool := false
  /-- The primary display, or why the displays could not be listed. -/
  displays : Except String Nat := .ok 0
  allowedDir : String → Bool := fun _ => true
  /-- The services that make a subscriber of the connection, at the end of a snapshot, between the two
  looks that `is_subed` takes for it. -/
  swapping : Service → Bool := fun _ => false

inductive TerminalUserToken where
  | selfUser
  | currentLogonUser (token : Nat)
  deriving DecidableEq, Repr

/-- What the password of a login request turned out to be. -/
inductive Matched where
  | temporary (value : String)
  | remembered (value : String)
  | permanent
  | preset
  deriving DecidableEq, Repr

structure Login where
  authorized : Bool := false
  require2fa : Option Totp := none
  awaiting2fa : Bool := false
  fromSwitch : Bool := false
  lr : LoginRequest := {}
  loginScope : Option Bytes := none
  hash : Hash
  ip : Address
  optionsInLogin : Option OptionMessage := none
  sessionLastRecvTime : Option Nat := none
  terminalUserToken : Option TerminalUserToken := none
  videoAckRequired : Bool := false
  /-- What the password of the last login request was found to be. Not in the source, which goes on
  from the match without keeping it. -/
  matched : Option Matched := none
  deriving DecidableEq

/-- What comes after `send_logon_response_and_keep_alive`, by its caller. -/
inductive Kont where
  | login
  | twoFactor (tfa : Auth2fa)
  | authorize
  | switchSides
  deriving DecidableEq

inductive Phase where
  | running
  | connecting (k : Kont)
  /-- In `try_port_forward_loop`. -/
  | forwarding
  | ended
  deriving DecidableEq

structure Conn where
  id : Nat
  login : Login
  scope : SessionScope := {}
  desk : Desk
  phase : Phase := .running

/-- How a handler ends: with the connection kept, with it closed, or waiting for a connect. -/
inductive Logon where
  | keep
  | close
  | suspended
  deriving DecidableEq, Repr

structure Outcome where
  shared : Shared
  conn : Conn
  logon : Logon

namespace Conn

def sessionKey (c : Conn) : SessionKey := c.login.lr.sessionKey

def onDesk (c : Conn) (f : Desk → Desk) : Conn := { c with desk := f c.desk }

def send (c : Conn) (r : Reply) : Conn := c.onDesk (·.send r)

def sendLoginError (c : Conn) (text : String) : Conn := c.send (.loginError text)

def tryStartCm (c : Conn) (authorized : Bool) : Conn :=
  c.onDesk (·.sendToCm (.login c.login.lr.myId.1 c.login.lr.myName authorized c.login.fromSwitch))

end Conn

/-! ## The scope of a login -/

/-- `(n as u64).to_le_bytes()`. -/
def u64LeBytes (n : Nat) : Bytes := (List.range 8).map fun i => UInt8.ofNat (n / 256 ^ i)

/-- `i32::to_le_bytes`. -/
def i32LeBytes (n : Int32) : Bytes :=
  (List.range 4).map fun i => UInt8.ofNat (n.toBitVec.toNat / 256 ^ i)

/-- A field of the digest, with its length in front. -/
def pushField (bytes : Bytes) : Bytes := u64LeBytes bytes.length ++ bytes

def boolByte (b : Bool) : Bytes := [if b then 1 else 0]

/-- What `login_scope_digest` hashes: the controller's id, then the kind of session with its
parameters. -/
def loginScopeInput (lr : LoginRequest) : Bytes :=
  pushField lr.myId.bytes ++
    match lr.union with
    | some (.fileTransfer dir showHidden) =>
      pushField (utf8 "file_transfer") ++ pushField dir.bytes ++ pushField (boolByte showHidden)
    | some .viewCamera => pushField (utf8 "view_camera")
    | some (.terminal serviceId) => pushField (utf8 "terminal") ++ pushField serviceId.bytes
    | some (.portForward pf) =>
      pushField (utf8 "port_forward") ++ pushField pf.host.bytes ++ pushField (i32LeBytes pf.port) ++
        pushField (boolByte pf.multiplex)
    | none => pushField (utf8 "remote")

def loginScopeDigest (k : Crypto) (lr : LoginRequest) : Bytes := k.sha256 (loginScopeInput lr)

/-- `normalize_port_forward_target`: the address, and whether it is for RDP. -/
def normalizePortForwardTarget (pf : PortForward) : String × Bool :=
  if pf.host.1 = "RDP" ∧ pf.port = 0 then ("localhost:3389", true)
  else if pf.host.1 = "" then (s!"localhost:{pf.port}", false)
  else (s!"{pf.host.1}:{pf.port}", false)

namespace SessionScope

def resetForLogin (sc : SessionScope) : SessionScope :=
  { sc with fileTransfer := none, viewCamera := false, terminal := false, portForwardAddress := "" }

end SessionScope

/-- `reset_session_scope_for_login`. -/
def Conn.resetSessionScopeForLogin (c : Conn) : Conn :=
  { c with
    scope := c.scope.resetForLogin
    desk := { c.desk with terminalPersistent := false } }

/-! ## Passwords -/

section Passwords

variable (k : Crypto)

def verifyH1 (l : Login) (h1 : Bytes) : Bool := k.sha256 (h1 ++ utf8 l.hash.challenge) = l.lr.password

def validatePasswordPlain (l : Login) (password : String) : Bool :=
  password ≠ "" && verifyH1 k l (k.sha256 (utf8 password ++ utf8 l.hash.salt))

def validatePasswordStorage (l : Login) (storage : String) : Bool :=
  storage ≠ "" &&
    match k.decodePermanentPasswordH1 storage with
    | some h1 => verifyH1 k l h1
    | none => validatePasswordPlain k l storage

def validatePresetPasswordStorage (l : Login) (storage salt : String) : Bool :=
  if salt = "" then validatePasswordPlain k l storage
  else
    match k.decodePresetPasswordH1 storage with
    | some h1 => verifyH1 k l h1
    | none => false

/-- The part of `validate_password` about the permanent or preset password. -/
def validatePermanentPassword (e : Env) (allowPermanentPassword : Bool) (l : Login) :
    Option Matched :=
  if e.permanentEnabled || allowPermanentPassword then
    if e.localStorage.1 ≠ "" then
      if k.localStorageUsable e.localStorage.1 e.localStorage.2 &&
          validatePasswordStorage k l e.localStorage.1 then some .permanent else none
    else
      if k.presetStorageUsable e.presetStorage.1 e.presetStorage.2 &&
          validatePresetPasswordStorage k l e.presetStorage.1 e.presetStorage.2 then some .preset
      else none
  else none

/-- `validate_password`: a match of the temporary password is remembered by the session. -/
def validatePassword (e : Env) (allowPermanentPassword : Bool) (sh : Shared) (l : Login) :
    Option Matched × Shared :=
  if e.temporaryEnabled && validatePasswordPlain k l sh.temporaryPassword then
    (some (.temporary sh.temporaryPassword),
      (sh.updateOrInsertSession e.now l.lr.sessionKey sh.temporaryPassword false
        ).checkUpdateTemporaryPassword e.temporaryEnabled true e.freshPassword)
  else (validatePermanentPassword k e allowPermanentPassword l, sh)

/-- `is_recent_session(false)`, after the sessions past their time are gone. -/
def recentSessionPassword (sh : Shared) (l : Login) : Option Matched :=
  match sh.sessions l.lr.sessionKey with
  | some s =>
    if l.lr.password ≠ [] ∧ validatePasswordPlain k l s.randomPassword = true then
      some (.remembered s.randomPassword)
    else none
  | none => none

end Passwords

/-- `is_recent_session(true)`, after the sessions past their time are gone. -/
def recentSession2fa (sh : Shared) (l : Login) : Bool :=
  match sh.sessions l.lr.sessionKey with
  | some s => l.lr.password ≠ [] && s.tfa
  | none => false

/-! ## A login request is taken in -/

/-- A trusted device that is still good and is the one the request says it is. -/
def trustedDevice (e : Env) (lr : LoginRequest) : Bool :=
  match e.trustedDevices.find? (·.hwid = lr.hwid) with
  | some d => !d.outdated && d.id = lr.myId.1 && d.name = lr.myName && d.platform = lr.myPlatform
  | none => false

/-- The request is from a device that needs no second factor. -/
def skips2fa (e : Env) (lr : LoginRequest) : Bool :=
  lr.hwid ≠ [] && e.enableTrustedDevices && trustedDevice e lr

/-- `handle_login_request_without_validation`. -/
def Login.takeRequest (e : Env) (lr : LoginRequest) (l : Login) : Login :=
  { l with
    lr := lr
    optionsInLogin := lr.option.or l.optionsInLogin
    require2fa := if skips2fa e lr then none else l.require2fa
    videoAckRequired := lr.videoAckRequired }

/-! ## Terminals and OS credentials -/

/-- Unicode `White_Space`. -/
def isWhiteSpace (c : Char) : Bool :=
  let n := c.toNat
  (9 ≤ n && n ≤ 13) || n = 0x20 || n = 0x85 || n = 0xa0 || n = 0x1680 || (0x2000 ≤ n && n ≤ 0x200a)
    || n = 0x2028 || n = 0x2029 || n = 0x202f || n = 0x205f || n = 0x3000

/-- `trim().is_empty()`. -/
def isBlank (s : String) : Bool := s.toList.all isWhiteSpace

def shouldUseTerminalOsLoginScope (b : Build) (isTerminal : Bool) (username : String) : Bool :=
  b.windows && isTerminal && !isBlank username

/-- `fill_terminal_user_token`: a token, or what is wrong. -/
def fillTerminalUserToken (b : Build) (e : Env) (username : String) : Except String TerminalUserToken :=
  if !b.windows then .ok .selfUser
  else if !isBlank username then
    if e.osLoginAdmin then .ok .selfUser else .error "Incorrect username or password."
  else if e.prelogin then .error "No active console user logged on, please connect and logon first."
  else if e.installed then
    match e.installedUser with
    | .ok token => .ok (.currentLogonUser token)
    | .error msg => .error msg
  else .ok .selfUser

def TerminalUserToken.isService : TerminalUserToken → Bool
  | .selfUser => false
  | .currentLogonUser _ => true

/-- `prepare_terminal_login_for_authorization`; the flag is whether to go on. -/
def prepareTerminalLogin (b : Build) (e : Env) (c : Conn) : Conn × Bool :=
  if b.mobile || !c.scope.terminal || c.login.terminalUserToken.isSome then (c, true)
  else
    let username := c.login.lr.osLogin.username
    let osLogin := shouldUseTerminalOsLoginScope b c.scope.terminal username
    match (if osLogin then e.osLoginBlocked else none) with
    | some msg => (c.sendLoginError msg, false)
    | none =>
    if osLogin && !e.osLoginGate then (c.sendLoginError "Please try 1 minute later", false)
    else
      match fillTerminalUserToken b e username with
      | .error msg => (c.sendLoginError msg, false)
      | .ok token =>
        let c := { c with login := { c.login with terminalUserToken := some token } }
        match e.serviceSpecifiedUser c.scope.terminalServiceId with
        | some isUser =>
          if isUser ≠ token.isService then
            (c.sendLoginError "Terminal service user mismatch detected.", false)
          else (c, true)
        | none => (c, true)

/-! ## Authorization -/

/-- The type a connection is authorized as. -/
def SessionScope.authConnType (sc : SessionScope) : AuthConnType :=
  if sc.fileTransfer.isSome then .fileTransfer
  else if sc.isPortForward then .portForward
  else if sc.viewCamera then .viewCamera
  else if sc.terminal then .terminal
  else .remote

/-- What keeps a desktop from being shown, on Linux. -/
def refusedDesktop (b : Build) (e : Env) (sc : SessionScope) : Option String :=
  if b.os = .linux && sc.isRemote then e.unsupportedDesktop else none

/-- The peer has to choose a user session before anything is shown to it. -/
def waitsForSession (b : Build) (e : Env) (sc : SessionScope) : Bool :=
  b.windows && !sc.terminal && e.waitSessionIdConfirm

/-- The login response of a session that is not a port forward, with the codecs and the display. -/
def Desk.answerLogin (e : Env) (sc : SessionScope) (lr : LoginRequest) (d : Desk) : Desk :=
  if sc.isRemote then
    let d := d.emit (.codec (lr.option.bind (·.supportedDecoding)))
    match e.displays with
    | .ok idx => { d with displayIdx := idx }.send .loginResponse
    | .error msg => d.send (.loginError msg)
  else if sc.viewCamera then
    (d.emit (.codec (lr.option.bind (·.supportedDecoding)))).send .loginResponse
  else d.send .loginResponse

/-- What a session starts with: the first directory, the terminal or the subscriptions. -/
def Desk.startServices (b : Build) (e : Env) (sc : SessionScope) (terminalService : Option String)
    (d : Desk) : Desk :=
  match sc.fileTransfer with
  | some (dir, showHidden) =>
    let dir := if dir ≠ "" && e.allowedDir dir then dir else ""
    let d := { d with keyboard := false }
    if !waitsForSession b e sc then d.sendFs (.readDir dir showHidden)
    else { d with delayedReadDir := some (dir, showHidden) }
  | none =>
    if sc.terminal then
      let d := { d with keyboard := false }
      match terminalService with
      | some serviceId => d.emit (.terminalService serviceId)
      | none => d
    else if sc.viewCamera then
      let d := if !waitsForSession b e sc then d.addCameraConnection b e.primaryCameraExists else d
      { d with keyboard := false }.send (.permission .keyboard false)
    else
      match e.displays with
      | .ok _ => if !waitsForSession b e sc then d.trySubMonitorServices b sc.isRemote else d
      | .error _ => d

/-- The service `init_terminal_service` runs: the one asked for, or a new one. -/
def terminalServiceOf (b : Build) (e : Env) (sc : SessionScope) (token : Option TerminalUserToken) :
    Option String :=
  if sc.fileTransfer.isNone && sc.terminal && !b.mobile && token.isSome then
    some (if sc.terminalServiceId = "" then e.generatedServiceId else sc.terminalServiceId)
  else none

/-- What a connection does once authorized, from the login response to the subscriptions. -/
def Conn.beginSession (b : Build) (e : Env) (c : Conn) : Conn :=
  let sc := c.scope
  if sc.isPortForward then c.send .loginResponse
  else
    match refusedDesktop b e sc with
    | some msg => c.sendLoginError msg
    | none =>
      let service := terminalServiceOf b e sc c.login.terminalUserToken
      { c with
        login := { c.login with optionsInLogin := none }
        scope := { sc with terminalServiceId := service.getD sc.terminalServiceId }
        desk := ((c.desk.answerLogin e sc c.login.lr).updateScopedLoginOptions b e.toPlatform
          c.login.lr.version sc.terminalServiceId c.login.optionsInLogin).startServices b e sc service }

/-- What is shared after an authorization: the temporary password is gone. -/
def Shared.authorize (e : Env) (c : Conn) (sh : Shared) : Shared :=
  { sh with
    temporaryPassword := e.freshPassword
    authedConns := sh.authedConns ++ [⟨c.id, c.scope.authConnType, c.sessionKey⟩]
      : Shared }.clearIdWhitelistFailures c.login.ip

/-- The connection at the moment of its authorization. -/
def Conn.authorize (sh : Shared) (c : Conn) : Conn :=
  { c with
    login := { c.login with
      authorized := true
      sessionLastRecvTime := (sh.sessions c.sessionKey).map (·.lastRecvTime) }
    desk := { c.desk with authed := some c.scope.authConnType } }

/-- `connect_port_forward_if_needed` up to the connect: `none` if it has to be waited for. -/
def connectPortForwardIfNeeded (c : Conn) : Conn × Bool :=
  if c.scope.isPortForward then (c, true)
  else
    match c.login.lr.union with
    | some (.portForward pf) =>
      if pf.multiplex then
        ({ c with scope := { c.scope with mux := some c.scope.portForwardAddress } }, true)
      else
        ({ c with scope := { c.scope with
            portForwardAddress := (normalizePortForwardTarget pf).1 } }, false)
    | _ => (c, true)

/-- `send_logon_response_and_keep_alive`. -/
def sendLogonResponse (b : Build) (e : Env) (sh : Shared) (c : Conn) : Outcome :=
  if c.login.authorized then ⟨sh, c, .keep⟩
  else
    let sh := if c.login.require2fa.isSome then sh.retainSessions e.now else sh
    if c.login.require2fa.isSome && !recentSession2fa sh c.login && !c.login.fromSwitch then
      let c := { c with login := { c.login with awaiting2fa := true } }
      ⟨sh, c.sendLoginError "2FA Required", .keep⟩
    else
      let c := { c with login := { c.login with awaiting2fa := false } }
      match prepareTerminalLogin b e c with
      | (c, false) => ⟨sh, c, .close⟩
      | (c, true) =>
        match connectPortForwardIfNeeded c with
        | (c, false) => ⟨sh, c, .suspended⟩
        | (c, true) =>
          ⟨sh.authorize e c, (c.authorize sh).beginSession b e, .keep⟩

/-- What the callers of `send_logon_response_and_keep_alive` do after it, if the connection stays. -/
def afterLogon (k : Kont) (c : Conn) : Conn :=
  match k with
  | .login => c.tryStartCm c.login.authorized
  | .twoFactor _ => c.tryStartCm c.login.authorized
  | .authorize => c
  | .switchSides => c.tryStartCm c.login.authorized

/-- `send_logon_response_and_keep_alive` and what its caller does after it, or the wait in between. -/
def logon (b : Build) (e : Env) (k : Kont) (sh : Shared) (c : Conn) : Outcome :=
  let o := sendLogonResponse b e sh c
  match o.logon with
  | .keep => { o with conn := afterLogon k o.conn }
  | .close => o
  | .suspended => { o with conn := { o.conn with phase := .connecting k } }

end FontisRemote.Connection
