import FontisRemote.Lib.Run
import FontisRemote.PortForward.Window

/-!
# Mappings that log in at the same time

The mappings of a port-forward window share one `LoginConfigHandler`. Each fills its target and its
challenge in and builds its login from them while it holds the turn lock; what else reads and writes the
handler (login errors, the address book, another mapping that stores its peer's info) holds no lock for
longer than one access. A step is one access to the handler, one wait, or one message taken.

Texts are their UTF-8 bytes. A login is built for a port-forward window only, so the terminal's part of
`handle_hash` and the login to the other system are left out. `Attempt.typed` is not in the code: the last
password typed since the connection was started, until it is used or a `Hash` is answered.
-/

namespace FontisRemote.PortForward

structure Hash where
  salt : Bytes
  challenge : Bytes
deriving DecidableEq, Repr

structure LoginRequest where
  host : String
  port : Int
  multiplex : Bool
  password : Bytes
deriving DecidableEq, Repr

inductive PasswordSource
  | personalAb (password : Bytes)
  | sharedAb (password : Bytes)
  | undefined
deriving DecidableEq, Repr

structure UiLogin where
  password : Bytes
  remember : Bool
deriving DecidableEq, Repr

/-- A password as it is kept: none, hashed with a salt here, or one that had been kept before. -/
inductive Salted (sha256 : Bytes → Bytes) (kept : Bytes → Prop) : Bytes → Prop
  | empty : Salted sha256 kept []
  | hashed (password salt : Bytes) : Salted sha256 kept (sha256 (password ++ salt))
  | kept {p : Bytes} : kept p → Salted sha256 kept p

abbrev SaltedPassword (sha256 : Bytes → Bytes) (kept : Bytes → Prop) : Type :=
  { p : Bytes // Salted sha256 kept p }

/-- A typed password, and whether the mapping was still waiting for a word on the insecure connection
when it came. -/
structure Typed where
  login : UiLogin
  confirming : Bool
deriving DecidableEq, Repr

/-- One connection of a mapping: what `connect_and_login` and `connect_and_login_mux` keep. -/
structure Attempt where
  mux : Bool
  challenge : Option Hash := none
  pendingLogin : Option UiLogin := none
  typed : Option Typed := none
deriving DecidableEq, Repr

/-- What the window sends to its mappings. -/
inductive UiData
  | login (login : UiLogin)
  | message
  | continueInsecureConnection
  | rejectInsecureConnection
  | close
  | other
deriving DecidableEq, Repr

inductive PeerMessage
  | hash (hash : Hash)
  | loginError (err : String)
  | peerInfo
  | other
deriving DecidableEq, Repr

inductive LoginTask
  | hash (hash : Hash)
  | ui (hash : Hash) (login : UiLogin)
deriving DecidableEq, Repr

section Model

variable (sha256 : Bytes → Bytes) (kept : Bytes → Prop)

/-- The fields of the shared handler that a login reads or writes. -/
structure LoginConfigHandler where
  portForward : String × Int
  portForwardMultiplex : Bool
  hash : Hash
  password : SaltedPassword sha256 kept
  remember : Bool
  configPassword : SaltedPassword sha256 kept
  passwordSource : PasswordSource
  sharedPassword : Option Bytes
  switchUuid : Option String
  switchBackAllowed : Bool

/-- Where `login_with_hash` is, with the turn: the target first, then `handle_hash`. -/
inductive HashPc
  | portForward
  | multiplex
  | hash
  | switchUuid
  | requestUuid
  | allowSwitchBack
  | buildSwitch
  | sendSwitch (request : LoginRequest)
  | switchSource
  | incomingOnly
  | lastPassword
  | presetSource
  | sharedPassword (password : SaltedPassword sha256 kept)
  | sharedSource (shared : Bytes)
  | configPassword (password : SaltedPassword sha256 kept)
  | configSource (password : SaltedPassword sha256 kept)
  | personalAb
  | personalSource (password : SaltedPassword sha256 kept)
  | builtinPassword
  | builtinSource (builtin : Bytes)
  | store (password : SaltedPassword sha256 kept)
  | build (digest : Bytes)
  | send (request : LoginRequest)
  | hashAgain
  | release (res : Bool)

/-- Where `login_from_ui` is, with the turn: the target first, then `handle_login_from_ui`. -/
inductive UiPc
  | fill
  | lastPassword
  | configPassword
  | configSource (password : SaltedPassword sha256 kept)
  | typedSource
  | salt
  | remember (password : SaltedPassword sha256 kept)
  | store (password : SaltedPassword sha256 kept)
  | digest (password : SaltedPassword sha256 kept)
  | build (digest : Bytes)
  | send (request : LoginRequest)
  | release

inductive Pc
  | listening
  /-- `Client::start`. -/
  | starting (mux : Bool)
  /-- `confirm_insecure_connection`. -/
  | confirming (a : Attempt)
  /-- The loop of `select!`. -/
  | selecting (a : Attempt)
  /-- It awaits the turn. -/
  | waits (a : Attempt) (task : LoginTask)
  | hashing (a : Attempt) (h : Hash) (pc : HashPc sha256 kept)
  | answering (a : Attempt) (h : Hash) (login : UiLogin) (pc : UiPc sha256 kept)
  | closed

structure Mapping where
  remoteHost : String
  remotePort : Int
  preset : Bytes
  queue : List UiData := []
  pc : Pc sha256 kept := .listening

/-- What a login reads outside the handler: the switch-sides service, the settings, the address book. -/
structure Outside where
  trusted : Bool
  incomingOnly : Bool
  personalAb : SaltedPassword sha256 kept
  defaultConnectPassword : Bytes

structure PortForwardWindow where
  lc : LoginConfigHandler sha256 kept
  turn : Option Nat := none
  mappings : List (Mapping sha256 kept) := []

/-- What other code does to the handler. -/
inductive Update
  | password (p : SaltedPassword sha256 kept)
  | remember (b : Bool)
  | configPassword (p : SaltedPassword sha256 kept)
  | passwordSource (source : PasswordSource)
  | sharedPassword (p : Option Bytes)
  | switchUuid (uuid : Option String)
  | switchBackAllowed (b : Bool)

inductive StartResult
  | failed
  | insecure
  | secured

inductive Event
  | add (remoteHost : String) (remotePort : Int) (preset : Bytes)
  | accept (i : Nat) (mux : Bool)
  | started (i : Nat) (res : StartResult)
  | send (i : Nat) (data : UiData)
  | recv (i : Nat)
  | peer (i : Nat) (msg : PeerMessage)
  /-- A timeout, a connection reset, or the end of the local one. -/
  | ends (i : Nat)
  | runs (i : Nat) (o : Outside sha256 kept)
  | elsewhere (update : Update sha256 kept)

variable {sha256 kept}

def SaltedPassword.empty : SaltedPassword sha256 kept :=
  ⟨[], .empty⟩

def SaltedPassword.hash (password salt : Bytes) : SaltedPassword sha256 kept :=
  ⟨sha256 (password ++ salt), .hashed password salt⟩

namespace LoginConfigHandler

variable (lc : LoginConfigHandler sha256 kept)

def createLoginMsg (password : Bytes) : LoginRequest :=
  ⟨lc.portForward.1, lc.portForward.2, lc.portForwardMultiplex, password⟩

/-- `handle_login_error`, with whether the login goes on. -/
def handleLoginError (err : String) : LoginConfigHandler sha256 kept × Bool :=
  if err = "Empty Password" ∨ err = "Wrong Password" then ({ lc with password := .empty }, true)
  else if err = "Wrong 2FA Code" ∨ err = "2FA Required" then (lc, true)
  else if err = "Wayland login screen is not supported" ∨ err = "No Password Access" then (lc, true)
  else (lc, false)

def update : Update sha256 kept → LoginConfigHandler sha256 kept
  | .password p => { lc with password := p }
  | .remember b => { lc with remember := b }
  | .configPassword p => { lc with configPassword := p }
  | .passwordSource source => { lc with passwordSource := source }
  | .sharedPassword p => { lc with sharedPassword := p }
  | .switchUuid uuid => { lc with switchUuid := uuid }
  | .switchBackAllowed b => { lc with switchBackAllowed := b }

end LoginConfigHandler

/-! ## One access of a login -/

section Logins

variable (lc : LoginConfigHandler sha256 kept) (m : Mapping sha256 kept) (mux : Bool) (h : Hash)

/-- `login_with_hash` and `handle_hash`. -/
def hashStep (o : Outside sha256 kept) :
    HashPc sha256 kept → LoginConfigHandler sha256 kept × HashPc sha256 kept
  | .portForward => ({ lc with portForward := (m.remoteHost, m.remotePort) }, .multiplex)
  | .multiplex => ({ lc with portForwardMultiplex := mux }, .hash)
  | .hash => ({ lc with hash := h }, .switchUuid)
  | .switchUuid =>
    ({ lc with switchUuid := none }, if lc.switchUuid.isSome then .requestUuid else .incomingOnly)
  | .requestUuid => (lc, if o.trusted then .allowSwitchBack else .incomingOnly)
  | .allowSwitchBack => ({ lc with switchBackAllowed := true }, .buildSwitch)
  | .buildSwitch => (lc, .sendSwitch (lc.createLoginMsg []))
  | .sendSwitch _ => (lc, .switchSource)
  | .switchSource => ({ lc with passwordSource := .undefined }, .release true)
  | .incomingOnly => (lc, if o.incomingOnly then .release false else .lastPassword)
  | .lastPassword =>
    (lc, if lc.password.1 = [] ∧ m.preset ≠ [] then .presetSource else .sharedPassword lc.password)
  | .presetSource =>
    ({ lc with passwordSource := .undefined }, .sharedPassword (.hash m.preset h.salt))
  | .sharedPassword password =>
    ({ lc with sharedPassword := none },
      if lc.sharedPassword.getD [] = [] then .configPassword password
      else .sharedSource (lc.sharedPassword.getD []))
  | .sharedSource shared =>
    ({ lc with passwordSource := .sharedAb shared }, .configPassword (.hash shared h.salt))
  | .configPassword password =>
    (lc, if password.1 ≠ [] then .store password
      else if lc.configPassword.1 ≠ [] then .configSource lc.configPassword else .personalAb)
  | .configSource password => ({ lc with passwordSource := .undefined }, .store password)
  | .personalAb =>
    (lc, if o.personalAb.1 ≠ [] then .personalSource o.personalAb else .builtinPassword)
  | .personalSource password => ({ lc with passwordSource := .personalAb password.1 }, .store password)
  | .builtinPassword =>
    (lc, if o.defaultConnectPassword ≠ [] then .builtinSource o.defaultConnectPassword
      else .store .empty)
  | .builtinSource builtin =>
    ({ lc with passwordSource := .sharedAb builtin }, .store (.hash builtin h.salt))
  | .store password =>
    ({ lc with password := password },
      .build (if password.1 = [] then [] else sha256 (password.1 ++ h.challenge)))
  | .build digest => (lc, .send (lc.createLoginMsg digest))
  | .send _ => (lc, .hashAgain)
  | .hashAgain => ({ lc with hash := h }, .release true)
  | .release res => (lc, .release res)

/-- `login_from_ui` and `handle_login_from_ui`. -/
def uiStep (login : UiLogin) :
    UiPc sha256 kept → LoginConfigHandler sha256 kept × UiPc sha256 kept
  | .fill =>
    ({ lc with portForward := (m.remoteHost, m.remotePort), portForwardMultiplex := mux, hash := h },
      if login.password = [] then .lastPassword else .typedSource)
  | .lastPassword => (lc, if lc.password.1 = [] then .configPassword else .store lc.password)
  | .configPassword =>
    (lc, if lc.configPassword.1 = [] then .store lc.configPassword else .configSource lc.configPassword)
  | .configSource password => ({ lc with passwordSource := .undefined }, .store password)
  | .typedSource => ({ lc with passwordSource := .undefined }, .salt)
  | .salt => (lc, .remember (.hash login.password lc.hash.salt))
  | .remember password => ({ lc with remember := login.remember }, .store password)
  | .store password => ({ lc with password := password }, .digest password)
  | .digest password => (lc, .build (sha256 (password.1 ++ lc.hash.challenge)))
  | .build digest => (lc, .send (lc.createLoginMsg digest))
  | .send _ => (lc, .release)
  | .release => (lc, .release)

end Logins

/-- `hash_arrived`: a password that was kept answers the challenge. -/
def Attempt.hashArrived (a : Attempt) (h : Hash) : Pc sha256 kept :=
  .waits { a with challenge := some h, pendingLogin := none, typed := none }
    (match a.pendingLogin with
      | some login => .ui h login
      | none => .hash h)

/-- What a mapping makes of what the window sent. -/
def Pc.receive (data : UiData) : Pc sha256 kept → Option (Pc sha256 kept)
  | .listening => some (if data = .close then .closed else .listening)
  | .confirming a =>
    some (match data with
      | .continueInsecureConnection => .selecting a
      | .rejectInsecureConnection => .closed
      | .close => .closed
      | .login login => .confirming { a with typed := some ⟨login, true⟩ }
      | _ => .confirming a)
  | .selecting a =>
    some (match data with
      | .login login =>
        match a.challenge with
        | some h => .waits { a with typed := none } (.ui h login)
        | none => .selecting { a with pendingLogin := some login, typed := some ⟨login, false⟩ }
      | _ => .selecting a)
  | _ => none

namespace PortForwardWindow

variable (s : PortForwardWindow sha256 kept)

def goes (i : Nat) (m : Mapping sha256 kept) (pc : Pc sha256 kept) : PortForwardWindow sha256 kept :=
  { s with mappings := s.mappings.set i { m with pc := pc } }

/-- A mapping goes on with its login. -/
def work (i : Nat) (m : Mapping sha256 kept) (o : Outside sha256 kept) :
    Pc sha256 kept → Option (PortForwardWindow sha256 kept)
  | .waits a task =>
    if s.turn.isSome then none
    else
      some ({ s with turn := some i }.goes i m
        (match task with
          | .hash h => .hashing a h .portForward
          | .ui h login => .answering a h login .fill))
  | .hashing a _ (.release res) =>
    some ({ s with turn := none }.goes i m (if res then .selecting a else .listening))
  | .hashing a h pc =>
    let done := hashStep s.lc m a.mux h o pc
    some ({ s with lc := done.1 }.goes i m (.hashing a h done.2))
  | .answering a _ _ .release => some ({ s with turn := none }.goes i m (.selecting a))
  | .answering a h login pc =>
    let done := uiStep s.lc m a.mux h login pc
    some ({ s with lc := done.1 }.goes i m (.answering a h login done.2))
  | _ => none

/-- A message of the peer. -/
def takes (i : Nat) (m : Mapping sha256 kept) (a : Attempt) :
    PeerMessage → PortForwardWindow sha256 kept
  | .hash h => s.goes i m (a.hashArrived h)
  | .loginError err =>
    let handled := s.lc.handleLoginError err
    { s with lc := handled.1 }.goes i m (if handled.2 then .selecting a else .listening)
  | .peerInfo => s.goes i m .listening
  | .other => s.goes i m (.selecting a)

def step : Event sha256 kept → Option (PortForwardWindow sha256 kept)
  | .add remoteHost remotePort preset =>
    some { s with mappings := s.mappings ++ [{ remoteHost, remotePort, preset }] }
  | .accept i mux =>
    s.mappings[i]?.bind fun m =>
      match m.pc with
      | .listening => some (s.goes i m (.starting mux))
      | _ => none
  | .started i res =>
    s.mappings[i]?.bind fun m =>
      match m.pc with
      | .starting mux =>
        some (s.goes i m (match res with
          | .failed => .listening
          | .insecure => .confirming { mux }
          | .secured => .selecting { mux }))
      | _ => none
  | .send i data =>
    s.mappings[i]?.map fun m =>
      { s with mappings := s.mappings.set i { m with queue := m.queue ++ [data] } }
  | .recv i =>
    s.mappings[i]?.bind fun m =>
      match m.queue with
      | data :: rest => (m.pc.receive data).map fun pc => s.goes i { m with queue := rest } pc
      | [] => none
  | .peer i msg =>
    s.mappings[i]?.bind fun m =>
      match m.pc with
      | .selecting a => some (s.takes i m a msg)
      | _ => none
  | .ends i =>
    s.mappings[i]?.bind fun m =>
      match m.pc with
      | .selecting _ => some (s.goes i m .listening)
      | _ => none
  | .runs i o => s.mappings[i]?.bind fun m => s.work i m o m.pc
  | .elsewhere update => some { s with lc := s.lc.update update }

/-- A window whose mappings have not been added yet. -/
def Init (s : PortForwardWindow sha256 kept) : Prop :=
  s.turn = none ∧ s.mappings = []

end PortForwardWindow

end Model

end FontisRemote.PortForward
