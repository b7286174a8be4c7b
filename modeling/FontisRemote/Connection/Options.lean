import FontisRemote.Connection.Desk

/-!
# Options

`update_options`, field by field in the order of the source, with the privacy mode it can switch.
-/

namespace FontisRemote.Connection

/-! ## Versions -/

/-- The parts of a text between the separators. -/
def splitAtChar (sep : Char) : List Char → List (List Char)
  | [] => [[]]
  | c :: cs =>
    if c = sep then [] :: splitAtChar sep cs
    else
      match splitAtChar sep cs with
      | [] => [[c]]
      | part :: parts => (c :: part) :: parts

/-- Decimal digits, at least one. -/
def parseDigits : List Char → Option Nat
  | [] => none
  | cs => cs.foldl (fun n c => n.bind fun n =>
      if c.isDigit then some (n * 10 + (c.toNat - '0'.toNat)) else none) (some 0)

/-- `parse::<i64>()`. -/
def parseI64 : List Char → Option Int
  | '-' :: ds => (parseDigits ds).bind fun n => if n ≤ 2 ^ 63 then some (-n) else none
  | '+' :: ds => (parseDigits ds).bind fun n => if n < 2 ^ 63 then some n else none
  | ds => (parseDigits ds).bind fun n => if n < 2 ^ 63 then some n else none

/-- `parse::<i64>().unwrap_or(0)` of a part of a version. -/
def parseNumber (cs : List Char) : Int := (parseI64 cs).getD 0

/-- The value of an `i64` after arithmetic that may have wrapped. -/
def wrapI64 (n : Int) : Int := (n + 2 ^ 63) % 2 ^ 64 - 2 ^ 63

/-- `get_version_number`: `1.2.3` is `1002030`, and what follows a dash is added. -/
def getVersionNumber (v : String) : Int :=
  match splitAtChar '-' v.toList with
  | [] => 0
  | main :: rest =>
    let parts := (splitAtChar '.' main).map parseNumber
    let n := parts.foldl (fun n x => n * 1000 + x) 0
    let last := parts.getLast?.getD 0
    wrapI64 (n - last + last * 10 + (rest.head?.map parseNumber).getD 0)

/-! ## What the machine says -/

/-- How `privacy_mode::turn_on_privacy` and the check after it come out. -/
inductive TurnOn where
  | succeeded
  | checkFailed
  | refused
  | error (inPrivacyMode : Bool)
  | unsupported
  deriving DecidableEq, Repr

/-- What a handler reads while it runs. -/
structure Platform where
  now : Nat := 0
  displayCount : Nat := 0
  cameraCount : Nat := 0
  primaryCameraExists : Bool := false
  /-- `make_display_changed_msg` has something to say. -/
  displayChanged : Bool := false
  privacySupported : Bool := false
  /-- Privacy mode is on by another implementation, of this key. -/
  otherPrivacyImpl : Option String := none
  turnOn : TurnOn := .unsupported
  turnOff : PrivacyModeState := .offFailed
  /-- This connection is the one that turned privacy mode on. -/
  ownsPrivacyMode : Bool := false
  whiteboardSupported : Bool := false
  /-- `need_fs_cm_send_files`. -/
  needFsCmSendFiles : Bool := false
  /-- A new read job can be made and is within the file count limit. -/
  readJobError : Option (String × Int) := none
  /-- `get_recursive_files` and the file count limit. -/
  recursiveFilesError : Option String := none
  cursorData : Nat → Bool := fun _ => false
  /-- `is_peer_path_allowed`, asked on Android. -/
  peerPathAllowed : String → Bool → Bool := fun _ _ => true
  /-- The target of a rename, asked on Android. -/
  renameAllowed : String → String → Bool := fun _ _ => true
  isModifier : KeyEvent → Bool := fun _ => false
  /-- The key is a modifier by its position code. -/
  rdevModifier : KeyEvent → Bool := fun _ => false
  /-- Neither installed nor elevated yet; and what starting the portable service says. -/
  needsElevation : Bool := false
  elevationError : String := ""
  /-- `insert_pending_switch_sides_uuid`: not the request that is pending already. -/
  newSwitchSides : Bool := true
  processSession : Bool := false
  otherUserSession : Nat → Bool := fun _ => false
  allowScopeViolationAlarm : Bool := false
  allowScopeViolationClose : Bool := false

/-- A field that is set: known and not `NotSet`. -/
def BoolOption.set : BoolOption → Option Bool
  | .notSet => none
  | .no => some false
  | .yes => some true

/-- The value of a field that is set to something this build knows. -/
def setValue (f : BoolField) : Option Bool := f.enumValue.bind BoolOption.set

namespace Desk

/-! ## Privacy mode -/

def turnOnPrivacy (p : Platform) (implKey : String) (d : Desk) : Desk :=
  if !d.isAuthedRemoteConn || !d.privacyMode then d.send (.privacyMode .onFailedDenied implKey)
  else if !p.privacySupported then d.send (.privacyMode .notSupported implKey)
  else
    let d := match p.otherPrivacyImpl with
      | some key => d.send (.privacyMode .offSucceeded key)
      | none => d
    let d := d.emit (.privacyMode implKey true)
    match p.turnOn with
    | .succeeded => d.send (.privacyMode .onSucceeded implKey)
    | .checkFailed => (d.emit (.privacyMode "" false)).send (.privacyMode .onFailed implKey)
    | .refused => d.send (.privacyMode .onFailed implKey)
    | .error true => (d.emit (.privacyMode "" false)).send (.privacyMode .onFailed implKey)
    | .error false => d.send (.privacyMode .onFailed implKey)
    | .unsupported => d.send (.privacyMode .offFailed implKey)

def turnOffPrivacy (p : Platform) (implKey : String) (d : Desk) : Desk :=
  if !p.privacySupported then d.send (.privacyMode .notSupported implKey)
  else (d.emit (.privacyMode implKey false)).send (.privacyMode p.turnOff implKey)

def togglePrivacyMode (p : Platform) (implKey : String) (on : Bool) (d : Desk) : Desk :=
  if on then d.turnOnPrivacy p implKey else d.turnOffPrivacy p implKey

/-! ## The fields of an option message -/

def applyImageQuality (o : OptionMessage) (d : Desk) : Desk :=
  match o.imageQuality.enumValue with
  | none => d
  | some q =>
    let imageQuality :=
      if q = .notSet then (if 0 < o.customImageQuality then o.customImageQuality else -1)
      else q.value
    if 0 < imageQuality then d.emit (.qosImageQuality imageQuality) else d

def applyCustomFps (o : OptionMessage) (d : Desk) : Desk :=
  if 0 < o.customFps then d.emit (.qosFps o.customFps) else d

def applySupportedDecoding (o : OptionMessage) (d : Desk) : Desk :=
  match o.supportedDecoding with
  | some q => d.emit (.codec (some q))
  | none => d

def applyLockAfterSessionEnd (o : OptionMessage) (d : Desk) : Desk :=
  match setValue o.lockAfterSessionEnd with
  | some v => { d with lockAfterSessionEnd := v }
  | none => d

def applyShowRemoteCursor (b : Build) (o : OptionMessage) (d : Desk) : Desk :=
  if b.mobile then d else
  match setValue o.showRemoteCursor with
  | some v =>
    let d := { d with showRemoteCursor := v }
    let d := d.subscribe b .cursor (d.peerKeyboardEnabled || d.showRemoteCursor)
    d.subscribe b .pos d.showRemoteCursor
  | none => d

def applyFollowRemoteCursor (b : Build) (o : OptionMessage) (d : Desk) : Desk :=
  if b.mobile then d else
  match setValue o.followRemoteCursor with
  | some v => { d with followRemoteCursor := v }
  | none => d

def applyFollowRemoteWindow (b : Build) (o : OptionMessage) (d : Desk) : Desk :=
  match setValue o.followRemoteWindow with
  | some v =>
    let d := { d with followRemoteWindow := v }
    d.subscribe b .windowFocus d.followRemoteWindow
  | none => d

/-- The audio subscription after a change. A camera session has audio during a voice call only. -/
def resubscribeAudio (b : Build) (d : Desk) : Desk :=
  if d.isAuthedViewCameraConn then
    if d.voiceCalling || !d.audioEnabled then d.subscribe b .audio d.audioEnabled else d
  else d.subscribe b .audio d.audioEnabled

def applyDisableAudio (b : Build) (o : OptionMessage) (d : Desk) : Desk :=
  match setValue o.disableAudio with
  | some v => { d with disableAudio := v }.resubscribeAudio b
  | none => d

def applyEnableFileTransfer (b : Build) (o : OptionMessage) (d : Desk) : Desk :=
  if !(b.windows || b.unixFileCopyPaste) then d else
  match setValue o.enableFileTransfer with
  | some v =>
    let d := { d with enableFileTransfer := v }
    let d := if b.windows then d.sendToCm (.clipboardFileEnabled d.fileTransferEnabled) else d
    if b.unixFileCopyPaste then
      let d := if !d.enableFileTransfer then d.emit .emptyFileClipboard else d
      d.subscribe b .fileClipboard (d.canSubFileClipboardService b)
    else d
  | none => d

def applyDisableClipboard (b : Build) (o : OptionMessage) (d : Desk) : Desk :=
  match setValue o.disableClipboard with
  | some v =>
    let d := { d with disableClipboard := v }
    d.subscribe b .clipboard (d.canSubClipboardService b)
  | none => d

def applyDisableKeyboard (b : Build) (o : OptionMessage) (d : Desk) : Desk :=
  match setValue o.disableKeyboard with
  | some v =>
    let d := { d with disableKeyboard := v }
    let d := d.subscribe b .clipboard (d.canSubClipboardService b)
    let d := if b.unixFileCopyPaste then
        d.subscribe b .fileClipboard (d.canSubFileClipboardService b) else d
    d.subscribe b .cursor (d.peerKeyboardEnabled || d.showRemoteCursor)
  | none => d

/-- Privacy mode by option, of peers before 1.2.4. -/
def applyPrivacyMode (p : Platform) (version : String) (o : OptionMessage) (d : Desk) : Desk :=
  if getVersionNumber version < getVersionNumber "1.2.4" then
    match setValue o.privacyMode with
    | some true => if d.keyboard then d.turnOnPrivacy p "" else d
    | some false => if d.keyboard then d.turnOffPrivacy p "" else d
    | none => d
  else d

def applyBlockInput (o : OptionMessage) (d : Desk) : Desk :=
  match setValue o.blockInput with
  | some on =>
    if d.keyboard && d.blockInput then d.emit (.blockInput on) else d.send (.blockInputFailed on)
  | none => d

def applyTerminalPersistent (b : Build) (serviceId : String) (o : OptionMessage) (d : Desk) : Desk :=
  if b.mobile then d else
  match setValue o.terminalPersistent with
  | some v => { d with terminalPersistent := v }.emit (.terminalPersistence serviceId v)
  | none => d

def applyShowMyCursor (b : Build) (p : Platform) (o : OptionMessage) (d : Desk) : Desk :=
  if b.mobile then d else
  match setValue o.showMyCursor with
  | some true =>
    let d := { d with showMyCursor := true }
    if p.whiteboardSupported then d.emit (.showMyCursor true) else d.send (.messageBox "Show my cursor")
  | some false =>
    let d := { d with showMyCursor := false }
    if p.whiteboardSupported then d.emit (.showMyCursor false) else d
  | none => d

/-- `update_options`. `version` is the peer's, `serviceId` the terminal service of the connection. -/
def updateOptions (b : Build) (p : Platform) (version serviceId : String) (o : OptionMessage)
    (d : Desk) : Desk :=
  d |>.applyImageQuality o
    |>.applyCustomFps o
    |>.applySupportedDecoding o
    |>.applyLockAfterSessionEnd o
    |>.applyShowRemoteCursor b o
    |>.applyFollowRemoteCursor b o
    |>.applyFollowRemoteWindow b o
    |>.applyDisableAudio b o
    |>.applyEnableFileTransfer b o
    |>.applyDisableClipboard b o
    |>.applyDisableKeyboard b o
    |>.applyPrivacyMode p version o
    |>.applyBlockInput o
    |>.applyTerminalPersistent b serviceId o
    |>.applyShowMyCursor b p o

/-- `update_scoped_login_options`, with the options taken from the login. -/
def updateScopedLoginOptions (b : Build) (p : Platform) (version serviceId : String)
    (o : Option OptionMessage) (d : Desk) : Desk :=
  match o, d.authed with
  | some o, some t =>
    match (scopedLoginOption t o).1 with
    | some o => d.updateOptions b p version serviceId o
    | none => d
  | _, _ => d

end Desk

end FontisRemote.Connection
