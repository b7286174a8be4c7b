import FontisRemote.Connection.Options

/-!
# The handlers of an authorized connection

`on_message` past the login, message by message, and what the connection manager can ask for. Each
handler acts on the desk and reads the session scope and the login request. The flag that comes back
with a message is what `on_message` returns: whether to keep the connection.
-/

namespace FontisRemote.Connection

open FontisRemote.Video (VideoSource)

/-- What the connection was opened for. -/
structure SessionScope where
  fileTransfer : Option (String × Bool) := none
  viewCamera : Bool := false
  terminal : Bool := false
  portForwardAddress : String := ""
  terminalServiceId : String := ""
  /-- `port_forward_socket`, by the address it is connected to. -/
  socket : Option String := none
  /-- `port_forward_mux`, by the target it opens channels to. -/
  mux : Option String := none
  deriving DecidableEq, Repr

namespace SessionScope

def isPortForward (sc : SessionScope) : Bool := sc.socket.isSome || sc.mux.isSome

def isRemote (sc : SessionScope) : Bool :=
  sc.fileTransfer.isNone && !sc.isPortForward && !sc.viewCamera && !sc.terminal

def videoSource (sc : SessionScope) : VideoSource := if sc.viewCamera then .camera else .monitor

end SessionScope

/-- `as usize` of an `i32`. -/
def toUsize (i : Int) : Nat := (i % 2 ^ 64).toNat

def Platform.videoSourceCount (p : Platform) : VideoSource → Nat
  | .monitor => p.displayCount
  | .camera => p.cameraCount

namespace Desk

/-! ## Displays -/

def refreshVideoDisplay (sc : SessionScope) (display : Option Nat) (d : Desk) : Desk :=
  d.emit (.refreshVideo (display.map (getServiceName sc.videoSource)))

def changeResolution (p : Platform) (display : Option Nat) (r : Resolution) (d : Desk) : Desk :=
  if d.keyboard then
    let idx := display.getD d.displayIdx
    if idx < p.displayCount then d.emit (.changeResolution idx r) else d
  else d

/-- `switch_display_to`; `none` if there is no such display. -/
def switchDisplayTo (b : Build) (p : Platform) (sc : SessionScope) (version : String) (idx : Nat)
    (d : Desk) : Option Desk :=
  if p.videoSourceCount sc.videoSource ≤ idx then none
  else
    let newService := getServiceName sc.videoSource idx
    let oldService := getServiceName sc.videoSource d.displayIdx
    let d := d.addVideoService newService
    let d := if getVersionNumber version < getVersionNumber "1.2.4" then d.subscribe b oldService false
      else d
    let d := d.subscribe b newService true
    some { d with displayIdx := idx }

def sendDisplayChanged (p : Platform) (idx : Nat) (d : Desk) : Desk :=
  if p.displayChanged then d.send (.displayChanged idx) else d

def handleSwitchDisplay (b : Build) (p : Platform) (sc : SessionScope) (version : String)
    (display width height : Int) (d : Desk) : Desk :=
  let idx := toUsize display
  if d.displayIdx = idx then d
  else
    match d.switchDisplayTo b p sc version idx with
    | none => d
    | some d =>
      let d := if !b.mobile && !sc.viewCamera && width ≠ 0 && height ≠ 0 then
          d.changeResolution p none ⟨width, height⟩ else d
      d.sendDisplayChanged p d.displayIdx

/-- `Connection::capture_displays`. -/
def captureDisplays (b : Build) (p : Platform) (sc : SessionScope) (add sub set : List Int) (d : Desk) :
    Desk :=
  let src := sc.videoSource
  let valid := fun l : List Int => (l.map toUsize).filter (· < p.videoSourceCount src)
  -- An invalid request passed on as an empty list would unsubscribe all services.
  if (!add.isEmpty && (valid add).isEmpty)
      || (add.isEmpty && !sub.isEmpty && (valid sub).isEmpty)
      || (add.isEmpty && sub.isEmpty && !set.isEmpty && (valid set).isEmpty) then d
  else
    let d := (valid add ++ valid set).foldl (fun d i => d.addVideoService (getServiceName src i)) d
    let d :=
      if !add.isEmpty then d.captureServices src (valid add) true false
      else if !sub.isEmpty then d.captureServices src (valid sub) false true
      else d.captureServices src (valid set) true true
    let d := { d with multiUiSession := decide (1 < d.video.countP d.isSubed) }
    if d.followRemoteWindow then d.subscribe b .windowFocus (!d.multiUiSession) else d

/-! ## Voice calls -/

def handleVoiceCall (b : Build) (accepted : Bool) (d : Desk) : Desk :=
  match d.voiceCallRequestTimestamp with
  | some _ =>
    let d := { d with voiceCallRequestTimestamp := none }
    let d := if accepted then (d.emit .voiceCallDevice).sendToCm .startVoiceCall
      else d.sendToCm .closeVoiceCall
    let d := { d.send (.voiceCallResponse accepted) with voiceCalling := accepted }
    if d.isAuthedViewCameraConn then d.subscribe b .audio (d.audioEnabled && accepted) else d
  | none => d

def closeVoiceCall (b : Build) (d : Desk) : Desk :=
  let d := (d.emit .voiceCallDevice).sendToCm .closeVoiceCall
  let d := { d with voiceCalling := false }
  if d.isAuthedViewCameraConn then d.subscribe b .audio false else d

/-! ## Permissions switched by the connection manager -/

def switchKeyboard (b : Build) (enabled : Bool) (d : Desk) : Desk :=
  let d := { d with keyboard := enabled }.send (.permission .keyboard enabled)
  let d := d.subscribe b .clipboard (d.canSubClipboardService b)
  let d := if b.unixFileCopyPaste then
      d.subscribe b .fileClipboard (d.canSubFileClipboardService b) else d
  d.subscribe b .cursor (enabled || d.showRemoteCursor)

def switchClipboard (b : Build) (enabled : Bool) (d : Desk) : Desk :=
  let d := { d with clipboard := enabled }.send (.permission .clipboard enabled)
  d.subscribe b .clipboard (d.canSubClipboardService b)

def switchAudio (b : Build) (authorized enabled : Bool) (d : Desk) : Desk :=
  let d := { d with audio := enabled }.send (.permission .audio enabled)
  if authorized then d.resubscribeAudio b else d

def switchFile (b : Build) (enabled : Bool) (d : Desk) : Desk :=
  let d := { d with file := enabled }.send (.permission .file enabled)
  if b.unixFileCopyPaste then
    let d := if !enabled then d.emit .emptyFileClipboard else d
    d.subscribe b .fileClipboard (d.canSubFileClipboardService b)
  else d

/-- Leave privacy mode before its permission goes; if that fails the permission stays. -/
def switchPrivacyMode (p : Platform) (enabled : Bool) (d : Desk) : Desk :=
  if !enabled && p.ownsPrivacyMode then
    let d := d.emit (.privacyMode "" false)
    if p.turnOff = .offSucceeded then
      { d.send (.privacyMode .offByPeer "") with privacyMode := enabled }.send
        (.permission .privacyMode enabled)
    else
      (d.send (.privacyMode p.turnOff "")).sendToCm (.switchPermission "privacy_mode" d.privacyMode)
  else { d with privacyMode := enabled }.send (.permission .privacyMode enabled)

/-- `ipc::Data::SwitchPermission`, by the name of the permission. -/
def switchPermission (b : Build) (p : Platform) (authorized : Bool) (name : Permission)
    (enabled : Bool) (d : Desk) : Desk :=
  match name with
  | .keyboard => d.switchKeyboard b enabled
  | .clipboard => d.switchClipboard b enabled
  | .audio => d.switchAudio b authorized enabled
  | .file => d.switchFile b enabled
  | .restart => { d with restart := enabled }.send (.permission .restart enabled)
  | .recording => { d with recording := enabled }.send (.permission .recording enabled)
  | .blockInput => { d with blockInput := enabled }.send (.permission .blockInput enabled)
  | .privacyMode => d.switchPrivacyMode p enabled

/-! ## Files -/

/-- A request for printer data, the one file action a connection of another type may make. -/
def isPrinterSend : Option FileAction → Bool
  | some (.send _ _ _ _ fileType) => JobType.fromProto fileType = .printer
  | _ => false

/-- The job of an action that one-way file transfer refuses. -/
def oneWayJobId : FileAction → Option Int
  | .send id _ _ _ _ => some id
  | .removeFile id _ _ => some id
  | .rename id _ _ => some id
  | .create id _ => some id
  | .removeDir id _ _ => some id
  | _ => none

/-- The path an action works on, its job and whether the path may be empty, as checked on Android. -/
def checkedPath : FileAction → Option (String × Int × Bool)
  | .readEmptyDirs path _ => some (path, -1, false)
  | .readDir path _ => some (path, 0, true)
  | .allFiles id path _ => some (path, id, false)
  | .send id path _ _ fileType =>
    if JobType.fromProto fileType = .generic then some (path, id, false) else none
  | .receive id path _ _ _ => some (path, id, false)
  | .removeDir id path _ => some (path, id, false)
  | .removeFile id path _ => some (path, id, false)
  | .create id path => some (path, id, false)
  | .rename id path _ => some (path, id, false)
  | _ => none

/-- The check of peer paths on Android; the desk after a refusal. -/
def refusedPath (p : Platform) (fa : FileAction) (d : Desk) : Option Desk :=
  let refuse := fun id : Int => if 0 ≤ id then d.send (.fileError id "Permission denied" (-1)) else d
  match checkedPath fa with
  | some (path, id, allowEmpty) =>
    if !p.peerPathAllowed path allowEmpty then some (refuse id)
    else
      match fa with
      | .rename id path newName => if !p.renameAllowed path newName then some (refuse id) else none
      | _ => none
  | none => none

/-- `create_and_start_read_job`. -/
def createAndStartReadJob (p : Platform) (type : JobType) (id : Int) (d : Desk) : Desk :=
  match p.readJobError with
  | some (err, fileNum) => d.send (.fileError id err fileNum)
  | none =>
    let d := { d with readJobs := id :: d.readJobs }.emit (.readJob type id)
    (d.send (.directory id)).emit .fileAudit

def sendFiles (p : Platform) (overwriteDetection : Bool) (id : Int) (path : String)
    (includeHidden : Bool) (fileNum : Int) (type : JobType) (d : Desk) : Desk :=
  match type with
  | .generic =>
    let d := if p.needFsCmSendFiles then
        { d with cmReadJobIds := id :: d.cmReadJobIds }.sendFs
          (.readFile path id fileNum includeHidden overwriteDetection)
      else d.createAndStartReadJob p .generic id
    { d with fileTransferred := true }
  | .printer =>
    if d.printerData.any (·.1 = path) then
      let d := { d with printerData := d.printerData.eraseP (·.1 = path) }
      let d := d.createAndStartReadJob p .printer id
      { d with fileTransferred := true }
    -- Ignored if the printer data is not found.
    else d

def runFileAction (p : Platform) (overwriteDetection : Bool) (fa : FileAction) (d : Desk) : Desk :=
  match fa with
  | .readEmptyDirs path includeHidden => d.sendFs (.readEmptyDirs path includeHidden)
  | .readDir path includeHidden => d.sendFs (.readDir path includeHidden)
  | .allFiles id path includeHidden =>
    if p.needFsCmSendFiles then d.sendFs (.readAllFiles path id includeHidden)
    else
      match p.recursiveFilesError with
      | some err => d.send (.fileError id err (-1))
      | none => d.send (.directory id)
  | .send id path includeHidden fileNum fileType =>
    d.sendFiles p overwriteDetection id path includeHidden fileNum (JobType.fromProto fileType)
  | .receive id path files fileNum totalSize =>
    let d := d.sendFs (.newWrite path id fileNum files overwriteDetection totalSize)
    { d.emit .fileAudit with fileTransferred := true }
  | .removeDir id path recursive => d.sendFs (.removeDir path id recursive)
  | .removeFile id path fileNum => d.sendFs (.removeFile path id fileNum)
  | .create id path => (d.sendFs (.createDir path id)).sendToCm (.fileTransferLog "create_dir")
  | .cancel id =>
    let d := d.sendFs (.cancelWrite id)
    let d := { d with cmReadJobIds := d.cmReadJobIds.filter (· ≠ id) }
    let d := d.sendFs (.cancelRead id)
    if d.readJobs.contains id then
      { d with readJobs := d.readJobs.erase id }.sendToCm (.fileTransferLog "transfer")
    else d
  | .sendConfirm id fileNum skip offsetBlk =>
    if d.readJobs.contains id then d
    else if d.cmReadJobIds.contains id then d.sendFs (.sendConfirmForRead id fileNum skip offsetBlk)
    else d.sendFs (.sendConfirm id fileNum skip offsetBlk)
  | .rename id path newName =>
    (d.sendFs (.rename id path newName)).sendToCm (.fileTransferLog "rename")

def onFileAction (b : Build) (p : Platform) (sc : SessionScope) (version : String)
    (fa : Option FileAction) (d : Desk) : Desk :=
  if !(sc.fileTransfer.isSome || isPrinterSend fa) then d
  else if d.delayedReadDir.isSome then
    match fa with
    | some (.readDir path includeHidden) => { d with delayedReadDir := some (path, includeHidden) }
    | _ => d
  else
    match fa with
    | none => d
    | some fa =>
      match b.oneWayFileTransfer, oneWayJobId fa with
      | true, some id => d.send (.fileError id "one-way-file-transfer-tip" 0)
      | _, _ =>
        match (if b.os = .android then d.refusedPath p fa else none) with
        | some d => d
        | none =>
          d.runFileAction p (getVersionNumber "1.1.10" ≤ getVersionNumber version) fa

def onFileResponse (fr : Option FileResponse) (d : Desk) : Desk :=
  match fr with
  | some (.block id fileNum data compressed) => d.sendFs (.writeBlock id fileNum data compressed)
  | some (.done id fileNum) => d.sendFs (.writeDone id fileNum)
  | some (.digest id fileNum fileSize lastModified isResume) =>
    d.sendFs (.checkDigest id fileNum fileSize lastModified isResume)
  | some (.error id fileNum err) => d.sendFs (.writeError id fileNum err)
  | _ => d

/-! ## Input -/

def onMouseEvent (b : Build) (e : MouseEvent) (d : Desk) : Desk :=
  if d.isAuthedViewCameraConn then d
  -- On a phone the main service decides what to do with it.
  else if b.mobile then d.emit (.inputMouse e true false)
  else if d.peerKeyboardEnabled then d.emit (.inputMouse e true d.showMyCursor)
  else if d.showMyCursor then d.emit (.inputMouse e false true)
  else d

def onPointerDeviceEvent (b : Build) (body : Bytes) (d : Desk) : Desk :=
  if d.isAuthedViewCameraConn then d
  else if b.mobile then d.emit (.inputPointer body)
  else if d.peerKeyboardEnabled then d.emit (.inputPointer body)
  else d

/-- Whether a key is pressed and released at once. -/
def keyPress (b : Build) (p : Platform) (e : KeyEvent) : Bool :=
  if b.os = .linux then (e.press || e.down) && !(p.isModifier e || p.rdevModifier e) else e.press

def onKeyEvent (b : Build) (p : Platform) (e : KeyEvent) (d : Desk) : Desk :=
  if b.os = .ios then d
  else if d.isAuthedViewCameraConn then d
  else if b.os = .android then d.emit (.inputKey e false)
  else if d.peerKeyboardEnabled then
    if keyPress b p e then
      match e.union with
      | some (.unicode _) => d.emit (.inputKey e false)
      | some (.seq _) => d.emit (.inputKey e false)
      | _ => d.emit (.inputKey e true)
    else d.emit (.inputKey e false)
  else d

/-! ## The clipboard -/

def onClipboard (contents : List Bytes) (d : Desk) : Desk :=
  if d.shouldHandleTextClipboardMessage && d.clipboardEnabled then d.emit (.updateClipboard contents)
  else d

/-- Hand a step of the file clipboard on to whoever serves it. -/
def serveClip (b : Build) (version : String) (c : Cliprdr) (d : Desk) : Desk :=
  let d := if b.windows then d.sendToCm (.clipboardFile c) else d
  if b.unixFileCopyPaste && decide (getVersionNumber "1.3.8" ≤ getVersionNumber version) &&
      d.fileTransferEnabled then
    (d.emit (.serveFileClipboard c)).send .fileClip
  else d

def onCliprdr (b : Build) (version : String) (c : Cliprdr) (d : Desk) : Desk :=
  if !(b.windows || b.unixFileCopyPaste) then d
  else
    match c with
    | .files _ => d.emit .fileAudit
    | .request body => if b.oneWayFileTransfer then d else d.serveClip b version (.request body)
    | .other body => d.serveClip b version (.other body)

/-! ## The rest -/

/-- `on_close`: what the connection does on its way out. -/
def onClose (b : Build) (lock reconnected : Bool) (d : Desk) : Desk :=
  if d.closed then d
  else
    let d := { d with closed := true }.emit .voiceCallDevice
    let d := if lock && d.lockAfterSessionEnd && d.keyboard && !reconnected && !b.mobile then
        d.emit .lockScreen else d
    if !b.mobile && (d.chatUnanswered || (d.fileTransferred && b.flutter)) then
      d.sendToCm .disconnected
    else d.sendToCm .close

def onElevationRequest (p : Platform) (r : Option Elevation) (d : Desk) : Desk :=
  match r with
  | none => d
  | some _ =>
    if !d.keyboard then d.send (.elevationResponse "No permission")
    else if p.needsElevation then (d.emit .elevate).send (.elevationResponse p.elevationError)
    else d.send (.elevationResponse "No need to elevate")

/-- The session of another user is chosen; the flag is whether the connection stays here. -/
def onSelectedSid (b : Build) (p : Platform) (sc : SessionScope) (sid : Nat) (d : Desk) : Desk × Bool :=
  if !p.processSession then (d, true)
  else if p.otherUserSession sid then (d.emit (.userSession sid), false)
  else if sc.fileTransfer.isSome then
    match d.delayedReadDir with
    | some (dir, showHidden) => ({ d with delayedReadDir := none }.sendFs (.readDir dir showHidden), true)
    | none => (d, true)
  else if sc.viewCamera then (d.addCameraConnection b p.primaryCameraExists, true)
  else if !sc.terminal then (d.trySubMonitorServices b sc.isRemote, true)
  else (d, true)

def onMisc (b : Build) (p : Platform) (sc : SessionScope) (lr : LoginRequest) (m : Misc) (d : Desk) :
    Desk × Bool :=
  match m with
  | .switchDisplay display width height =>
    (d.handleSwitchDisplay b p sc lr.version display width height, true)
  | .captureDisplays add sub set => (d.captureDisplays b p sc add sub set, true)
  | .toggleVirtualDisplay display on =>
    (if b.windows && !sc.viewCamera then d.emit (.virtualDisplay display on) else d, true)
  | .togglePrivacyMode implKey on =>
    (if !sc.viewCamera then d.togglePrivacyMode p implKey on else d, true)
  | .chatMessage text => ({ d.sendToCm (.chatMessage text) with chatUnanswered := true }, true)
  | .option o =>
    if d.authed = some .remote then (d.updateOptions b p lr.version sc.terminalServiceId o, true)
    else
      match scopedUpdateOptionMessage d.authed o with
      | some o => (d.updateOptions b p lr.version sc.terminalServiceId o, true)
      | none => (d, true)
  | .refreshVideo refresh =>
    (if d.shouldHandleRenderBroadcastMessage && refresh then d.refreshVideoDisplay sc none else d, true)
  | .refreshVideoDisplay display =>
    (if d.shouldHandleRenderBroadcastMessage then d.refreshVideoDisplay sc (some (toUsize display))
      else d, true)
  | .videoReceived => (d.emit .frameFetched, true)
  | .restartRemoteDevice => (if !b.mobile && d.restart then d.emit .restart else d, true)
  | .elevationRequest r => (if b.windows then d.onElevationRequest p r else d, true)
  | .audioFormat format =>
    (if !d.disableAudio then { d.emit (.audioThread format) with audioSender := true } else d, true)
  | .switchSidesRequest uuid =>
    if b.flutter && !b.mobile && decide (uuid.length = 16) then
      let d := if p.newSwitchSides then d.emit (.switchSides lr.myId.1 uuid) else d
      (d.onClose b false false, false)
    else (d, true)
  | .changeResolution r =>
    (if !b.mobile && !sc.viewCamera then d.changeResolution p none r else d, true)
  | .changeDisplayResolution display r =>
    (if !b.mobile && !sc.viewCamera then d.changeResolution p (some (toUsize display)) r else d, true)
  | .autoAdjustFps fps => (d.emit (.qosFps fps), true)
  | .clientRecordStatus status => (d.emit (.qosRecord status), true)
  | .selectedSid sid => if b.windows then d.onSelectedSid b p sc sid else (d, true)
  | .messageQuery display => (d.sendDisplayChanged p (toUsize display), true)
  | .requestCursorData id =>
    (if !b.mobile && sc.isRemote && (d.peerKeyboardEnabled || d.showRemoteCursor) && p.cursorData id then
      d.send (.cursorData id) else d, true)
  | .closeReason _ => (d, true)
  | .followCurrentDisplay _ => (d, true)
  | .other => (d, true)

/-- `handle_terminal_action`; without a user token it gives up. -/
def handleTerminalAction (userToken : Bool) (action : Bytes) (d : Desk) : Desk :=
  let d := d.emit (.terminalAction action)
  if userToken then d.send .terminalResponse else d

def onVoiceCallRequest (b : Build) (p : Platform) (reqTimestamp : Int) (isConnect : Bool) (d : Desk) :
    Desk :=
  if isConnect then
    let timestamp := if reqTimestamp = 0 then (p.now : Int) else reqTimestamp
    { d with voiceCallRequestTimestamp := some timestamp }.sendToCm .voiceCallIncoming
  else d.closeVoiceCall b

def onScreenshotRequest (sc : SessionScope) (display : Int) (sid : String) (d : Desk) : Desk :=
  let d := d.emit (.screenshot (getServiceName sc.videoSource (toUsize display)) sid)
  d.refreshVideoDisplay sc (some (toUsize display))

/-- The handlers of `on_message` that only an authorized connection reaches. -/
def onAuthorizedMessage (b : Build) (p : Platform) (sc : SessionScope) (lr : LoginRequest)
    (userToken : Bool) (msg : Message) (d : Desk) : Desk × Bool :=
  match msg with
  | .mouseEvent e => (d.onMouseEvent b e, true)
  | .pointerDeviceEvent body => (d.onPointerDeviceEvent b body, true)
  | .keyEvent e => (d.onKeyEvent b p e, true)
  | .clipboard content => (d.onClipboard [content], true)
  | .multiClipboards contents => (d.onClipboard contents, true)
  | .cliprdr c => (d.onCliprdr b lr.version c, true)
  | .fileAction fa => (d.onFileAction b p sc lr.version fa, true)
  | .fileResponse fr => (d.onFileResponse fr, true)
  | .misc (some m) => d.onMisc b p sc lr m
  | .misc none => (d, true)
  | .audioFrame data =>
    (if !d.disableAudio && d.audioSender then d.emit (.audioFrame data) else d, true)
  | .voiceCallRequest reqTimestamp isConnect => (d.onVoiceCallRequest b p reqTimestamp isConnect, true)
  | .screenshotRequest display sid => (d.onScreenshotRequest sc display sid, true)
  | .portForwardChannel frame => (if sc.mux.isSome then d.emit (.openChannel frame) else d, true)
  | .terminalAction action =>
    (if b.mobile then d else d.handleTerminalAction userToken action, true)
  | _ => (d, true)

/-- `TestDelay`: the peer's own probe is answered, an answer to ours is a delay sample. -/
def onTestDelay (p : Platform) (time : Int) (fromClient : Bool) (d : Desk) : Desk :=
  if fromClient then d.send (.testDelay time)
  else
    match d.lastTestDelay with
    | some tm =>
      let delay := p.now - tm
      { d.emit (.qosNetworkDelay delay) with lastTestDelay := none, networkDelay := delay }
    | none => d

/-- `handle_authorized_scope_violation`, up to the closing of the connection. -/
def onScopeViolation (p : Platform) (family : String) (d : Desk) : Desk :=
  let first := !d.scopeViolationMessages.contains family
  let d := { d with scopeViolationMessages := d.scopeViolationMessages.insert family }
  let d := d.emit (.scopeViolation family first)
  if first && p.allowScopeViolationAlarm then d.emit (.scopeViolationAlarm family) else d

end Desk

end FontisRemote.Connection
