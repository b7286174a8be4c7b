import Mathlib.Logic.Function.Basic
import FontisRemote.Connection.Scope
import FontisRemote.Video.Source

/-!
# The session part of a connection

Permissions, options, subscriptions and what the handlers of an authorized connection do. `Desk` is
the part of `Connection` that these read and write; the part that logging in is about is `Login` and
`SessionScope`. The handlers pass the desk along and note what they do outside it in `out`, newest
first.

`Build` is what is fixed for the process: the target, the features, the built-in options. `Platform`
is what a handler reads from the machine while it runs, and may differ from one step to the next.
-/

namespace FontisRemote.Connection

open FontisRemote.Video (VideoSource)

inductive Os where
  | windows
  | linux
  | macos
  | android
  | ios
  deriving DecidableEq, Repr

structure Build where
  os : Os
  flutter : Bool
  unixFileCopyPaste : Bool
  /-- `OPTION_ONE_WAY_CLIPBOARD_REDIRECTION`. -/
  oneWayClipboardRedirection : Bool
  /-- `OPTION_ONE_WAY_FILE_TRANSFER`. -/
  oneWayFileTransfer : Bool
  /-- `capture_cursor_embedded`, read once when the server is made. -/
  cursorEmbedded : Bool
  x11 : Bool
  printer : Bool

namespace Build

def windows (b : Build) : Bool := b.os = .windows

def mobile (b : Build) : Bool := b.os = .android || b.os = .ios

end Build

/-- The services of the server, one for each display and each camera. -/
inductive Service where
  | audio
  | display
  | clipboard
  | fileClipboard
  | cursor
  | pos
  | windowFocus
  | printer
  | monitor (idx : Nat)
  | camera (idx : Nat)
  deriving DecidableEq, Repr

namespace Service

/-- `is_video_service_name`. -/
def isVideo : Service → Bool
  | monitor _ => true
  | camera _ => true
  | _ => false

end Service

/-- The services `server::new` adds. A video service is added before anyone is subscribed to it, and
none is taken away. -/
def Build.has (b : Build) : Service → Bool
  | .audio => true
  | .display => b.os ≠ .ios
  | .clipboard => b.os ≠ .ios
  | .fileClipboard => b.os ≠ .ios && b.unixFileCopyPaste
  | .cursor => !b.mobile && !b.cursorEmbedded
  | .pos => !b.mobile && !b.cursorEmbedded
  | .windowFocus => !b.mobile && !b.cursorEmbedded && (b.os ≠ .linux || b.x11)
  | .printer => b.windows && b.flutter && b.printer
  | .monitor _ => true
  | .camera _ => true

/-- `video_service::get_service_name`. -/
def getServiceName : VideoSource → Nat → Service
  | .monitor => .monitor
  | .camera => .camera

/-! ## What a handler does outside the connection -/

/-- `ipc::FS`, the file operations the connection manager carries out. -/
inductive Fs where
  | readEmptyDirs (dir : String) (includeHidden : Bool)
  | readDir (dir : String) (includeHidden : Bool)
  | readAllFiles (path : String) (id : Int) (includeHidden : Bool)
  | readFile (path : String) (id fileNum : Int) (includeHidden overwriteDetection : Bool)
  | newWrite (path : String) (id fileNum : Int) (files : List (String × Nat))
      (overwriteDetection : Bool) (totalSize : Nat)
  | removeDir (path : String) (id : Int) (recursive : Bool)
  | removeFile (path : String) (id fileNum : Int)
  | createDir (path : String) (id : Int)
  | cancelWrite (id : Int)
  | cancelRead (id : Int)
  | sendConfirmForRead (id fileNum : Int) (skip : Bool) (offsetBlk : Nat)
  | sendConfirm (id fileNum : Int) (skip : Bool) (offsetBlk : Nat)
  | rename (id : Int) (path newName : String)
  | writeBlock (id fileNum : Int) (data : Bytes) (compressed : Bool)
  | writeDone (id fileNum : Int)
  | checkDigest (id fileNum : Int) (fileSize lastModified : Nat) (isResume : Bool)
  | writeError (id fileNum : Int) (err : String)
  deriving DecidableEq, Repr

/-- What is sent to the connection manager, file operations apart. -/
inductive ToCm where
  | login (peerId name : String) (authorized fromSwitch : Bool)
  | chatMessage (text : String)
  | fileTransferLog (kind : String)
  | clipboardFile (c : Cliprdr)
  | clipboardFileEnabled (enabled : Bool)
  | voiceCallIncoming
  | startVoiceCall
  | closeVoiceCall
  | switchPermission (name : String) (enabled : Bool)
  | close
  | disconnected
  deriving DecidableEq, Repr

inductive PrivacyModeState where
  | onSucceeded
  | onFailed
  | onFailedDenied
  | offSucceeded
  | offFailed
  | offByPeer
  | notSupported
  deriving DecidableEq, Repr

inductive Permission where
  | keyboard
  | clipboard
  | audio
  | file
  | restart
  | recording
  | blockInput
  | privacyMode
  deriving DecidableEq, Repr

/-- What is sent to the peer. -/
inductive Reply where
  | loginError (text : String)
  | loginResponse
  | testDelay (time : Int)
  | permission (p : Permission) (enabled : Bool)
  | privacyMode (state : PrivacyModeState) (implKey : String)
  | blockInputFailed (on : Bool)
  | displayChanged (idx : Nat)
  | fileError (id : Int) (text : String) (fileNum : Int)
  | directory (id : Int)
  | fileClip
  | cursorData (id : Nat)
  | elevationResponse (text : String)
  | messageBox (title : String)
  | voiceCallRequest (isConnect : Bool)
  | voiceCallResponse (accepted : Bool)
  | terminalResponse
  | closeReason (text : String)
  deriving DecidableEq, Repr

inductive Effect where
  | reply (r : Reply)
  | toCm (d : ToCm)
  | fs (f : Fs)
  /-- A read job is made in the connection itself. -/
  | readJob (type : JobType) (id : Int)
  | inputMouse (e : MouseEvent) (simulate showCursor : Bool)
  | inputPointer (body : Bytes)
  | inputKey (e : KeyEvent) (press : Bool)
  | blockInput (on : Bool)
  | updateClipboard (contents : List Bytes)
  | serveFileClipboard (c : Cliprdr)
  | emptyFileClipboard
  /-- `VIDEO_QOS`: what the user asks for, and the delay measured. -/
  | qosImageQuality (quality : Int)
  | qosFps (fps : Int)
  | qosRecord (status : Bool)
  | qosNetworkDelay (delay : Nat)
  /-- `Encoder::update`; `none` is `NewOnlyVP9`. -/
  | codec (decoding : Option Bytes)
  | addVideoService (s : Service)
  | refreshVideo (display : Option Service)
  | frameFetched
  | screenshot (s : Service) (sid : String)
  | changeResolution (display : Nat) (r : Resolution)
  | virtualDisplay (display : Int) (on : Bool)
  | privacyMode (implKey : String) (on : Bool)
  | restart
  | elevate
  | audioThread (format : Bytes)
  | audioFrame (data : Bytes)
  | voiceCallDevice
  | showMyCursor (on : Bool)
  | terminalPersistence (serviceId : String) (persistent : Bool)
  | terminalService (serviceId : String)
  | terminalAction (action : Bytes)
  | openChannel (frame : Bytes)
  | switchSides (peerId : String) (uuid : Bytes)
  | userSession (sid : Nat)
  | fileAudit
  | scopeViolation (family : String) (first : Bool)
  | scopeViolationAlarm (family : String)
  | lockScreen
  deriving DecidableEq, Repr

/-! ## The desk -/

structure Desk where
  /-- The type of `authed_conn_id`. -/
  authed : Option AuthConnType := none
  displayIdx : Nat := 0
  keyboard : Bool
  clipboard : Bool
  audio : Bool
  file : Bool
  restart : Bool
  recording : Bool
  blockInput : Bool
  privacyMode : Bool
  lockAfterSessionEnd : Bool := false
  showRemoteCursor : Bool := false
  followRemoteCursor : Bool := false
  followRemoteWindow : Bool := false
  multiUiSession : Bool := false
  disableKeyboard : Bool := false
  disableClipboard : Bool := false
  disableAudio : Bool := false
  enableFileTransfer : Bool := false
  showMyCursor : Bool := false
  terminalPersistent : Bool := false
  servicesSubed : Bool := false
  voiceCallRequestTimestamp : Option Int := none
  voiceCalling : Bool := false
  audioSender : Bool := false
  chatUnanswered : Bool := false
  fileTransferred : Bool := false
  readJobs : List Int := []
  cmReadJobIds : List Int := []
  delayedReadDir : Option (String × Bool) := none
  printerData : List (String × Bytes) := []
  lastTestDelay : Option Nat := none
  networkDelay : Nat := 0
  scopeViolationMessages : List String := []
  closed : Bool := false
  /-- The video services the connection has added to the server or found there. -/
  video : List Service := []
  /-- The services the connection is a subscriber of. -/
  subs : Service → Bool := fun _ => false
  /-- The services whose thread is to make a subscriber of the connection in the middle of an `is_subed`
  of this turn. -/
  swapping : Service → Bool := fun _ => false
  out : List Effect := []

namespace Desk

def emit (d : Desk) (e : Effect) : Desk := { d with out := e :: d.out }

def send (d : Desk) (r : Reply) : Desk := d.emit (.reply r)

def sendToCm (d : Desk) (m : ToCm) : Desk := d.emit (.toCm m)

def sendFs (d : Desk) (f : Fs) : Desk := d.emit (.fs f)

/-! ### Permissions -/

def peerKeyboardEnabled (d : Desk) : Bool := d.keyboard && !d.disableKeyboard

def clipboardEnabled (d : Desk) : Bool := d.clipboard && !d.disableClipboard

def canSubClipboardService (b : Build) (d : Desk) : Bool :=
  d.clipboardEnabled && d.peerKeyboardEnabled && !b.oneWayClipboardRedirection

def audioEnabled (d : Desk) : Bool := d.audio && !d.disableAudio

def fileTransferEnabled (d : Desk) : Bool := d.file && d.enableFileTransfer

def canSubFileClipboardService (b : Build) (d : Desk) : Bool :=
  d.clipboardEnabled && d.fileTransferEnabled && !b.oneWayFileTransfer

def isAuthedRemoteConn (d : Desk) : Bool := d.authed = some .remote

def isAuthedViewCameraConn (d : Desk) : Bool := d.authed = some .viewCamera

def shouldHandleRenderBroadcastMessage (d : Desk) : Bool :=
  d.authed = some .remote || d.authed = some .viewCamera

def shouldHandleTextClipboardMessage (d : Desk) : Bool := d.authed = some .remote

/-! ### Subscriptions -/

/-- `Server::subscribe`. `is_subed` takes the lock of the service once for each of its two maps: a
connection that is moved from the second to the first in between is found in neither, and a revocation
leaves it there. From then on it is in the first. -/
def subscribe (b : Build) (d : Desk) (s : Service) (sub : Bool) : Desk :=
  if b.has s then
    if !sub && d.subs s && d.swapping s then { d with swapping := Function.update d.swapping s false }
    else { d with subs := Function.update d.subs s sub }
  else d

/-- `Service::is_subed`. -/
def isSubed (d : Desk) (s : Service) : Bool := d.subs s && !d.swapping s

/-- `Server::add_service` of a video service, unless the server has it. -/
def addVideoService (s : Service) (d : Desk) : Desk :=
  { d.emit (.addVideoService s) with video := d.video.insert s }

/-- `Server::add_monitor_connection`, with the service of the display added before. -/
def addMonitorConnection (b : Build) (noperms : List Service) (d : Desk) : Desk :=
  { d.addVideoService (.monitor d.displayIdx) with
    subs := fun s =>
      if s.isVideo && s ≠ .monitor d.displayIdx then d.subs s
      else if b.has s && !noperms.contains s then true
      else d.subs s }

/-- `Server::add_camera_connection`, with the service of the primary camera added before. -/
def addCameraConnection (b : Build) (primaryCameraExists : Bool) (d : Desk) : Desk :=
  if primaryCameraExists then
    (d.addVideoService (.camera 0)).subscribe b (.camera 0) true
  else d

/-- `Server::capture_displays`, which subscribes to each video service or unsubscribes from it. -/
def captureServices (src : VideoSource) (displays : List Nat) (incl excl : Bool) (d : Desk) :
    Desk :=
  { d with
    subs := fun s =>
      if s.isVideo then
        if (displays.map (getServiceName src)).contains s then (if incl then true else d.subs s)
        else (if excl then d.subs s && d.swapping s else d.subs s)
      else d.subs s
    swapping := fun s =>
      if s.isVideo && !(displays.map (getServiceName src)).contains s && excl && d.subs s then false
      else d.swapping s }

/-- `try_sub_monitor_services`, once the connection is known to be remote. -/
def trySubMonitorServices (b : Build) (isRemote : Bool) (d : Desk) : Desk :=
  if isRemote && !d.servicesSubed then
    let d := { d with servicesSubed := true }
    let noperms : List Service :=
      (if !d.peerKeyboardEnabled && !d.showRemoteCursor then [.cursor] else []) ++
      (if !d.showRemoteCursor then [.pos] else []) ++
      (if !d.followRemoteWindow then [.windowFocus] else []) ++
      (if !d.canSubClipboardService b then [.clipboard] else []) ++
      (if b.unixFileCopyPaste && !d.canSubFileClipboardService b then [.fileClipboard] else []) ++
      (if !d.audioEnabled then [.audio] else [])
    d.addMonitorConnection b noperms
  else d

end Desk

end FontisRemote.Connection
