import Mathlib.Algebra.Order.Ring.Int
import Mathlib.Data.List.Basic

/-!
# The messages of a connection

The part of `message.proto` that a server connection reads. A field that `on_message` only hands on is
kept as bytes. Every `oneof` is an inductive type whose absence (and every member this build does not
know) is `none` of an option around it; an enum field keeps values this build does not know, as
`EnumOrUnknown` does.
-/

namespace FontisRemote.Connection

abbrev Bytes := List UInt8

/-- A Rust string: at most `isize::MAX` bytes. -/
abbrev Text := { s : String // s.utf8ByteSize < 2 ^ 63 }

namespace Text

def empty : Text := ⟨"", by decide⟩

def bytes (t : Text) : Bytes := t.1.toUTF8.data.toList

end Text

instance : Inhabited Text := ⟨Text.empty⟩

/-- `protobuf::EnumOrUnknown`. -/
inductive EnumOrUnknown (α : Type) where
  | known (value : α)
  | unknown (value : Int)
  deriving DecidableEq, Repr

namespace EnumOrUnknown

/-- `enum_value().ok()`. -/
def enumValue {α : Type} : EnumOrUnknown α → Option α
  | known v => some v
  | unknown _ => none

end EnumOrUnknown

inductive BoolOption where
  | notSet
  | no
  | yes
  deriving DecidableEq, Repr

inductive ImageQuality where
  | notSet
  | low
  | balanced
  | best
  deriving DecidableEq, Repr

namespace ImageQuality

def value : ImageQuality → Int
  | notSet => 0
  | low => 2
  | balanced => 3
  | best => 4

end ImageQuality

abbrev BoolField := EnumOrUnknown BoolOption

structure OptionMessage where
  imageQuality : EnumOrUnknown ImageQuality := .known .notSet
  lockAfterSessionEnd : BoolField := .known .notSet
  showRemoteCursor : BoolField := .known .notSet
  privacyMode : BoolField := .known .notSet
  blockInput : BoolField := .known .notSet
  customImageQuality : Int := 0
  disableAudio : BoolField := .known .notSet
  disableClipboard : BoolField := .known .notSet
  enableFileTransfer : BoolField := .known .notSet
  supportedDecoding : Option Bytes := none
  customFps : Int := 0
  disableKeyboard : BoolField := .known .notSet
  followRemoteCursor : BoolField := .known .notSet
  followRemoteWindow : BoolField := .known .notSet
  disableCamera : BoolField := .known .notSet
  terminalPersistent : BoolField := .known .notSet
  showMyCursor : BoolField := .known .notSet
  deriving DecidableEq, Repr

/-! ## Logging in -/

structure PortForward where
  host : Text
  port : Int32
  multiplex : Bool
  deriving DecidableEq

/-- `login_request::Union`. -/
inductive LoginUnion where
  | fileTransfer (dir : Text) (showHidden : Bool)
  | viewCamera
  | terminal (serviceId : Text)
  | portForward (pf : PortForward)
  deriving DecidableEq

structure OsLogin where
  username : String := ""
  password : String := ""
  deriving DecidableEq

structure LoginRequest where
  username : String := ""
  password : Bytes := []
  myId : Text := .empty
  myName : String := ""
  option : Option OptionMessage := none
  union : Option LoginUnion := none
  videoAckRequired : Bool := false
  sessionId : UInt64 := 0
  version : String := ""
  osLogin : OsLogin := {}
  myPlatform : String := ""
  hwid : Bytes := []
  deriving DecidableEq

structure Auth2fa where
  code : String
  hwid : Bytes
  deriving DecidableEq

structure SwitchSidesResponse where
  uuid : Bytes
  lr : Option LoginRequest
  deriving DecidableEq

/-! ## Files -/

inductive JobType where
  | generic
  | printer
  deriving DecidableEq, Repr

/-- `JobType::from_proto`: a type this build does not know is a plain file. -/
def JobType.fromProto : EnumOrUnknown JobType → JobType
  | .known t => t
  | .unknown _ => .generic

/-- `file_action::Union`. -/
inductive FileAction where
  | readDir (path : String) (includeHidden : Bool)
  | send (id : Int) (path : String) (includeHidden : Bool) (fileNum : Int)
      (fileType : EnumOrUnknown JobType)
  | receive (id : Int) (path : String) (files : List (String × Nat)) (fileNum : Int)
      (totalSize : Nat)
  | create (id : Int) (path : String)
  | removeDir (id : Int) (path : String) (recursive : Bool)
  | removeFile (id : Int) (path : String) (fileNum : Int)
  | allFiles (id : Int) (path : String) (includeHidden : Bool)
  | cancel (id : Int)
  | sendConfirm (id : Int) (fileNum : Int) (skip : Bool) (offsetBlk : Nat)
  | rename (id : Int) (path : String) (newName : String)
  | readEmptyDirs (path : String) (includeHidden : Bool)
  deriving DecidableEq, Repr

/-- `file_response::Union`. -/
inductive FileResponse where
  | dir
  | block (id : Int) (fileNum : Int) (data : Bytes) (compressed : Bool)
  | error (id : Int) (fileNum : Int) (err : String)
  | done (id : Int) (fileNum : Int)
  | digest (id : Int) (fileNum : Int) (fileSize lastModified : Nat) (isResume : Bool)
  | emptyDirs
  deriving DecidableEq, Repr

/-! ## The rest -/

structure MouseEvent where
  mask : Int
  x : Int
  y : Int
  deriving DecidableEq, Repr

/-- `key_event::Union`. -/
inductive KeyUnion where
  | controlKey (key : Int)
  | chr (code : Nat)
  | unicode (code : Nat)
  | seq (text : String)
  | win2winHotkey (code : Nat)
  deriving DecidableEq, Repr

inductive KeyboardMode where
  | legacy
  | map
  | translate
  | auto
  deriving DecidableEq, Repr

structure KeyEvent where
  down : Bool
  press : Bool
  union : Option KeyUnion
  mode : EnumOrUnknown KeyboardMode
  deriving DecidableEq, Repr

structure Resolution where
  width : Int
  height : Int
  deriving DecidableEq, Repr

/-- `cliprdr::Union`, as far as it is looked at: a list of files, a request for the contents of a
file, or another step of the protocol. -/
inductive Cliprdr where
  | files (files : List (String × Nat))
  | request (body : Bytes)
  | other (body : Bytes)
  deriving DecidableEq, Repr

inductive Elevation where
  | direct
  | logon (username password : String)
  deriving DecidableEq, Repr

/-- `misc::Union`. Members that no handler and no check names are `other`. -/
inductive Misc where
  | chatMessage (text : String)
  | switchDisplay (display : Int) (width height : Int)
  | option (o : OptionMessage)
  | audioFormat (format : Bytes)
  | closeReason (reason : String)
  | refreshVideo (refresh : Bool)
  | videoReceived
  | restartRemoteDevice
  | elevationRequest (r : Option Elevation)
  | switchSidesRequest (uuid : Bytes)
  | changeResolution (r : Resolution)
  | autoAdjustFps (fps : Nat)
  | clientRecordStatus (status : Bool)
  | captureDisplays (add sub set : List Int)
  | refreshVideoDisplay (display : Int)
  | toggleVirtualDisplay (display : Int) (on : Bool)
  | togglePrivacyMode (implKey : String) (on : Bool)
  | selectedSid (sid : Nat)
  | changeDisplayResolution (display : Int) (r : Resolution)
  | messageQuery (switchDisplay : Int)
  | followCurrentDisplay (display : Int)
  | requestCursorData (id : Nat)
  | other
  deriving DecidableEq, Repr

/-- `message::Union`. Members that no handler and no check names are `other`. -/
inductive Message where
  | empty
  | testDelay (time : Int) (fromClient : Bool)
  | loginRequest (lr : LoginRequest)
  | mouseEvent (e : MouseEvent)
  | audioFrame (data : Bytes)
  | keyEvent (e : KeyEvent)
  | clipboard (content : Bytes)
  | fileAction (fa : Option FileAction)
  | fileResponse (fr : Option FileResponse)
  | misc (m : Option Misc)
  | cliprdr (c : Cliprdr)
  | switchSidesResponse (r : SwitchSidesResponse)
  | voiceCallRequest (reqTimestamp : Int) (isConnect : Bool)
  | voiceCallResponse (accepted : Bool)
  | pointerDeviceEvent (body : Bytes)
  | auth2fa (tfa : Auth2fa)
  | multiClipboards (contents : List Bytes)
  | screenshotRequest (display : Int) (sid : String)
  | screenshotResponse
  | terminalAction (action : Bytes)
  | terminalResponse
  | portForwardChannel (frame : Bytes)
  | other
  deriving DecidableEq

end FontisRemote.Connection
