import FontisRemote.Clipboard.Descriptor
import FontisRemote.Lib.Run

/-!
# Serving copied files

`serv_files.rs`: the list that is on the clipboard, the lists replaced since that a peer was sent, and the
requests that read from them. A call runs under the locks of both, so it is one step.

What the disk says during a call is given with it, and so are the random bytes of a list. `sent` and `built`
are what happened so far, newest first: the lists sent to each connection since the last `clear_files`, and
the ids of all lists built.
-/

namespace FontisRemote.Clipboard

open FontisRemote.Lib
open FontisRemote.FileTransfer (Text)

def MAX_RANGE_READ : Nat := 16 * 1024 * 1024
def MAX_RETIRED_CLIP_FILES : Nat := 4
def USIZE_MAX : Nat := 2 ^ 64 - 1

/-- A fingerprint of one of the selected paths. -/
structure FileSig where
  size : Nat := 0
  mtime : Option Int := none
  isDir : Bool := false
deriving DecidableEq, Repr

/-- The disk, as one call finds it. -/
structure Disk (Handle : Text → Type) where
  fingerprint : Text → FileSig
  constructFileList : List Text → Except CliprdrError (List (LocalFile Handle))
  isDir : Text → Bool
  isFile : Text → Bool
  /-- Opening a file, and filling the first buffer from it. -/
  openFile : (path : Text) → Except String (Handle path)
  /-- The size and the modification time of an open file. -/
  metadata : {path : Text} → Handle path → Option (Nat × Option Int)
  seek : {path : Text} → Handle path → Nat → Except String (Handle path)
  readExact : {path : Text} → Handle path → Nat → Except String (List UInt8 × Handle path)

inductive FileContentsRequest
  | size (streamId : Int) (fileIdx : Nat)
  | range (streamId : Int) (fileIdx offset length : Nat)
deriving DecidableEq, Repr

def FileContentsRequest.fileIdx : FileContentsRequest → Nat
  | .size _ fileIdx => fileIdx
  | .range _ fileIdx _ _ => fileIdx

inductive ClipboardFile
  | files (files : List (Text × UInt64))
  | fileContentsResponse (msgFlags : Nat) (streamId : Int) (requestedData : List UInt8)
deriving DecidableEq, Repr

namespace LocalFile

variable {Handle : Text → Type} (file : LocalFile Handle) (disk : Disk Handle)

def loadHandle : LocalFile Handle × Except CliprdrError Unit :=
  if !file.isDir && file.handle.isNone then
    match disk.openFile file.path with
    | .ok handle => ({ file with handle := some handle }, .ok ())
    | .error err => (file, .error (.fileError file.path err))
  else (file, .ok ())

/-- The handle moved to where the read starts, and read from. -/
def readAt (handle : Handle file.path) (len offset : Nat) : Except String (List UInt8 × Handle file.path) :=
  if offset ≠ file.offset then
    match disk.seek handle offset with
    | .ok handle => disk.readExact handle len
    | .error err => .error err
  else disk.readExact handle len

def readLoaded (len offset : Nat) : LocalFile Handle × Except CliprdrError (List UInt8) :=
  match file.handle with
  | none => (file, .error (.fileError file.path "file handle not found"))
  | some handle =>
    match file.readAt disk handle len offset with
    | .error err => ({ file with offset := 0, handle := none }, .error (.fileError file.path err))
    | .ok (buf, handle) =>
      if file.size.toNat ≤ offset + len then ({ file with offset := 0, handle := none }, .ok buf)
      else ({ file with offset := offset + len, handle := some handle }, .ok buf)

def readExactAt (len offset : Nat) : LocalFile Handle × Except CliprdrError (List UInt8) :=
  match file.loadHandle disk with
  | (file, .error error) => (file, .error error)
  | (file, .ok ()) => file.readLoaded disk len offset

end LocalFile

structure ClipFiles (Handle : Text → Type) where
  files : List Text := []
  sigs : List FileSig := []
  fileList : List (LocalFile Handle) := []
  firstFileIndex : Nat := 0
  filesPdu : List UInt8 := []
  id : Int32 := 0
  servedTo : List Int := []

namespace ClipFiles

variable {Handle : Text → Type} (clip : ClipFiles Handle) (disk : Disk Handle)

def cleared : ClipFiles Handle :=
  { firstFileIndex := USIZE_MAX }

def syncFiles (clipboardFiles : List Text) (sigs : List FileSig) : Except CliprdrError (ClipFiles Handle) :=
  match disk.constructFileList clipboardFiles with
  | .error error => .error error
  | .ok fileList =>
    .ok { clip with
      fileList := fileList
      firstFileIndex := (fileList.findIdx? fun f => !disk.isDir f.path).getD USIZE_MAX
      files := clipboardFiles
      sigs := sigs }

def buildPdu (nonce : Vector UInt8 16) : Except CliprdrError (ClipFiles Handle) :=
  match buildFileListPdu clip.fileList nonce with
  | .error error => .error error
  | .ok (filesPdu, id) => .ok { clip with filesPdu := filesPdu, id := id }

def releaseHandles : ClipFiles Handle :=
  { clip with
    fileList := clip.fileList.map fun file => if file.offset = 0 then { file with handle := none } else file }

def unchanged (file : LocalFile Handle) : Bool :=
  match file.handle with
  | none => false
  | some handle =>
    match disk.metadata handle with
    | none => false
    | some (size, mtime) => size == file.size.toNat && mtime == some file.lastWriteTime

def changedError (file : LocalFile Handle) : CliprdrError :=
  .invalidRequest ("file " ++ String.ofList file.name ++ " changed since its list was sent")

def checkRetiredFile : FileContentsRequest → ClipFiles Handle × Except CliprdrError Unit
  | .size _ _ => (clip, .ok ())
  | .range _ fileIdx _ _ =>
    match clip.fileList[fileIdx]? with
    | none => (clip, .ok ())
    | some file =>
      if file.isDir then (clip, .ok ())
      else
        match file.loadHandle disk with
        | (_, .error error) => (clip, .error error)
        | (file, .ok ()) =>
          ({ clip with fileList := clip.fileList.set fileIdx file },
            if unchanged disk file then .ok () else .error (changedError file))

def getFilesForAudit : FileContentsRequest → Option ClipboardFile
  | .size _ _ => none
  | .range _ fileIdx offset _ =>
    if fileIdx = clip.firstFileIndex ∧ offset = 0 then
      let files := clip.fileList.filterMap fun f => if disk.isFile f.path then some (f.path, f.size) else none
      if files = [] then none else some (.files files)
    else none

/-- Open the first file from here on that is no directory, if it can be. -/
def preload : List (LocalFile Handle) → List (LocalFile Handle)
  | [] => []
  | file :: rest => if file.isDir then file :: preload rest else (file.loadHandle disk).1 :: rest

def preloadAfter (fileIdx : Nat) : ClipFiles Handle :=
  { clip with
    fileList := clip.fileList.take (fileIdx + 1) ++ preload disk (clip.fileList.drop (fileIdx + 1)) }

def invalidIndexError (fileIdx : Nat) (connId : Int) : CliprdrError :=
  .invalidRequest s!"invalid file index {fileIdx} requested from conn: {connId}"

def serveFileContents (connId : Int) : FileContentsRequest → ClipFiles Handle × Except CliprdrError ClipboardFile
  | .size streamId fileIdx =>
    match clip.fileList[fileIdx]? with
    | none => (clip, .error (invalidIndexError fileIdx connId))
    | some file =>
      (clip.preloadAfter disk fileIdx, .ok (.fileContentsResponse 1 streamId (leBytes 8 file.size.toNat)))
  | .range streamId fileIdx offset length =>
    match clip.fileList[fileIdx]? with
    | none => (clip, .error (invalidIndexError fileIdx connId))
    | some file =>
      if file.size.toNat < offset then
        (clip, .error (.invalidRequest s!"invalid reading offset requested from conn: {connId}"))
      else
        let readSize := if file.size.toNat - offset < length then file.size.toNat - offset else length
        if MAX_RANGE_READ < readSize then
          (clip, .error (.invalidRequest
            s!"file contents request of {readSize} bytes exceeds the {MAX_RANGE_READ} byte limit, conn: {connId}"))
        else
          match file.readExactAt disk readSize offset with
          | (file, .error error) => ({ clip with fileList := clip.fileList.set fileIdx file }, .error error)
          | (file, .ok buf) =>
            (({ clip with fileList := clip.fileList.set fileIdx file }).preloadAfter disk fileIdx,
              .ok (.fileContentsResponse 1 streamId buf))

/-- The answers to a request: what there is to audit, and the response. -/
def answer (connId : Int) (request : FileContentsRequest) :
    ClipFiles Handle × List (Except CliprdrError ClipboardFile) :=
  let served := clip.serveFileContents disk connId request
  (served.1, (clip.getFilesForAudit disk request).toList.map .ok ++ [served.2])

end ClipFiles

structure ServFiles (Handle : Text → Type) where
  current : ClipFiles Handle := {}
  /-- The list retired last comes first. -/
  retired : List (ClipFiles Handle) := []
  sent : List (Int × List UInt8) := []
  built : List Int32 := []

namespace ServFiles

variable {Handle : Text → Type} (s : ServFiles Handle)

def clearFiles : ServFiles Handle :=
  { s with current := .cleared, retired := [], sent := [] }

inductive Place
  | current
  | retired (i : Nat)
deriving DecidableEq, Repr

/-- The list a request reads from. -/
def selectClipFiles (connId : Int) : Option Int32 → Option Place
  | some id =>
    if s.current.id = id then some .current
    else (s.retired.findIdx? fun files => files.id == id && files.servedTo.contains connId).map .retired
  | none =>
    if s.current.servedTo.contains connId then some .current
    else
      match s.retired.findIdx? fun files => files.servedTo.contains connId with
      | some i => some (.retired i)
      | none => some .current

def retireIfServed (replaced : ClipFiles Handle) : List (ClipFiles Handle) :=
  if replaced.servedTo = [] then s.retired
  else
    replaced.releaseHandles ::
      if s.retired.length = MAX_RETIRED_CLIP_FILES then s.retired.dropLast else s.retired

def syncFiles (disk : Disk Handle) (files : List Text) (nonce : Vector UInt8 16) :
    Except CliprdrError Unit × ServFiles Handle :=
  let current := files.map disk.fingerprint
  if s.current.files = files ∧ s.current.sigs = current ∧ !current.any FileSig.isDir then (.ok (), s)
  else
    match ({} : ClipFiles Handle).syncFiles disk files current with
    | .error error => (.error error, s)
    | .ok next =>
      match next.buildPdu nonce with
      | .error error => (.error error, s)
      | .ok next =>
        (.ok (), { s with current := next, retired := s.retireIfServed s.current, built := next.id :: s.built })

def getFileListPdu (connId : Int) : List UInt8 × ServFiles Handle :=
  if s.current.filesPdu = [] then (s.current.filesPdu, s)
  else
    (s.current.filesPdu, { s with
      current := { s.current with
        servedTo :=
          if s.current.servedTo.contains connId then s.current.servedTo else s.current.servedTo ++ [connId] }
      sent := (connId, s.current.filesPdu) :: s.sent })

/-- The request in the fields of a message, which carry unsigned numbers as `i32`. -/
def fileContentsRequest (streamId listIndex dwFlags nPositionLow nPositionHigh cbRequested : Int) :
    Except CliprdrError FileContentsRequest :=
  let fileIdx := (listIndex % 2 ^ 64).toNat
  if dwFlags = 0x1 then .ok (.size streamId fileIdx)
  else if dwFlags = 0x2 then
    let offset := (nPositionHigh % 2 ^ 32).toNat * 2 ^ 32 + (nPositionLow % 2 ^ 32).toNat
    .ok (.range streamId fileIdx offset (cbRequested % 2 ^ 32).toNat)
  else .error (.invalidRequest s!"got invalid FileContentsRequest, dw_flats: {dwFlags}")

def debugId : Option Int32 → String
  | some id => "Some(" ++ toString id ++ ")"
  | none => "None"

def notAvailableError (connId : Int) (clipDataId : Option Int32) : CliprdrError :=
  .invalidRequest ("file list " ++ debugId clipDataId ++ " is not available to conn: " ++ toString connId)

/-- The answers to a request, from the list that was selected for it. -/
def readSelected (disk : Disk Handle) (connId : Int) (request : FileContentsRequest) :
    Place → List (Except CliprdrError ClipboardFile) × ServFiles Handle
  | .current =>
    let answered := s.current.answer disk connId request
    (answered.2, { s with current := answered.1 })
  | .retired i =>
    match s.retired[i]? with
    | none => ([], s)
    | some clip =>
      match clip.checkRetiredFile disk request with
      | (clip, .error error) => ([.error error], { s with retired := s.retired.set i clip })
      | (clip, .ok ()) =>
        let answered := clip.answer disk connId request
        (answered.2, { s with retired := s.retired.set i answered.1 })

def readRequest (disk : Disk Handle) (connId : Int) (clipDataId : Option Int32) (request : FileContentsRequest) :
    List (Except CliprdrError ClipboardFile) × ServFiles Handle :=
  match s.selectClipFiles connId clipDataId with
  | none => ([.error (notAvailableError connId clipDataId)], s)
  | some place => s.readSelected disk connId request place

def readFileContents (disk : Disk Handle)
    (connId streamId listIndex dwFlags nPositionLow nPositionHigh cbRequested : Int) (clipDataId : Option Int32) :
    List (Except CliprdrError ClipboardFile) × ServFiles Handle :=
  match fileContentsRequest streamId listIndex dwFlags nPositionLow nPositionHigh cbRequested with
  | .error error => ([.error error], s)
  | .ok request => s.readRequest disk connId clipDataId request

inductive Event (Handle : Text → Type)
  | syncFiles (disk : Disk Handle) (files : List Text) (nonce : Vector UInt8 16)
  | getFileListPdu (connId : Int)
  | clearFiles
  | readFileContents (disk : Disk Handle)
      (connId streamId listIndex dwFlags nPositionLow nPositionHigh cbRequested : Int) (clipDataId : Option Int32)

def step : Event Handle → Option (ServFiles Handle)
  | .syncFiles disk files nonce => some (s.syncFiles disk files nonce).2
  | .getFileListPdu connId => some (s.getFileListPdu connId).2
  | .clearFiles => some s.clearFiles
  | .readFileContents disk connId streamId listIndex dwFlags low high cbRequested clipDataId =>
    some (s.readFileContents disk connId streamId listIndex dwFlags low high cbRequested clipDataId).2

def Init (s : ServFiles Handle) : Prop :=
  s = {}

end ServFiles

end FontisRemote.Clipboard
