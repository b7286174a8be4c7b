import FontisRemote.Portable.Meta
import Mathlib.Logic.Function.Basic

/-!
# The extraction

`setup` of `main.rs`: wipe the directory if it is of another build, sweep what an earlier package put there and this one
does not, write the files, note what the package put there, and put the broker of Windows beside them. Errors of the file
system are ignored throughout, so a launch comes with what the file system makes of it (`Outcome`).

The directory is a map from the names that lead to a file. Who put a file there is history, and nothing reads it.
-/

namespace FontisRemote.Portable

open FontisRemote.Lib (encodeUtf8 decodeUtf8)
open FontisRemote.FileTransfer (Component components)

def APP_METADATA_CONFIG : Text := "meta.toml".toList
def WIN_TOPMOST_INJECTED_PROCESS_EXE : Text := "RuntimeBroker_rustdesk.exe".toList

/-- What is outside the packer: brotli, md5 as its hexadecimal digits, the lower case of Unicode, and which names the file
system takes for the same. -/
structure Host where
  decompress : Bytes → Bytes
  md5Hex : Bytes → Bytes
  toLowercase : Text → Text
  canon : Text → Text
  apart : canon WIN_TOPMOST_INJECTED_PROCESS_EXE ≠ canon APP_METADATA_CONFIG

inductive Origin
  | package
  | payload
  | other
deriving DecidableEq, Repr

structure File where
  bytes : Bytes
  origin : Origin
deriving DecidableEq, Repr

abbrev Key := List Text
abbrev Dir := Key → Option File

/-- What comes of `fs::write`: the file cannot be opened, or is left with the bytes written so far. -/
inductive Written
  | done
  | refused
  | cut (left : Bytes)
deriving DecidableEq, Repr

structure Outcome where
  /-- The files that `remove_dir_all` leaves. -/
  survives : Key → Bool
  removed : Key → Bool
  written : Nat → Written
  noted : Written
  /-- `RUNTIME_BROKER_EXE`, if it can be read. -/
  broker : Option Bytes
  /-- The copy of it that is there can be read. -/
  compared : Bool
  copied : Written

def Dir.write (dir : Dir) (key : Key) (file : File) : Written → Dir
  | .done => Function.update dir key (some file)
  | .refused => dir
  | .cut left => Function.update dir key (some { file with bytes := left })

/-- Where the file system finds a path joined to the directory. -/
def walk (at_ : List Text) : List Component → Option (List Text)
  | [] => some at_
  | .normal part :: rest => if ':' ∈ part then none else walk (at_ ++ [part]) rest
  | .curDir :: rest => walk at_ rest
  | .parentDir :: rest => if at_ = [] then none else walk at_.dropLast rest
  | _ :: _ => none

namespace Host

variable (host : Host)

def metaKey : Key := [host.canon APP_METADATA_CONFIG]

def brokerKey : Key := [host.canon WIN_TOPMOST_INJECTED_PROCESS_EXE]

/-- The file that the sweep takes a path for. -/
def key (path : Text) : Option Key := (resolveWithin path).map (List.map host.canon)

/-- The file that is written for a path. -/
def place (path : Text) : Option Key :=
  match walk [] (components true path) with
  | none | some [] => none
  | some names => some (names.map host.canon)

/-- `std::fs::read_to_string(dir.join(APP_METADATA_CONFIG))` -/
def readMeta (dir : Dir) : Option Text := (dir host.metaKey).bind fun file => decodeUtf8 file.bytes

def previousPackageFiles (dir : Dir) : List Text :=
  match host.readMeta dir with
  | none => []
  | some content => packageFilesOf content

/-- `is_timestamp_matches`, with the timestamp of the packer. -/
def isTimestampMatches (appMetadata : Bytes) (dir : Dir) : Bool × Nat :=
  match decodeUtf8 appMetadata with
  | none => (true, 0)
  | some metadata =>
    let ts := (readTimestamp metadata).getD 0
    if ts = 0 then (true, ts)
    else ((host.readMeta dir).bind readTimestamp == some ts, ts)

/-- `remove_dropped_package_files_with`, from the paths that are left. -/
def removeDropped (removed : Key → Bool) (keep : List Text) (dir : Dir) : List Text → Dir × List Text
  | [] => (dir, [])
  | previous :: rest =>
    if keep.contains (normalizePath host.toLowercase previous) then removeDropped removed keep dir rest
    else
      match host.key previous with
      | none => removeDropped removed keep dir rest
      | some key =>
        if (dir key).isSome then
          if removed key then removeDropped removed keep (Function.update dir key none) rest
          else
            let (dir, failed) := removeDropped removed keep dir rest
            (dir, previous :: failed)
        else removeDropped removed keep dir rest

/-- `BinaryData::write_to_file` -/
def writeToFile (dir : Dir) (file : BinaryData) (origin : Origin) (written : Written) : Dir :=
  match host.place file.path with
  | none => dir
  | some key =>
    match dir key with
    | some found =>
      if host.md5Hex found.bytes = file.md5Code then Function.update dir key (some { found with origin })
      else dir.write key ⟨host.decompress file.raw, origin⟩ written
    | none => dir.write key ⟨host.decompress file.raw, origin⟩ written

def writeFiles (packagePaths : List Text) (written : Nat → Written) (dir : Dir) : List BinaryData → Dir
  | [] => dir
  | file :: files =>
    let origin := if packagePaths.contains file.path then .package else .payload
    writeFiles packagePaths (fun n => written (n + 1)) (host.writeToFile dir file origin (written 0)) files

def writeMeta (dir : Dir) (ts : Nat) (packagePaths : List Text) (noted : Written) : Dir :=
  dir.write host.metaKey ⟨encodeUtf8 (metaContent ts packagePaths), .other⟩ noted

/-- `win::copy_runtime_broker` -/
def copyRuntimeBroker (broker : Option Bytes) (compared : Bool) (copied : Written) (dir : Dir) : Dir :=
  match broker with
  | none => dir
  | some bytes =>
    match dir host.brokerKey with
    | none => dir.write host.brokerKey ⟨bytes, .other⟩ copied
    | some found =>
      if compared ∧ host.md5Hex bytes = host.md5Hex found.bytes then dir
      else dir.write host.brokerKey ⟨bytes, .other⟩ copied

/-- The directory that the sweep begins with, and the timestamp that is noted. -/
def wipe (appMetadata : Bytes) (clear : Bool) (survives : Key → Bool) (dir : Dir) : Dir × Nat :=
  let (matches_, ts) := if clear then (false, 0) else host.isTimestampMatches appMetadata dir
  (if matches_ then dir else fun key => if survives key then dir key else none, ts)

def setup (appMetadata : Bytes) (reader : BinaryReader) (clear : Bool) (o : Outcome) (dir : Dir) : Dir :=
  let (dir, ts) := host.wipe appMetadata clear o.survives dir
  let keep := reader.packagePaths.map (normalizePath host.toLowercase)
  let (dir, failed) := host.removeDropped o.removed keep dir (host.previousPackageFiles dir)
  let dir := host.writeFiles reader.packagePaths o.written dir reader.files
  let dir := host.writeMeta dir ts (reader.packagePaths ++ failed) o.noted
  host.copyRuntimeBroker o.broker o.compared o.copied dir

end Host

/-- The image that is launched: the blob compiled in, the resource put in, and the metadata of the build. -/
structure Packer where
  binData : Bytes
  resource : Option Bytes
  appMetadata : Bytes

/-- What befalls the directory. -/
inductive Event
  | launch (packer : Packer) (clear : Bool) (outcome : Outcome)
  /-- What the application, or its user, makes of it. -/
  | activity (dir : Dir)

def step (host : Host) (dir : Dir) : Event → Option Dir
  | .launch packer clear outcome =>
    match BinaryReader.new host.toLowercase packer.binData packer.resource with
    | .error _ => some dir
    | .ok reader => some (host.setup packer.appMetadata reader clear outcome dir)
  | .activity dir' => some dir'

end FontisRemote.Portable
