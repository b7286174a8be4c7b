import FontisRemote.Lib.FileSystem
import FontisRemote.FileTransfer.Job

/-!
# Transfer jobs: the writing side

What a job that receives files does: take the list of files the peer sent, and write its blocks. A file
is written to `NAME.download`, with `NAME.digest` beside it, and moved to its name by `modify_time`,
which runs when the next file begins, when a block comes and no file is open, and at the end.
-/

namespace FontisRemote.FileTransfer

open FontisRemote.Lib

/-- Write all of the bytes to a stream, where it stands. -/
def DataStream.writeAll {W H : Type} (os : Host W H) (bytes : Bytes) (w : W) :
    DataStream H → Except String Unit × DataStream H × W
  | .fileStream file =>
    let (res, file, w) := os.writeAll file bytes w
    (res, .fileStream file, w)
  | .bufStream data pos => (.ok (), .bufStream (overwrite data pos bytes) (pos + bytes.length), w)

namespace TransferJob

variable {W H : Type}

def newWrite (id : Int) (type : JobType) (dataSource : DataSource) (fileNum : Int)
    (enableOverwriteDetection : Bool) : TransferJob H where
  id := id
  type := type
  dataSource := dataSource
  isLastJob := false
  isResume := false
  fileNum := fileNum
  files := []
  dataStream := none
  totalSize := 0
  finishedSize := 0
  transferred := 0
  enableOverwriteDetection := enableOverwriteDetection
  fileConfirmed := false
  fileSkipped := false
  fileIsWaiting := false
  defaultOverwriteStrategy := none
  digest := ⟨0, 0⟩

variable (os : Host W H) (job : TransferJob H)

def setDigest (size modified : Nat) : TransferJob H := { job with digest := ⟨size, modified⟩ }

/-- The list of files, if every name in it passes. -/
def setFiles (files : List FileEntry) (w : W) : Except String Unit × TransferJob H :=
  match validateTransferFileNames os.win files with
  | .error err => (.error err, job)
  | .ok () =>
    let checked := match job.dataSource with
      | .filePath base => validateNoSymlinks os.win (os.lstat · w) base files
      | .memoryCursor _ => .ok ()
    match checked with
    | .error err => (.error err, job)
    | .ok () => (.ok (), { job with totalSize := (files.map (·.size)).sum, files := files })

/-- The path of the file the job is at, for a job that keeps side files. -/
def currentPath (w : W) : Option (Text × FileEntry) :=
  match job.type, job.dataSource, entryAt job.files job.fileNum with
  | .generic, .filePath p, some entry => (job.resolveEntryPath os w p entry.name).map fun path => (path, entry)
  | _, _, _ => none

/-- Move the download of the current file to its name. What fails here is ignored. -/
def modifyTime (w : W) : W :=
  match job.currentPath os w with
  | none => w
  | some (path, entry) =>
    let (_, w) := os.removeFile (path ++ suffixDigest) w
    let w := os.rename (path ++ suffixDownload) path w
    os.setFileMtime path entry.modifiedTime w

def removeDownloadFile (w : W) : W :=
  match job.currentPath os w with
  | none => w
  | some (path, _) =>
    let (_, w) := os.removeFile (path ++ suffixDownload) w
    let (_, w) := os.removeFile (path ++ suffixDigest) w
    w

/-- Remove a digest file that is there. -/
def removeDigest (path : Text) (w : W) : Except String Unit × W :=
  if os.pathExists (path ++ suffixDigest) w then os.removeFile (path ++ suffixDigest) w else (.ok (), w)

/-- Make the directory a path is in. -/
def createParent (path : Text) (w : W) : W :=
  match parent os.win path with
  | some pp => os.createDirAll pp w
  | none => w

/-- Make the file that the blocks of an entry go to. On an error the stream stays as it was. -/
def createStream (p : Text) (entry : FileEntry) (w : W) : Except String Unit × TransferJob H × W :=
  match job.type with
  | .printer =>
    match os.create p w with
    | (.error err, w) => (.error err, job, w)
    | (.ok file, w) => (.ok (), { job with dataStream := some (.fileStream file) }, w)
  | .generic =>
    match joinValidatedPath os.win (os.lstat · w) p entry.name with
    | .error err => (.error err, job, w)
    | .ok path =>
      match removeDigest os path (createParent os path w) with
      | (.error err, w) => (.error err, job, w)
      | (.ok (), w) =>
        match os.create (path ++ suffixDownload) w with
        | (.error err, w) => (.error err, job, w)
        | (.ok file, w) =>
          (.ok (), { job with dataStream := some (.fileStream file) },
            os.writeDigest (path ++ suffixDigest) job.digest w)

/-- Have the open file written out. -/
def syncStream (w : W) : Except String Unit × W :=
  match job.dataStream with
  | some (.fileStream file) => os.syncAll file w
  | _ => (.ok (), w)

/-- Begin the entry of a block: what came before is moved to its name. -/
def beginEntry (p : Text) (fileNum : Int) (entry : FileEntry) (w : W) : Except String Unit × TransferJob H × W :=
  match job.syncStream os (job.modifyTime os w) with
  | (.error err, w) => (.error err, job, w)
  | (.ok (), w) => createStream os { job with fileNum := fileNum } p entry w

/-- The stream a block goes to. -/
def writeStream (block : FileTransferBlock) (w : W) : Except String Unit × TransferJob H × W :=
  match job.dataSource with
  | .filePath p =>
    match entryAt job.files block.fileNum with
    | none => (.error "Wrong file number", job, w)
    | some entry =>
      if block.fileNum ≠ job.fileNum ∨ job.dataStream.isNone then
        job.beginEntry os p block.fileNum entry w
      else (.ok (), job, w)
  | .memoryCursor data =>
    match job.dataStream with
    | some _ => (.ok (), job, w)
    | none => (.ok (), { job with dataStream := some (.bufStream data 0) }, w)

/-- Write the bytes of a block. -/
def writeBlock (block : FileTransferBlock) (w : W) : Except String Unit × TransferJob H × W :=
  let bytes := if block.compressed then os.decompress block.data else block.data
  match job.dataStream with
  | none => (.error (if block.compressed then "data stream is None" else "file is None"), job, w)
  | some stream =>
    match stream.writeAll os bytes w with
    | (.error err, stream, w) => (.error err, { job with dataStream := some stream }, w)
    | (.ok (), stream, w) =>
      (.ok (),
        { job with
          dataStream := some stream
          finishedSize := job.finishedSize + bytes.length
          transferred := job.transferred + block.data.length }, w)

/-- `TransferJob::write`. -/
def write (block : FileTransferBlock) (w : W) : Except String Unit × TransferJob H × W :=
  if block.id ≠ job.id then (.error "Wrong id", job, w)
  else
    match job.writeStream os block w with
    | (.error err, job, w) => (.error err, job, w)
    | (.ok (), job, w) => job.writeBlock os block w

end TransferJob

end FontisRemote.FileTransfer
