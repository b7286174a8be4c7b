import FontisRemote.FileTransfer.Path

/-!
# Transfer jobs: the reading side

`TransferJob` and what a job that sends files does with it: open the current file, offer its digest,
read it block by block, and take the peer's confirms. The operations of the file system are those of
a `Host`, over the state `W` of the machine and its open files `H`; a host may fail at any call.

`init_jobs` and `handle_read_jobs` run the jobs of a connection, one read a tick.
-/

namespace FontisRemote.FileTransfer

abbrev Bytes := List UInt8

structure FileDigest where
  size : Nat
  modified : Nat
deriving DecidableEq, Repr

/-- What jobs use of the machine: its file operations, and the compression library. -/
structure Host (W H : Type) where
  win : Bool
  compress : Bytes → Bytes
  decompress : Bytes → Bytes
  /-- `File::open`. -/
  openFile : Text → W → Except String H × W
  /-- A `read` into a buffer of this length. -/
  read : H → Nat → W → Except String Bytes × H × W
  /-- The seconds of `metadata().modified()` and the length. -/
  metadata : H → W → Except String (Nat × Nat)
  pathExists : Text → W → Bool
  lstat : Text → W → LStat
  /-- `OpenOptions` with `create` and `write`. -/
  openWrite : Text → W → Except String H × W
  /-- `File::create`. -/
  create : Text → W → Except String H × W
  /-- `seek(SeekFrom::Start(_))`. -/
  seek : H → Nat → W → Except String H × W
  writeAll : H → Bytes → W → Except String Unit × H × W
  syncAll : H → W → Except String Unit × W
  rename : Text → Text → W → W
  removeFile : Text → W → Except String Unit × W
  createDirAll : List Component → W → W
  setFileMtime : Text → Nat → W → W
  /-- `std::fs::write` of a digest. -/
  writeDigest : Text → FileDigest → W → W
  /-- The digest in a file, where it can be read and parsed. -/
  readDigest : Text → W → Option FileDigest
  isFile : Text → W → Bool
  /-- The time of modification in seconds and nanoseconds, and the length. -/
  stat : Text → W → Except String (Nat × Nat × Nat)

inductive JobType
  | generic
  | printer
deriving DecidableEq, Repr

inductive DataSource
  | filePath (p : Text)
  | memoryCursor (data : Bytes)
deriving DecidableEq, Repr

/-- An open file, or the buffered cursor over a print job's bytes and its position. -/
inductive DataStream (H : Type)
  | fileStream (file : H)
  | bufStream (data : Bytes) (pos : Nat)

structure TransferJob (H : Type) where
  id : Int
  type : JobType
  dataSource : DataSource
  isLastJob : Bool
  isResume : Bool
  fileNum : Int
  files : List FileEntry
  dataStream : Option (DataStream H)
  totalSize : Nat
  finishedSize : Nat
  transferred : Nat
  enableOverwriteDetection : Bool
  fileConfirmed : Bool
  fileSkipped : Bool
  fileIsWaiting : Bool
  defaultOverwriteStrategy : Option Bool
  digest : FileDigest

structure FileTransferBlock where
  id : Int
  fileNum : Int
  data : Bytes
  compressed : Bool
deriving DecidableEq, Repr

inductive ConfirmUnion
  | skip (s : Bool)
  | offsetBlk (offset : Nat)
deriving DecidableEq, Repr

structure FileTransferSendConfirmRequest where
  id : Int
  fileNum : Int
  union : Option ConfirmUnion
deriving DecidableEq, Repr

structure FileTransferDigest where
  id : Int
  fileNum : Int
  lastModified : Nat
  fileSize : Nat
  isUpload : Bool
  isResume : Bool
deriving DecidableEq, Repr

/-- What a job has sent to the peer. -/
inductive FileMessage
  | dir (id : Int) (path : Text) (entries : List FileEntry)
  | digest (digest : FileTransferDigest)
  | block (block : FileTransferBlock)
  | done (id : Int) (fileNum : Int)
  | error (id : Int) (error : String) (fileNum : Int)
deriving DecidableEq

/-- The entry a file number stands for. A negative number is cast to an index beyond any list. -/
def entryAt (files : List FileEntry) (fileNum : Int) : Option FileEntry :=
  if 0 ≤ fileNum then files[fileNum.toNat]? else none

def BUF_SIZE : Nat := 128 * 1024

/-- The extension of a name, all of it where there is no dot. -/
def getExt (name : Text) : Text :=
  if '.' ∈ name then (name.reverse.takeWhile (· ≠ '.')).reverse else []

def compressedExts : List Text :=
  [['x', 'z'], ['g', 'z'], ['z', 'i', 'p'], ['7', 'z'], ['r', 'a', 'r'], ['b', 'z', '2'], ['t', 'g', 'z'],
    ['p', 'n', 'g'], ['j', 'p', 'g']]

def isCompressedFile (name : Text) : Bool := getExt name ∈ compressedExts

def suffixDownload : Text := ['.', 'd', 'o', 'w', 'n', 'l', 'o', 'a', 'd']

def suffixDigest : Text := ['.', 'd', 'i', 'g', 'e', 's', 't']

/-- One `read` of a stream into a buffer with this much room. -/
def DataStream.read {W H : Type} (os : Host W H) (room : Nat) (w : W) :
    DataStream H → Except String Bytes × DataStream H × W
  | .fileStream file =>
    let (res, file, w) := os.read file room w
    (res.map (·.take room), .fileStream file, w)
  | .bufStream data pos =>
    let bytes := (data.drop pos).take room
    (.ok bytes, .bufStream data (pos + bytes.length), w)

/-- The loop of `TransferJob::read`: fill the buffer, or get to the end of the file. A round that goes
on has read something, so there are no more rounds than bytes in the buffer. -/
def DataStream.fill {W H : Type} (os : Host W H) : Nat → Bytes → DataStream H → W →
    Except String Bytes × DataStream H × W
  | 0, buf, stream, w => (.ok buf, stream, w)
  | rounds + 1, buf, stream, w =>
    match stream.read os (BUF_SIZE - buf.length) w with
    | (.error err, stream, w) => (.error err, stream, w)
    | (.ok bytes, stream, w) =>
      if bytes = [] ∨ buf.length + bytes.length = BUF_SIZE then (.ok (buf ++ bytes), stream, w)
      else fill os rounds (buf ++ bytes) stream w

namespace TransferJob

variable {W H : Type} (os : Host W H) (job : TransferJob H)

def setFileConfirmed (b : Bool) : TransferJob H := { job with fileConfirmed := b, fileSkipped := false }

def setFileSkipped : TransferJob H :=
  { job with
    dataStream := none
    fileConfirmed := false
    fileIsWaiting := false
    fileNum := job.fileNum + 1
    fileSkipped := true }

def setFinishedSizeOnResume : TransferJob H :=
  if job.isResume && job.fileNum > 0 then
    { job with finishedSize := ((job.files.take job.fileNum.toNat).map (·.size)).sum }
  else job

def jobSkipped : Bool := job.fileSkipped && job.files.length == 1

def jobCompleted : Bool :=
  !job.enableOverwriteDetection || (!job.fileConfirmed && !job.fileIsWaiting)

def jobError : Option String := if job.jobSkipped then some "skipped" else none

/-- On to the next file, as every path that is done with one does. -/
def advance : TransferJob H :=
  { job with fileNum := job.fileNum + 1, dataStream := none, fileConfirmed := false, fileIsWaiting := false }

/-- Whether the job is done; otherwise the current file is open. -/
def openDataStream (w : W) : Except String Bool × TransferJob H × W :=
  match job.dataSource with
  | .filePath p =>
    match entryAt job.files job.fileNum with
    | none => (.ok true, { job with dataStream := none }, w)
    | some entry =>
      match job.dataStream with
      | some _ => (.ok false, job, w)
      | none =>
        match os.openFile (join os.win p entry.name) w with
        | (.ok file, w) =>
          (.ok false,
            { job with dataStream := some (.fileStream file), fileConfirmed := false, fileIsWaiting := false }, w)
        | (.error err, w) =>
          (.error err,
            { job with fileNum := job.fileNum + 1, fileConfirmed := false, fileIsWaiting := false }, w)
  | .memoryCursor data =>
    match job.dataStream with
    | some _ => (.ok false, job, w)
    | none =>
      (.ok false, { job with dataSource := .memoryCursor [], dataStream := some (.bufStream data 0) }, w)

section

variable {os job} {p : Text} {w : W}

theorem openDataStream_of_none (hp : job.dataSource = .filePath p)
    (he : entryAt job.files job.fileNum = none) :
    job.openDataStream os w = (.ok true, { job with dataStream := none }, w) := by
  unfold openDataStream
  rw [hp, he]

variable {entry : FileEntry} (hp : job.dataSource = .filePath p) (he : entryAt job.files job.fileNum = some entry)

include hp he

theorem openDataStream_of_some {stream : DataStream H} (hs : job.dataStream = some stream) :
    job.openDataStream os w = (.ok false, job, w) := by
  unfold openDataStream
  rw [hp, he, hs]

theorem openDataStream_of_ok (hs : job.dataStream = none) {file : H} {w' : W}
    (ho : os.openFile (join os.win p entry.name) w = (.ok file, w')) :
    job.openDataStream os w = (.ok false,
      { job with dataStream := some (.fileStream file), fileConfirmed := false, fileIsWaiting := false }, w') := by
  unfold openDataStream
  simp only [hp, he, hs, ho]

theorem openDataStream_of_error (hs : job.dataStream = none) {err : String} {w' : W}
    (ho : os.openFile (join os.win p entry.name) w = (.error err, w')) :
    job.openDataStream os w = (.error err,
      { job with fileNum := job.fileNum + 1, fileConfirmed := false, fileIsWaiting := false }, w') := by
  unfold openDataStream
  simp only [hp, he, hs, ho]

end

def getCurrentDigest (w : W) : Except String (Nat × Nat) :=
  match job.dataStream with
  | none => .error "file is None"
  | some (.fileStream file) => os.metadata file w
  | some (.bufStream _ _) => .error "No digest for buf stream"

/-- Whether a digest is due before the file may be read. -/
def awaitsDigest : Bool :=
  job.type == .generic && job.enableOverwriteDetection && !job.fileConfirmed && !job.fileIsWaiting

/-- `init_data_stream_for_cm`: the digest of the current file where it is due. -/
def initDataStreamForCm (w : W) : Except String (Option (Nat × Nat)) × TransferJob H × W :=
  match job.openDataStream os w with
  | (.error err, job, w) => (.error err, job, w)
  | (.ok true, job, w) => (.ok none, job, w)
  | (.ok false, job, w) =>
    if job.awaitsDigest then
      match job.getCurrentDigest os w with
      | .error err => (.error err, job, w)
      | .ok digest => (.ok (some digest), { job with fileIsWaiting := true }, w)
    else (.ok none, job, w)

/-- `init_data_stream`, with the messages it sends. -/
def initDataStream (w : W) : Except String Unit × List FileMessage × TransferJob H × W :=
  match job.openDataStream os w with
  | (.error err, job, w) => (.error err, [], job, w)
  | (.ok true, job, w) => (.ok (), [], job, w)
  | (.ok false, job, w) =>
    if job.awaitsDigest then
      match job.getCurrentDigest os w with
      | .error err => (.error err, [], job, w)
      | .ok (lastModified, fileSize) =>
        (.ok (), [.digest ⟨job.id, job.fileNum, lastModified, fileSize, false, job.isResume⟩],
          { job with fileIsWaiting := true }, w)
    else (.ok (), [], job, w)

/-- The name that decides whether to compress: a single file's is in the path. -/
def blockName : Text :=
  match job.dataSource with
  | .filePath p =>
    match entryAt job.files job.fileNum with
    | none => []
    | some entry =>
      if job.files.length = 1 ∧ entry.name = [] then (fileName os.win p).getD [] else entry.name
  | .memoryCursor _ => []

/-- A block read from the current file, compressed where that makes it smaller. -/
def readBlock (buf : Bytes) : FileTransferBlock × TransferJob H :=
  let small := match job.dataSource with
    | .filePath _ => !isCompressedFile (job.blockName os) && (os.compress buf).length < buf.length
    | .memoryCursor _ => false
  let data := if small then os.compress buf else buf
  (⟨job.id, job.fileNum, data, small⟩,
    { job with finishedSize := job.finishedSize + buf.length, transferred := job.transferred + data.length })

/-- A job over files that is past its last one. -/
def exhausted : Bool :=
  match job.dataSource with
  | .filePath _ => (entryAt job.files job.fileNum).isNone
  | .memoryCursor _ => false

/-- `TransferJob::read`: the next block of the current file; none where there is nothing to read yet,
or no file any more. -/
def read (w : W) : Except String (Option FileTransferBlock) × TransferJob H × W :=
  if job.type = .generic ∧ job.enableOverwriteDetection ∧ !job.fileConfirmed then (.ok none, job, w)
  else if job.exhausted then
    (.ok none, { job with dataStream := none }, w)
  else
    match job.dataStream with
    | none => (.error "data stream is None", job, w)
    | some stream =>
      match stream.fill os (BUF_SIZE + 1) [] w with
      | (.error err, _, w) => (.error err, job.advance, w)
      | (.ok buf, stream, w) =>
        let job := { job with dataStream := some stream }
        match buf, job.dataSource with
        | [], .memoryCursor _ => (.ok none, { job with dataStream := none }, w)
        | [], .filePath _ => (.ok (some ⟨job.id, job.fileNum, [], false⟩), job.advance, w)
        | buf, _ =>
          let (block, job) := job.readBlock os buf
          (.ok (some block), job, w)

def resolveEntryPath (w : W) (base name : Text) : Option Text :=
  match job.type with
  | .generic => (joinValidatedPath os.win (os.lstat · w) base name).toOption
  | .printer => some (join os.win base name)

/-- Open a file for a resumed transfer: for writing where there is a download of it under way, for
reading otherwise. -/
def openForOffset (path : Text) (w : W) : Except String H × W :=
  if os.pathExists (path ++ suffixDownload) w ∧ os.pathExists (path ++ suffixDigest) w then
    os.openWrite (path ++ suffixDownload) w
  else if os.pathExists path w then os.openFile path w
  else (.error "not found", w)

/-- Reopen the file of an entry at an offset. On any failure the stream stays as it was. -/
def setStreamOffset (fileNum : Int) (offset : Nat) (w : W) : TransferJob H × W :=
  match entryAt job.files fileNum, job.dataSource with
  | some entry, .filePath p =>
    match job.resolveEntryPath os w p entry.name with
    | none => (job, w)
    | some path =>
      match openForOffset os path w with
      | (.error _, w) => (job, w)
      | (.ok f, w) =>
        match os.seek f offset w with
        | (.error _, w) => (job, w)
        | (.ok f, w) =>
          ({ job with
              dataStream := some (.fileStream f)
              transferred := job.transferred + offset
              finishedSize := job.finishedSize + offset }, w)
  | _, _ => (job, w)

def confirm (r : FileTransferSendConfirmRequest) (w : W) : TransferJob H × W :=
  if job.fileNum ≠ r.fileNum then (job, w)
  else
    match r.union with
    | some (.skip true) => (job.setFileSkipped, w)
    | some (.skip false) => (job.setFileConfirmed true, w)
    | some (.offsetBlk offset) =>
      let job := job.setFileConfirmed true
      if offset > 0 then job.setStreamOffset os r.fileNum offset w else (job, w)
    | none => (job, w)

end TransferJob

/-! ## The jobs of a connection -/

section Jobs

variable {W H : Type} (os : Host W H)

def removeJob (id : Int) (jobs : List (TransferJob H)) : List (TransferJob H) :=
  jobs.eraseP fun job => job.id == id

/-- `init_jobs`: open a file in every job, with the digests and errors that this sends. -/
def initJobs : List (TransferJob H) → W → List FileMessage × List (TransferJob H) × W
  | [], w => ([], [], w)
  | job :: jobs, w =>
    if job.isLastJob then
      let (msgs, jobs, w) := initJobs jobs w
      (msgs, job :: jobs, w)
    else
      let (res, sent, job, w) := job.initDataStream os w
      let failed := match res with
        | .error err => [.error job.id err job.fileNum]
        | .ok () => []
      let (msgs, jobs, w) := initJobs jobs w
      (sent ++ failed ++ msgs, job :: jobs, w)

/-- What reading a job sends, and its id where that ends it. -/
def readJob (job : TransferJob H) (w : W) : List FileMessage × List Int × TransferJob H × W :=
  match job.read os w with
  | (.error err, job, w) => ([.error job.id err job.fileNum], [], job, w)
  | (.ok (some block), job, w) => ([.block block], [], job, w)
  | (.ok none, job, w) =>
    if job.jobCompleted then
      match job.jobError with
      | some err => ([.error job.id err job.fileNum], [job.id], job, w)
      | none => ([.done job.id job.fileNum], [job.id], job, w)
    else ([], [], job, w)

/-- Read the first job that is not a last one. -/
def readFirst : List (TransferJob H) → W → List FileMessage × List Int × List (TransferJob H) × W
  | [], w => ([], [], [], w)
  | job :: jobs, w =>
    if job.isLastJob then
      let (msgs, finished, jobs, w) := readFirst jobs w
      (msgs, finished, job :: jobs, w)
    else
      let (msgs, finished, job, w) := readJob os job w
      (msgs, finished, job :: jobs, w)

/-- `handle_read_jobs`: one tick, with the messages it sends. -/
def handleReadJobs (jobs : List (TransferJob H)) (w : W) : List FileMessage × List (TransferJob H) × W :=
  let (inits, jobs, w) := initJobs os jobs w
  let (reads, finished, jobs, w) := readFirst os jobs w
  (inits ++ reads, finished.foldl (fun jobs id => removeJob id jobs) jobs, w)

end Jobs

end FontisRemote.FileTransfer
