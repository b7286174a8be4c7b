import FontisRemote.FileTransfer.Completeness

/-!
# The two paths of a read job

A read job runs in the connection (`create_and_start_read_job`, `handle_read_jobs`) or, on Windows, in
the connection manager, which sends what it reads over its pipe; the connection forwards it to the peer
while the job's id stands in `cm_read_job_ids`, and passes the peer's confirms on. The pipe keeps the
order, so the model hands each message over as it is sent.

The two are meant to look the same to the peer. They do as long as the peer's confirms are about the
file the job is at and say something (`paths_agree`): on its way to the connection manager a confirm
loses its file number, and one that says nothing becomes a confirmation (`confirm_for_another_file`).
-/

namespace FontisRemote.FileTransfer

open FontisRemote.Lib

/-- What the connection manager sends about its read jobs. -/
inductive CmData
  | readJobInitResult (id : Int) (result : Except String (Text × List FileEntry))
  | fileDigestFromCm (id fileNum : Int) (lastModified fileSize : Nat) (isResume : Bool)
  | fileBlockFromCm (id fileNum : Int) (data : Bytes) (compressed : Bool)
  | fileReadDone (id fileNum : Int)
  | fileReadError (id fileNum : Int) (err : String)

/-- A request of the peer for the files below a path, with the list `new_read` makes of it. -/
structure SendRequest where
  id : Int
  path : Text
  fileNum : Int
  files : List FileEntry
  overwriteDetection : Bool

/-- `new_read`, for a job of type `Generic`. -/
def SendRequest.newRead {H : Type} (q : SendRequest) : TransferJob H where
  id := q.id
  type := .generic
  dataSource := .filePath q.path
  isLastJob := false
  isResume := false
  fileNum := q.fileNum
  files := q.files
  dataStream := none
  totalSize := (q.files.map (·.size)).sum
  finishedSize := 0
  transferred := 0
  enableOverwriteDetection := q.overwriteDetection
  fileConfirmed := false
  fileSkipped := false
  fileIsWaiting := false
  defaultOverwriteStrategy := none
  digest := ⟨0, 0⟩

def checkFileCountLimit (maxFiles fileCount : Nat) : Except String Unit :=
  if fileCount > maxFiles then
    .error ("file transfer rejected: too many files (" ++ toString fileCount ++ " files exceeds limit of " ++
      toString maxFiles ++ "). Adjust 'file-transfer-max-files' option to increase limit.")
  else .ok ()

section Paths

variable {W H : Type} (os : Host W H)

/-! ## In the connection -/

/-- The connection's read jobs and what it has sent to the peer. -/
structure ConnPath (W H : Type) where
  readJobs : List (TransferJob H)
  w : W
  sent : List FileMessage

/-- `create_and_start_read_job`, with the file count checked. -/
def ConnPath.createAndStartReadJob (maxFiles : Nat) (q : SendRequest) (w : W) : ConnPath W H :=
  match checkFileCountLimit maxFiles q.files.length with
  | .error msg => ⟨[], w, [.error q.id msg (-1)]⟩
  | .ok () => ⟨[q.newRead], w, [.dir q.id q.path q.files]⟩

/-- Confirm the first job with this id. -/
def confirmJob (r : FileTransferSendConfirmRequest) : List (TransferJob H) → W → List (TransferJob H) × W
  | [], w => ([], w)
  | job :: jobs, w =>
    if job.id = r.id then
      let (job, w) := job.confirm os r w
      (job :: jobs, w)
    else
      let (jobs, w) := confirmJob r jobs w
      (job :: jobs, w)

/-! ## In the connection manager -/

/-- The connection manager's read jobs, the ids the connection expects something for, and what the
connection has sent to the peer. -/
structure CmPath (W H : Type) where
  readJobs : List (TransferJob H)
  w : W
  cmReadJobIds : List Int
  sent : List FileMessage

/-- What the connection forwards of a message, and the ids it keeps: `handle_read_job_init_result`,
`handle_file_digest_from_cm`, `handle_file_block_from_cm`, `handle_file_read_done` and
`handle_file_read_error`. -/
def forward (ids : List Int) : CmData → List FileMessage × List Int
  | .readJobInitResult id result =>
    if id ∈ ids then
      match result with
      | .error err => ([.error id err 0], ids.filter (· ≠ id))
      | .ok (path, entries) => ([.dir id path entries], ids)
    else ([], ids)
  | .fileDigestFromCm id fileNum lastModified fileSize isResume =>
    if id ∈ ids then ([.digest ⟨id, fileNum, lastModified, fileSize, false, isResume⟩], ids) else ([], ids)
  | .fileBlockFromCm id fileNum data compressed =>
    if id ∈ ids then ([.block ⟨id, fileNum, data, compressed⟩], ids) else ([], ids)
  | .fileReadDone id fileNum =>
    if id ∈ ids then ([.done id fileNum], ids.filter (· ≠ id)) else ([], ids)
  | .fileReadError id fileNum err =>
    if id ∈ ids then ([.error id err fileNum], ids.filter (· ≠ id)) else ([], ids)

def forwardAll : List Int → List CmData → List FileMessage × List Int
  | ids, [] => ([], ids)
  | ids, d :: ds =>
    let (msgs, ids) := forward ids d
    let (rest, ids) := forwardAll ids ds
    (msgs ++ rest, ids)

/-- The delegated `ReadFile`: `start_read_job`, and its result at the connection. -/
def CmPath.startReadJob (maxFiles : Nat) (q : SendRequest) (w : W) : CmPath W H :=
  match checkFileCountLimit maxFiles q.files.length with
  | .error msg =>
    let (msgs, ids) := forward [q.id] (.readJobInitResult q.id (.error msg))
    ⟨[], w, ids, msgs⟩
  | .ok () =>
    let (msgs, ids) := forward [q.id] (.readJobInitResult q.id (.ok (q.path, q.files)))
    ⟨[q.newRead], w, ids, msgs⟩

/-- `init_read_job_for_cm`, with what it sends. -/
def initReadJobForCm (job : TransferJob H) (w : W) : Except String Unit × List CmData × TransferJob H × W :=
  match job.initDataStreamForCm os w with
  | (.error err, job, w) => (.error err, [], job, w)
  | (.ok (some (lastModified, fileSize)), job, w) =>
    (.ok (), [.fileDigestFromCm job.id job.fileNum lastModified fileSize job.isResume], job, w)
  | (.ok none, job, w) => (.ok (), [], job, w)

/-- The read of `handle_read_jobs_tick`: what is sent, and the job's id where that ends it. -/
def readJobForCm (job : TransferJob H) (w : W) : List CmData × List Int × TransferJob H × W :=
  match job.read os w with
  | (.error err, job, w) => ([.fileReadError job.id job.fileNum err], [job.id], job, w)
  | (.ok (some block), job, w) =>
    ([.fileBlockFromCm block.id block.fileNum block.data block.compressed], [], job, w)
  | (.ok none, job, w) =>
    if job.jobCompleted then
      match job.jobError with
      | some err => ([.fileReadError job.id job.fileNum err], [job.id], job, w)
      | none => ([.fileReadDone job.id job.fileNum], [job.id], job, w)
    else ([], [], job, w)

/-- The loop of `handle_read_jobs_tick`: a job that cannot be initialized is over and the next one has
its turn. -/
def tickJobs : List (TransferJob H) → W → List CmData × List Int × List (TransferJob H) × W
  | [], w => ([], [], [], w)
  | job :: jobs, w =>
    if job.isLastJob then
      let (data, finished, jobs, w) := tickJobs jobs w
      (data, finished, job :: jobs, w)
    else
      match initReadJobForCm os job w with
      | (.error err, data, job, w) =>
        let (rest, finished, jobs, w) := tickJobs jobs w
        (data ++ .fileReadError job.id job.fileNum err :: rest, job.id :: finished, job :: jobs, w)
      | (.ok (), data, job, w) =>
        let (read, finished, job, w) := readJobForCm os job w
        (data ++ read, finished, job :: jobs, w)

/-- `handle_read_jobs_tick`. -/
def handleReadJobsTick (jobs : List (TransferJob H)) (w : W) : List CmData × List (TransferJob H) × W :=
  let (data, finished, jobs, w) := tickJobs os jobs w
  (data, finished.foldl (fun jobs id => removeJob id jobs) jobs, w)

/-- What `SendConfirmForRead` carries of a confirm: `skip()` and `offset_blk()`. -/
def skipOf : Option ConfirmUnion → Bool
  | some (.skip s) => s
  | _ => false

def offsetBlkOf : Option ConfirmUnion → Nat
  | some (.offsetBlk offset) => offset
  | _ => 0

/-- `SendConfirmForRead` at the connection manager: a new confirm, for the file the job is at. -/
def sendConfirmForRead (id : Int) (skip : Bool) (offsetBlk : Nat) :
    List (TransferJob H) → W → List (TransferJob H) × W
  | [], w => ([], w)
  | job :: jobs, w =>
    if job.id = id then
      let req : FileTransferSendConfirmRequest :=
        ⟨id, job.fileNum, some (if skip then .skip true else .offsetBlk offsetBlk)⟩
      let (job, w) := job.confirm os req w
      (job :: jobs, w)
    else
      let (jobs, w) := sendConfirmForRead id skip offsetBlk jobs w
      (job :: jobs, w)

end Paths

/-! ## Runs -/

inductive PathEvent
  | tick
  | confirm (r : FileTransferSendConfirmRequest)
deriving DecidableEq

section Runs

variable {W H : Type} (os : Host W H)

def ConnPath.step (s : ConnPath W H) : PathEvent → ConnPath W H
  | .tick =>
    let (msgs, jobs, w) := handleReadJobs os s.readJobs s.w
    ⟨jobs, w, s.sent ++ msgs⟩
  | .confirm r =>
    let (jobs, w) := confirmJob os r s.readJobs s.w
    { s with readJobs := jobs, w := w }

def CmPath.step (s : CmPath W H) : PathEvent → CmPath W H
  | .tick =>
    let (data, jobs, w) := handleReadJobsTick os s.readJobs s.w
    let (msgs, ids) := forwardAll s.cmReadJobIds data
    ⟨jobs, w, ids, s.sent ++ msgs⟩
  | .confirm r =>
    if r.id ∈ s.cmReadJobIds then
      let (jobs, w) := sendConfirmForRead os r.id (skipOf r.union) (offsetBlkOf r.union) s.readJobs s.w
      { s with readJobs := jobs, w := w }
    else s

def ConnPath.run (s : ConnPath W H) (es : List PathEvent) : ConnPath W H := es.foldl (ConnPath.step os) s

def CmPath.run (s : CmPath W H) (es : List PathEvent) : CmPath W H := es.foldl (CmPath.step os) s

end Runs

/-! ## What a job keeps -/

/-- The same job, however far it has got. -/
structure SameJob {H : Type} (job job' : TransferJob H) : Prop where
  id : job'.id = job.id
  isLastJob : job'.isLastJob = job.isLastJob

section Keeps

variable {W H : Type} (os : Host W H) (job : TransferJob H) (w : W)

theorem openDataStream_same : SameJob job (job.openDataStream os w).2.1 := by
  unfold TransferJob.openDataStream
  split
  · split
    · exact ⟨rfl, rfl⟩
    · split
      · exact ⟨rfl, rfl⟩
      · split <;> exact ⟨rfl, rfl⟩
  · split <;> exact ⟨rfl, rfl⟩

theorem initDataStream_same : SameJob job (job.initDataStream os w).2.2.1 := by
  have hopen := openDataStream_same os job w
  unfold TransferJob.initDataStream
  generalize job.openDataStream os w = r at hopen ⊢
  obtain ⟨_ | _ | _, job', w'⟩ := r
  · exact hopen
  · dsimp only
    split
    · split
      · exact hopen
      · exact ⟨hopen.id, hopen.isLastJob⟩
    · exact hopen
  · exact hopen

theorem read_same : SameJob job (job.read os w).2.1 := by
  unfold TransferJob.read
  split
  · exact ⟨rfl, rfl⟩
  · split
    · exact ⟨rfl, rfl⟩
    · split
      · exact ⟨rfl, rfl⟩
      · split
        · exact ⟨rfl, rfl⟩
        · dsimp only
          split <;> exact ⟨rfl, rfl⟩

theorem setStreamOffset_same (n : Int) (offset : Nat) : SameJob job (job.setStreamOffset os n offset w).1 := by
  unfold TransferJob.setStreamOffset
  split
  · split
    · exact ⟨rfl, rfl⟩
    · split
      · exact ⟨rfl, rfl⟩
      · split <;> exact ⟨rfl, rfl⟩
  · exact ⟨rfl, rfl⟩

theorem confirm_same (r : FileTransferSendConfirmRequest) : SameJob job (job.confirm os r w).1 := by
  unfold TransferJob.confirm
  split_ifs
  · exact ⟨rfl, rfl⟩
  · split
    · exact ⟨rfl, rfl⟩
    · exact ⟨rfl, rfl⟩
    · next offset _ =>
      dsimp only
      split_ifs
      · have hset := setStreamOffset_same os (job.setFileConfirmed true) w r.fileNum offset
        exact ⟨hset.id, hset.isLastJob⟩
      · exact ⟨rfl, rfl⟩
    · exact ⟨rfl, rfl⟩

end Keeps

/-! ## One event on both paths -/

section Agree

variable {W H : Type} {os : Host W H}

/-- `init_read_job_for_cm` is `init_data_stream`, with its digest sent the other way. -/
theorem initReadJobForCm_eq (os : Host W H) (job : TransferJob H) (w : W) :
    (initReadJobForCm os job w).1 = (job.initDataStream os w).1 ∧
      (initReadJobForCm os job w).2.2 = (job.initDataStream os w).2.2 ∧
      forwardAll [job.id] (initReadJobForCm os job w).2.1 = ((job.initDataStream os w).2.1, [job.id]) := by
  have hsame := openDataStream_same os job w
  unfold initReadJobForCm TransferJob.initDataStreamForCm TransferJob.initDataStream
  generalize job.openDataStream os w = r at hsame ⊢
  obtain ⟨_ | _ | _, job', w'⟩ := r
  · exact ⟨rfl, rfl, rfl⟩
  · by_cases hawaits : job'.awaitsDigest = true
    · simp only [hawaits, if_true]
      rcases job'.getCurrentDigest os w' with _ | ⟨lastModified, fileSize⟩
      · exact ⟨rfl, rfl, rfl⟩
      · refine ⟨rfl, rfl, ?_⟩
        simp [forwardAll, forward, show job'.id = job.id from hsame.id]
    · simp only [hawaits]
      exact ⟨rfl, rfl, rfl⟩
  · exact ⟨rfl, rfl, rfl⟩

/-- The read of one path is that of the other, unless it fails. -/
theorem readJobForCm_eq (job : TransferJob H) (w : W) (hread : ∀ err, (job.read os w).1 ≠ .error err) :
    (readJobForCm os job w).2 = (readJob os job w).2 ∧
      forwardAll [job.id] (readJobForCm os job w).1 =
        ((readJob os job w).1, if (readJob os job w).2.1 = [] then [job.id] else []) := by
  have hid := (read_same os job w).id
  have hblock : ∀ block, (job.read os w).1 = .ok (some block) → block.id = job.id := by
    intro block hblock
    unfold TransferJob.read at hblock
    split_ifs at hblock
    · cases hblock
    · cases hblock
    · split at hblock
      · cases hblock
      · split at hblock
        · cases hblock
        · dsimp only at hblock
          split at hblock
          · cases hblock
          · cases hblock
            rfl
          · cases hblock
            rfl
  unfold readJobForCm readJob
  generalize job.read os w = r at hid hread hblock ⊢
  obtain ⟨err | _ | block, job', w'⟩ := r
  · exact absurd rfl (hread err)
  · replace hid : job'.id = job.id := hid
    dsimp only
    by_cases hc : job'.jobCompleted = true
    · simp only [hc, if_true]
      rcases job'.jobError with _ | err <;> simp [forwardAll, forward, hid]
    · simp [hc, forwardAll]
  · obtain ⟨id, n, data, compressed⟩ := block
    obtain rfl : id = job.id := hblock _ rfl
    simp [forwardAll, forward]

theorem readJob_same (os : Host W H) (job : TransferJob H) (w : W) : SameJob job (readJob os job w).2.2.1 := by
  have hsame := read_same os job w
  unfold readJob
  generalize job.read os w = r at hsame ⊢
  obtain ⟨_ | _ | _, job', w'⟩ := r
  · exact hsame
  · dsimp only
    split
    · split <;> exact hsame
    · exact hsame
  · exact hsame

/-- A read ends its own job or none. -/
theorem readJob_finished (os : Host W H) (job : TransferJob H) (w : W) :
    (readJob os job w).2.1 = [] ∨ (readJob os job w).2.1 = [(readJob os job w).2.2.1.id] := by
  unfold readJob
  rcases job.read os w with ⟨_ | _ | _, job', w'⟩
  · exact .inl rfl
  · dsimp only
    split
    · split <;> exact .inr rfl
    · exact .inl rfl
  · exact .inl rfl

/-- What remains of a job after its read. -/
def leftover (finished : List Int) (job : TransferJob H) : List (TransferJob H) :=
  if finished = [] then [job] else []

theorem removeJobs_leftover {finished : List Int} {job : TransferJob H} (h : finished = [] ∨ finished = [job.id]) :
    finished.foldl (fun jobs id => removeJob id jobs) [job] = leftover finished job := by
  rcases h with rfl | rfl
  · rfl
  · simp [leftover, removeJob]

theorem handleReadJobs_single {job : TransferJob H} {w : W} (hlast : job.isLastJob = false)
    (hinit : ∀ err, (job.initDataStream os w).1 ≠ .error err) :
    handleReadJobs os [job] w =
      let i := job.initDataStream os w
      let r := readJob os i.2.2.1 i.2.2.2
      (i.2.1 ++ r.1, leftover r.2.1 r.2.2.1, r.2.2.2) := by
  have hsame := (initDataStream_same os job w).isLastJob
  unfold handleReadJobs
  simp only [initJobs, hlast]
  generalize job.initDataStream os w = i at hinit hsame ⊢
  obtain ⟨err | _, msgs, job', w'⟩ := i
  · exact absurd rfl (hinit err)
  · replace hsame : job'.isLastJob = false := hsame.trans hlast
    have hleft := removeJobs_leftover (readJob_finished os job' w')
    simp [readFirst, hsame, hleft]

theorem handleReadJobsTick_single {job : TransferJob H} {w : W} (hlast : job.isLastJob = false)
    (hinit : ∀ err, (job.initDataStream os w).1 ≠ .error err)
    (hread : ∀ err, ((job.initDataStream os w).2.2.1.read os (job.initDataStream os w).2.2.2).1 ≠ .error err) :
    handleReadJobsTick os [job] w =
      let i := job.initDataStream os w
      let r := readJob os i.2.2.1 i.2.2.2
      ((initReadJobForCm os job w).2.1 ++ (readJobForCm os i.2.2.1 i.2.2.2).1, leftover r.2.1 r.2.2.1, r.2.2.2) := by
  obtain ⟨hres, hstate, -⟩ := initReadJobForCm_eq os job w
  have hsame := (initDataStream_same os job w).isLastJob
  unfold handleReadJobsTick
  simp only [tickJobs, hlast]
  generalize initReadJobForCm os job w = cm at hres hstate ⊢
  generalize job.initDataStream os w = i at hinit hread hres hstate hsame ⊢
  obtain ⟨cres, data, cjob, cw⟩ := cm
  obtain ⟨err | _, msgs, job', w'⟩ := i
  · exact absurd rfl (hinit err)
  · cases hres
    cases hstate
    have hleft := removeJobs_leftover (readJob_finished os cjob cw)
    have heq := (readJobForCm_eq cjob cw hread).1
    simp [heq, hleft]

theorem forwardAll_append (ids : List Int) (a b : List CmData) :
    forwardAll ids (a ++ b) =
      ((forwardAll ids a).1 ++ (forwardAll (forwardAll ids a).2 b).1, (forwardAll (forwardAll ids a).2 b).2) := by
  induction a generalizing ids with
  | nil => rfl
  | cons d ds ih => simp [forwardAll, ih]

/-- Where the two paths stand at the same point: with the same job, or both with none. -/
structure Abreast (id : Int) (c : ConnPath W H) (m : CmPath W H) : Prop where
  jobs : m.readJobs = c.readJobs
  w : m.w = c.w
  sent : m.sent = c.sent
  ids : (∃ job, c.readJobs = [job] ∧ job.id = id ∧ job.isLastJob = false ∧ m.cmReadJobIds = [id]) ∨
    c.readJobs = [] ∧ m.cmReadJobIds = []

/-- Nothing the jobs do in this tick fails. -/
def ConnPath.Reads (os : Host W H) (c : ConnPath W H) : Prop :=
  ∀ job ∈ c.readJobs, (∀ err, (job.initDataStream os c.w).1 ≠ .error err) ∧
    ∀ err, ((job.initDataStream os c.w).2.2.1.read os (job.initDataStream os c.w).2.2.2).1 ≠ .error err

/-- The confirm is about the file its job is at, and says something. -/
def ConnPath.Current (c : ConnPath W H) (r : FileTransferSendConfirmRequest) : Prop :=
  ∀ job ∈ c.readJobs, job.id = r.id → r.fileNum = job.fileNum ∧ r.union ≠ none

theorem Abreast.tick {id : Int} {c : ConnPath W H} {m : CmPath W H} (h : Abreast id c m) (hreads : c.Reads os) :
    Abreast id (c.step os .tick) (m.step os .tick) := by
  obtain ⟨hjobs, hw, hsent, hids⟩ := h
  obtain ⟨mjobs, mw, mids, msent⟩ := m
  obtain ⟨cjobs, cw, csent⟩ := c
  dsimp only at hjobs hw hsent hids
  subst hjobs hw hsent
  rcases hids with ⟨job, rfl, rfl, hlast, rfl⟩ | ⟨rfl, rfl⟩
  · obtain ⟨hinit, hread⟩ := hreads job (List.mem_singleton_self job)
    have hid := (initDataStream_same os job mw).id
    have hlast' := (initDataStream_same os job mw).isLastJob
    have hforward := (initReadJobForCm_eq os job mw).2.2
    simp only [ConnPath.step, CmPath.step, handleReadJobs_single hlast hinit,
      handleReadJobsTick_single hlast hinit hread, forwardAll_append, hforward]
    generalize job.initDataStream os mw = i at hinit hread hid hlast' ⊢
    obtain ⟨res, msgs, job', w'⟩ := i
    replace hid : job'.id = job.id := hid
    obtain ⟨-, hboth⟩ := readJobForCm_eq job' w' hread
    rw [hid] at hboth
    simp only [hboth]
    refine ⟨rfl, rfl, rfl, ?_⟩
    have hfinal := readJob_same os job' w'
    by_cases hfin : (readJob os job' w').2.1 = []
    · refine .inl ⟨(readJob os job' w').2.2.1, by simp only [leftover, hfin, if_true], ?_, ?_,
        by simp only [hfin, if_true]⟩
      · rw [hfinal.id, hid]
      · rw [hfinal.isLastJob]
        exact hlast'.trans hlast
    · exact .inr ⟨by simp only [leftover, hfin, if_false], by simp only [hfin, if_false]⟩
  · refine ⟨rfl, rfl, ?_, .inr ⟨rfl, rfl⟩⟩
    rfl

/-- A confirm for the current file does the same when it has been taken apart and put together. -/
theorem confirm_repackaged (job : TransferJob H) (w : W) {r : FileTransferSendConfirmRequest}
    (hnum : r.fileNum = job.fileNum) (hunion : r.union ≠ none) :
    job.confirm os ⟨r.id, job.fileNum, some (if skipOf r.union then .skip true else .offsetBlk (offsetBlkOf r.union))⟩ w =
      job.confirm os r w := by
  obtain ⟨id, n, u⟩ := r
  dsimp only at hnum hunion
  subst hnum
  rcases u with _ | ⟨_ | _⟩ | offset
  · exact absurd rfl hunion
  · simp [TransferJob.confirm, skipOf, offsetBlkOf]
  · simp [TransferJob.confirm, skipOf]
  · simp [TransferJob.confirm, skipOf, offsetBlkOf]

theorem Abreast.confirm {id : Int} {c : ConnPath W H} {m : CmPath W H} (h : Abreast id c m)
    {r : FileTransferSendConfirmRequest} (hcurrent : c.Current r) :
    Abreast id (c.step os (.confirm r)) (m.step os (.confirm r)) := by
  obtain ⟨hjobs, hw, hsent, hids⟩ := h
  obtain ⟨mjobs, mw, mids, msent⟩ := m
  obtain ⟨cjobs, cw, csent⟩ := c
  dsimp only at hjobs hw hsent hids
  subst hjobs hw hsent
  rcases hids with ⟨job, rfl, rfl, hlast, rfl⟩ | ⟨rfl, rfl⟩
  · by_cases hid : job.id = r.id
    · obtain ⟨hnum, hunion⟩ := hcurrent job (List.mem_singleton_self job) hid
      have hsame := confirm_same os job mw r
      simp only [ConnPath.step, CmPath.step, confirmJob, sendConfirmForRead, hid, List.mem_singleton, if_true,
        confirm_repackaged job mw hnum hunion]
      exact ⟨rfl, rfl, rfl, .inl ⟨_, rfl, hsame.id.trans hid, hsame.isLastJob.trans hlast, rfl⟩⟩
    · simp only [ConnPath.step, CmPath.step, confirmJob, hid, List.mem_singleton, Ne.symm hid, if_false]
      exact ⟨rfl, rfl, rfl, .inl ⟨job, rfl, rfl, hlast, rfl⟩⟩
  · exact ⟨rfl, rfl, rfl, .inr ⟨rfl, rfl⟩⟩

/-- No tick of the events meets a read error. -/
def ConnPath.ReadsAll (os : Host W H) : ConnPath W H → List PathEvent → Prop
  | _, [] => True
  | c, .tick :: es => c.Reads os ∧ ReadsAll os (c.step os .tick) es
  | c, .confirm r :: es => ReadsAll os (c.step os (.confirm r)) es

/-- Every confirm of the events is about the file its job is at then, and says something. -/
def ConnPath.ConfirmsCurrent (os : Host W H) : ConnPath W H → List PathEvent → Prop
  | _, [] => True
  | c, .tick :: es => ConfirmsCurrent os (c.step os .tick) es
  | c, .confirm r :: es => c.Current r ∧ ConfirmsCurrent os (c.step os (.confirm r)) es

theorem Abreast.run {id : Int} {c : ConnPath W H} {m : CmPath W H} (h : Abreast id c m) {es : List PathEvent}
    (hreads : c.ReadsAll os es) (hconfirms : c.ConfirmsCurrent os es) :
    Abreast id (c.run os es) (m.run os es) := by
  induction es generalizing c m with
  | nil => exact h
  | cons e es ih =>
    cases e with
    | tick => exact ih (h.tick hreads.1) hreads.2 hconfirms
    | confirm r => exact ih (h.confirm hconfirms.1) hreads hconfirms.2

/-- For every list of files within the limit on their number and every sequence of ticks without read
errors and of confirms, each for the file its job is at and with its union set, the peer gets the same
messages on both paths. -/
theorem paths_agree {maxFiles : Nat} {q : SendRequest} {w : W} {es : List PathEvent}
    (hfiles : q.files.length ≤ maxFiles)
    (hreads : (ConnPath.createAndStartReadJob maxFiles q w : ConnPath W H).ReadsAll os es)
    (hconfirms : (ConnPath.createAndStartReadJob maxFiles q w : ConnPath W H).ConfirmsCurrent os es) :
    ((CmPath.startReadJob maxFiles q w : CmPath W H).run os es).sent =
      ((ConnPath.createAndStartReadJob maxFiles q w : ConnPath W H).run os es).sent := by
  have hcheck : checkFileCountLimit maxFiles q.files.length = .ok () := by
    simp [checkFileCountLimit, Nat.not_lt.2 hfiles]
  have hstart : Abreast q.id (ConnPath.createAndStartReadJob maxFiles q w : ConnPath W H)
      (CmPath.startReadJob maxFiles q w) := by
    simp only [ConnPath.createAndStartReadJob, CmPath.startReadJob, hcheck, forward, List.mem_singleton, if_true]
    exact ⟨rfl, rfl, rfl, .inl ⟨q.newRead, rfl, rfl, rfl, rfl⟩⟩
  exact (hstart.run hreads hconfirms).sent

end Agree

/-! ## A request for two empty files -/

namespace Gone

/-- A request for the files `b` and `c` of `/s`. -/
def request : SendRequest := ⟨1, ['/', 's'], 0, [⟨['b'], 0, 0⟩, ⟨['c'], 0, 0⟩], true⟩

def connection : ConnPath Disk Handle := .createAndStartReadJob 10 request disk

def manager : CmPath Disk Handle := .startReadJob 10 request disk

end Gone

open Gone in
/-- The first file is offered, confirmed and read. -/
theorem paths_agree_first_file :
    (manager.run (Disk.host codec {}) [.tick, .confirm ⟨1, 0, some (.offsetBlk 0)⟩, .tick]).sent =
        [.dir 1 ['/', 's'] request.files, .digest ⟨1, 0, 0, 0, false, false⟩, .block ⟨1, 0, [], false⟩] ∧
      (manager.run (Disk.host codec {}) [.tick, .confirm ⟨1, 0, some (.offsetBlk 0)⟩, .tick]).sent =
        (connection.run (Disk.host codec {}) [.tick, .confirm ⟨1, 0, some (.offsetBlk 0)⟩, .tick]).sent := by
  refine ⟨rfl, paths_agree (by decide) ⟨?_, ?_, trivial⟩ ⟨?_, trivial⟩⟩
  · intro job hjob
    obtain rfl := List.mem_singleton.1 hjob
    exact ⟨nofun, nofun⟩
  · intro job hjob
    obtain rfl := List.mem_singleton.1 hjob
    exact ⟨nofun, nofun⟩
  · intro job hjob _
    obtain rfl := List.mem_singleton.1 hjob
    exact ⟨rfl, nofun⟩

open Gone in
/-- While the first file waits, a confirm for the second comes in. The connection ignores it; the
connection manager takes it for the first and sends that. -/
theorem confirm_for_another_file :
    (connection.run (Disk.host codec {}) [.tick, .confirm ⟨1, 1, some (.offsetBlk 0)⟩, .tick]).sent =
        [.dir 1 ['/', 's'] request.files, .digest ⟨1, 0, 0, 0, false, false⟩] ∧
      (manager.run (Disk.host codec {}) [.tick, .confirm ⟨1, 1, some (.offsetBlk 0)⟩, .tick]).sent =
        [.dir 1 ['/', 's'] request.files, .digest ⟨1, 0, 0, 0, false, false⟩, .block ⟨1, 0, [], false⟩] ∧
      (connection.run (Disk.host codec {}) [.tick, .confirm ⟨1, 1, some (.offsetBlk 0)⟩, .tick]).sent ≠
        (manager.run (Disk.host codec {}) [.tick, .confirm ⟨1, 1, some (.offsetBlk 0)⟩, .tick]).sent := by
  refine ⟨rfl, rfl, fun heq => ?_⟩
  have hlen := congrArg List.length heq
  exact absurd hlen (by decide)

end FontisRemote.FileTransfer
