import FontisRemote.Lib.Run
import FontisRemote.FileTransfer.Disk

/-!
# When a read job is reported as finished

The read jobs of a connection over a whole run: ticks of `handle_read_jobs`, the peer's confirms, jobs
that are added, resumed and cancelled. Beside each job stands what became of its files (`Mark`): read
to the end, skipped by a confirm, or reported in an error message. `Sender.tick_jobs` says that the
jobs in this record are run by `handle_read_jobs` itself, and `Sender.ended_told` that a file marked as
failed is named in an error message it sent.

A job's file number only moves past a file that has its mark (`Sending.Ok`). But `init_jobs` and `read`
run in one call, and a file that could not be opened, or has no digest, leaves the two flags of its job
as the end of the whole list leaves them: the job that is read in that tick is over
(`finished_complete_iff`).
-/

namespace FontisRemote.FileTransfer

open FontisRemote.Lib

/-- What became of a file. -/
inductive Mark
  | eof (fileNum : Int)
  | skipped (fileNum : Int)
  | failed (fileNum : Int)
deriving DecidableEq, Repr

def Mark.fileNum : Mark → Int
  | .eof n | .skipped n | .failed n => n

/-- A job with the file number it was added with and the marks of its files. -/
structure Sending (H : Type) where
  job : TransferJob H
  start : Int
  marks : List Mark

namespace Sending

variable {W H : Type} (os : Host W H) (t : Sending H)

/-- The part of `init_jobs` for one job. An error is sent to the peer. -/
def init (w : W) : Sending H × W :=
  match t.job.initDataStream os w with
  | (.error _, _, job, w) => ({ t with job := job, marks := .failed t.job.fileNum :: t.marks }, w)
  | (.ok (), _, job, w) => ({ t with job := job }, w)

/-- `read`, and whether the job is over. An error is sent to the peer, and so is the empty block at the
end of a file. -/
def read (w : W) : Bool × Sending H × W :=
  match t.job.read os w with
  | (.error _, job, w) => (false, { t with job := job, marks := .failed t.job.fileNum :: t.marks }, w)
  | (.ok (some block), job, w) =>
    if block.data = [] ∧ block.compressed = false then
      (false, { t with job := job, marks := .eof t.job.fileNum :: t.marks }, w)
    else (false, { t with job := job }, w)
  | (.ok none, job, w) => (job.jobCompleted, { t with job := job }, w)

def confirm (r : FileTransferSendConfirmRequest) (w : W) : Sending H × W :=
  let (job, w) := t.job.confirm os r w
  if t.job.fileNum = r.fileNum ∧ r.union = some (.skip true) then
    ({ t with job := job, marks := .skipped t.job.fileNum :: t.marks }, w)
  else ({ t with job := job }, w)

/-- `ResumeJob`: a job of the last session is taken up again. -/
def resume : Sending H :=
  match t.job.dataSource with
  | .filePath _ =>
    { t with job := TransferJob.setFinishedSizeOnResume { t.job with isLastJob := false, isResume := true } }
  | .memoryCursor _ => t

/-- Every file from the one the job was added with has its mark. -/
def Complete : Prop := ∀ i < t.job.files.length, t.start ≤ i → ∃ m ∈ t.marks, m.fileNum = i

end Sending

structure Sender (W H : Type) where
  sendings : List (Sending H)
  w : W

inductive SendEvent (H : Type)
  | add (job : TransferJob H)
  | resume (id : Int)
  | cancel (id : Int)
  | confirm (r : FileTransferSendConfirmRequest)
  | tick

namespace Sender

variable {W H : Type} (os : Host W H)

def initAll : List (Sending H) → W → List (Sending H) × W
  | [], w => ([], w)
  | t :: ts, w =>
    if t.job.isLastJob then
      let (ts, w) := initAll ts w
      (t :: ts, w)
    else
      let (t, w) := t.init os w
      let (ts, w) := initAll ts w
      (t :: ts, w)

/-- Read the first job that is not a last one; the job where that ends it. -/
def readOne : List (Sending H) → W → Option (Sending H) × List (Sending H) × W
  | [], w => (none, [], w)
  | t :: ts, w =>
    if t.job.isLastJob then
      let (ended, ts, w) := readOne ts w
      (ended, t :: ts, w)
    else
      let (ended, t, w) := t.read os w
      (if ended then some t else none, t :: ts, w)

/-- `handle_read_jobs`: the job it reports as finished and what it leaves. -/
def tick (s : Sender W H) : Option (Sending H) × Sender W H :=
  let (ts, w) := initAll os s.sendings s.w
  let (ended, ts, w) := readOne os ts w
  match ended with
  | none => (none, ⟨ts, w⟩)
  | some t => (some t, ⟨ts.eraseP fun t' => t'.job.id == t.job.id, w⟩)

/-- Change the first job with this id, as `get_job` finds it. -/
def modifyJob (id : Int) (f : Sending H → W → Sending H × W) : List (Sending H) → W → List (Sending H) × W
  | [], w => ([], w)
  | t :: ts, w =>
    if t.job.id = id then
      let (t, w) := f t w
      (t :: ts, w)
    else
      let (ts, w) := modifyJob id f ts w
      (t :: ts, w)

/-- A job as `new_read` makes it. -/
def Fresh (job : TransferJob H) : Bool :=
  job.dataStream.isNone && !job.fileConfirmed && !job.fileIsWaiting && !job.fileSkipped

def step (s : Sender W H) : SendEvent H → Option (Sender W H)
  | .add job => if Fresh job then some { s with sendings := s.sendings ++ [⟨job, job.fileNum, []⟩] } else none
  | .resume id =>
    let (ts, w) := modifyJob id (fun t w => (t.resume, w)) s.sendings s.w
    some ⟨ts, w⟩
  | .cancel id => some { s with sendings := s.sendings.eraseP fun t => t.job.id == id }
  | .confirm r =>
    let (ts, w) := modifyJob r.id (fun t w => t.confirm os r w) s.sendings s.w
    some ⟨ts, w⟩
  | .tick => some (s.tick os).2

def Init (s : Sender W H) : Prop := s.sendings = []

/-- The job that a tick reads: the first that is not a last one. -/
def current (s : Sender W H) : Option (Sending H) := s.sendings.find? fun t => !t.job.isLastJob

end Sender

/-! ## The jobs are those of `handle_read_jobs` -/

/-- What is sent when the job is over. -/
def Sending.report {H : Type} (t : Sending H) : FileMessage :=
  match t.job.jobError with
  | some err => .error t.job.id err t.job.fileNum
  | none => .done t.job.id t.job.fileNum

namespace Sender

variable {W H : Type} (os : Host W H)

theorem init_job (t : Sending H) (w : W) :
    (t.job.initDataStream os w).2.2 = ((t.init os w).1.job, (t.init os w).2) := by
  unfold Sending.init
  rcases t.job.initDataStream os w with ⟨_ | _, _, _, _⟩ <;> rfl

theorem initAll_jobs (ts : List (Sending H)) (w : W) :
    (initJobs os (ts.map (·.job)) w).2 = ((initAll os ts w).1.map (·.job), (initAll os ts w).2) := by
  induction ts generalizing w with
  | nil => rfl
  | cons t ts ih =>
    simp only [List.map_cons, initJobs, initAll]
    split_ifs with hlast
    · simp only [ih, List.map_cons]
    · simp only [init_job os t w, ih, List.map_cons]

theorem read_job (t : Sending H) (w : W) :
    (readJob os t.job w).2 = (if (t.read os w).1 then [(t.read os w).2.1.job.id] else [],
        (t.read os w).2.1.job, (t.read os w).2.2) ∧
      ((t.read os w).1 = true → (readJob os t.job w).1 = [(t.read os w).2.1.report]) ∧
      ((t.read os w).1 = false → ∀ id n, FileMessage.done id n ∉ (readJob os t.job w).1) := by
  unfold readJob Sending.read
  rcases t.job.read os w with ⟨_ | _ | block, job, w'⟩
  · simp
  · cases hc : job.jobCompleted with
    | false => simp [hc]
    | true => cases he : job.jobError <;> simp [hc, he, Sending.report]
  · by_cases heof : block.data = [] ∧ block.compressed = false <;> simp [heof]

theorem readOne_jobs (ts : List (Sending H)) (w : W) :
    (readFirst os (ts.map (·.job)) w).2 = (((readOne os ts w).1.map (·.job.id)).toList,
        (readOne os ts w).2.1.map (·.job), (readOne os ts w).2.2) ∧
      (∀ t, (readOne os ts w).1 = some t → (readFirst os (ts.map (·.job)) w).1 = [t.report]) ∧
      ((readOne os ts w).1 = none → ∀ id n, FileMessage.done id n ∉ (readFirst os (ts.map (·.job)) w).1) := by
  induction ts with
  | nil => simp [readFirst, readOne]
  | cons t ts ih =>
    simp only [List.map_cons, readFirst, readOne]
    by_cases hlast : t.job.isLastJob = true
    · simp only [hlast, if_true]
      obtain ⟨h1, h2, h3⟩ := ih
      exact ⟨by simp only [h1, List.map_cons], h2, h3⟩
    · simp only [hlast]
      obtain ⟨h1, h2, h3⟩ := read_job os t w
      cases hover : (t.read os w).1 with
      | true =>
        refine ⟨by simp [h1, hover], fun t' ht' => ?_, fun hnone => by simp at hnone⟩
        obtain rfl : (t.read os w).2.1 = t' := by simpa using ht'
        exact h2 hover
      | false => exact ⟨by simp [h1, hover], fun t' ht' => by simp at ht', fun _ => h3 hover⟩

theorem eraseP_jobs (id : Int) (ts : List (Sending H)) :
    (ts.eraseP fun t => t.job.id == id).map (·.job) = removeJob id (ts.map (·.job)) := by
  rw [removeJob, List.eraseP_map]
  rfl

/-- A tick is a call of `handle_read_jobs`, and reports the job it says is finished. -/
theorem tick_jobs (s : Sender W H) :
    ∃ msgs, handleReadJobs os (s.sendings.map (·.job)) s.w =
        (msgs, (s.tick os).2.sendings.map (·.job), (s.tick os).2.w) ∧
      ∀ t, (s.tick os).1 = some t → t.report ∈ msgs := by
  obtain ⟨h1, h2, -⟩ := readOne_jobs os (initAll os s.sendings s.w).1 (initAll os s.sendings s.w).2
  refine ⟨(handleReadJobs os (s.sendings.map (·.job)) s.w).1, ?_, ?_⟩
  · simp only [handleReadJobs, initAll_jobs, h1, tick]
    cases (readOne os (initAll os s.sendings s.w).1 (initAll os s.sendings s.w).2).1 with
    | none => rfl
    | some t => simp [eraseP_jobs]
  · intro t ht
    simp only [handleReadJobs, initAll_jobs]
    have hover : (readOne os (initAll os s.sendings s.w).1 (initAll os s.sendings s.w).2).1 = some t := by
      simp only [tick] at ht
      split at ht
      · cases ht
      · next hover => rw [hover, ← ht]
    rw [h2 t hover]
    simp

end Sender

/-! ## A file number moves only past a marked file -/

namespace Sending

variable {W H : Type} {os : Host W H} {t t' : Sending H} {w : W}

/-- One call on a job: it stays at its file or goes on to the next, and what it marks is that file. -/
structure Moved (t t' : Sending H) : Prop where
  id : t'.job.id = t.job.id
  start : t'.start = t.start
  files : t'.job.files = t.job.files
  marks : ∃ new, t'.marks = new ++ t.marks ∧ (∀ m ∈ new, m.fileNum = t.job.fileNum) ∧
    (t'.job.fileNum = t.job.fileNum ∨ t'.job.fileNum = t.job.fileNum + 1 ∧ new ≠ [])

/-- Where the job stands: all before it has its mark, nothing after it has. -/
structure Ok (t : Sending H) : Prop where
  start : t.start ≤ t.job.fileNum
  marked : ∀ i, t.start ≤ i → i < t.job.fileNum → ∃ m ∈ t.marks, m.fileNum = i
  bound : ∀ m ∈ t.marks, m.fileNum ≤ t.job.fileNum

theorem Ok.moved (h : t.Ok) (hm : Moved t t') : t'.Ok := by
  obtain ⟨new, hmarks, hnew, hnum⟩ := hm.marks
  have hold : ∀ i, t'.start ≤ i → i < t.job.fileNum → ∃ m ∈ t'.marks, m.fileNum = i := by
    intro i hi hlt
    obtain ⟨m, hmem, hmi⟩ := h.marked i (hm.start ▸ hi) hlt
    exact ⟨m, hmarks ▸ List.mem_append_right _ hmem, hmi⟩
  have hbound : ∀ m ∈ t'.marks, m.fileNum ≤ t.job.fileNum := by
    intro m hmem
    rcases List.mem_append.1 (hmarks ▸ hmem) with hmem | hmem
    · exact (hnew m hmem).le
    · exact h.bound m hmem
  have hstart := h.start
  rcases hnum with hnum | ⟨hnum, hne⟩
  · exact ⟨by rw [hm.start, hnum]; exact hstart, by rwa [hnum], by rwa [hnum]⟩
  · refine ⟨by rw [hm.start, hnum]; omega, fun i hi hlt => ?_, fun m hmem => ?_⟩
    · rcases lt_or_eq_of_le (show i ≤ t.job.fileNum by omega) with hlt | rfl
      · exact hold i hi hlt
      · obtain ⟨m, hmem⟩ := List.exists_mem_of_ne_nil new hne
        exact ⟨m, hmarks ▸ List.mem_append_left _ hmem, hnew m hmem⟩
    · have := hbound m hmem
      omega

/-- What opening a file does to the file number. -/
theorem openDataStream_fileNum (os : Host W H) (job : TransferJob H) (w : W) :
    (job.openDataStream os w).2.1.id = job.id ∧ (job.openDataStream os w).2.1.files = job.files ∧
      (job.openDataStream os w).2.1.isLastJob = job.isLastJob ∧
      ((job.openDataStream os w).2.1.fileNum = job.fileNum ∨
        (job.openDataStream os w).2.1.fileNum = job.fileNum + 1 ∧
          ∃ err, (job.openDataStream os w).1 = .error err) := by
  unfold TransferJob.openDataStream
  split
  · split
    · exact ⟨rfl, rfl, rfl, .inl rfl⟩
    · split
      · exact ⟨rfl, rfl, rfl, .inl rfl⟩
      · split
        · exact ⟨rfl, rfl, rfl, .inl rfl⟩
        · exact ⟨rfl, rfl, rfl, .inr ⟨rfl, _, rfl⟩⟩
  · split <;> exact ⟨rfl, rfl, rfl, .inl rfl⟩

theorem initDataStream_fileNum (os : Host W H) (job : TransferJob H) (w : W) :
    (job.initDataStream os w).2.2.1.id = job.id ∧ (job.initDataStream os w).2.2.1.files = job.files ∧
      (job.initDataStream os w).2.2.1.isLastJob = job.isLastJob ∧
      ((job.initDataStream os w).2.2.1.fileNum = job.fileNum ∨
        (job.initDataStream os w).2.2.1.fileNum = job.fileNum + 1 ∧
          ∃ err, (job.initDataStream os w).1 = .error err) := by
  have hopen := openDataStream_fileNum os job w
  unfold TransferJob.initDataStream
  generalize job.openDataStream os w = r at hopen ⊢
  obtain ⟨hid, hfiles, hlast, hnum⟩ := hopen
  obtain ⟨_ | _ | _, job', w'⟩ := r
  · exact ⟨hid, hfiles, hlast, hnum.imp_right fun h => ⟨h.1, _, rfl⟩⟩
  · have hnum : job'.fileNum = job.fileNum := hnum.resolve_right fun h => nomatch h.2
    dsimp only
    split
    · split
      · exact ⟨hid, hfiles, hlast, .inl hnum⟩
      · exact ⟨hid, hfiles, hlast, .inl hnum⟩
    · exact ⟨hid, hfiles, hlast, .inl hnum⟩
  · exact ⟨hid, hfiles, hlast, .inl (hnum.resolve_right fun h => nomatch h.2)⟩

theorem init_moved : Moved t (t.init os w).1 := by
  obtain ⟨hid, hfiles, -, hnum⟩ := initDataStream_fileNum os t.job w
  unfold init
  generalize t.job.initDataStream os w = r at hid hfiles hnum ⊢
  obtain ⟨_ | _, msgs, job, w'⟩ := r
  · refine ⟨hid, rfl, hfiles, [.failed t.job.fileNum], rfl, ?_, hnum.imp_right fun h => ⟨h.1, nofun⟩⟩
    simp [Mark.fileNum]
  · refine ⟨hid, rfl, hfiles, [], rfl, nofun, .inl (hnum.resolve_right fun h => nomatch h.2)⟩

theorem init_isLastJob (os : Host W H) (t : Sending H) (w : W) :
    (t.init os w).1.job.isLastJob = t.job.isLastJob := by
  have hlast := (initDataStream_fileNum os t.job w).2.2.1
  unfold init
  generalize t.job.initDataStream os w = r at hlast ⊢
  obtain ⟨_ | _, _, _, _⟩ := r <;> exact hlast

/-- What reading does to the file number: past the file at its end, or at an error. -/
theorem read_fileNum (os : Host W H) (job : TransferJob H) (w : W) :
    (job.read os w).2.1.id = job.id ∧ (job.read os w).2.1.files = job.files ∧
      ((job.read os w).2.1.fileNum = job.fileNum ∨
        (job.read os w).2.1.fileNum = job.fileNum + 1 ∧
          ((∃ err, (job.read os w).1 = .error err) ∨
            ∃ block, (job.read os w).1 = .ok (some block) ∧ block.data = [] ∧ block.compressed = false)) := by
  unfold TransferJob.read
  split
  · exact ⟨rfl, rfl, .inl rfl⟩
  · split
    · exact ⟨rfl, rfl, .inl rfl⟩
    · split
      · exact ⟨rfl, rfl, .inl rfl⟩
      · split
        · exact ⟨rfl, rfl, .inr ⟨rfl, .inl ⟨_, rfl⟩⟩⟩
        · dsimp only
          split
          · exact ⟨rfl, rfl, .inl rfl⟩
          · exact ⟨rfl, rfl, .inr ⟨rfl, .inr ⟨_, rfl, rfl, rfl⟩⟩⟩
          · exact ⟨rfl, rfl, .inl rfl⟩

theorem read_moved : Moved t (t.read os w).2.1 := by
  obtain ⟨hid, hfiles, hnum⟩ := read_fileNum os t.job w
  unfold Sending.read
  generalize t.job.read os w = r at hid hfiles hnum ⊢
  obtain ⟨_ | _ | block, job, w'⟩ := r
  · refine ⟨hid, rfl, hfiles, [.failed t.job.fileNum], rfl, ?_, hnum.imp_right fun h => ⟨h.1, nofun⟩⟩
    simp [Mark.fileNum]
  · refine ⟨hid, rfl, hfiles, [], rfl, nofun, .inl (hnum.resolve_right ?_)⟩
    rintro ⟨-, ⟨_, h⟩ | ⟨_, h, -⟩⟩ <;> cases h
  · by_cases heof : block.data = [] ∧ block.compressed = false
    · simp only [heof, and_self, if_true]
      refine ⟨hid, rfl, hfiles, [.eof t.job.fileNum], rfl, ?_, hnum.imp_right fun h => ⟨h.1, nofun⟩⟩
      simp [Mark.fileNum]
    · simp only [heof, if_false]
      refine ⟨hid, rfl, hfiles, [], rfl, nofun, .inl (hnum.resolve_right ?_)⟩
      rintro ⟨-, ⟨_, h⟩ | ⟨_, h, hblock⟩⟩
      · cases h
      · cases h
        exact heof hblock

theorem setStreamOffset_fileNum (os : Host W H) (job : TransferJob H) (n : Int) (offset : Nat) (w : W) :
    (job.setStreamOffset os n offset w).1.id = job.id ∧ (job.setStreamOffset os n offset w).1.files = job.files ∧
      (job.setStreamOffset os n offset w).1.fileNum = job.fileNum := by
  unfold TransferJob.setStreamOffset
  split
  · split
    · exact ⟨rfl, rfl, rfl⟩
    · split
      · exact ⟨rfl, rfl, rfl⟩
      · split <;> exact ⟨rfl, rfl, rfl⟩
  · exact ⟨rfl, rfl, rfl⟩

theorem confirm_moved (r : FileTransferSendConfirmRequest) : Moved t (t.confirm os r w).1 := by
  obtain ⟨id, n, u⟩ := r
  unfold Sending.confirm TransferJob.confirm
  by_cases hnum : t.job.fileNum = n
  · subst hnum
    simp only [ne_eq, not_true_eq_false, if_false, true_and]
    rcases u with _ | ⟨_ | _⟩ | offset
    · exact ⟨rfl, rfl, rfl, [], rfl, nofun, .inl rfl⟩
    · exact ⟨rfl, rfl, rfl, [], rfl, nofun, .inl rfl⟩
    · exact ⟨rfl, rfl, rfl, [.skipped t.job.fileNum], rfl, by simp [Mark.fileNum], .inr ⟨rfl, nofun⟩⟩
    · obtain ⟨hid, h1, h2⟩ := setStreamOffset_fileNum os (t.job.setFileConfirmed true) t.job.fileNum offset w
      simp only [reduceCtorEq, if_false, Option.some.injEq]
      split_ifs
      · exact ⟨hid, rfl, h1, [], rfl, nofun, .inl h2⟩
      · exact ⟨rfl, rfl, rfl, [], rfl, nofun, .inl rfl⟩
  · simp only [ne_eq, hnum, not_false_eq_true, if_true, false_and, if_false]
    exact ⟨rfl, rfl, rfl, [], rfl, nofun, .inl rfl⟩

theorem resume_moved : Moved t t.resume := by
  unfold resume TransferJob.setFinishedSizeOnResume
  split
  · dsimp only
    split <;> exact ⟨rfl, rfl, rfl, [], rfl, nofun, .inl rfl⟩
  · exact ⟨rfl, rfl, rfl, [], rfl, nofun, .inl rfl⟩

end Sending

namespace Sender

variable {W H : Type} {os : Host W H} {s s' : Sender W H}

theorem initAll_ok {ts : List (Sending H)} (h : ∀ t ∈ ts, t.Ok) (w : W) : ∀ t ∈ (initAll os ts w).1, t.Ok := by
  induction ts generalizing w with
  | nil => simp [initAll]
  | cons t ts ih =>
    have htail := ih fun t' ht' => h t' (List.mem_cons_of_mem _ ht')
    have hhead := h t (List.mem_cons_self ..)
    simp only [initAll]
    split_ifs
    · exact List.forall_mem_cons.2 ⟨hhead, htail w⟩
    · exact List.forall_mem_cons.2 ⟨hhead.moved Sending.init_moved, htail _⟩

theorem readOne_ok {ts : List (Sending H)} (h : ∀ t ∈ ts, t.Ok) (w : W) :
    ∀ t ∈ (readOne os ts w).2.1, t.Ok := by
  induction ts with
  | nil => simp [readOne]
  | cons t ts ih =>
    have hhead := h t (List.mem_cons_self ..)
    have hrest : ∀ t' ∈ ts, t'.Ok := fun t' ht' => h t' (List.mem_cons_of_mem _ ht')
    simp only [readOne]
    by_cases hlast : t.job.isLastJob = true
    · simp only [hlast, if_true]
      exact List.forall_mem_cons.2 ⟨hhead, ih hrest⟩
    · simp only [hlast]
      exact List.forall_mem_cons.2 ⟨hhead.moved Sending.read_moved, hrest⟩

theorem modifyJob_ok {ts : List (Sending H)} (h : ∀ t ∈ ts, t.Ok) {id : Int} {f : Sending H → W → Sending H × W}
    (hf : ∀ t w, Sending.Moved t (f t w).1) (w : W) : ∀ t ∈ (modifyJob id f ts w).1, t.Ok := by
  induction ts with
  | nil => simp [modifyJob]
  | cons t ts ih =>
    have hhead := h t (List.mem_cons_self ..)
    have hrest : ∀ t' ∈ ts, t'.Ok := fun t' ht' => h t' (List.mem_cons_of_mem _ ht')
    simp only [modifyJob]
    split_ifs
    · exact List.forall_mem_cons.2 ⟨hhead.moved (hf t w), hrest⟩
    · exact List.forall_mem_cons.2 ⟨hhead, ih hrest⟩

theorem step_ok {e : SendEvent H} (h : ∀ t ∈ s.sendings, t.Ok) (hs : s.step os e = some s') :
    ∀ t ∈ s'.sendings, t.Ok := by
  cases e with
  | add job =>
    simp only [step] at hs
    split_ifs at hs
    cases hs
    intro t ht
    rcases List.mem_append.1 ht with ht | ht
    · exact h t ht
    · obtain rfl := List.mem_singleton.1 ht
      exact ⟨le_rfl, fun i hi hlt => absurd hlt (not_lt.2 hi), nofun⟩
  | resume id =>
    cases hs
    exact modifyJob_ok h (fun _ _ => Sending.resume_moved) _
  | cancel id =>
    cases hs
    exact fun t ht => h t (List.mem_of_mem_eraseP ht)
  | confirm r =>
    cases hs
    exact modifyJob_ok h (fun _ _ => Sending.confirm_moved r) _
  | tick =>
    cases hs
    simp only [tick]
    split
    · exact readOne_ok (initAll_ok h s.w) _
    · exact fun t ht => readOne_ok (initAll_ok h s.w) _ t (List.mem_of_mem_eraseP ht)

/-- In every run, every job stands where its marks end. -/
theorem exec_ok {hist : List (Sender W H × SendEvent H)} (hx : Exec Init (step os) hist s) :
    ∀ t ∈ s.sendings, t.Ok :=
  hx.invariant (I := fun s => ∀ t ∈ s.sendings, t.Ok) (fun s hs => by simp [show s.sendings = [] from hs])
    fun _ _ _ => step_ok

/-- A job that a tick reports was opened and read in it, and is the first in line. -/
theorem tick_over {t : Sending H} (h : (s.tick os).1 = some t) :
    ∃ t₀ w', s.current = some t₀ ∧ t₀ ∈ s.sendings ∧ ((t₀.init os s.w).1.read os w').1 = true ∧
      ((t₀.init os s.w).1.read os w').2.1 = t := by
  have hover : (readOne os (initAll os s.sendings s.w).1 (initAll os s.sendings s.w).2).1 = some t := by
    simp only [tick] at h
    split at h
    · cases h
    · next hover => rw [hover, ← h]
  obtain ⟨ts, w⟩ := s
  simp only [current]
  generalize hw : (initAll os ts w).2 = w' at hover
  clear h hw
  induction ts with
  | nil => cases hover
  | cons t₁ ts ih =>
    simp only [initAll] at hover
    by_cases hlast : t₁.job.isLastJob = true
    · simp only [hlast, if_true, readOne] at hover
      obtain ⟨t₀, w₀, hcur, hmem, hread⟩ := ih hover
      refine ⟨t₀, w₀, ?_, List.mem_cons_of_mem _ hmem, hread⟩
      rwa [List.find?_cons_of_neg (by simp [hlast])]
    · simp only [hlast, readOne, Sending.init_isLastJob, if_false, Bool.false_eq_true] at hover
      refine ⟨t₁, w', ?_, List.mem_cons_self .., ?_⟩
      · rw [List.find?_cons_of_pos (by simp [hlast])]
      · cases hread : ((t₁.init os w).1.read os w').1 with
        | false => simp [hread] at hover
        | true => exact ⟨rfl, by simpa [hread] using hover⟩

end Sender

/-! ## A file marked as failed has its error message -/

namespace Sending

variable {W H : Type} {os : Host W H} {t t' : Sending H} {w : W}

/-- These messages name a failed file of a job, by its number or by the next: some paths send the
error once the job has gone on. -/
def Names (msgs : List FileMessage) (id n : Int) : Prop :=
  ∃ err num, (num = n ∨ num = n + 1) ∧ FileMessage.error id err num ∈ msgs

theorem Names.mono {msgs msgs' : List FileMessage} {id n : Int} (h : Names msgs id n) (hsub : msgs ⊆ msgs') :
    Names msgs' id n := by
  obtain ⟨err, num, hnum, hmem⟩ := h
  exact ⟨err, num, hnum, hsub hmem⟩

/-- What a call on a job marks as failed is named in the messages it sends. -/
structure Told (msgs : List FileMessage) (t t' : Sending H) : Prop where
  id : t'.job.id = t.job.id
  failed : ∀ n, .failed n ∈ t'.marks → .failed n ∈ t.marks ∨ Names msgs t.job.id n

theorem Told.mono {msgs msgs' : List FileMessage} (h : Told msgs t t') (hsub : msgs ⊆ msgs') : Told msgs' t t' :=
  ⟨h.id, fun n hn => (h.failed n hn).imp_right fun hnames => hnames.mono hsub⟩

theorem Told.refl (msgs : List FileMessage) (t : Sending H) : Told msgs t t := ⟨rfl, fun _ => .inl⟩

theorem Told.trans {msgs : List FileMessage} {t'' : Sending H} (h : Told msgs t t') (h' : Told msgs t' t'') :
    Told msgs t t'' := by
  refine ⟨h'.id.trans h.id, fun n hn => ?_⟩
  rcases h'.failed n hn with hn | hnames
  · exact h.failed n hn
  · exact .inr (h.id ▸ hnames)

/-- What `init_jobs` sends of one job. -/
def initSent (os : Host W H) (t : Sending H) (w : W) : List FileMessage :=
  match t.job.initDataStream os w with
  | (.error err, sent, job, _) => sent ++ [.error job.id err job.fileNum]
  | (.ok (), sent, _, _) => sent

theorem init_told : Told (initSent os t w) t (t.init os w).1 := by
  obtain ⟨hid, -, -, hnum⟩ := initDataStream_fileNum os t.job w
  unfold initSent init
  generalize t.job.initDataStream os w = r at hid hnum ⊢
  obtain ⟨err | _, sent, job, w'⟩ := r
  · refine ⟨hid, fun n hn => ?_⟩
    rcases List.mem_cons.1 hn with heq | hn
    · obtain rfl := Mark.failed.inj heq
      exact .inr ⟨err, job.fileNum, hnum.imp_right And.left, hid ▸ List.mem_append_right _ (List.mem_singleton_self _)⟩
    · exact .inl hn
  · exact ⟨hid, fun _ => .inl⟩

theorem read_told : Told (readJob os t.job w).1 t (t.read os w).2.1 := by
  obtain ⟨hid, -, hnum⟩ := read_fileNum os t.job w
  unfold readJob Sending.read
  generalize t.job.read os w = r at hid hnum ⊢
  obtain ⟨err | _ | block, job, w'⟩ := r
  · refine ⟨hid, fun n hn => ?_⟩
    rcases List.mem_cons.1 hn with heq | hn
    · obtain rfl := Mark.failed.inj heq
      exact .inr ⟨err, job.fileNum, hnum.imp_right And.left, hid ▸ List.mem_singleton_self _⟩
    · exact .inl hn
  · exact ⟨hid, fun _ => .inl⟩
  · dsimp only
    split_ifs
    · refine ⟨hid, fun n hn => ?_⟩
      rcases List.mem_cons.1 hn with heq | hn
      · cases heq
      · exact .inl hn
    · exact ⟨hid, fun _ => .inl⟩

end Sending

namespace Sender

open Sending

variable {W H : Type} {os : Host W H} {s s' : Sender W H}

theorem initJobs_cons {t : Sending H} (hlast : t.job.isLastJob = false) (jobs : List (TransferJob H)) (w : W) :
    (initJobs os (t.job :: jobs) w).1 = initSent os t w ++ (initJobs os jobs (t.init os w).2).1 := by
  rw [initJobs]
  simp only [hlast, Bool.false_eq_true, if_false]
  unfold initSent Sending.init
  rcases t.job.initDataStream os w with ⟨_ | _, sent, job, w'⟩ <;> simp

variable (os) in
theorem initAll_told (ts : List (Sending H)) (w : W) :
    ∀ t' ∈ (initAll os ts w).1, ∃ t ∈ ts, Told (initJobs os (ts.map (·.job)) w).1 t t' := by
  induction ts generalizing w with
  | nil => simp [initAll]
  | cons t ts ih =>
    intro t' ht'
    cases hlast : t.job.isLastJob with
    | true =>
      simp only [initAll, hlast, if_true] at ht'
      simp only [List.map_cons, initJobs, hlast, if_true]
      rcases List.mem_cons.1 ht' with rfl | ht'
      · exact ⟨t', List.mem_cons_self .., .refl _ _⟩
      · obtain ⟨t₀, ht₀, htold⟩ := ih w t' ht'
        exact ⟨t₀, List.mem_cons_of_mem _ ht₀, htold⟩
    | false =>
      simp only [initAll, hlast, Bool.false_eq_true, if_false] at ht'
      rw [List.map_cons, initJobs_cons hlast]
      rcases List.mem_cons.1 ht' with rfl | ht'
      · exact ⟨t, List.mem_cons_self .., init_told.mono (List.subset_append_left _ _)⟩
      · obtain ⟨t₀, ht₀, htold⟩ := ih _ t' ht'
        exact ⟨t₀, List.mem_cons_of_mem _ ht₀, htold.mono (List.subset_append_right _ _)⟩

variable (os) in
theorem readOne_told (ts : List (Sending H)) (w : W) :
    (∀ t' ∈ (readOne os ts w).2.1, ∃ t ∈ ts, Told (readFirst os (ts.map (·.job)) w).1 t t') ∧
      ∀ t', (readOne os ts w).1 = some t' → t' ∈ (readOne os ts w).2.1 := by
  induction ts with
  | nil => simp [readOne]
  | cons t ts ih =>
    obtain ⟨hmem, hended⟩ := ih
    cases hlast : t.job.isLastJob with
    | true =>
      simp only [List.map_cons, readFirst, readOne, hlast, if_true]
      refine ⟨fun t' ht' => ?_, fun t' ht' => List.mem_cons_of_mem _ (hended t' ht')⟩
      rcases List.mem_cons.1 ht' with rfl | ht'
      · exact ⟨t', List.mem_cons_self .., .refl _ _⟩
      · obtain ⟨t₀, ht₀, htold⟩ := hmem t' ht'
        exact ⟨t₀, List.mem_cons_of_mem _ ht₀, htold⟩
    | false =>
      simp only [List.map_cons, readFirst, readOne, hlast, Bool.false_eq_true, if_false]
      refine ⟨fun t' ht' => ?_, fun t' ht' => ?_⟩
      · rcases List.mem_cons.1 ht' with rfl | ht'
        · exact ⟨t, List.mem_cons_self .., read_told⟩
        · exact ⟨t', List.mem_cons_of_mem _ ht', .refl _ _⟩
      · split_ifs at ht'
        obtain rfl := Option.some.inj ht'
        exact List.mem_cons_self ..

/-- What a tick marks as failed, in a job it keeps or reports, is named in what `handle_read_jobs` sends. -/
theorem tick_told {t' : Sending H} (ht : t' ∈ (s.tick os).2.sendings ∨ (s.tick os).1 = some t') :
    ∃ t ∈ s.sendings, Told (handleReadJobs os (s.sendings.map (·.job)) s.w).1 t t' := by
  obtain ⟨hread, hended⟩ := readOne_told os (initAll os s.sendings s.w).1 (initAll os s.sendings s.w).2
  have hinit := initAll_told os s.sendings s.w
  have hmem : t' ∈ (readOne os (initAll os s.sendings s.w).1 (initAll os s.sendings s.w).2).2.1 := by
    simp only [tick] at ht
    split at ht
    · exact ht.resolve_right nofun
    · next hover =>
      rcases ht with ht | ht
      · exact List.mem_of_mem_eraseP ht
      · obtain rfl := Option.some.inj ht
        exact hended _ hover
  have hmsgs : (handleReadJobs os (s.sendings.map (·.job)) s.w).1 =
      (initJobs os (s.sendings.map (·.job)) s.w).1 ++
        (readFirst os ((initAll os s.sendings s.w).1.map (·.job)) (initAll os s.sendings s.w).2).1 := by
    simp only [handleReadJobs, initAll_jobs]
  obtain ⟨t₁, ht₁, htold₁⟩ := hread t' hmem
  obtain ⟨t, ht, htold⟩ := hinit t₁ ht₁
  rw [hmsgs]
  exact ⟨t, ht, (htold.mono (List.subset_append_left _ _)).trans (htold₁.mono (List.subset_append_right _ _))⟩

/-- `get_job` finds one job, and only that one is changed. -/
theorem mem_modifyJob {id : Int} {f : Sending H → W → Sending H × W} {ts : List (Sending H)} {w : W}
    {t' : Sending H} (ht : t' ∈ (modifyJob id f ts w).1) : ∃ t ∈ ts, t' = t ∨ t' = (f t w).1 := by
  induction ts with
  | nil => cases ht
  | cons t ts ih =>
    simp only [modifyJob] at ht
    split_ifs at ht
    · rcases List.mem_cons.1 ht with rfl | ht
      · exact ⟨t, List.mem_cons_self .., .inr rfl⟩
      · exact ⟨t', List.mem_cons_of_mem _ ht, .inl rfl⟩
    · rcases List.mem_cons.1 ht with rfl | ht
      · exact ⟨t', List.mem_cons_self .., .inl rfl⟩
      · obtain ⟨t₀, hmem, hsame⟩ := ih ht
        exact ⟨t₀, List.mem_cons_of_mem _ hmem, hsame⟩

variable (os) in
/-- A confirm marks a file as skipped and never as failed. -/
theorem confirm_told (msgs : List FileMessage) (t : Sending H) (r : FileTransferSendConfirmRequest) (w : W) :
    Told msgs t (t.confirm os r w).1 := by
  refine ⟨(confirm_moved r).id, fun n hn => .inl ?_⟩
  unfold Sending.confirm at hn
  dsimp only at hn
  split_ifs at hn
  · exact (List.mem_cons.1 hn).resolve_left nofun
  · exact hn

theorem resume_told (msgs : List FileMessage) (t : Sending H) : Told msgs t t.resume := by
  refine ⟨resume_moved.id, fun n hn => .inl ?_⟩
  unfold resume at hn
  split at hn <;> exact hn

/-- A step that is no tick marks no file as failed. -/
theorem step_told {e : SendEvent H} (hs : s.step os e = some s') {t' : Sending H} (ht : t' ∈ s'.sendings)
    (hne : e ≠ .tick) {n : Int} (hn : .failed n ∈ t'.marks) :
    ∃ t ∈ s.sendings, t'.job.id = t.job.id ∧ .failed n ∈ t.marks := by
  cases e with
  | add job =>
    simp only [step] at hs
    split_ifs at hs
    cases hs
    rcases List.mem_append.1 ht with ht | ht
    · exact ⟨t', ht, rfl, hn⟩
    · obtain rfl := List.mem_singleton.1 ht
      cases hn
  | resume id =>
    cases hs
    obtain ⟨t, hmem, rfl | rfl⟩ := mem_modifyJob ht
    · exact ⟨t', hmem, rfl, hn⟩
    · have htold := resume_told [] t
      exact ⟨t, hmem, htold.id, (htold.failed n hn).resolve_right nofun⟩
  | cancel id =>
    cases hs
    exact ⟨t', List.mem_of_mem_eraseP ht, rfl, hn⟩
  | confirm r =>
    cases hs
    obtain ⟨t, hmem, rfl | rfl⟩ := mem_modifyJob ht
    · exact ⟨t', hmem, rfl, hn⟩
    · have htold := confirm_told os [] t r s.w
      exact ⟨t, hmem, htold.id, (htold.failed n hn).resolve_right nofun⟩
  | tick => exact absurd rfl hne

/-- In every run, a file that is marked as failed has had its error message: the messages of some tick
name it. -/
theorem exec_told {hist : List (Sender W H × SendEvent H)} (hx : Exec Init (step os) hist s) :
    ∀ t ∈ s.sendings, ∀ n, .failed n ∈ t.marks → ∃ p ∈ hist, p.2 = .tick ∧
      Names (handleReadJobs os (p.1.sendings.map (·.job)) p.1.w).1 t.job.id n := by
  refine hx.induct (I := fun hist s => ∀ t ∈ s.sendings, ∀ n, .failed n ∈ t.marks → ∃ p ∈ hist, p.2 = .tick ∧
    Names (handleReadJobs os (p.1.sendings.map (·.job)) p.1.w).1 t.job.id n) ?_ ?_
  · intro s hs t ht
    rw [show s.sendings = [] from hs] at ht
    cases ht
  · intro hist s e s' _ ih hs t' ht' n hn
    have hold : ∀ t ∈ s.sendings, .failed n ∈ t.marks → t'.job.id = t.job.id → ∃ p ∈ (s, e) :: hist, p.2 = .tick ∧
        Names (handleReadJobs os (p.1.sendings.map (·.job)) p.1.w).1 t'.job.id n := by
      intro t ht hn hid
      obtain ⟨p, hp, htick, hnames⟩ := ih t ht n hn
      exact ⟨p, List.mem_cons_of_mem _ hp, htick, hid ▸ hnames⟩
    by_cases htick : e = .tick
    · subst htick
      cases hs
      obtain ⟨t, ht, htold⟩ := tick_told (.inl ht')
      rcases htold.failed n hn with hn | hnames
      · exact hold t ht hn htold.id
      · exact ⟨_, List.mem_cons_self .., rfl, htold.id ▸ hnames⟩
    · obtain ⟨t, ht, hid, hn⟩ := step_told hs ht' htick hn
      exact hold t ht hn hid

/-- And of a job that a tick reports as finished, every file marked as failed has had its error message by
then. -/
theorem ended_told {hist : List (Sender W H × SendEvent H)} (hx : Exec Init (step os) hist s) {t : Sending H}
    (hover : (s.tick os).1 = some t) {n : Int} (hn : .failed n ∈ t.marks) :
    ∃ p ∈ (s, .tick) :: hist, p.2 = .tick ∧
      Names (handleReadJobs os (p.1.sendings.map (·.job)) p.1.w).1 t.job.id n := by
  obtain ⟨t₀, ht₀, htold⟩ := tick_told (.inr hover)
  rcases htold.failed n hn with hn | hnames
  · obtain ⟨p, hp, htick, hnames⟩ := exec_told hx t₀ ht₀ n hn
    exact ⟨p, List.mem_cons_of_mem _ hp, htick, htold.id ▸ hnames⟩
  · exact ⟨_, List.mem_cons_self .., rfl, htold.id ▸ hnames⟩

end Sender

/-! ## The tick that ends a job -/

namespace Sending

variable {W H : Type}

/-- The current file is not open and cannot be opened. -/
def OpenFails (os : Host W H) (t : Sending H) (w : W) : Prop :=
  ∃ p entry, t.job.dataSource = .filePath p ∧ entryAt t.job.files t.job.fileNum = some entry ∧
    t.job.dataStream = none ∧ ∃ err, (os.openFile (join os.win p entry.name) w).1 = .error err

/-- The current file is open, or just has been, its digest has not been offered, and there is none. -/
def DigestFails (os : Host W H) (t : Sending H) (w : W) : Prop :=
  ∃ p entry, t.job.dataSource = .filePath p ∧ entryAt t.job.files t.job.fileNum = some entry ∧
    ((t.job.dataStream.isSome ∧ t.job.fileConfirmed = false ∧ t.job.fileIsWaiting = false ∧
        ∃ err, t.job.getCurrentDigest os w = .error err) ∨
      t.job.dataStream = none ∧ ∃ file w', os.openFile (join os.win p entry.name) w = (.ok file, w') ∧
        ∃ err, os.metadata file w' = .error err)

/-- The tick ends the job before its last file has been looked at. -/
def Drops (os : Host W H) (t : Sending H) (w : W) : Prop :=
  t.job.fileNum < 0 ∧ t.job.files ≠ [] ∨
    (OpenFails os t w ∨ DigestFails os t w) ∧ t.job.fileNum + 1 < t.job.files.length

/-- What the first call of a tick leaves of a job over files with overwrite detection. -/
inductive Opening (os : Host W H) (t : Sending H) (w : W) (t' : Sending H) : Prop
  | exhausted (hnone : entryAt t.job.files t.job.fileNum = none) (hnum : t'.job.fileNum = t.job.fileNum)
      (hmarks : t'.marks = t.marks)
  | failed (hfails : OpenFails os t w ∨ DigestFails os t w)
      (hmarks : t'.marks = .failed t.job.fileNum :: t.marks)
  | opened (hopen : ¬OpenFails os t w) (hdigest : ¬DigestFails os t w)
      (hentry : (entryAt t'.job.files t'.job.fileNum).isSome) (hstream : t'.job.dataStream.isSome)
      (hflags : t'.job.fileConfirmed = true ∨ t'.job.fileIsWaiting = true)

theorem entryAt_eq_some {files : List FileEntry} {n : Int} {entry : FileEntry} (h : entryAt files n = some entry) :
    0 ≤ n ∧ n < files.length := by
  unfold entryAt at h
  split_ifs at h with hn
  have := (List.getElem?_eq_some_iff.1 h).1
  omega

theorem entryAt_eq_none {files : List FileEntry} {n : Int} (h : entryAt files n = none) :
    n < 0 ∨ (files.length : Int) ≤ n := by
  unfold entryAt at h
  split_ifs at h with hn
  · have := List.getElem?_eq_none_iff.1 h
    omega
  · omega

/-- A job that sends files and offers their digests first. -/
structure Detecting (job : TransferJob H) : Prop where
  generic : job.type = .generic
  detection : job.enableOverwriteDetection = true
  path : ∃ p, job.dataSource = .filePath p

theorem Detecting.awaitsDigest {job : TransferJob H} (hk : Detecting job) :
    job.awaitsDigest = (!job.fileConfirmed && !job.fileIsWaiting) := by
  simp [TransferJob.awaitsDigest, hk.generic, hk.detection]

/-- With the current file open, what is left is its digest. -/
theorem init_of_open {os : Host W H} {t : Sending H} {w w' : W} {job : TransferJob H} (hk : Detecting job)
    (ho : t.job.openDataStream os w = (.ok false, job, w')) :
    (∃ err, job.fileConfirmed = false ∧ job.fileIsWaiting = false ∧ job.getCurrentDigest os w' = .error err ∧
      t.init os w = ({ t with job := job, marks := .failed t.job.fileNum :: t.marks }, w')) ∨
    (job.fileConfirmed = false ∧ job.fileIsWaiting = false ∧ (∃ d, job.getCurrentDigest os w' = .ok d) ∧
      t.init os w = ({ t with job := { job with fileIsWaiting := true } }, w')) ∨
    ((job.fileConfirmed = true ∨ job.fileIsWaiting = true) ∧ t.init os w = ({ t with job := job }, w')) := by
  unfold init TransferJob.initDataStream
  rw [ho]
  simp only [hk.awaitsDigest]
  by_cases hflags : job.fileConfirmed = false ∧ job.fileIsWaiting = false
  · obtain ⟨hc, hw⟩ := hflags
    simp only [hc, hw, Bool.not_false, Bool.and_self, if_true]
    cases hd : job.getCurrentDigest os w' with
    | error err => exact .inl ⟨err, trivial, trivial, rfl, rfl⟩
    | ok d => exact .inr (.inl ⟨trivial, trivial, ⟨d, rfl⟩, rfl⟩)
  · have hflags : job.fileConfirmed = true ∨ job.fileIsWaiting = true := by
      simpa only [not_and_or, Bool.not_eq_false] using hflags
    refine .inr (.inr ⟨hflags, ?_⟩)
    rcases hflags with hc | hw
    · simp [hc]
    · simp [hw]

theorem init_opening (os : Host W H) {t : Sending H} (hk : Detecting t.job) (w : W) :
    Opening os t w (t.init os w).1 ∧ Detecting (t.init os w).1.job := by
  obtain ⟨p, hp⟩ := hk.path
  cases hentry : entryAt t.job.files t.job.fileNum with
  | none =>
    have hinit : t.init os w = ({ t with job := { t.job with dataStream := none } }, w) := by
      simp [init, TransferJob.initDataStream, TransferJob.openDataStream_of_none hp hentry]
    rw [hinit]
    exact ⟨.exhausted hentry rfl rfl, hk.generic, hk.detection, p, hp⟩
  | some entry =>
    cases hstream : t.job.dataStream with
    | some stream =>
      have hno : ¬OpenFails os t w := fun ⟨_, _, _, _, hnone, _⟩ => by rw [hstream] at hnone; cases hnone
      rcases init_of_open hk (TransferJob.openDataStream_of_some hp hentry hstream) with
        ⟨err, hc, hw, hd, hinit⟩ | ⟨hc, hw, ⟨d, hd⟩, hinit⟩ | ⟨hflags, hinit⟩
      · rw [hinit]
        refine ⟨.failed (.inr ⟨p, entry, hp, hentry, .inl ⟨by simp [hstream], hc, hw, err, hd⟩⟩) rfl, hk⟩
      · rw [hinit]
        refine ⟨.opened hno ?_ (by simp [hentry]) (by simp [hstream]) (.inr rfl), hk.generic, hk.detection, p, hp⟩
        rintro ⟨_, _, _, _, ⟨_, _, _, err, herr⟩ | ⟨hnone, _⟩⟩
        · rw [hd] at herr
          cases herr
        · rw [hstream] at hnone
          cases hnone
      · rw [hinit]
        refine ⟨.opened hno ?_ (by simp [hentry]) (by simp [hstream]) hflags, hk⟩
        rintro ⟨_, _, _, _, ⟨_, hc, hw, _⟩ | ⟨hnone, _⟩⟩
        · simp [hc, hw] at hflags
        · rw [hstream] at hnone
          cases hnone
    | none =>
      obtain ⟨res, w', ho⟩ : ∃ res w', os.openFile (join os.win p entry.name) w = (res, w') := ⟨_, _, rfl⟩
      cases res with
      | error err =>
        have hinit := TransferJob.openDataStream_of_error hp hentry hstream ho
        have hfails : OpenFails os t w := ⟨p, entry, hp, hentry, hstream, err, by rw [ho]⟩
        simp only [init, TransferJob.initDataStream, hinit]
        exact ⟨.failed (.inl hfails) rfl, hk.generic, hk.detection, p, hp⟩
      | ok file =>
        have hno : ¬OpenFails os t w := by
          rintro ⟨p', entry', hp', hentry', _, err, herr⟩
          rw [hp] at hp'
          rw [hentry] at hentry'
          cases hp'
          cases hentry'
          rw [ho] at herr
          cases herr
        have hdigest : ∀ err, os.metadata file w' = .error err → DigestFails os t w := fun err herr =>
          ⟨p, entry, hp, hentry, .inr ⟨hstream, file, w', ho, err, herr⟩⟩
        have hopened := TransferJob.openDataStream_of_ok hp hentry hstream ho
        rcases init_of_open (by exact ⟨hk.generic, hk.detection, p, hp⟩) hopened with
          ⟨err, -, -, hd, hinit⟩ | ⟨-, -, ⟨d, hd⟩, hinit⟩ | ⟨hflags, hinit⟩
        · rw [hinit]
          exact ⟨.failed (.inr (hdigest err hd)) rfl, hk.generic, hk.detection, p, hp⟩
        · rw [hinit]
          refine ⟨.opened hno ?_ (by simp [hentry]) (by simp) (.inr rfl), hk.generic, hk.detection, p, hp⟩
          rintro ⟨p', entry', hp', hentry', ⟨hsome, _⟩ | ⟨_, file', w'', ho', err, herr⟩⟩
          · simp [hstream] at hsome
          · rw [hp] at hp'
            rw [hentry] at hentry'
            cases hp'
            cases hentry'
            rw [ho] at ho'
            cases ho'
            exact nomatch hd.symm.trans herr
        · simp at hflags

/-- A job whose file is open and confirmed or waiting is not over. -/
theorem read_not_over {os : Host W H} {t : Sending H} {w : W} (hk : Detecting t.job)
    (hentry : (entryAt t.job.files t.job.fileNum).isSome) (hstream : t.job.dataStream.isSome)
    (hflags : t.job.fileConfirmed = true ∨ t.job.fileIsWaiting = true) : (t.read os w).1 = false := by
  obtain ⟨p, hp⟩ := hk.path
  obtain ⟨stream, hstream⟩ := Option.isSome_iff_exists.1 hstream
  have hexhausted : t.job.exhausted = false := by
    simp only [TransferJob.exhausted, hp]
    simpa using hentry
  unfold Sending.read TransferJob.read
  by_cases hc : t.job.fileConfirmed = true
  · simp only [hc, hexhausted, hstream, hp, Bool.not_true, Bool.false_eq_true, and_false, if_false]
    rcases stream.fill os (BUF_SIZE + 1) [] w with ⟨_ | _ | ⟨b, buf⟩, stream', w'⟩
    · rfl
    · rfl
    · dsimp only
      split_ifs <;> rfl
  · have hc : t.job.fileConfirmed = false := by simpa using hc
    have hw : t.job.fileIsWaiting = true := hflags.resolve_left (by simp [hc])
    simp [hk.generic, hk.detection, hc, hw, TransferJob.jobCompleted]

/-- A job that `read` says is over has not been moved by it. -/
theorem read_over {os : Host W H} {t : Sending H} {w : W} (h : (t.read os w).1 = true) :
    (t.read os w).2.1.marks = t.marks ∧ (t.read os w).2.1.start = t.start ∧
      (t.read os w).2.1.job.files = t.job.files := by
  have hfiles := (read_fileNum os t.job w).2.1
  unfold Sending.read at h ⊢
  generalize t.job.read os w = r at h hfiles ⊢
  obtain ⟨_ | _ | block, job, w'⟩ := r
  · cases h
  · exact ⟨rfl, rfl, hfiles⟩
  · dsimp only at h
    split_ifs at h

end Sending

open Sending in
/-- In every run, of a job over files with overwrite detection that a tick reports as finished: every
file from the one it was added with was read to its end, skipped by a confirm or reported in an error
message, if and only if the tick did not drop files: its file number was not negative, and no file but
the last was at that moment found without a way to open it or without a digest. -/
theorem finished_complete_iff {W H : Type} {os : Host W H} {hist : List (Sender W H × SendEvent H)}
    {s : Sender W H} (hx : Exec Sender.Init (Sender.step os) hist s) {t₀ t : Sending H}
    (hcur : s.current = some t₀) (hk : Detecting t₀.job) (hover : (s.tick os).1 = some t) :
    t.Complete ↔ ¬t₀.Drops os s.w := by
  obtain ⟨t₁, w', hcur', hmem, hread, rfl⟩ := Sender.tick_over hover
  obtain rfl : t₁ = t₀ := Option.some.inj (hcur'.symm.trans hcur)
  have hok := Sender.exec_ok hx t₁ hmem
  have hmoved : Moved t₁ (t₁.init os s.w).1 := init_moved
  obtain ⟨hopening, hk'⟩ := init_opening os hk s.w
  obtain ⟨hmarks, hstart, hfiles⟩ := read_over hread
  rw [hmoved.start] at hstart
  rw [hmoved.files] at hfiles
  simp only [Complete, hmarks, hstart, hfiles]
  cases hopening with
  | exhausted hnone hnum hsame =>
    rw [hsame]
    have hno : ¬((OpenFails os t₁ s.w ∨ DigestFails os t₁ s.w) ∧ t₁.job.fileNum + 1 < t₁.job.files.length) := by
      rintro ⟨⟨_, _, _, hsome, _⟩ | ⟨_, _, _, hsome, _⟩, -⟩ <;> rw [hnone] at hsome <;> cases hsome
    rcases entryAt_eq_none hnone with hneg | hend
    · constructor
      · rintro hcomplete (⟨-, hne⟩ | hfails)
        · obtain ⟨m, hm, hm0⟩ := hcomplete 0 (List.length_pos_of_ne_nil hne) (by
            have := hok.start
            omega)
          have := hok.bound m hm
          omega
        · exact hno hfails
      · intro hdrops i hi
        have hempty : t₁.job.files = [] := by
          by_contra hne
          exact hdrops (.inl ⟨hneg, hne⟩)
        rw [hempty] at hi
        cases hi
    · refine ⟨fun _ => ?_, fun _ i hi hle => hok.marked i hle (by omega)⟩
      rintro (⟨hneg, -⟩ | hfails)
      · omega
      · exact hno hfails
  | failed hfails hsame =>
    have hentry : 0 ≤ t₁.job.fileNum ∧ t₁.job.fileNum < t₁.job.files.length := by
      rcases hfails with ⟨_, _, _, hsome, _⟩ | ⟨_, _, _, hsome, _⟩ <;> exact entryAt_eq_some hsome
    rw [hsame]
    constructor
    · rintro hcomplete (⟨hneg, -⟩ | ⟨-, hlt⟩)
      · omega
      · obtain ⟨m, hm, hmi⟩ := hcomplete (t₁.job.fileNum + 1).toNat (by omega) (by
          have := hok.start
          omega)
        rcases List.mem_cons.1 hm with rfl | hm
        · simp only [Mark.fileNum] at hmi
          omega
        · have := hok.bound m hm
          omega
    · intro hdrops i hi hle
      have hlast : ¬t₁.job.fileNum + 1 < t₁.job.files.length := fun hlt => hdrops (.inr ⟨hfails, hlt⟩)
      rcases lt_or_eq_of_le (show (i : Int) ≤ t₁.job.fileNum by omega) with hlt | heq
      · obtain ⟨m, hm, hmi⟩ := hok.marked i hle hlt
        exact ⟨m, List.mem_cons_of_mem _ hm, hmi⟩
      · exact ⟨.failed t₁.job.fileNum, List.mem_cons_self .., heq.symm⟩
  | opened _ _ hentry hstream hflags =>
    rw [read_not_over hk' hentry hstream hflags] at hread
    cases hread

/-! ## A file that is gone by the time it is opened -/

namespace Gone

def codec : Codec := ⟨id, id, fun _ => [], fun _ => none⟩

/-- A directory `/s` that holds `b` and `c`. -/
def disk : Disk where
  fs :=
    { node := fun k =>
        if k = [['s']] then some .dir
        else if k = [['s'], ['b']] then some (.file 0)
        else if k = [['s'], ['c']] then some (.file 1)
        else none
      data := fun _ => []
      fresh := 2 }
  mtime := fun _ => 0

/-- A job that sends files of `/s`. -/
def sends (names : List Text) : TransferJob Handle where
  id := 1
  type := .generic
  dataSource := .filePath ['/', 's']
  isLastJob := false
  isResume := false
  fileNum := 0
  files := names.map fun name => ⟨name, 0, 0⟩
  dataStream := none
  totalSize := 0
  finishedSize := 0
  transferred := 0
  enableOverwriteDetection := true
  fileConfirmed := false
  fileSkipped := false
  fileIsWaiting := false
  defaultOverwriteStrategy := none
  digest := ⟨0, 0⟩

/-- The sender once a job has been added. -/
def sender (names : List Text) : Sender Disk Handle := ⟨[⟨sends names, 0, []⟩], disk⟩

theorem exec_sender (names : List Text) :
    Exec Sender.Init (Sender.step (Disk.host codec {})) [(⟨[], disk⟩, .add (sends names))] (sender names) :=
  .snoc (.start rfl) rfl

/-- A job after the file it was at could not be opened. -/
def failed (names : List Text) : Sending Handle := ⟨{ sends names with fileNum := 1 }, 0, [.failed 0]⟩

end Gone

namespace Gone

def names : List Text := [['b'], ['c'], ['a']]

/-- The peer skips the first file and asks for the second. -/
def events : List (SendEvent Handle) :=
  [.add (sends names), .tick, .confirm ⟨1, 0, some (.skip true)⟩, .tick, .confirm ⟨1, 1, some (.offsetBlk 0)⟩,
    .tick]

/-- The job when it comes to its last file. -/
def last : Sending Handle := ⟨{ sends names with fileNum := 2 }, 0, [.eof 1, .skipped 0]⟩

theorem exec_last : ∃ hist, Exec Sender.Init (Sender.step (Disk.host codec {})) hist ⟨[last], disk⟩ := by
  have hrun : runs (Sender.step (Disk.host codec {})) ⟨[], disk⟩ events = some ⟨[last], disk⟩ := rfl
  have hstart : Exec Sender.Init (Sender.step (Disk.host codec {})) [] ⟨[], disk⟩ := .start rfl
  exact hstart.append hrun

end Gone

open Gone in
/-- Of three files the first is skipped, the second is read to its end and the last is gone: the job is
over, and all three have been accounted for. -/
theorem finished_complete_iff_last_gone :
    ∃ t, (Sender.tick (Disk.host codec {}) ⟨[last], disk⟩).1 = some t ∧
      t.marks = [.failed 2, .eof 1, .skipped 0] ∧ t.Complete := by
  obtain ⟨hist, hx⟩ := exec_last
  refine ⟨_, rfl, rfl, (finished_complete_iff hx rfl ⟨rfl, rfl, _, rfl⟩ rfl).2 ?_⟩
  rintro (⟨hneg, -⟩ | ⟨-, hlt⟩)
  · exact absurd hneg (by decide)
  · exact absurd hlt (by decide)

open Gone in
/-- The first of three files is gone: the job is reported as finished, and the other two are never
looked at. -/
theorem open_error_drops_the_rest :
    Exec Sender.Init (Sender.step (Disk.host codec {}))
        [(⟨[], disk⟩, .add (sends [['a'], ['b'], ['c']]))] (sender [['a'], ['b'], ['c']]) ∧
      handleReadJobs (Disk.host codec {}) [sends [['a'], ['b'], ['c']]] disk =
        ([.error 1 "No such file or directory (os error 2)" 1, .done 1 1], [], disk) ∧
      ((sender [['a'], ['b'], ['c']]).tick (Disk.host codec {})).1 = some (failed [['a'], ['b'], ['c']]) ∧
      ¬(failed [['a'], ['b'], ['c']]).Complete := by
  refine ⟨exec_sender _, rfl, rfl, fun hcomplete => ?_⟩
  obtain ⟨m, hm, hmi⟩ := hcomplete 1 (by decide) (by decide)
  obtain rfl := List.mem_singleton.1 hm
  exact absurd hmi (by decide)

end FontisRemote.FileTransfer
