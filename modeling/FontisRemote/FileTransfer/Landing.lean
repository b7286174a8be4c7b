import FontisRemote.FileTransfer.Containment
import FontisRemote.Lib.Run

/-!
# Where the bytes of a block land

Every file that is opened or made gets a number, and a host keeps at which path each lies: where it was
opened, until a rename moves it (a rename is taken to succeed). Whenever bytes are written, the path at
which their file lies at that moment is noted (`Host.tracked`).

`write` moves `file_num` on to the entry of a block before the steps that can fail, and has the stream of
the entry before until they are done. `stuck` says that the last of these attempts failed; the bytes of
every block that does not go on with an open file after one that failed land in its own `NAME.download`.
-/

namespace FontisRemote.FileTransfer

open FontisRemote.Lib

/-- An open file, and the how manyth it was to be opened. -/
structure Numbered (H : Type) where
  file : H
  number : Nat
deriving DecidableEq

structure Tracked (W : Type) where
  now : W
  /-- Where each file that was opened lies. -/
  places : List Text
  /-- Where bytes were written, newest first. -/
  landed : List (Option Text × Bytes)

namespace Tracked

variable {W H : Type}

def move (t : Tracked W) (w : W) : Tracked W := { t with now := w }

/-- A file opened at a path. -/
def opened (t : Tracked W) (path : Text) :
    Except String H × W → Except String (Numbered H) × Tracked W
  | (.error err, w) => (.error err, t.move w)
  | (.ok file, w) => (.ok ⟨file, t.places.length⟩, { t with now := w, places := t.places ++ [path] })

end Tracked

/-- A host that knows where its open files lie. -/
def Host.tracked {W H : Type} (os : Host W H) : Host (Tracked W) (Numbered H) where
  win := os.win
  compress := os.compress
  decompress := os.decompress
  openFile path t := t.opened path (os.openFile path t.now)
  read h n t :=
    let (res, file, w) := os.read h.file n t.now
    (res, { h with file := file }, t.move w)
  metadata h t := os.metadata h.file t.now
  pathExists path t := os.pathExists path t.now
  lstat path t := os.lstat path t.now
  openWrite path t := t.opened path (os.openWrite path t.now)
  create path t := t.opened path (os.create path t.now)
  seek h offset t :=
    match os.seek h.file offset t.now with
    | (.error err, w) => (.error err, t.move w)
    | (.ok file, w) => (.ok { h with file := file }, t.move w)
  writeAll h bytes t :=
    let (res, file, w) := os.writeAll h.file bytes t.now
    (res, { h with file := file },
      { t with now := w, landed := (t.places[h.number]?, bytes) :: t.landed })
  syncAll h t :=
    let (res, w) := os.syncAll h.file t.now
    (res, t.move w)
  rename src dst t :=
    { t with
      now := os.rename src dst t.now
      places := t.places.map fun path => if path = src then dst else path }
  removeFile path t :=
    let (res, w) := os.removeFile path t.now
    (res, t.move w)
  createDirAll dir t := t.move (os.createDirAll dir t.now)
  setFileMtime path time t := t.move (os.setFileMtime path time t.now)
  writeDigest path digest t := t.move (os.writeDigest path digest t.now)
  readDigest path t := os.readDigest path t.now
  isFile path t := os.isFile path t.now
  stat path t := os.stat path t.now

/-- The file that the blocks of an entry go to. -/
def downloadOf (win : Bool) (base : Text) (entry : FileEntry) : Text :=
  join win base entry.name ++ suffixDownload

/-! ## A job that is written to -/

namespace TransferJob

variable {H : Type} (job : TransferJob H)

/-- The block is one of the job's, and its file has to be made first. -/
def begins (block : FileTransferBlock) : Bool :=
  decide (block.id = job.id) && (entryAt job.files block.fileNum).isSome &&
    (decide (block.fileNum ≠ job.fileNum) || job.dataStream.isNone)

/-- The block goes on with the file that is open. -/
def continues (block : FileTransferBlock) : Bool :=
  decide (block.id = job.id) && (entryAt job.files block.fileNum).isSome && !job.begins block

end TransferJob

structure Receiving (W H : Type) where
  job : TransferJob (Numbered H)
  world : Tracked W
  /-- The last attempt to begin an entry failed. -/
  stuck : Bool

namespace Receiving

variable {W H : Type}

inductive Event (W H : Type)
  /-- A block is written; the machine does what it does at this call. -/
  | write (os : Host W H) (block : FileTransferBlock)
  | setDigest (size modified : Nat)
  | elsewhere (w : W)

def write (s : Receiving W H) (os : Host W H) (block : FileTransferBlock) : Receiving W H :=
  let written := s.job.write os.tracked block s.world
  ⟨written.2.1, written.2.2,
    if s.job.begins block then !(s.job.writeStream os.tracked block s.world).1.toBool else s.stuck⟩

variable (win : Bool)

def step (s : Receiving W H) : Event W H → Option (Receiving W H)
  | .write os block => if os.win = win then some (s.write os block) else none
  | .setDigest size modified => some { s with job := s.job.setDigest size modified }
  | .elsewhere w => some { s with world := s.world.move w }

/-- A new job that receives files below a base. -/
def Init (base : Text) (s : Receiving W H) : Prop :=
  ∃ id fileNum overwrite files w,
    s = ⟨{ TransferJob.newWrite id .generic (.filePath base) fileNum overwrite with files := files },
      ⟨w, [], []⟩, false⟩

/-- What a block's write puts on the disk is in `NAME.download` of the block's entry. -/
def Lands (base : Text) (s : Receiving W H) : Event W H → Prop
  | .write os block => ∃ new, (s.write os block).world.landed = new ++ s.world.landed ∧
      ∀ a ∈ new, ∃ entry, entryAt s.job.files block.fileNum = some entry ∧
        a.1 = some (downloadOf win base entry)
  | _ => True

/-- No block goes on with the file that is open after the attempt to begin an entry that failed. -/
def Unstuck (s : Receiving W H) : Event W H → Prop
  | .write _ block => s.job.continues block = true → s.stuck = false
  | _ => True

end Receiving

/-! ## The steps of a write -/

section Steps

variable {W H : Type} {os : Host W H} {base : Text} {job : TransferJob (Numbered H)}

/-- The open file lies at the `NAME.download` of the entry the job is at. -/
def AtEntry (win : Bool) (base : Text) (job : TransferJob (Numbered H)) (t : Tracked W) : Prop :=
  ∀ h, job.dataStream = some (.fileStream h) → ∃ entry,
    entryAt job.files job.fileNum = some entry ∧ t.places[h.number]? = some (downloadOf win base entry)

/-- A job that still receives the same files, with nothing written to any of them. -/
structure Quiet (base : Text) (job job' : TransferJob (Numbered H)) (t t' : Tracked W) : Prop where
  receives : Receives base job'
  files : job'.files = job.files
  landed : t'.landed = t.landed

theorem Quiet.refl (hk : Receives base job) (t : Tracked W) : Quiet base job job t t :=
  ⟨hk, rfl, rfl⟩

theorem modifyTime_landed (os : Host W H) (job : TransferJob (Numbered H)) (t : Tracked W) : (job.modifyTime os.tracked t).landed = t.landed := by
  unfold TransferJob.modifyTime
  cases job.currentPath os.tracked t with
  | none => rfl
  | some r => rfl

theorem syncStream_landed (os : Host W H) (job : TransferJob (Numbered H)) (t : Tracked W) : (job.syncStream os.tracked t).2.landed = t.landed := by
  unfold TransferJob.syncStream
  split
  · rfl
  · rfl

theorem createParent_landed (os : Host W H) (path : Text) (t : Tracked W) :
    (TransferJob.createParent os.tracked path t).landed = t.landed := by
  unfold TransferJob.createParent
  split
  · rfl
  · rfl

theorem removeDigest_landed (os : Host W H) (path : Text) (t : Tracked W) :
    (TransferJob.removeDigest os.tracked path t).2.landed = t.landed := by
  unfold TransferJob.removeDigest
  split
  · rfl
  · rfl

/-- A file that was made lies where it was made. -/
theorem create_tracked {path : Text} {t t' : Tracked W} {res : Except String (Numbered H)}
    (h : os.tracked.create path t = (res, t')) :
    t'.landed = t.landed ∧ ∀ file, res = .ok file → t'.places[file.number]? = some path := by
  change t.opened path (os.create path t.now) = (res, t') at h
  unfold Tracked.opened at h
  split at h
  · cases h
    refine ⟨rfl, ?_⟩
    intro file hfile
    cases hfile
  · cases h
    refine ⟨rfl, ?_⟩
    intro file hfile
    cases hfile
    exact List.getElem?_concat_length

theorem createStream_tracked (os : Host W H) (hk : Receives base job) {entry : FileEntry}
    (hentry : entryAt job.files job.fileNum = some entry) (t : Tracked W) :
    Quiet base job (job.createStream os.tracked base entry t).2.1 t
        (job.createStream os.tracked base entry t).2.2 ∧
      (job.createStream os.tracked base entry t).2.1.fileNum = job.fileNum ∧
      ((job.createStream os.tracked base entry t).1 = .ok () →
        AtEntry os.win base (job.createStream os.tracked base entry t).2.1
          (job.createStream os.tracked base entry t).2.2) := by
  unfold TransferJob.createStream
  simp only [hk.generic]
  cases hjoin : joinValidatedPath os.tracked.win (os.tracked.lstat · t) base entry.name with
  | error err =>
    refine ⟨.refl hk t, rfl, ?_⟩
    intro h
    cases h
  | ok path =>
    have hpath : path = join os.win base entry.name := (joinValidatedPath_ok hjoin).1
    dsimp only
    have hlanded := (removeDigest_landed os path
      (TransferJob.createParent os.tracked path t)).trans (createParent_landed os path t)
    generalize TransferJob.removeDigest os.tracked path (TransferJob.createParent os.tracked path t) = r
      at hlanded ⊢
    obtain ⟨_ | _, t₁⟩ := r
    · refine ⟨⟨hk, rfl, hlanded⟩, rfl, ?_⟩
      intro h
      cases h
    · dsimp only at hlanded ⊢
      cases hmade : os.tracked.create (path ++ suffixDownload) t₁ with
      | mk res t₂ =>
        obtain ⟨hlanded₂, hplace⟩ := create_tracked hmade
        cases res with
        | error err =>
          refine ⟨⟨hk, rfl, hlanded₂.trans hlanded⟩, rfl, ?_⟩
          intro h
          cases h
        | ok file =>
          refine ⟨⟨⟨rfl, hk.path⟩, rfl, hlanded₂.trans hlanded⟩, rfl, ?_⟩
          intro _ h hopen
          cases hopen
          refine ⟨entry, hentry, ?_⟩
          rw [downloadOf, ← hpath]
          exact hplace file rfl

theorem beginEntry_tracked (os : Host W H) (hk : Receives base job) {n : Int} {entry : FileEntry}
    (hentry : entryAt job.files n = some entry) (t : Tracked W) :
    Quiet base job (job.beginEntry os.tracked base n entry t).2.1 t
        (job.beginEntry os.tracked base n entry t).2.2 ∧
      ((job.beginEntry os.tracked base n entry t).1 = .ok () →
        (job.beginEntry os.tracked base n entry t).2.1.fileNum = n ∧
          AtEntry os.win base (job.beginEntry os.tracked base n entry t).2.1
            (job.beginEntry os.tracked base n entry t).2.2) := by
  unfold TransferJob.beginEntry
  have hlanded := (syncStream_landed os job (job.modifyTime os.tracked t)).trans
    (modifyTime_landed os job t)
  generalize job.syncStream os.tracked (job.modifyTime os.tracked t) = r at hlanded ⊢
  obtain ⟨_ | _, t₁⟩ := r
  · refine ⟨⟨hk, rfl, hlanded⟩, ?_⟩
    intro h
    cases h
  · have hmoved : Receives base { job with fileNum := n } := ⟨hk.generic, hk.path⟩
    obtain ⟨hquiet, hnum, hplaced⟩ := createStream_tracked os hmoved hentry t₁
    refine ⟨⟨hquiet.receives, hquiet.files, hquiet.landed.trans hlanded⟩, ?_⟩
    intro hok
    exact ⟨hnum, hplaced hok⟩

theorem writeAll_tracked {file : Numbered H} {bytes : Bytes} {t t' : Tracked W}
    {res : Except String Unit} {stream : DataStream (Numbered H)}
    (h : (DataStream.fileStream file).writeAll os.tracked bytes t = (res, stream, t')) :
    ∃ file', stream = .fileStream file' ∧ file'.number = file.number ∧ t'.places = t.places ∧
      t'.landed = [(t.places[file.number]?, bytes)] ++ t.landed := by
  cases h
  exact ⟨_, rfl, rfl, rfl, rfl⟩

/-- What writing a block's bytes leaves as it was, and where they land. -/
theorem writeBlock_tracked (os : Host W H) (hk : Receives base job) (block : FileTransferBlock) (t : Tracked W) :
    Receives base (job.writeBlock os.tracked block t).2.1 ∧
      (∀ win, AtEntry win base job t →
        AtEntry win base (job.writeBlock os.tracked block t).2.1
          (job.writeBlock os.tracked block t).2.2) ∧
      ∃ new, (job.writeBlock os.tracked block t).2.2.landed = new ++ t.landed ∧
        ∀ a ∈ new, ∃ h, job.dataStream = some (.fileStream h) ∧ a.1 = t.places[h.number]? := by
  unfold TransferJob.writeBlock
  dsimp only
  cases hstream : job.dataStream with
  | none => exact ⟨hk, fun _ h => h, [], rfl, fun a ha => nomatch ha⟩
  | some stream =>
    dsimp only
    generalize (if block.compressed = true then os.tracked.decompress block.data else block.data) = bytes
    cases stream with
    | bufStream data pos =>
      refine ⟨⟨hk.generic, hk.path⟩, ?_, [], rfl, fun a ha => nomatch ha⟩
      intro _ _ h hopen
      cases hopen
    | fileStream file =>
      have hnew : ∀ a ∈ [(t.places[file.number]?, bytes)], ∃ h,
          some (DataStream.fileStream file) = some (.fileStream h) ∧ a.1 = t.places[h.number]? := by
        intro a ha
        obtain rfl := List.mem_singleton.mp ha
        exact ⟨file, rfl, rfl⟩
      cases hwrite : (DataStream.fileStream file).writeAll os.tracked bytes t with
      | mk res r =>
        obtain ⟨stream, t'⟩ := r
        obtain ⟨file', rfl, hnumber, hplaces, hlanded⟩ := writeAll_tracked hwrite
        have hkept : ∀ win, AtEntry win base job t → ∃ entry,
            entryAt job.files job.fileNum = some entry ∧
              t'.places[file'.number]? = some (downloadOf win base entry) := by
          intro win hat
          rw [hnumber, hplaces]
          exact hat file hstream
        cases res with
        | error err =>
          refine ⟨⟨hk.generic, hk.path⟩, ?_, _, hlanded, hnew⟩
          intro win hat h hopen
          cases hopen
          exact hkept win hat
        | ok done =>
          refine ⟨⟨hk.generic, hk.path⟩, ?_, _, hlanded, hnew⟩
          intro win hat h hopen
          cases hopen
          exact hkept win hat

end Steps

/-! ## Runs -/

namespace Receiving

variable {W H : Type} {os : Host W H} {win : Bool} {base : Text} {s s' : Receiving W H}

/-- While no attempt to begin an entry has failed, the open file is the one of the entry the job is at. -/
structure Inv (win : Bool) (base : Text) (s : Receiving W H) : Prop where
  receives : Receives base s.job
  placed : s.stuck = false → AtEntry win base s.job s.world

/-- The bytes go to the file of the entry the job is at. -/
theorem lands_of_placed {job : TransferJob (Numbered H)} {block : FileTransferBlock} {t : Tracked W}
    {new : List (Option Text × Bytes)} (hplaced : AtEntry win base job t)
    (hnum : job.fileNum = block.fileNum)
    (hnew : ∀ a ∈ new, ∃ h, job.dataStream = some (.fileStream h) ∧ a.1 = t.places[h.number]?) :
    ∀ a ∈ new, ∃ entry, entryAt job.files block.fileNum = some entry ∧
      a.1 = some (downloadOf win base entry) := by
  intro a ha
  obtain ⟨h, hopen, heq⟩ := hnew a ha
  obtain ⟨entry, hentry, hplace⟩ := hplaced h hopen
  refine ⟨entry, hnum ▸ hentry, ?_⟩
  rw [heq]
  exact hplace

/-- A block that is not one of the job's changes nothing. -/
theorem write_of_foreign (block : FileTransferBlock) (hk : Receives base s.job)
    (h : block.id ≠ s.job.id ∨ entryAt s.job.files block.fileNum = none) : s.write os block = s := by
  have hbegins : s.job.begins block = false := by
    unfold TransferJob.begins
    obtain h | h := h
    · rw [decide_eq_false h, Bool.false_and, Bool.false_and]
    · rw [h, Option.isSome_none, Bool.and_false, Bool.false_and]
  have hwritten : (s.job.write os.tracked block s.world).2 = (s.job, s.world) := by
    unfold TransferJob.write
    split_ifs with hid
    · rfl
    · have hnone : entryAt s.job.files block.fileNum = none := h.resolve_left hid
      unfold TransferJob.writeStream
      simp only [hk.path, hnone]
  unfold write
  dsimp only
  rw [hbegins, hwritten]
  rfl

/-- A block whose file has to be made first. -/
theorem write_of_begins (h : s.Inv (os.win) base) {block : FileTransferBlock} {entry : FileEntry}
    (hid : block.id = s.job.id) (hentry : entryAt s.job.files block.fileNum = some entry)
    (hbegin : block.fileNum ≠ s.job.fileNum ∨ s.job.dataStream.isNone = true) :
    (s.write os block).Inv os.win base ∧ Lands os.win base s (.write os block) := by
  have hbegins : s.job.begins block = true := by
    unfold TransferJob.begins
    rw [decide_eq_true hid, hentry]
    obtain hne | hnone := hbegin
    · rw [decide_eq_true hne]
      rfl
    · rw [hnone, Bool.or_true]
      rfl
  have hstream : s.job.writeStream os.tracked block s.world =
      s.job.beginEntry os.tracked base block.fileNum entry s.world := by
    unfold TransferJob.writeStream
    simp only [h.receives.path, hentry]
    exact if_pos hbegin
  obtain ⟨hquiet, hplaced⟩ := beginEntry_tracked os h.receives hentry s.world
  rw [← hstream] at hquiet hplaced
  unfold Lands write TransferJob.write
  dsimp only
  rw [if_neg (not_not_intro hid), hbegins]
  generalize s.job.writeStream os.tracked block s.world = r at hquiet hplaced ⊢
  obtain ⟨_ | _, job, t⟩ := r
  · refine ⟨⟨hquiet.receives, ?_⟩, [], hquiet.landed, fun a ha => nomatch ha⟩
    intro hstuck
    cases hstuck
  · obtain ⟨hnum, hat⟩ := hplaced rfl
    obtain ⟨hreceives, hkeeps, new, hlanded, hnew⟩ :=
      writeBlock_tracked os hquiet.receives block t
    refine ⟨⟨hreceives, fun _ => hkeeps os.win hat⟩, new, ?_, ?_⟩
    · exact hlanded.trans (congrArg (new ++ ·) hquiet.landed)
    · have hown := lands_of_placed hat hnum hnew
      rw [hquiet.files] at hown
      exact hown

/-- A block that goes on with the file that is open. -/
theorem write_of_continues (h : s.Inv (os.win) base) {block : FileTransferBlock} {entry : FileEntry}
    (hid : block.id = s.job.id) (hentry : entryAt s.job.files block.fileNum = some entry)
    (hopen : ¬ (block.fileNum ≠ s.job.fileNum ∨ s.job.dataStream.isNone = true)) :
    (s.write os block).Inv os.win base ∧
      (Unstuck s (.write os block) → Lands os.win base s (.write os block)) := by
  have hnum : s.job.fileNum = block.fileNum := by
    by_contra hne
    exact hopen (.inl fun heq => hne heq.symm)
  have hbegins : s.job.begins block = false := by
    unfold TransferJob.begins
    rw [hnum, decide_eq_false (not_not_intro rfl), Bool.false_or]
    cases hnone : s.job.dataStream.isNone with
    | true => exact absurd (.inr hnone) hopen
    | false => exact Bool.and_false _
  have hcontinues : s.job.continues block = true := by
    unfold TransferJob.continues
    rw [decide_eq_true hid, hentry, hbegins]
    rfl
  have hstream : s.job.writeStream os.tracked block s.world = (.ok (), s.job, s.world) := by
    unfold TransferJob.writeStream
    simp only [h.receives.path, hentry]
    exact if_neg hopen
  obtain ⟨hreceives, hkeeps, new, hlanded, hnew⟩ :=
    writeBlock_tracked os h.receives block s.world
  have hwrite : s.job.write os.tracked block s.world = s.job.writeBlock os.tracked block s.world := by
    unfold TransferJob.write
    rw [if_neg (not_not_intro hid), hstream]
  unfold Unstuck Lands write
  dsimp only
  rw [hwrite, hbegins]
  refine ⟨⟨hreceives, fun hfree => hkeeps os.win (h.placed hfree)⟩, fun hunstuck => ?_⟩
  exact ⟨new, hlanded, lands_of_placed (h.placed (hunstuck hcontinues)) hnum hnew⟩

theorem write_lands (h : s.Inv os.win base) (block : FileTransferBlock) :
    (s.write os block).Inv os.win base ∧
      (Unstuck s (.write os block) → Lands os.win base s (.write os block)) := by
  by_cases hid : block.id = s.job.id
  · cases hentry : entryAt s.job.files block.fileNum with
    | none =>
      have hsame : s.write os block = s := write_of_foreign block h.receives (.inr hentry)
      unfold Lands
      dsimp only
      rw [hsame]
      exact ⟨h, fun _ => ⟨[], rfl, fun a ha => nomatch ha⟩⟩
    | some entry =>
      by_cases hbegin : block.fileNum ≠ s.job.fileNum ∨ s.job.dataStream.isNone = true
      · obtain ⟨hinv, hlands⟩ := write_of_begins h hid hentry hbegin
        exact ⟨hinv, fun _ => hlands⟩
      · exact write_of_continues h hid hentry hbegin
  · have hsame : s.write os block = s := write_of_foreign block h.receives (.inl hid)
    unfold Lands
    dsimp only
    rw [hsame]
    exact ⟨h, fun _ => ⟨[], rfl, fun a ha => nomatch ha⟩⟩

theorem Inv.step (h : s.Inv win base) {e : Event W H} (hstep : s.step win e = some s') :
    s'.Inv win base := by
  cases e with
  | write os block =>
    unfold Receiving.step at hstep
    dsimp only at hstep
    split at hstep
    · next hwin =>
      obtain rfl := Option.some.inj hstep
      subst hwin
      exact (write_lands h block).1
    · cases hstep
  | setDigest size modified =>
    obtain rfl := Option.some.inj hstep
    exact ⟨⟨h.receives.generic, h.receives.path⟩, h.placed⟩
  | elsewhere w =>
    obtain rfl := Option.some.inj hstep
    exact ⟨h.receives, h.placed⟩

theorem inv_of_exec {history : List (Receiving W H × Event W H)}
    (hx : Exec (Init base) (step win) history s) : s.Inv win base := by
  refine hx.invariant (I := Inv win base) ?_ fun _ _ _ h hstep => h.step hstep
  rintro s ⟨id, fileNum, overwrite, files, w, rfl⟩
  refine ⟨⟨rfl, rfl⟩, ?_⟩
  intro _ h hopen
  cases hopen

section TwoFiles

def plainDisk (f : Faults) : Host Disk Handle :=
  Disk.host ⟨id, id, fun _ => [], fun _ => none⟩ f

def twoFiles : Receiving Disk Handle :=
  ⟨{ TransferJob.newWrite 1 .generic (.filePath ['/', 'd']) 0 false with
      files := [⟨['a'], 1, 0⟩, ⟨['b'], 1, 0⟩] }, ⟨Disk.empty, [], []⟩, false⟩

theorem exec_twoFiles : Exec (Init ['/', 'd']) (step false) [] twoFiles :=
  .start ⟨1, 0, false, _, _, rfl⟩

/-- The block of the second file comes while the first cannot be synced. -/
def unsynced : List (Event Disk Handle) :=
  [.write (plainDisk {}) ⟨1, 0, [1], false⟩, .write (plainDisk { sync := true }) ⟨1, 1, [2], false⟩]

theorem unsynced_runs : (trace (step false) twoFiles unsynced).isSome = true := by
  decide +kernel

/-- The second file cannot be made. -/
def unmade : List (Event Disk Handle) :=
  [.write (plainDisk {}) ⟨1, 0, [1], false⟩, .write (plainDisk { create := true }) ⟨1, 1, [2], false⟩]

theorem unmade_runs : (trace (step false) twoFiles unmade).isSome = true := by
  decide +kernel

end TwoFiles

end Receiving

end FontisRemote.FileTransfer
