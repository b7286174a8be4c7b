import FontisRemote.FileTransfer.Keys

/-!
# What a write job does to a disk

The calls of a job that receives files, where nothing fails on the disk but for what is at a path: what
`modify_time` and the beginning of an entry leave at the paths of the entry (`keyOf`).
-/

namespace FontisRemote.FileTransfer

open FontisRemote.Lib

/-- Where a file of the list lies, or with a suffix its side file. -/
def keyOf (base : Text) (file : FileEntry) (sfx : Text) : List Text := pathKey base ++ pathKey (file.name ++ sfx)

section Keys

variable {base : Text} {file : FileEntry} {sfx : Text} (h : Listed file.name)

include h

theorem pathKey_keyOf (base sfx : Text) : pathKey (join false base file.name ++ sfx) = keyOf base file sfx := by
  have hne : file.name ++ sfx ≠ [] := fun heq => h.ne (List.append_eq_nil_iff.1 heq).1
  have hsep : (file.name ++ sfx).head?.any (isSep false) = false := by
    rw [List.head?_append_of_ne_nil _ h.ne]
    exact h.sep
  rw [join_suffix base h.ne h.sep, pathKey_join base hne hsep, keyOf]

theorem pathKey_file (base : Text) : pathKey (join false base file.name) = keyOf base file [] := by
  rw [← pathKey_keyOf h, List.append_nil]

theorem mustDir_file (base : Text) : mustDir (join false base file.name) = false := by
  obtain ⟨hend, -⟩ := Bool.or_eq_false_iff.1 h.file
  obtain ⟨ini, last, -, hdot, hsegments, -⟩ := segments_concat h.ne h.file
  refine Bool.or_eq_false_iff.2 ⟨?_, ?_⟩
  · rw [join_unix base h.ne h.sep]
    split_ifs
    · rwa [List.getLast?_append_of_ne_nil _ (List.cons_ne_nil _ _), List.getLast?_cons_of_ne_nil h.ne]
    · rwa [List.getLast?_append_of_ne_nil _ h.ne]
  · rw [decide_eq_false_iff_not, segments_join base h.ne h.sep, hsegments, ← List.append_assoc, List.getLast?_concat]
    simpa using hdot

/-- The file and its side files lie in one directory. -/
theorem keyOf_beside (base : Text) : ∃ dir last, pathKey base <+: dir ∧
    ∀ sfx ∈ suffixes, keyOf base file sfx = dir ++ [last ++ sfx] := by
  obtain ⟨dir, last, -, hsuffix⟩ := pathKey_suffix h.ne h.file
  refine ⟨pathKey base ++ dir, last, List.prefix_append .., fun sfx hsfx => ?_⟩
  rw [keyOf, hsuffix sfx hsfx, List.append_assoc]

theorem keyOf_below (base : Text) (hsfx : sfx ∈ suffixes) :
    pathKey base <+: keyOf base file sfx ∧ keyOf base file sfx ≠ pathKey base := by
  obtain ⟨dir, last, hdir, hkey⟩ := keyOf_beside h base
  rw [hkey sfx hsfx]
  refine ⟨hdir.trans (List.prefix_append ..), fun heq => ?_⟩
  have hlength := hdir.length_le
  rw [← heq, List.length_append, List.length_singleton] at hlength
  omega

theorem keyOf_inj {sfx' : Text} (hsfx : sfx ∈ suffixes) (hsfx' : sfx' ∈ suffixes)
    (heq : keyOf base file sfx <+: keyOf base file sfx') : sfx = sfx' := by
  obtain ⟨dir, last, -, hkey⟩ := keyOf_beside h base
  rw [hkey sfx hsfx, hkey sfx' hsfx'] at heq
  have hsame := heq.eq_of_length (by simp)
  have hlast := List.append_cancel_left hsame
  exact List.append_cancel_left (List.singleton_inj.1 hlast)

theorem keyOf_ne {sfx' : Text} (hsfx : sfx ∈ suffixes) (hsfx' : sfx' ∈ suffixes) (hne : sfx ≠ sfx') :
    keyOf base file sfx ≠ keyOf base file sfx' := by
  intro heq
  have hpre : keyOf base file sfx <+: keyOf base file sfx' := by rw [heq]
  exact hne (keyOf_inj h hsfx hsfx' hpre)

end Keys

/-! ## The directory of a path -/

/-- The names of components, as directories are made for them. -/
def dirNames (cs : List Component) : List Text :=
  cs.filterMap fun
    | .normal seg => some seg
    | .parentDir => some ['.', '.']
    | _ => none

theorem dirNames_components (t : Text) : dirNames (components false t) = pathKey t := by
  have hsegments : ∀ segs : List Text, dirNames (segs.filterMap (component? false)) = segs.filter (· ≠ ['.']) := by
    intro segs
    induction segs with
    | nil => rfl
    | cons seg segs ih =>
      unfold dirNames at ih ⊢
      by_cases hdot : seg = ['.']
      · simpa [component?, hdot] using ih
      · by_cases hdots : seg = ['.', '.']
        · simpa [component?, hdots] using ih
        · simpa [component?, hdot, hdots] using ih
  rw [pathKey, ← hsegments]
  unfold components dirNames
  have hverbatim : isVerbatim false t = false := rfl
  have hpfx : parsePrefix false t = none := rfl
  rw [hverbatim, hpfx]
  split_ifs <;> rfl

/-- The disk with the directory of the file made. -/
def withParent (base : Text) (file : FileEntry) (d : Disk) : Disk :=
  { d with fs := d.fs.mkdirs [] (keyOf base file []).dropLast }

theorem withParent_fileAt (base : Text) (file : FileEntry) (d : Disk) (k : List Text) :
    (withParent base file d).fs.fileAt k = d.fs.fileAt k :=
  d.fs.mkdirs_fileAt [] _ k

theorem createParent_eq {c : Codec} {base : Text} {file : FileEntry} (h : Listed file.name) (d : Disk) :
    TransferJob.createParent (Disk.host c {}) (join false base file.name) d = withParent base file d := by
  obtain ⟨-, hdots, -, -⟩ := validateFileNameNoTraversal_ok h.valid
  obtain ⟨ini, last, hne, hdot, hsegments, -⟩ := segments_concat h.ne h.file
  have hlast : component? false last = some (.normal last) := by
    have hlast : last ≠ ['.', '.'] := by
      rintro rfl
      have hmem : ['.', '.'] ∈ segments false file.name := hsegments ▸ List.mem_append_right _ (List.mem_singleton_self _)
      rw [segments_unix] at hmem
      exact hdots (List.mem_filter.1 hmem).1
    simp [component?, hdot, hlast]
  obtain ⟨init, hinit⟩ : ∃ init, components false (join false base file.name) = init ++ [.normal last] := by
    unfold components
    rw [segments_join base h.ne h.sep, hsegments, ← List.append_assoc (segments false base), List.filterMap_append]
    have hverbatim : isVerbatim false (join false base file.name) = false := rfl
    rw [hverbatim, List.filterMap_cons_some hlast, List.filterMap_nil, ← List.append_assoc]
    exact ⟨_, rfl⟩
  have hparent : parent false (join false base file.name) = some init := by
    rw [parent, hinit, List.getLast?_concat, List.dropLast_concat]
  have hnames : dirNames init = (keyOf base file []).dropLast := by
    have hall := dirNames_components (join false base file.name)
    rw [pathKey_file h, hinit] at hall
    rw [← hall]
    unfold dirNames
    rw [List.filterMap_append]
    exact List.dropLast_concat.symm
  have hwin : (Disk.host c {}).win = false := rfl
  unfold TransferJob.createParent
  rw [hwin, hparent, withParent, ← hnames]
  rfl

/-! ## The calls -/

/-- The name is joined with the base. -/
def Resolves (base : Text) (file : FileEntry) (d : Disk) : Prop :=
  joinValidatedPath false (Disk.lstat · d) base file.name = .ok (join false base file.name)

section Calls

variable {c : Codec} {base : Text} {job : TransferJob Handle} {file : FileEntry} {d : Disk}

theorem joinValidatedPath_of_not (h : ¬ Resolves base file d) :
    ∃ err, joinValidatedPath false (Disk.lstat · d) base file.name = .error err := by
  cases hjoin : joinValidatedPath false (Disk.lstat · d) base file.name with
  | error err => exact ⟨err, rfl⟩
  | ok path =>
    obtain ⟨rfl, -⟩ := joinValidatedPath_ok hjoin
    exact absurd hjoin h

variable (hk : Receives base job) (hentry : entryAt job.files job.fileNum = some file)

include hk hentry

theorem modifyTime_of_not (h : ¬ Resolves base file d) : job.modifyTime (Disk.host c {}) d = d := by
  obtain ⟨err, hjoin⟩ := joinValidatedPath_of_not h
  have hwin : (Disk.host c {}).win = false := rfl
  have hlstat : (fun t => (Disk.host c {}).lstat t d) = (Disk.lstat · d) := rfl
  unfold TransferJob.modifyTime TransferJob.currentPath TransferJob.resolveEntryPath
  simp only [hk.generic, hk.path, hentry, hwin, hlstat, hjoin]
  rfl

/-- What `modify_time` leaves: the digest is removed, and the download moved to its name. -/
theorem modifyTime_fs (hlisted : Listed file.name) (h : Resolves base file d) :
    (job.modifyTime (Disk.host c {}) d).fs =
      ((((d.fs.remove (keyOf base file suffixDigest)).getD d.fs).rename (keyOf base file suffixDownload)
        (keyOf base file [])).getD ((d.fs.remove (keyOf base file suffixDigest)).getD d.fs)) := by
  have hwin : (Disk.host c {}).win = false := rfl
  have hlstat : (fun t => (Disk.host c {}).lstat t d) = (Disk.lstat · d) := rfl
  have hcurrent : job.currentPath (Disk.host c {}) d = some (join false base file.name, file) := by
    unfold TransferJob.currentPath TransferJob.resolveEntryPath
    simp only [hk.generic, hk.path, hentry, hwin, hlstat]
    rw [show joinValidatedPath false (Disk.lstat · d) base file.name = _ from h]
    rfl
  have hremove : ∀ t, mustDir t = false →
      ((Disk.host c {}).removeFile t d).2.fs = (d.fs.remove (pathKey t)).getD d.fs := by
    intro t ht
    simp only [Disk.host, ht, Bool.or_self, Bool.false_eq_true, if_false]
    cases d.fs.remove (pathKey t) with
    | none => rfl
    | some fs => rfl
  have hrename : ∀ src dst d', mustDir src = false → mustDir dst = false →
      ((Disk.host c {}).rename src dst d').fs = (d'.fs.rename (pathKey src) (pathKey dst)).getD d'.fs := by
    intro src dst d' hsrc hdst
    simp only [Disk.host, hsrc, hdst, Bool.or_self, Bool.false_eq_true, if_false]
  have hmtime : ∀ t time d', ((Disk.host c {}).setFileMtime t time d').fs = d'.fs := by
    intro t time d'
    simp only [Disk.host]
    split <;> rfl
  unfold TransferJob.modifyTime
  rw [hcurrent]
  dsimp only
  rw [hmtime, hrename _ _ _ (mustDir_suffix _ (by decide) (by decide)) (mustDir_file hlisted base),
    hremove _ (mustDir_suffix _ (by decide) (by decide)), pathKey_keyOf hlisted, pathKey_keyOf hlisted,
    pathKey_file hlisted]

omit hentry

theorem createStream_of_not (h : ¬ Resolves base file d) :
    ∃ err, job.createStream (Disk.host c {}) base file d = (.error err, job, d) := by
  obtain ⟨err, hjoin⟩ := joinValidatedPath_of_not h
  have hwin : (Disk.host c {}).win = false := rfl
  have hlstat : (fun t => (Disk.host c {}).lstat t d) = (Disk.lstat · d) := rfl
  refine ⟨err, ?_⟩
  unfold TransferJob.createStream
  rw [hk.generic, hwin, hlstat, hjoin]

variable (hlisted : Listed file.name) (h : Resolves base file d) {w : Disk}

include hlisted h

theorem createStream_eq : job.createStream (Disk.host c {}) base file d =
    match TransferJob.removeDigest (Disk.host c {}) (join false base file.name) (withParent base file d) with
    | (.error err, w) => (.error err, job, w)
    | (.ok (), w) =>
      match (Disk.host c {}).create (join false base file.name ++ suffixDownload) w with
      | (.error err, w) => (.error err, job, w)
      | (.ok handle, w) => (.ok (), { job with dataStream := some (.fileStream handle) },
          (Disk.host c {}).writeDigest (join false base file.name ++ suffixDigest) job.digest w) := by
  have hwin : (Disk.host c {}).win = false := rfl
  have hlstat : (fun t => (Disk.host c {}).lstat t d) = (Disk.lstat · d) := rfl
  unfold TransferJob.createStream
  rw [hk.generic, hwin, hlstat, show joinValidatedPath false (Disk.lstat · d) base file.name = _ from h]
  dsimp only
  rw [createParent_eq hlisted]
  rcases TransferJob.removeDigest (Disk.host c {}) (join false base file.name) (withParent base file d) with ⟨_ | _, w⟩
  · rfl
  · dsimp only
    rcases (Disk.host c {}).create (join false base file.name ++ suffixDownload) w with ⟨_ | _, w⟩
    · rfl
    · rfl

theorem createStream_of_error {err : String}
    (hdigest : TransferJob.removeDigest (Disk.host c {}) (join false base file.name) (withParent base file d) =
      (.error err, w)) : job.createStream (Disk.host c {}) base file d = (.error err, job, w) := by
  rw [createStream_eq hk hlisted h, hdigest]

variable (hdigest : TransferJob.removeDigest (Disk.host c {}) (join false base file.name) (withParent base file d) =
  (.ok (), w))

include hdigest

theorem createStream_of_none (hcreate : w.fs.create (keyOf base file suffixDownload) = none) :
    job.createStream (Disk.host c {}) base file d =
      (.error "No such file or directory (os error 2)", job, w) := by
  have hdir := mustDir_suffix (join false base file.name) (show suffixDownload ∈ suffixes by decide) (by decide)
  rw [createStream_eq hk hlisted h, hdigest]
  simp only [Disk.host, Disk.making, hdir, pathKey_keyOf hlisted, Bool.false_eq_true, if_false, hcreate]

/-- With the old digest gone the download is made, and after it the digest. -/
theorem createStream_of_some {ino : Nat} {fs : FileSystem Text UInt8}
    (hcreate : w.fs.create (keyOf base file suffixDownload) = some (ino, fs)) :
    job.createStream (Disk.host c {}) base file d =
      (.ok (), { job with dataStream := some (.fileStream ⟨ino, 0, true⟩) },
        (Disk.host c {}).writeDigest (join false base file.name ++ suffixDigest) job.digest { w with fs := fs }) := by
  have hdir := mustDir_suffix (join false base file.name) (show suffixDownload ∈ suffixes by decide) (by decide)
  rw [createStream_eq hk hlisted h, hdigest]
  simp only [Disk.host, Disk.making, hdir, pathKey_keyOf hlisted, Bool.false_eq_true, if_false, hcreate]

end Calls

section SideFiles

variable {c : Codec} {base : Text} {file : FileEntry} {d : Disk} (hlisted : Listed file.name)

include hlisted

/-- What is at the digest's path decides whether it can be removed. -/
theorem removeDigest_eq :
    TransferJob.removeDigest (Disk.host c {}) (join false base file.name) d =
      match d.fs.node (keyOf base file suffixDigest) with
      | none => (.ok (), d)
      | some (.file _) => (.ok (), { d with fs := d.fs.setNode (keyOf base file suffixDigest) none })
      | some .dir => (.error "No such file or directory (os error 2)", d) := by
  have hdir := mustDir_suffix (join false base file.name) (show suffixDigest ∈ suffixes by decide) (by decide)
  have hnil : keyOf base file suffixDigest ≠ [] := fun hnil =>
    (keyOf_below hlisted base (show suffixDigest ∈ suffixes by decide)).2
      (hnil ▸ (List.prefix_nil.1 (hnil ▸ (keyOf_below hlisted base (by decide)).1)).symm)
  unfold TransferJob.removeDigest
  simp only [Disk.host, Disk.pathExists, Disk.isFile, hdir, pathKey_keyOf hlisted, FileSystem.isDir, hnil,
    FileSystem.fileAt, FileSystem.remove]
  cases d.fs.node (keyOf base file suffixDigest) with
  | none => simp
  | some n => cases n <;> simp

theorem writeDigest_fs (digest : FileDigest) :
    ((Disk.host c {}).writeDigest (join false base file.name ++ suffixDigest) digest d).fs =
      match d.fs.create (keyOf base file suffixDigest) with
      | some (ino, fs) => fs.setData ino (overwrite (fs.data ino) 0 (c.writeDigest digest))
      | none => d.fs := by
  have hdir := mustDir_suffix (join false base file.name) (show suffixDigest ∈ suffixes by decide) (by decide)
  simp only [Disk.host, Disk.making, hdir, pathKey_keyOf hlisted, Bool.false_eq_true, if_false]
  cases d.fs.create (keyOf base file suffixDigest) with
  | none => rfl
  | some r => rfl

/-- It changes nothing but what is at the digest's path. -/
theorem writeDigest_node (digest : FileDigest) {j : List Text} (hj : j ≠ keyOf base file suffixDigest) :
    ((Disk.host c {}).writeDigest (join false base file.name ++ suffixDigest) digest d).fs.node j = d.fs.node j := by
  rw [writeDigest_fs hlisted]
  cases hcreate : d.fs.create (keyOf base file suffixDigest) with
  | none => rfl
  | some r => exact (FileSystem.create_node hcreate).2.1 j hj

end SideFiles

/-! ## Blocks -/

/-- A job that receives these files below a base. -/
structure Takes (base : Text) (files : List FileEntry) (id : Int) (job : TransferJob Handle) : Prop
    extends Receives base job where
  files : job.files = files
  id : job.id = id

section Blocks

variable {c : Codec} {base : Text} {files : List FileEntry} {id : Int} {job : TransferJob Handle} {file : FileEntry}
  {block : FileTransferBlock} {d : Disk}

/-- The first block of a file begins it. -/
theorem write_begins (hk : Takes base files id job) (hid : block.id = id)
    (hentry : entryAt files block.fileNum = some file)
    (hbegin : block.fileNum ≠ job.fileNum ∨ job.dataStream.isNone = true) :
    job.write (Disk.host c {}) block d =
      match TransferJob.createStream (Disk.host c {}) { job with fileNum := block.fileNum } base file
        (job.modifyTime (Disk.host c {}) d) with
      | (.error err, job, w) => (.error err, job, w)
      | (.ok (), job, w) => job.writeBlock (Disk.host c {}) block w := by
  have hsync : ∀ w, job.syncStream (Disk.host c {}) w = (.ok (), w) := by
    intro w
    unfold TransferJob.syncStream
    split
    · rfl
    · rfl
  have hstream : job.writeStream (Disk.host c {}) block d =
      TransferJob.createStream (Disk.host c {}) { job with fileNum := block.fileNum } base file
        (job.modifyTime (Disk.host c {}) d) := by
    unfold TransferJob.writeStream TransferJob.beginEntry
    simp only [hk.path, hk.files, hentry, hsync, hbegin, if_true]
  unfold TransferJob.write
  rw [if_neg (not_not_intro (hid.trans hk.id.symm)), hstream]
  rcases TransferJob.createStream (Disk.host c {}) { job with fileNum := block.fileNum } base file
    (job.modifyTime (Disk.host c {}) d) with ⟨_ | _, job', w⟩
  · rfl
  · rfl

/-- The others are written where the first one was. -/
theorem write_continues (hk : Takes base files id job) (hid : block.id = id)
    (hentry : entryAt files block.fileNum = some file) (hnum : job.fileNum = block.fileNum)
    (hsome : job.dataStream.isSome = true) :
    job.write (Disk.host c {}) block d = job.writeBlock (Disk.host c {}) block d := by
  have hnot : ¬ (block.fileNum ≠ job.fileNum ∨ job.dataStream.isNone = true) := by
    rintro (hne | hnone)
    · exact hne hnum.symm
    · rw [Option.isNone_iff_eq_none.1 hnone] at hsome
      cases hsome
  have hstream : job.writeStream (Disk.host c {}) block d = (.ok (), job, d) := by
    unfold TransferJob.writeStream
    simp only [hk.path, hk.files, hentry, hnot, if_false]
  unfold TransferJob.write
  rw [if_neg (not_not_intro (hid.trans hk.id.symm)), hstream]

end Blocks

end FontisRemote.FileTransfer
