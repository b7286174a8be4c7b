import FontisRemote.FileTransfer.Collisions

/-!
# A transfer and what arrives

The blocks of a read job written by a job that has received the same list, into a directory that was empty.
Whether the files arrive is decided by their names (`SideFilesClear`): a file is lost if and only if the
download or the digest of a later one goes where it lies, or to a directory above it
(`transfer_round_trip_iff`).
-/

namespace FontisRemote.FileTransfer

open FontisRemote.Lib

/-- No side file of a file goes where a file before it in the list lies, or above it. -/
def SideFilesClear (files : List FileEntry) : Prop :=
  files.Pairwise fun earlier later => ∀ sfx ∈ [suffixDownload, suffixDigest],
    ¬ pathKey (later.name ++ sfx) <+: pathKey earlier.name

instance (files : List FileEntry) : Decidable (SideFilesClear files) :=
  inferInstanceAs (Decidable (files.Pairwise _))

/-- A disk as a file system has it: nothing is below a file. -/
def TreeLike (d : Disk) : Prop :=
  ∀ j k, (d.fs.fileAt j).isSome → (d.fs.fileAt k).isSome → j <+: k → j = k

/-- A directory in which nothing is. -/
structure EmptyAt (base : Text) (d : Disk) : Prop where
  root : d.fs.isDir (pathKey base)
  free : ∀ j, j <+: pathKey base → d.fs.fileAt j = none
  numbered : d.fs.Numbered
  nothing : ∀ j, pathKey base <+: j → j ≠ pathKey base → d.fs.node j = none

theorem EmptyAt.stored {base : Text} {d : Disk} (h : EmptyAt base d) (content : FileEntry → Bytes) :
    Stored base content [] d where
  housed := by
    refine ⟨h.root, h.free, h.numbered, fun j hj hne hdir => ?_, ?_⟩
    · rw [h.nothing j hj hne] at hdir
      cases hdir
    · rintro a ⟨f, hf, -⟩
      cases hf
  below := by
    ext k
    constructor
    · rintro ⟨hk, hfile⟩
      by_cases hne : k = pathKey base
      · rw [h.free k (hne ▸ List.prefix_refl _)] at hfile
        cases hfile
      · rw [FileSystem.fileAt_none_of_none (h.nothing k hk hne)] at hfile
        cases hfile
    · rintro ⟨f, hf, -⟩
      cases hf
  contents f hf := by cases hf

section Run

variable {c : Codec} {base : Text} {content : FileEntry → Bytes} {files done after : List FileEntry} {id : Int}
  {job : TransferJob Handle} {d : Disk} {blocks : List FileTransferBlock} {n : ℕ∞}

/-- With nothing below the base there is nothing that the first `modify_time` could move. -/
theorem Stored.modifyTime_nil (hlisted : ∀ file ∈ files, Listed file.name) (hk : Takes base files id job)
    (hs : Stored base content [] d) : Stored base content [] (job.modifyTime (Disk.host c {}) d) := by
  cases hentry : entryAt job.files job.fileNum with
  | none =>
    have hnone : job.modifyTime (Disk.host c {}) d = d := by
      unfold TransferJob.modifyTime TransferJob.currentPath
      rw [hk.generic, hk.path, hentry]
    rwa [hnone]
  | some file =>
    have hmem : file ∈ files := by
      rw [hk.files] at hentry
      unfold entryAt at hentry
      split_ifs at hentry
      exact List.mem_of_getElem? hentry
    have hlisted := hlisted file hmem
    by_cases hres : Resolves base file d
    · have hnone : ∀ sfx ∈ suffixes, d.fs.fileAt (keyOf base file sfx) = none := by
        intro sfx hsfx
        by_contra hsome
        have hbelow : keyOf base file sfx ∈ d.fs.filesBelow (pathKey base) :=
          ⟨(keyOf_below hlisted base hsfx).1, Option.isSome_iff_ne_none.2 hsome⟩
        rw [hs.below] at hbelow
        obtain ⟨f, hf, -⟩ := hbelow
        cases hf
      have hnode : ∀ sfx ∈ suffixes, d.fs.node (keyOf base file sfx) = none := by
        intro sfx hsfx
        refine FileSystem.node_eq_none (hnone sfx hsfx) fun hdir => ?_
        obtain ⟨hbelow, hne⟩ := keyOf_below hlisted base hsfx
        obtain ⟨a, ⟨f, hf, -⟩, -⟩ := hs.housed.dirs _ hbelow hne hdir
        cases hf
      have hfs : (job.modifyTime (Disk.host c {}) d).fs = d.fs := by
        rw [modifyTime_fs hk.toReceives hentry hlisted hres, FileSystem.remove, hnode _ (by decide)]
        simp only [Option.getD_none]
        rw [FileSystem.rename, hnode _ (by decide)]
        rfl
      exact ⟨hfs ▸ hs.housed, hfs ▸ hs.below, fun f hf => by cases hf⟩
    · rwa [modifyTime_of_not hk.toReceives hentry hres]

/-- Each of the files that are left adds one at most. -/
theorem received_files_count (hlisted : ∀ file ∈ files, Listed file.name) (hk : Takes base files id job)
    (hbefore : job.fileNum < done.length ∨ job.dataStream.isNone = true) (hfiles : files = done ++ after)
    (hcarries : Carries (Disk.host c {}) id content done.length after blocks)
    (hn : ((job.modifyTime (Disk.host c {}) d).fs.filesBelow (pathKey base)).encard ≤ n) :
    (((received (Disk.host c {}) job blocks d).1.modifyTime (Disk.host c {})
      (received (Disk.host c {}) job blocks d).2).fs.filesBelow (pathKey base)).encard ≤ n + after.length := by
  induction after generalizing job d done blocks n with
  | nil =>
    cases hcarries
    rw [List.length_nil, Nat.cast_zero, add_zero]
    exact hn
  | cons file after ih =>
    obtain ⟨first, rest, hfirst, hlater, rfl⟩ : ∃ first rest,
        CarriesFile (Disk.host c {}) id done.length (content file) first ∧
          Carries (Disk.host c {}) id content (done.length + 1) after rest ∧ blocks = first ++ rest := by
      cases hcarries with
      | cons hfirst hlater => exact ⟨_, _, hfirst, hlater, rfl⟩
    have hentry : entryAt files done.length = some file := by
      rw [entryAt_nat, hfiles, List.getElem?_append_right le_rfl, Nat.sub_self]
      rfl
    have hmem : file ∈ files := hfiles ▸ List.mem_append_right _ (List.mem_cons_self ..)
    have hbegin : (done.length : Int) ≠ job.fileNum ∨ job.dataStream.isNone = true :=
      hbefore.imp_left fun hlt => hlt.ne'
    obtain ⟨job', d', hreceived, hk', hnum', hfew⟩ :=
      received_count (hlisted file hmem) hk hentry hbegin hn hfirst.ne hfirst.own
    rw [received_append, hreceived]
    have hlength : done.length + 1 = (done ++ [file]).length := by
      rw [List.length_append, List.length_singleton]
    have hrest : files = (done ++ [file]) ++ after := by
      rw [hfiles, List.append_assoc]
      rfl
    have hlt : job'.fileNum < (done ++ [file]).length := by
      rw [hnum', ← hlength]
      exact_mod_cast Nat.lt_succ_self _
    rw [List.length_cons, Nat.cast_add, Nat.cast_one, add_comm (after.length : ℕ∞), ← add_assoc]
    exact ih hk' (.inl hlt) hrest (hlength ▸ hlater)
      (hfew.modifyTime (hlisted file hmem) hk'.toReceives (by rw [hk'.files, hnum', hentry]))

theorem places_eq (base : Text) (files : List FileEntry) :
    places base files = ((files.map (keyOf base · [])).toFinset : Set (List Text)) := by
  ext k
  simp [places]

/-- Neither file lies where the other does, or below it. -/
def Apart (base : Text) (f g : FileEntry) : Prop :=
  ¬ keyOf base f [] <+: keyOf base g [] ∧ ¬ keyOf base g [] <+: keyOf base f []

/-- No side file of the later one goes where the earlier one lies, or above it. -/
def Spares (base : Text) (earlier later : FileEntry) : Prop :=
  ∀ sfx ∈ [suffixDownload, suffixDigest], ¬ keyOf base later sfx <+: keyOf base earlier []

theorem fits_of_apart {file : FileEntry} (hlisted : Listed file.name) (hapart : ∀ f ∈ done, Apart base f file)
    (hspares : ∀ f ∈ done, Spares base f file) : Fits base content done file where
  listed := hlisted
  notBelow f hf hpre := absurd hpre (hapart f hf).1
  notAbove f hf hpre := absurd hpre (hapart f hf).2
  clear := hspares
  same f hf heq := by
    have hpre : keyOf base f [] <+: keyOf base file [] := by rw [heq]
    exact absurd hpre (hapart f hf).1

/-- What stands in the way of a side file that does not spare a file. -/
theorem Stored.in_the_way (hs : Stored base content done d) {f : FileEntry} (hf : f ∈ done) {k : List Text}
    (hbelow : pathKey base <+: k) (hne : k ≠ pathKey base) (hpre : k <+: keyOf base f []) :
    k ∈ d.fs.filesBelow (pathKey base) ∨ d.fs.node k = some .dir := by
  have hmem : keyOf base f [] ∈ places base done := ⟨f, hf, rfl⟩
  by_cases hk : k = keyOf base f []
  · rw [hs.below, hk]
    exact .inl hmem
  · have hdir := hs.housed.above _ hmem k hbelow hpre hk
    refine .inr (hdir.resolve_left ?_)
    rintro rfl
    exact hne (List.prefix_nil.1 hbelow).symm

/-- The side files of what is left spare every file before them. -/
def SparesBefore (base : Text) (done after : List FileEntry) : Prop :=
  (∀ f ∈ done, ∀ g ∈ after, Spares base f g) ∧ after.Pairwise (Spares base)

theorem sparesBefore_cons {file : FileEntry} (hspares : ∀ f ∈ done, Spares base f file) :
    SparesBefore base done (file :: after) ↔ SparesBefore base (done ++ [file]) after := by
  unfold SparesBefore
  simp only [List.forall_mem_cons, List.pairwise_cons, List.forall_mem_append, List.not_mem_nil, IsEmpty.forall_iff,
    implies_true, and_true]
  constructor
  · rintro ⟨hbefore, hfile, hafter⟩
    exact ⟨⟨fun f hf => (hbefore f hf).2, hfile⟩, hafter⟩
  · rintro ⟨⟨hbefore, hfile⟩, hafter⟩
    exact ⟨fun f hf => ⟨hspares f hf, hbefore f hf⟩, hfile, hafter⟩

/-- The files before arrived. Then those that are left do, if their side files spare the files before them;
otherwise there are fewer files than the list has. -/
theorem received_files (hlisted : ∀ file ∈ files, Listed file.name) (hapart : files.Pairwise (Apart base))
    (hk : Takes base files id job) (hfiles : files = done ++ after)
    (hbefore : job.fileNum < done.length ∧ job.dataStream.isSome = true ∨ done = [] ∧ job.dataStream = none)
    (hcarries : Carries (Disk.host c {}) id content done.length after blocks)
    (hs : Stored base content done (job.modifyTime (Disk.host c {}) d)) :
    SparesBefore base done after ∧
        Stored base content files ((received (Disk.host c {}) job blocks d).1.modifyTime (Disk.host c {})
          (received (Disk.host c {}) job blocks d).2) ∨
      ¬ SparesBefore base done after ∧ (((received (Disk.host c {}) job blocks d).1.modifyTime (Disk.host c {})
        (received (Disk.host c {}) job blocks d).2).fs.filesBelow (pathKey base)).encard + 1 ≤ files.length := by
  induction after generalizing job d done blocks with
  | nil =>
    cases hcarries
    rw [List.append_nil] at hfiles
    exact .inl ⟨⟨fun _ _ _ hg => absurd hg List.not_mem_nil, List.Pairwise.nil⟩, hfiles ▸ hs⟩
  | cons file after ih =>
    obtain ⟨first, rest, hfirst, hlater, rfl⟩ : ∃ first rest,
        CarriesFile (Disk.host c {}) id done.length (content file) first ∧
          Carries (Disk.host c {}) id content (done.length + 1) after rest ∧ blocks = first ++ rest := by
      cases hcarries with
      | cons hfirst hlater => exact ⟨_, _, hfirst, hlater, rfl⟩
    have hentry : entryAt files done.length = some file := by
      rw [entryAt_nat, hfiles, List.getElem?_append_right le_rfl, Nat.sub_self]
      rfl
    have hmem : file ∈ files := hfiles ▸ List.mem_append_right _ (List.mem_cons_self ..)
    have hlength : done.length + 1 = (done ++ [file]).length := by
      rw [List.length_append, List.length_singleton]
    have hrest : files = (done ++ [file]) ++ after := by
      rw [hfiles, List.append_assoc]
      rfl
    have hlt : ∀ job' : TransferJob Handle, job'.fileNum = done.length → job'.fileNum < (done ++ [file]).length := by
      intro job' hnum
      rw [hnum, ← hlength]
      exact_mod_cast Nat.lt_succ_self _
    rw [received_append]
    by_cases hspares : ∀ f ∈ done, Spares base f file
    · -- this file arrives, and the rest decides
      have hdone : ∀ f ∈ done, Apart base f file := fun f hf =>
        (List.pairwise_append.1 (hfiles ▸ hapart)).2.2 f hf file (List.mem_cons_self ..)
      have hidle : job.dataStream = none ∨ job.fileNum < done.length :=
        hbefore.elim (fun h => .inr h.1) fun h => .inl h.2
      obtain ⟨job', d', hreceived, hk', hnum', hsome', hs'⟩ :=
        received_file (fits_of_apart (hlisted file hmem) hdone hspares) hk hidle hentry hfirst hs
      rw [hreceived]
      rcases ih hk' hrest (.inl ⟨hlt job' hnum', hsome'⟩) (hlength ▸ hlater) hs' with ⟨hmore, hstored⟩ | ⟨hnot, hcount⟩
      · exact .inl ⟨(sparesBefore_cons hspares).2 hmore, hstored⟩
      · exact .inr ⟨fun h => hnot ((sparesBefore_cons hspares).1 h), hcount⟩
    · -- one of its side files goes where a file before it lies, so that this one adds nothing
      refine .inr ⟨fun h => hspares fun f hf => h.1 f hf file (List.mem_cons_self ..), ?_⟩
      obtain ⟨f, hf, hmeets⟩ : ∃ f ∈ done, ¬ Spares base f file := by simpa using hspares
      obtain ⟨sfx, hsfx, hpre⟩ : ∃ sfx ∈ [suffixDownload, suffixDigest], keyOf base file sfx <+: keyOf base f [] := by
        by_contra hno
        exact hmeets fun sfx hsfx hpre => hno ⟨sfx, hsfx, hpre⟩
      have hsuffixes : ∀ sfx ∈ [suffixDownload, suffixDigest], sfx ∈ suffixes := by decide
      obtain ⟨hbelow, hne⟩ := keyOf_below (hlisted file hmem) base (hsuffixes sfx hsfx)
      obtain ⟨hnum, hsome⟩ := hbefore.resolve_right fun h => by
        rw [h.1] at hf
        cases hf
      have hstart : ((job.modifyTime (Disk.host c {}) d).fs.filesBelow (pathKey base)).encard ≤ done.length := by
        rw [hs.below]
        rw [places_eq, Set.encard_coe_eq_coe_finsetCard]
        exact_mod_cast (List.toFinset_card_le _).trans (le_of_eq (List.length_map ..))
      obtain ⟨job', d', hreceived, hk', hnum', hfew⟩ := received_collision (hlisted file hmem) hk hentry hnum.ne' hsome
        hstart hsfx (hs.in_the_way hf hbelow hne hpre) hfirst.ne hfirst.own
      rw [hreceived]
      have hcount := received_files_count hlisted hk' (.inl (hlt job' hnum')) hrest (hlength ▸ hlater)
        (hfew.modifyTime (hlisted file hmem) hk'.toReceives (by rw [hk'.files, hnum', hentry]))
      rw [hfiles, List.length_append, List.length_cons, Nat.cast_add, Nat.cast_add, Nat.cast_one, ← add_assoc]
      exact add_le_add hcount le_rfl

end Run

/-! ## From one disk to another -/

/-- The files of the list are below the base, with these contents, and no other file is. -/
def Holds (base : Text) (files : List FileEntry) (content : FileEntry → Bytes) (d : Disk) : Prop :=
  d.fs.filesBelow (pathKey base) = places base files ∧
    ∀ file ∈ files, d.fs.contents (keyOf base file []) = some (content file)

/-- The disk after the blocks and the `modify_time` that ends the job. -/
def delivered (c : Codec) (job : TransferJob Handle) (blocks : List FileTransferBlock) (d : Disk) : Disk :=
  let (job, d) := received (Disk.host c {}) job blocks d
  job.modifyTime (Disk.host c {}) d

section Transfer

variable {c : Codec} {source dest : Disk} {q : SendRequest} {base : Text} {files : List FileEntry}

theorem spares_iff {f g : FileEntry} :
    Spares base f g ↔ ∀ sfx ∈ [suffixDownload, suffixDigest], ¬ pathKey (g.name ++ sfx) <+: pathKey f.name := by
  unfold Spares keyOf
  simp only [List.prefix_append_right_inj, List.append_nil]

theorem sparesBefore_nil (base : Text) (files : List FileEntry) : SparesBefore base [] files ↔ SideFilesClear files := by
  unfold SparesBefore SideFilesClear
  simp only [List.not_mem_nil, IsEmpty.forall_iff, implies_true, true_and]
  exact List.Pairwise.iff fun f g => spares_iff

/-- Files that can be read, with names that a list may have. -/
theorem Readable.listed {p : Text} (h : Readable source p files)
    (hnames : ∀ file ∈ files, file.name ≠ [] ∧ validateFileNameNoTraversal false file.name = .ok ()) :
    ∀ file ∈ files, Listed file.name := by
  intro file hfile
  obtain ⟨hne, hvalid⟩ := hnames file hfile
  obtain ⟨-, hdir⟩ := Bool.and_eq_true_iff.1 (h file hfile)
  have hsep := (validateFileNameNoTraversal_ok hvalid).2.2.2
  exact ⟨hvalid, hne, mustDir_of_join p hne hsep (by simpa using hdir)⟩

/-- Two files on the source's disk lie apart on any other. -/
theorem Readable.apart {p : Text} (h : Readable source p files) (htree : TreeLike source)
    (hlisted : ∀ file ∈ files, Listed file.name) {f g : FileEntry} (hf : f ∈ files) (hg : g ∈ files)
    (hne : pathKey f.name ≠ pathKey g.name) : Apart base f g := by
  have hfile : ∀ file ∈ files, (source.fs.fileAt (pathKey p ++ pathKey file.name)).isSome := by
    intro file hfile
    rw [← (hlisted file hfile).pathKey_join]
    exact (Bool.and_eq_true_iff.1 (h file hfile)).1
  have hnot : ∀ f ∈ files, ∀ g ∈ files, pathKey f.name ≠ pathKey g.name → ¬ keyOf base f [] <+: keyOf base g [] := by
    intro f hf g hg hne hpre
    unfold keyOf at hpre
    rw [List.prefix_append_right_inj, List.append_nil, List.append_nil] at hpre
    exact hne (List.append_cancel_left (htree _ _ (hfile f hf) (hfile g hg)
      ((List.prefix_append_right_inj _).2 hpre)))
  exact ⟨hnot f hf g hg hne, hnot g hg f hf hne.symm⟩

theorem takes_of_setFiles {id : Int} {overwriteDetection : Bool} {job : TransferJob Handle}
    (hset : (TransferJob.newWrite id .generic (.filePath base) 0 overwriteDetection : TransferJob Handle).setFiles
      (Disk.host c {}) files dest = (.ok (), job)) :
    Takes base files id job ∧ job.dataStream = none ∧ validateTransferFileNames false files = .ok () := by
  have hwin : (Disk.host c {}).win = false := rfl
  unfold TransferJob.setFiles at hset
  rw [hwin] at hset
  cases hnames : validateTransferFileNames false files with
  | error err =>
    rw [hnames] at hset
    cases hset
  | ok _ =>
    rw [hnames] at hset
    dsimp only [TransferJob.newWrite] at hset
    cases hlinks : validateNoSymlinks false (fun t => (Disk.host c {}).lstat t dest) base files with
    | error err =>
      rw [hlinks] at hset
      cases hset
    | ok _ =>
      rw [hlinks] at hset
      cases hset
      exact ⟨⟨⟨rfl, rfl⟩, rfl, rfl⟩, rfl, rfl⟩

end Transfer

/-- A codec that changes nothing. -/
def plainCodec : Codec := ⟨id, id, fun _ => [], fun _ => none⟩

/-- A disk with two files, the one under the name of the other's download. -/
def twoFileDisk : Disk where
  fs := {
    node := fun k => if k = [['a']] then some (.file 0) else if k = [['a'] ++ suffixDownload] then some (.file 1) else none
    data := fun ino => if ino = 0 then [1, 2] else if ino = 1 then [3] else []
    fresh := 2 }
  mtime _ := 0

def bareDisk : Disk := ⟨⟨fun _ => none, fun _ => [], 0⟩, fun _ => 0⟩

def shorter : FileEntry := ⟨['a'], 2, 0⟩

def longer : FileEntry := ⟨['a'] ++ suffixDownload, 1, 0⟩

def requestOf (files : List FileEntry) : SendRequest := ⟨7, [], 0, files, true⟩

/-- What is there once the two files have been sent in this order. -/
def arrived (files : List FileEntry) : Disk :=
  delivered plainCodec
    ((TransferJob.newWrite 7 .generic (.filePath []) 0 true : TransferJob Handle).setFiles
      (Disk.host plainCodec {}) files bareDisk).2
    (produced (Disk.host plainCodec {}) 6 (requestOf files).newRead twoFileDisk) bareDisk

theorem treeLike_twoFileDisk : TreeLike twoFileDisk := by
  have hfile : ∀ k, (twoFileDisk.fs.fileAt k).isSome → k = [['a']] ∨ k = [['a'] ++ suffixDownload] := by
    intro k hk
    by_contra hne
    obtain ⟨h1, h2⟩ := not_or.1 hne
    simp only [FileSystem.fileAt, twoFileDisk, h1, h2, if_false, Option.isSome_none, Bool.false_eq_true] at hk
  intro j k hj hk hprefix
  rcases hfile j hj with rfl | rfl <;> rcases hfile k hk with rfl | rfl
  · rfl
  · exact absurd hprefix (by decide)
  · exact absurd hprefix (by decide)
  · rfl

theorem emptyAt_bareDisk : EmptyAt [] bareDisk :=
  ⟨.inl rfl, fun _ _ => rfl, fun _ _ h => (by cases h), fun _ _ _ => rfl⟩

end FontisRemote.FileTransfer
