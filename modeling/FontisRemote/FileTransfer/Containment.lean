import FontisRemote.FileTransfer.Disk
import FontisRemote.FileTransfer.Write

/-!
# What a receiving job touches

Every file operation of a host is noted in a log (`Host.logged`), and every call of a job that receives
files from the peer is shown to note only paths below its base: the base itself, or the base joined
with a name whose components are all plain, with the suffix of a side file on the text of it
(`Contained`). Each name has passed the check for symlinks in a state that the call went through.
-/

namespace FontisRemote.FileTransfer

open FontisRemote.Lib

/-! ## The log -/

inductive Access
  | opened (path : Text)
  | openedForWrite (path : Text)
  | created (path : Text)
  | renamed (src dst : Text)
  | deleted (path : Text)
  | touched (path : Text)
  | dirsCreated (dir : List Component)
deriving DecidableEq

/-- The paths of an access to files. -/
def Access.paths : Access → List Text
  | .opened p | .openedForWrite p | .created p | .deleted p | .touched p => [p]
  | .renamed src dst => [src, dst]
  | .dirsCreated _ => []

/-- A state, the states before it, and the accesses made, newest first. -/
structure Logged (W : Type) where
  now : W
  past : List W
  log : List Access

namespace Logged

variable {W : Type}

def move (l : Logged W) (w : W) : Logged W := ⟨w, l.now :: l.past, l.log⟩

def note (l : Logged W) (a : Access) (w : W) : Logged W := ⟨w, l.now :: l.past, a :: l.log⟩

/-- The states gone through. -/
def states (l : Logged W) : List W := l.now :: l.past

end Logged

/-- A host that notes its accesses. -/
def Host.logged {W H : Type} (os : Host W H) : Host (Logged W) H where
  win := os.win
  compress := os.compress
  decompress := os.decompress
  openFile t l :=
    let (res, w) := os.openFile t l.now
    (res, l.note (.opened t) w)
  read h n l :=
    let (res, h, w) := os.read h n l.now
    (res, h, l.move w)
  metadata h l := os.metadata h l.now
  pathExists t l := os.pathExists t l.now
  lstat t l := os.lstat t l.now
  openWrite t l :=
    let (res, w) := os.openWrite t l.now
    (res, l.note (.openedForWrite t) w)
  create t l :=
    let (res, w) := os.create t l.now
    (res, l.note (.created t) w)
  seek h offset l :=
    let (res, w) := os.seek h offset l.now
    (res, l.move w)
  writeAll h bytes l :=
    let (res, h, w) := os.writeAll h bytes l.now
    (res, h, l.move w)
  syncAll h l :=
    let (res, w) := os.syncAll h l.now
    (res, l.move w)
  rename src dst l := l.note (.renamed src dst) (os.rename src dst l.now)
  removeFile t l :=
    let (res, w) := os.removeFile t l.now
    (res, l.note (.deleted t) w)
  createDirAll dir l := l.note (.dirsCreated dir) (os.createDirAll dir l.now)
  setFileMtime t time l := l.note (.touched t) (os.setFileMtime t time l.now)
  writeDigest t digest l := l.note (.created t) (os.writeDigest t digest l.now)
  readDigest t l := os.readDigest t l.now
  isFile t l := os.isFile t l.now
  stat t l := os.stat t l.now

/-! ## Plain names -/

/-- Only normal components, and dots for the current directory. -/
def PlainName (win : Bool) (name : Text) : Prop :=
  ∀ c ∈ components win name, c = .curDir ∨ ∃ seg, c = .normal seg

/-- The paths that the check for symlinks looks at, one for each component of the name. -/
def checkedPaths (win : Bool) (current : Text) : List Component → List Text
  | [] => []
  | .normal seg :: rest => push win current seg :: checkedPaths win (push win current seg) rest
  | _ :: rest => checkedPaths win current rest

/-- None of the components of the name that exist below the base is a symlink. -/
def NoSymlinks (win : Bool) (lstat : Text → LStat) (base name : Text) : Prop :=
  ∀ p ∈ checkedPaths win base (components win name), lstat p ≠ .found true

section Walk

variable {win : Bool} {lstat : Text → LStat}

theorem walkNoSymlink_ok {cs : List Component} {current : Text} (h : walkNoSymlink win lstat current cs = .ok ()) :
    (∀ c ∈ cs, c = .curDir ∨ ∃ seg, c = .normal seg) ∧ ∀ p ∈ checkedPaths win current cs, lstat p ≠ .found true := by
  induction cs generalizing current with
  | nil => exact ⟨nofun, nofun⟩
  | cons c cs ih =>
    cases c with
    | normal seg =>
      simp only [walkNoSymlink] at h
      cases hstat : lstat (push win current seg) with
      | found isSymlink =>
        cases isSymlink with
        | true =>
          rw [hstat] at h
          cases h
        | false =>
          rw [hstat] at h
          obtain ⟨hcs, hpaths⟩ := ih h
          refine ⟨List.forall_mem_cons.2 ⟨.inr ⟨seg, rfl⟩, hcs⟩, List.forall_mem_cons.2 ⟨?_, hpaths⟩⟩
          rw [hstat]
          decide
      | notFound =>
        rw [hstat] at h
        obtain ⟨hcs, hpaths⟩ := ih h
        refine ⟨List.forall_mem_cons.2 ⟨.inr ⟨seg, rfl⟩, hcs⟩, List.forall_mem_cons.2 ⟨?_, hpaths⟩⟩
        rw [hstat]
        decide
      | failed err =>
        rw [hstat] at h
        cases h
    | curDir =>
      obtain ⟨hcs, hpaths⟩ := ih h
      exact ⟨List.forall_mem_cons.2 ⟨.inl rfl, hcs⟩, hpaths⟩
    | pfx kind text => cases h
    | rootDir => cases h
    | parentDir => cases h

theorem joinValidatedPath_ok {base name path : Text} (h : joinValidatedPath win lstat base name = .ok path) :
    path = join win base name ∧ validateFileNameNoTraversal win name = .ok () ∧
      (name ≠ [] → PlainName win name) ∧ (name ≠ [] → NoSymlinks win lstat base name) := by
  unfold joinValidatedPath at h
  cases hname : validateFileNameNoTraversal win name with
  | error err =>
    rw [hname] at h
    cases h
  | ok _ =>
    rw [hname] at h
    dsimp only at h
    cases hlink : validateNoSymlinkComponents win lstat base name with
    | error err =>
      rw [hlink] at h
      cases h
    | ok _ =>
      rw [hlink] at h
      cases h
      refine ⟨rfl, rfl, fun hne => ?_, fun hne => ?_⟩
      · rw [validateNoSymlinkComponents, if_neg hne] at hlink
        exact (walkNoSymlink_ok hlink).1
      · rw [validateNoSymlinkComponents, if_neg hne] at hlink
        exact (walkNoSymlink_ok hlink).2

end Walk

section Plain

variable {win : Bool} {name : Text}

/-- A name without a prefix, a root and two dots is plain. -/
theorem plainName_of (hdrive : win = true → parseDrive name = false)
    (hsep : name.head?.any (isSep win) = false) (hdots : ['.', '.'] ∉ name.splitOnP (isSep win)) :
    PlainName win name := by
  have hpfx := parsePrefix_eq_none hdrive hsep
  intro c hc
  rw [components_eq hpfx hsep] at hc
  rcases List.mem_append.1 hc with hc | hc
  · split_ifs at hc
    · exact .inl (List.mem_singleton.1 hc)
    · cases hc
  · obtain ⟨seg, hseg, hcomp⟩ := List.mem_filterMap.1 hc
    rw [segments_eq hpfx] at hseg
    have hne : seg ≠ ['.', '.'] := fun heq => hdots (heq ▸ (List.mem_filter.1 hseg).1)
    simp only [component?, Bool.false_eq_true, if_false, hne] at hcomp
    split_ifs at hcomp
    cases hcomp
    exact .inr ⟨seg, rfl⟩

/-- The suffixes of the side files, and none. -/
def suffixes : List Text := [[], suffixDownload, suffixDigest]

theorem suffixes_plain (win : Bool) {sfx : Text} (h : sfx ∈ suffixes) : ∀ c ∈ sfx, isSep win c = false := by
  have hall : ∀ sfx ∈ suffixes, sfx.all (fun c => c != '/' && c != '\\') = true := by decide
  intro c hc
  have hplain := List.all_eq_true.1 (hall sfx h) c hc
  simp only [Bool.and_eq_true, bne_iff_ne] at hplain
  simp [isSep, hplain.1, hplain.2]

/-- A side file's name is as plain as the name it is made of. -/
theorem plainName_suffix (hname : validateFileNameNoTraversal win name = .ok ()) (hne : name ≠ []) {sfx : Text}
    (hsfx : sfx ∈ suffixes) : PlainName win (name ++ sfx) := by
  obtain ⟨-, hdots, hdrive, hsep⟩ := validateFileNameNoTraversal_ok hname
  obtain ⟨ini, last, hsplit, hsplit'⟩ := splitOnP_append_plain name (suffixes_plain win hsfx)
  have hlong : ∀ sfx ∈ suffixes, sfx = [] ∨ 2 < sfx.length ∧ sfx.head? = some '.' := by decide
  replace hlong := hlong sfx hsfx
  refine plainName_of (fun hwin => ?_) ?_ ?_
  · have hdrive := hdrive hwin
    rcases name with _ | ⟨c, _ | ⟨d, rest⟩⟩
    · exact absurd rfl hne
    · rcases hlong with rfl | ⟨-, hdot⟩
      · exact hdrive
      · obtain ⟨tail, rfl⟩ : ∃ tail, sfx = '.' :: tail := by
          cases sfx with
          | nil => cases hdot
          | cons x tail => exact ⟨tail, by simpa using hdot⟩
        simp [parseDrive]
    · exact hdrive
  · cases name with
    | nil => exact absurd rfl hne
    | cons c rest => exact hsep
  · rw [hsplit']
    rw [hsplit] at hdots
    intro hmem
    rcases List.mem_append.1 hmem with hmem | hmem
    · exact hdots (List.mem_append_left _ hmem)
    · have heq := List.mem_singleton.1 hmem
      rcases hlong with rfl | ⟨hlen, -⟩
      · exact hdots (List.mem_append_right _ (by simpa using heq))
      · have hlength := congrArg List.length heq
        simp only [List.length_append, List.length_cons, List.length_nil] at hlength
        omega

end Plain

/-! ## Contained paths -/

/-- The base, or the base joined with a plain name, and the suffix of a side file. The name has passed
the check for symlinks in one of the states. -/
def Contained (win : Bool) (lstats : List (Text → LStat)) (base path : Text) : Prop :=
  ∃ name, ∃ sfx ∈ suffixes, path = join win base name ++ sfx ∧
    (name ≠ [] → PlainName win name ∧ PlainName win (name ++ sfx) ∧ ∃ lstat ∈ lstats, NoSymlinks win lstat base name)

section Allowed

variable {W H : Type} (os : Host W H) (base : Text)

/-- An access to contained paths; directories are made for the parent of one. -/
def Allowed (states : List W) (a : Access) : Prop :=
  (∀ p ∈ a.paths, Contained os.win (states.map fun w t => os.lstat t w) base p) ∧
    ∀ dir, a = .dirsCreated dir → ∃ path,
      Contained os.win (states.map fun w t => os.lstat t w) base path ∧ parent os.win path = some dir

/-- What a call adds to the log. -/
structure Extends (l l' : Logged W) : Prop where
  states : ∀ w ∈ l.states, w ∈ l'.states
  added : ∃ new, l'.log = new ++ l.log ∧ ∀ a ∈ new, Allowed os base l'.states a

variable {os base}

theorem Contained.mono {win : Bool} {ls ls' : List (Text → LStat)} {path : Text} (h : Contained win ls base path)
    (hsub : ∀ f ∈ ls, f ∈ ls') : Contained win ls' base path := by
  obtain ⟨name, sfx, hsfx, hpath, hname⟩ := h
  refine ⟨name, sfx, hsfx, hpath, fun hne => ?_⟩
  obtain ⟨hplain, hplain', lstat, hmem, hlinks⟩ := hname hne
  exact ⟨hplain, hplain', lstat, hsub lstat hmem, hlinks⟩

theorem Allowed.mono {states states' : List W} {a : Access} (h : Allowed os base states a)
    (hsub : ∀ w ∈ states, w ∈ states') : Allowed os base states' a := by
  have hmap : ∀ f ∈ states.map fun w t => os.lstat t w, f ∈ states'.map fun w t => os.lstat t w := by
    intro f hf
    obtain ⟨w, hw, rfl⟩ := List.mem_map.1 hf
    exact List.mem_map_of_mem (hsub w hw)
  refine ⟨fun p hp => (h.1 p hp).mono hmap, fun dir hdir => ?_⟩
  obtain ⟨path, hpath, hparent⟩ := h.2 dir hdir
  exact ⟨path, hpath.mono hmap, hparent⟩

theorem Extends.refl (l : Logged W) : Extends os base l l := ⟨fun _ h => h, [], rfl, nofun⟩

theorem Extends.trans {l l' l'' : Logged W} (h : Extends os base l l') (h' : Extends os base l' l'') :
    Extends os base l l'' := by
  obtain ⟨new, hnew, hallowed⟩ := h.added
  obtain ⟨new', hnew', hallowed'⟩ := h'.added
  refine ⟨fun w hw => h'.states w (h.states w hw), new' ++ new, by rw [hnew', hnew, List.append_assoc], ?_⟩
  intro a ha
  rcases List.mem_append.1 ha with ha | ha
  · exact hallowed' a ha
  · exact (hallowed a ha).mono h'.states

/-- One access. -/
theorem Extends.note {l : Logged W} {a : Access} (w : W) (h : Allowed os base l.states a) :
    Extends os base l (l.note a w) := by
  have hstates : ∀ w' ∈ l.states, w' ∈ (l.note a w).states := fun w' hw' => List.mem_cons_of_mem _ hw'
  refine ⟨hstates, [a], rfl, fun a' ha' => ?_⟩
  obtain rfl := List.mem_singleton.1 ha'
  exact h.mono hstates

theorem Extends.move (l : Logged W) (w : W) : Extends os base l (l.move w) :=
  ⟨fun _ hw' => List.mem_cons_of_mem _ hw', [], rfl, nofun⟩

/-- A path that was checked in a state gone through, with the suffix of a side file or none. -/
theorem contained_of_validated {states : List W} {w : W} (hw : w ∈ states) {name path sfx : Text}
    (h : joinValidatedPath os.win (os.lstat · w) base name = .ok path) (hsfx : sfx ∈ suffixes) :
    Contained os.win (states.map fun w t => os.lstat t w) base (path ++ sfx) := by
  obtain ⟨rfl, hname, hplain, hlinks⟩ := joinValidatedPath_ok h
  refine ⟨name, sfx, hsfx, rfl, fun hne => ⟨hplain hne, plainName_suffix hname hne hsfx, _, ?_, hlinks hne⟩⟩
  exact List.mem_map_of_mem (f := fun w t => os.lstat t w) hw

theorem allowed_of_paths {states : List W} {a : Access} (hdir : ∀ dir, a ≠ .dirsCreated dir)
    (h : ∀ p ∈ a.paths, Contained os.win (states.map fun w t => os.lstat t w) base p) : Allowed os base states a :=
  ⟨h, fun dir heq => absurd heq (hdir dir)⟩

end Allowed

/-! ## The calls of a job -/

/-- A job that receives files below a base. -/
structure Receives {H : Type} (base : Text) (job : TransferJob H) : Prop where
  generic : job.type = .generic
  path : job.dataSource = .filePath base

section Calls

variable {W H : Type} {os : Host W H} {base : Text} {job : TransferJob H}

theorem currentPath_validated (hk : Receives base job) {l : Logged W} {path : Text} {entry : FileEntry}
    (h : job.currentPath os.logged l = some (path, entry)) :
    joinValidatedPath os.win (os.lstat · l.now) base entry.name = .ok path := by
  unfold TransferJob.currentPath TransferJob.resolveEntryPath at h
  simp only [hk.generic, hk.path] at h
  split at h
  · next entry' hgeneric hpath hentry =>
    cases hpath
    obtain ⟨path', hpath', heq⟩ := Option.map_eq_some_iff.1 h
    cases heq
    cases hjoin : joinValidatedPath os.win (os.lstat · l.now) base entry.name with
    | error err =>
      rw [show joinValidatedPath os.logged.win (os.logged.lstat · l) base entry.name = .error err from hjoin] at hpath'
      cases hpath'
    | ok p =>
      rw [show joinValidatedPath os.logged.win (os.logged.lstat · l) base entry.name = .ok p from hjoin] at hpath'
      cases hpath'
      rfl
  · cases h

theorem modifyTime_extends (hk : Receives base job) (l : Logged W) :
    Extends os base l (job.modifyTime os.logged l) := by
  unfold TransferJob.modifyTime
  cases hcur : job.currentPath os.logged l with
  | none => exact .refl l
  | some r =>
    obtain ⟨path, entry⟩ := r
    have hvalid := currentPath_validated hk hcur
    have hcontained : ∀ l' : Logged W, l.now ∈ l'.states → ∀ sfx ∈ suffixes,
        Contained os.win (l'.states.map fun w t => os.lstat t w) base (path ++ sfx) := fun l' hl' sfx hsfx =>
      contained_of_validated hl' hvalid hsfx
    let l₁ := (os.logged.removeFile (path ++ suffixDigest) l).2
    let l₂ := os.logged.rename (path ++ suffixDownload) path l₁
    have h₁ : Extends os base l l₁ := by
      refine .note _ (allowed_of_paths nofun fun p hp => ?_)
      obtain rfl := List.mem_singleton.1 hp
      exact hcontained l (List.mem_cons_self ..) _ (by decide)
    have h₂ : Extends os base l₁ l₂ := by
      refine .note _ (allowed_of_paths nofun fun p hp => ?_)
      have hnow : l.now ∈ l₁.states := h₁.states _ (List.mem_cons_self ..)
      rcases List.mem_pair.1 hp with rfl | rfl
      · exact hcontained l₁ hnow _ (by decide)
      · simpa using hcontained l₁ hnow [] (by decide)
    refine (h₁.trans h₂).trans (.note _ (allowed_of_paths nofun fun p hp => ?_))
    obtain rfl := List.mem_singleton.1 hp
    simpa using hcontained l₂ ((h₁.trans h₂).states _ (List.mem_cons_self ..)) [] (by decide)

theorem removeDownloadFile_extends (hk : Receives base job) (l : Logged W) :
    Extends os base l (job.removeDownloadFile os.logged l) := by
  unfold TransferJob.removeDownloadFile
  cases hcur : job.currentPath os.logged l with
  | none => exact .refl l
  | some r =>
    obtain ⟨path, entry⟩ := r
    have hvalid := currentPath_validated hk hcur
    have h₁ : Extends os base l (os.logged.removeFile (path ++ suffixDownload) l).2 := by
      refine .note _ (allowed_of_paths nofun fun p hp => ?_)
      obtain rfl := List.mem_singleton.1 hp
      exact contained_of_validated (List.mem_cons_self ..) hvalid (by decide)
    refine h₁.trans (.note _ (allowed_of_paths nofun fun p hp => ?_))
    obtain rfl := List.mem_singleton.1 hp
    exact contained_of_validated (h₁.states _ (List.mem_cons_self ..)) hvalid (by decide)

/-- A call that leaves the job what it is and touches contained paths only. -/
structure Safe (os : Host W H) (base : Text) (l : Logged W) (job' : TransferJob H) (l' : Logged W) : Prop where
  receives : Receives base job'
  extends_ : Extends os base l l'

theorem createStream_safe (hk : Receives base job) (entry : FileEntry) (l : Logged W) :
    Safe os base l (job.createStream os.logged base entry l).2.1 (job.createStream os.logged base entry l).2.2 := by
  unfold TransferJob.createStream
  simp only [hk.generic]
  cases hjoin : joinValidatedPath os.logged.win (os.logged.lstat · l) base entry.name with
  | error err => exact ⟨hk, .refl l⟩
  | ok path =>
    dsimp only
    have hvalid : joinValidatedPath os.win (os.lstat · l.now) base entry.name = .ok path := hjoin
    have hcontained : ∀ l' : Logged W, Extends os base l l' → ∀ sfx ∈ suffixes,
        Contained os.win (l'.states.map fun w t => os.lstat t w) base (path ++ sfx) := fun l' hl' sfx hsfx =>
      contained_of_validated (hl'.states _ (List.mem_cons_self ..)) hvalid hsfx
    have h₁ : Extends os base l (TransferJob.createParent os.logged path l) := by
      unfold TransferJob.createParent
      split
      · next pp hparent =>
        refine .note _ ⟨nofun, fun dir hdir => ⟨path, ?_, ?_⟩⟩
        · simpa using hcontained l (.refl l) [] (by decide)
        · cases hdir
          exact hparent
      · exact .refl l
    generalize TransferJob.createParent os.logged path l = l₁ at h₁ ⊢
    have h₂ : Extends os base l (TransferJob.removeDigest os.logged path l₁).2 := by
      unfold TransferJob.removeDigest
      split_ifs
      · refine h₁.trans (.note _ (allowed_of_paths nofun fun p hp => ?_))
        obtain rfl := List.mem_singleton.1 hp
        exact hcontained l₁ h₁ _ (by decide)
      · exact h₁
    generalize TransferJob.removeDigest os.logged path l₁ = r at h₂ ⊢
    obtain ⟨_ | _, l₂⟩ := r
    · exact ⟨hk, h₂⟩
    · dsimp only at h₂ ⊢
      have h₃ : Extends os base l (os.logged.create (path ++ suffixDownload) l₂).2 := by
        refine h₂.trans (.note _ (allowed_of_paths nofun fun p hp => ?_))
        obtain rfl := List.mem_singleton.1 hp
        exact hcontained l₂ h₂ _ (by decide)
      generalize os.logged.create (path ++ suffixDownload) l₂ = r at h₃ ⊢
      obtain ⟨_ | file, l₃⟩ := r
      · exact ⟨hk, h₃⟩
      · dsimp only at h₃ ⊢
        refine ⟨⟨rfl, hk.path⟩, h₃.trans (.note _ (allowed_of_paths nofun fun p hp => ?_))⟩
        obtain rfl := List.mem_singleton.1 hp
        exact hcontained l₃ h₃ _ (by decide)

theorem beginEntry_safe (hk : Receives base job) (n : Int) (entry : FileEntry) (l : Logged W) :
    Safe os base l (job.beginEntry os.logged base n entry l).2.1 (job.beginEntry os.logged base n entry l).2.2 := by
  unfold TransferJob.beginEntry
  have h₁ : Extends os base l (job.modifyTime os.logged l) := modifyTime_extends hk l
  generalize job.modifyTime os.logged l = l₁ at h₁ ⊢
  have h₂ : Extends os base l (job.syncStream os.logged l₁).2 := by
    unfold TransferJob.syncStream
    split
    · exact h₁.trans (.move l₁ _)
    · exact h₁
  generalize job.syncStream os.logged l₁ = r at h₂ ⊢
  obtain ⟨_ | _, l₂⟩ := r
  · exact ⟨hk, h₂⟩
  · have hkind : Receives base { job with fileNum := n } := ⟨hk.generic, hk.path⟩
    have hcreate : Safe os base l₂ _ _ := createStream_safe hkind entry l₂
    exact ⟨hcreate.receives, h₂.trans hcreate.extends_⟩

theorem writeStream_safe (hk : Receives base job) (block : FileTransferBlock) (l : Logged W) :
    Safe os base l (job.writeStream os.logged block l).2.1 (job.writeStream os.logged block l).2.2 := by
  unfold TransferJob.writeStream
  rw [hk.path]
  dsimp only
  split
  · exact ⟨hk, .refl l⟩
  · split_ifs
    · exact beginEntry_safe hk _ _ l
    · exact ⟨hk, .refl l⟩

theorem writeBlock_safe (hk : Receives base job) (block : FileTransferBlock) (l : Logged W) :
    Safe os base l (job.writeBlock os.logged block l).2.1 (job.writeBlock os.logged block l).2.2 := by
  unfold TransferJob.writeBlock
  dsimp only
  split
  · exact ⟨hk, .refl l⟩
  · next stream hstream =>
    have hmove : ∀ bytes, Extends os base l (stream.writeAll os.logged bytes l).2.2 := by
      intro bytes
      cases stream with
      | fileStream file => exact .move l _
      | bufStream data pos => exact .refl l
    generalize (if block.compressed = true then os.logged.decompress block.data else block.data) = bytes
    have hmove := hmove bytes
    generalize stream.writeAll os.logged bytes l = r at hmove ⊢
    obtain ⟨_ | _, stream', l'⟩ := r
    · exact ⟨⟨hk.generic, hk.path⟩, hmove⟩
    · exact ⟨⟨hk.generic, hk.path⟩, hmove⟩

theorem write_safe (hk : Receives base job) (block : FileTransferBlock) (l : Logged W) :
    Safe os base l (job.write os.logged block l).2.1 (job.write os.logged block l).2.2 := by
  unfold TransferJob.write
  split_ifs
  · exact ⟨hk, .refl l⟩
  · have hstream : Safe os base l _ _ := writeStream_safe hk block l
    generalize job.writeStream os.logged block l = r at hstream ⊢
    obtain ⟨_ | _, job', l'⟩ := r
    · exact hstream
    · have hblock : Safe os base l' _ _ := writeBlock_safe hstream.receives block l'
      exact ⟨hblock.receives, hstream.extends_.trans hblock.extends_⟩

theorem setStreamOffset_safe (hk : Receives base job) (n : Int) (offset : Nat) (l : Logged W) :
    Safe os base l (job.setStreamOffset os.logged n offset l).1 (job.setStreamOffset os.logged n offset l).2 := by
  unfold TransferJob.setStreamOffset
  rw [hk.path]
  split
  · next entry p hentry hp =>
    cases hp
    simp only [TransferJob.resolveEntryPath, hk.generic]
    cases hjoin : joinValidatedPath os.logged.win (os.logged.lstat · l) base entry.name with
    | error err => exact ⟨hk, .refl l⟩
    | ok path =>
      have hvalid : joinValidatedPath os.win (os.lstat · l.now) base entry.name = .ok path := hjoin
      dsimp only [Except.toOption]
      have h₁ : Extends os base l (TransferJob.openForOffset os.logged path l).2 := by
        unfold TransferJob.openForOffset
        split_ifs
        · refine .note _ (allowed_of_paths nofun fun p hp => ?_)
          obtain rfl := List.mem_singleton.1 hp
          exact contained_of_validated (List.mem_cons_self ..) hvalid (by decide)
        · refine .note _ (allowed_of_paths nofun fun p hp => ?_)
          obtain rfl := List.mem_singleton.1 hp
          have hcontained : Contained os.win (l.states.map fun w t => os.lstat t w) base (p ++ []) :=
            contained_of_validated (List.mem_cons_self ..) hvalid (by decide)
          rwa [List.append_nil] at hcontained
        · exact .refl l
      generalize TransferJob.openForOffset os.logged path l = r at h₁ ⊢
      obtain ⟨_ | file, l₁⟩ := r
      · exact ⟨hk, h₁⟩
      · dsimp only
        have h₂ : Extends os base l (os.logged.seek file offset l₁).2 := h₁.trans (.move l₁ _)
        generalize os.logged.seek file offset l₁ = r at h₂ ⊢
        obtain ⟨_ | file', l₂⟩ := r
        · exact ⟨hk, h₂⟩
        · dsimp only at h₂ ⊢
          exact ⟨⟨rfl, rfl⟩, h₂⟩
  · exact ⟨hk, .refl l⟩

theorem confirm_safe (hk : Receives base job) (r : FileTransferSendConfirmRequest) (l : Logged W) :
    Safe os base l (job.confirm os.logged r l).1 (job.confirm os.logged r l).2 := by
  unfold TransferJob.confirm
  split_ifs
  · exact ⟨hk, .refl l⟩
  · have hk' : Receives base (job.setFileConfirmed true) := ⟨hk.generic, hk.path⟩
    split
    · exact ⟨⟨hk.generic, hk.path⟩, .refl l⟩
    · exact ⟨hk', .refl l⟩
    · dsimp only
      split_ifs
      · exact setStreamOffset_safe hk' _ _ l
      · exact ⟨hk', .refl l⟩
    · exact ⟨hk, .refl l⟩

end Calls

/-! ## Lists of files -/

section Lists

variable {win : Bool} {lstat : Text → LStat} {base : Text} {files : List FileEntry}

/-- What makes an entry unfit for its list: no name where there are several, a name with a null byte, a
prefix, a root or two dots, or a symlink that a component of it is at. -/
def Offends (win : Bool) (lstat : Text → LStat) (base : Text) (files : List FileEntry) (file : FileEntry) : Prop :=
  (file.name = [] ∧ files.length ≠ 1) ∨
    (file.name ≠ [] ∧
      ('\x00' ∈ file.name ∨ ¬ PlainName win file.name ∨ ¬ NoSymlinks win lstat base file.name))

theorem validateNames_ok (h : validateNames win files = .ok ()) :
    ∀ file ∈ files, file.name ≠ [] ∧ validateFileNameNoTraversal win file.name = .ok () := by
  induction files with
  | nil => nofun
  | cons file files ih =>
    unfold validateNames at h
    split_ifs at h with hempty
    cases hname : validateFileNameNoTraversal win file.name with
    | error err =>
      rw [hname] at h
      cases h
    | ok _ =>
      rw [hname] at h
      exact List.forall_mem_cons.2 ⟨⟨hempty, hname⟩, ih h⟩

theorem validateNoSymlinks_ok (h : validateNoSymlinks win lstat base files = .ok ()) :
    ∀ file ∈ files, validateNoSymlinkComponents win lstat base file.name = .ok () := by
  induction files with
  | nil => nofun
  | cons file files ih =>
    unfold validateNoSymlinks at h
    cases hlink : validateNoSymlinkComponents win lstat base file.name with
    | error err =>
      rw [hlink] at h
      cases h
    | ok _ =>
      rw [hlink] at h
      exact List.forall_mem_cons.2 ⟨hlink, ih h⟩

/-- A list that passes both checks has no unfit entry. -/
theorem not_offends_of_valid (hnames : validateTransferFileNames win files = .ok ())
    (hlinks : validateNoSymlinks win lstat base files = .ok ()) {file : FileEntry} (hfile : file ∈ files) :
    ¬ Offends win lstat base files file := by
  have hwalk : file.name ≠ [] → PlainName win file.name ∧ NoSymlinks win lstat base file.name := by
    intro hne
    have hlink := validateNoSymlinks_ok hlinks file hfile
    rw [validateNoSymlinkComponents, if_neg hne] at hlink
    exact walkNoSymlink_ok hlink
  have hname : (file.name = [] → files.length = 1) ∧ (file.name ≠ [] → '\x00' ∉ file.name) := by
    unfold validateTransferFileNames at hnames
    split_ifs at hnames with hsingle
    · obtain ⟨single, rfl⟩ := List.length_eq_one_iff.1 hsingle.1
      obtain rfl := List.mem_singleton.1 hfile
      exact ⟨fun _ => hsingle.1, fun hne => absurd (by simpa using hsingle.2) hne⟩
    · obtain ⟨hne, hvalid⟩ := validateNames_ok hnames file hfile
      exact ⟨fun hempty => absurd hempty hne, fun _ => (validateFileNameNoTraversal_ok hvalid).1⟩
  rintro (⟨hempty, hlen⟩ | ⟨hne, hnul | hplain | hlink⟩)
  · exact hlen (hname.1 hempty)
  · exact hname.2 hne hnul
  · exact hplain (hwalk hne).1
  · exact hlink (hwalk hne).2

end Lists

section Runs

variable {W H : Type} {os : Host W H} {base : Text} {job : TransferJob H}

/-- A list with an unfit entry is refused and leaves the job as it was. -/
theorem setFiles_refuses (hk : Receives base job) {files : List FileEntry} {w : W} {file : FileEntry}
    (hfile : file ∈ files) (hoffends : Offends os.win (os.lstat · w) base files file) :
    ∃ err, job.setFiles os files w = (.error err, job) := by
  unfold TransferJob.setFiles
  rw [hk.path]
  cases hnames : validateTransferFileNames os.win files with
  | error err => exact ⟨err, rfl⟩
  | ok _ =>
    dsimp only
    cases hlinks : validateNoSymlinks os.win (os.lstat · w) base files with
    | error err => exact ⟨err, rfl⟩
    | ok _ => exact absurd hoffends (not_offends_of_valid hnames hlinks hfile)

theorem setFiles_receives (hk : Receives base job) (files : List FileEntry) (w : W) :
    Receives base (job.setFiles os files w).2 := by
  unfold TransferJob.setFiles
  split
  · exact hk
  · dsimp only
    split
    · exact hk
    · exact ⟨hk.generic, hk.path⟩

/-- What is done with a job that receives files; between the calls the machine does what it likes. -/
inductive Call (W : Type)
  | setFiles (files : List FileEntry)
  | setDigest (size modified : Nat)
  | write (block : FileTransferBlock)
  | confirm (r : FileTransferSendConfirmRequest)
  | modifyTime
  | removeDownloadFile
  | elsewhere (w : W)

/-- One call, whatever it returns. -/
def Call.run (os : Host W H) (r : TransferJob H × Logged W) : Call W → TransferJob H × Logged W
  | .setFiles files => ((r.1.setFiles os.logged files r.2).2, r.2)
  | .setDigest size modified => (r.1.setDigest size modified, r.2)
  | .write block => (r.1.write os.logged block r.2).2
  | .confirm req => r.1.confirm os.logged req r.2
  | .modifyTime => (r.1, r.1.modifyTime os.logged r.2)
  | .removeDownloadFile => (r.1, r.1.removeDownloadFile os.logged r.2)
  | .elsewhere w => (r.1, r.2.move w)

/-- A new job that receives files, on a machine whose accesses are noted from here. -/
def receiving (H : Type) (id : Int) (base : Text) (fileNum : Int) (enableOverwriteDetection : Bool) (w : W) :
    TransferJob H × Logged W :=
  (.newWrite id .generic (.filePath base) fileNum enableOverwriteDetection, ⟨w, [], []⟩)

theorem call_safe (hk : Receives base job) (l : Logged W) (call : Call W) :
    Safe os base l (call.run os (job, l)).1 (call.run os (job, l)).2 := by
  cases call with
  | setFiles files => exact ⟨setFiles_receives hk files l, .refl l⟩
  | setDigest size modified => exact ⟨⟨hk.generic, hk.path⟩, .refl l⟩
  | write block => exact write_safe hk block l
  | confirm r => exact confirm_safe hk r l
  | modifyTime => exact ⟨hk, modifyTime_extends hk l⟩
  | removeDownloadFile => exact ⟨hk, removeDownloadFile_extends hk l⟩
  | elsewhere w => exact ⟨hk, .move l w⟩

/-- Any calls, one after the other. -/
theorem calls_safe (calls : List (Call W)) (hk : Receives base job) (l : Logged W) :
    Safe os base l (calls.foldl (Call.run os) (job, l)).1 (calls.foldl (Call.run os) (job, l)).2 := by
  induction calls generalizing job l with
  | nil => exact ⟨hk, .refl l⟩
  | cons call calls ih =>
    have hcall : Safe os base l _ _ := call_safe hk l call
    have hrest := ih hcall.receives (call.run os (job, l)).2
    exact ⟨hrest.receives, hcall.extends_.trans hrest.extends_⟩

/-- Whatever lists and blocks the peer sends, in whatever order: every file that the job opens, makes,
moves, touches or deletes is the base, or the base joined with a plain name that had no symlink in it
when it was checked, with the suffix of a side file; directories are made for the parent of such a
path; and a list with an unfit entry is refused, with the job left as it was. -/
theorem accesses_contained (os : Host W H) (id : Int) (base : Text) (fileNum : Int) (overwrite : Bool) (w : W)
    (calls : List (Call W)) :
    let r := calls.foldl (Call.run os) (receiving H id base fileNum overwrite w)
    (∀ a ∈ r.2.log, Allowed os base r.2.states a) ∧
      ∀ files, (∃ file ∈ files, Offends os.win (os.lstat · r.2.now) base files file) →
        ∃ err, r.1.setFiles os files r.2.now = (.error err, r.1) := by
  intro r
  have hsafe : Safe os base ⟨w, [], []⟩ r.1 r.2 := calls_safe calls ⟨rfl, rfl⟩ _
  refine ⟨fun a ha => ?_, fun files ⟨file, hfile, hoffends⟩ => setFiles_refuses hsafe.receives hfile hoffends⟩
  obtain ⟨new, hnew, hallowed⟩ := hsafe.extends_.added
  rw [hnew, List.append_nil] at ha
  exact hallowed a ha

end Runs

/-- An empty disk. -/
def Disk.empty : Disk := ⟨⟨fun k => if k = [] then some .dir else none, fun _ => [], 0⟩, fun _ => 0⟩

/-- A single file with no name of its own is written to the base, and the directory above the base is
made for it: neither the base nor anything below it. -/
theorem parent_of_base_created :
    ∃ (base : Text) (calls : List (Call Disk)) (dir : List Component),
      .dirsCreated dir ∈ (calls.foldl (Call.run (Disk.host ⟨id, id, fun _ => [], fun _ => none⟩ {}))
        (receiving Handle 1 base 0 false Disk.empty)).2.log ∧
      ¬ components false base <+: dir := by
  refine ⟨['/', 'd', '/', 'f'], [.setFiles [⟨[], 1, 0⟩], .write ⟨1, 0, [7], false⟩], [.rootDir, .normal ['d']], ?_,
    by decide +kernel⟩
  decide +kernel

end FontisRemote.FileTransfer
