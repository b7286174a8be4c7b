import FontisRemote.Portable.Setup
import FontisRemote.Lib.Run

/-!
# What a package leaves behind

A customer who drops a file from the package would keep it in the directory: the wipe goes by the timestamp of the build,
which all customers of a release share. So each launch sweeps what the launch before it noted.

A file that a package put into the directory is noted by one of the lines of `meta.toml` (`Noted`), whatever else a user
writes there. It is kept as an invariant of every run, through removals and writes that fail.
-/

namespace FontisRemote.Portable

open FontisRemote.Lib (Exec encodeUtf8 decodeUtf8 decodeUtf8_encodeUtf8)
open FontisRemote.Connection (trim)
open FontisRemote.FileTransfer (Component components parsePrefix hasRoot isSep parseDrive)

/-! ## One file by two ways

The sweep takes a path apart itself, a write leaves it to the file system.
-/

theorem isSep_replace (c : Char) : isSep true (if c = '\\' then '/' else c) = isSep true c := by
  split
  · next h => subst h; decide
  · rfl

theorem resolveComponents_walk {cs : List Component} {names : List Text} (h : resolveComponents cs = some names)
    (front : List Text) : walk front cs = some (front ++ names) := by
  induction cs generalizing front names with
  | nil =>
    obtain rfl := Option.some.inj h
    rw [walk, List.append_nil]
  | cons c cs ih =>
    cases c with
    | normal part =>
      rw [resolveComponents] at h
      split at h
      · cases h
      · next hcolon =>
        obtain ⟨names, hnames, rfl⟩ := Option.map_eq_some_iff.1 h
        rw [walk, if_neg hcolon, ih hnames, List.append_assoc, List.singleton_append]
    | curDir => exact ih h front
    | pfx kind text => cases h
    | rootDir => cases h
    | parentDir => cases h

/-- A path that the sweep can use is relative and names no drive. -/
theorem plain_of_resolve {path : Text} {names : List Text} (h : resolveComponents (components true path) = some names) :
    parsePrefix true path = none ∧ path.head?.any (isSep true) = false := by
  have hpfx : parsePrefix true path = none := by
    cases hp : parsePrefix true path with
    | none => rfl
    | some p =>
      simp only [components, hp, List.cons_append] at h
      cases h
  refine ⟨hpfx, ?_⟩
  cases hroot : path.head?.any (isSep true) with
  | false => rfl
  | true =>
    have hr : hasRoot true path = true := by
      simp only [hasRoot, hpfx, FileTransfer.afterPrefix, hroot]
    simp only [components, hpfx, hr, if_true, List.nil_append, List.cons_append] at h
    cases h

theorem parseDrive_replace (path : Text) : parseDrive (replaceBackslash path) = parseDrive path := by
  cases path with
  | nil => rfl
  | cons c path =>
    cases path with
    | nil => rfl
    | cons d path =>
      simp only [replaceBackslash, List.map_cons, parseDrive]
      by_cases hc : c = '\\'
      · subst hc; rfl
      · rw [if_neg hc]
        by_cases hd : d = '\\'
        · subst hd; rfl
        · rw [if_neg hd]

theorem parsePrefix_of_drive {path : Text} (hdrive : parseDrive path = true) : parsePrefix true path ≠ none := by
  match path, hdrive with
  | c :: d :: rest, hdrive =>
    have hc : c.isAlpha = true := by
      simp only [parseDrive, Bool.and_eq_true] at hdrive
      exact hdrive.1
    have hsep : isSep true c = false := by
      by_contra h
      rw [Bool.not_eq_false, isSep, Bool.or_eq_true, Bool.true_and, beq_iff_eq, beq_iff_eq] at h
      rcases h with rfl | rfl <;> revert hc <;> decide
    have hall : (((c :: d :: rest).take 2).all (isSep true) && decide (2 ≤ (c :: d :: rest).length)) = false := by
      simp [hsep]
    unfold parsePrefix
    rw [if_neg (by decide), hall, if_neg (by decide), if_pos hdrive]
    exact Option.some_ne_none _

theorem splitOnP_replace (path : Text) :
    (replaceBackslash path).splitOnP (isSep true) = path.splitOnP (isSep true) := by
  induction path with
  | nil => rfl
  | cons c path ih =>
    rw [replaceBackslash, List.map_cons, ← replaceBackslash, List.splitOnP_cons_eq_if_modifyHead,
      List.splitOnP_cons_eq_if_modifyHead, ih, isSep_replace]
    split
    · rfl
    · next hc =>
      have hne : c ≠ '\\' := fun heq => hc (heq ▸ rfl)
      rw [if_neg hne]

/-- Windows takes both separators, so that replacing one by the other leaves a plain path what it is. -/
theorem components_replace {path : Text} {names : List Text}
    (h : resolveComponents (components true (replaceBackslash path)) = some names) :
    components true (replaceBackslash path) = components true path := by
  obtain ⟨hpfx, hsep⟩ := plain_of_resolve h
  have hdrive : parseDrive path = false := by
    rw [← parseDrive_replace, ← Bool.not_eq_true]
    exact fun hdrive => parsePrefix_of_drive hdrive hpfx
  have hhead : path.head?.any (isSep true) = false := by
    rw [← hsep, replaceBackslash, List.head?_map]
    cases path.head? with
    | none => rfl
    | some c => exact (isSep_replace c).symm
  have hpath := FileTransfer.parsePrefix_eq_none (fun _ => hdrive) hhead
  have hdot : FileTransfer.leadingDot true (replaceBackslash path) = FileTransfer.leadingDot true path := by
    have hfirst : (replaceBackslash path).head? = some '.' ↔ path.head? = some '.' := by
      cases path with
      | nil => rfl
      | cons c path =>
        rw [replaceBackslash, List.map_cons, List.head?_cons, List.head?_cons]
        split
        · next hc => subst hc; decide
        · rfl
    simp only [FileTransfer.leadingDot, FileTransfer.isVerbatim, FileTransfer.afterPrefix, hasRoot, hpfx, hpath, hsep, hhead,
      FileTransfer.segments_eq hpfx, FileTransfer.segments_eq hpath, splitOnP_replace, hfirst]
  rw [FileTransfer.components_eq hpfx hsep, FileTransfer.components_eq hpath hhead, FileTransfer.segments_eq hpfx,
    FileTransfer.segments_eq hpath, splitOnP_replace, hdot]

/-- What the sweep takes a path for is what was written for it. -/
theorem Host.place_eq_key {host : Host} {path : Text} {k : Key} (h : host.key path = some k) :
    host.place path = some k := by
  unfold key resolveWithin at h
  cases hnames : resolveComponents (components true (replaceBackslash path)) with
  | none => rw [hnames] at h; cases h
  | some names =>
    have hwalk := resolveComponents_walk hnames []
    rw [components_replace hnames, List.nil_append] at hwalk
    unfold place
    rw [hnames] at h
    rw [hwalk]
    cases names with
    | nil => cases h
    | cons name names => exact h

/-! ## One launch, part by part -/

namespace Host

section Parts

variable (host : Host) (dir : Dir) (k : Key)

section RemoveDropped

variable (removed : Key → Bool) (keep : List Text)

/-- The sweep only removes. -/
theorem removeDropped_only (paths : List Text) :
    (host.removeDropped removed keep dir paths).1 k = dir k ∨ (host.removeDropped removed keep dir paths).1 k = none := by
  induction paths generalizing dir with
  | nil => exact .inl rfl
  | cons path paths ih =>
    unfold removeDropped
    split
    · exact ih dir
    · split
      · exact ih dir
      · next key hkey =>
        split
        · split
          · by_cases hk : k = key
            · subst hk
              have hnone : Function.update dir k none k = (none : Option File) := Function.update_self ..
              exact .inr ((ih (Function.update dir k none)).elim (fun h => h.trans hnone) id)
            · have hother : Function.update dir key none k = dir k := Function.update_of_ne hk ..
              exact hother ▸ ih (Function.update dir key none)
          · exact ih dir
        · exact ih dir

theorem failed_subset (paths : List Text) : (host.removeDropped removed keep dir paths).2 ⊆ paths := by
  induction paths generalizing dir with
  | nil => exact List.Subset.refl _
  | cons path paths ih =>
    unfold removeDropped
    have hskip : ∀ dir : Dir, (host.removeDropped removed keep dir paths).2 ⊆ path :: paths := fun dir =>
      List.subset_cons_of_subset path (ih dir)
    split
    · exact hskip dir
    · split
      · exact hskip dir
      · split
        · split
          · exact hskip _
          · exact List.cons_subset_cons path (ih dir)
        · exact hskip dir

variable {removed keep k}

/-- A file that was noted and is not in the package any more is gone, or noted again. -/
theorem removeDropped_swept {paths : List Text} {path : Text} (hpath : path ∈ paths)
    (hkeep : normalizePath host.toLowercase path ∉ keep) (hkey : host.key path = some k) :
    (host.removeDropped removed keep dir paths).1 k = none ∨
      path ∈ (host.removeDropped removed keep dir paths).2 ∧ removed k = false := by
  induction paths generalizing dir with
  | nil => cases hpath
  | cons first paths ih =>
    unfold removeDropped
    rcases List.mem_cons.1 hpath with rfl | hmem
    · rw [if_neg (mt List.contains_iff_mem.1 hkeep)]
      simp only [hkey]
      split
      · cases hremoved : removed k with
        | true =>
          have hnone : Function.update dir k none k = (none : Option File) := Function.update_self ..
          exact .inl ((host.removeDropped_only _ k removed keep paths).elim (fun h => h.trans hnone) id)
        | false => exact .inr ⟨List.mem_cons_self, rfl⟩
      · next hfree =>
        have hnone : dir k = none := by simpa using hfree
        exact .inl ((host.removeDropped_only dir k removed keep paths).elim (fun h => h.trans hnone) id)
    · split
      · exact ih dir hmem
      · split
        · exact ih dir hmem
        · split
          · split
            · exact ih _ hmem
            · exact (ih dir hmem).imp_right fun h => ⟨List.mem_cons_of_mem _ h.1, h.2⟩
          · exact ih dir hmem

end RemoveDropped

theorem write_cases (key : Key) (file : File) (written : Written) :
    dir.write key file written k = dir k ∨
      key = k ∧ ∃ bytes, dir.write key file written k = some { file with bytes } := by
  by_cases hk : k = key
  · subst hk
    cases written with
    | done => exact .inr ⟨rfl, file.bytes, Function.update_self ..⟩
    | refused => exact .inl rfl
    | cut left => exact .inr ⟨rfl, left, Function.update_self ..⟩
  · cases written with
    | done => exact .inl (Function.update_of_ne hk ..)
    | refused => exact .inl rfl
    | cut left => exact .inl (Function.update_of_ne hk ..)

/-- Beside the files there is a copy of the broker at most. -/
theorem copyRuntimeBroker_cases (broker : Option Bytes) (compared : Bool) (copied : Written) :
    host.copyRuntimeBroker broker compared copied dir k = dir k ∨
      host.brokerKey = k ∧ ∃ bytes, host.copyRuntimeBroker broker compared copied dir k = some ⟨bytes, .other⟩ := by
  unfold copyRuntimeBroker
  cases broker with
  | none => exact .inl rfl
  | some bytes =>
    have hwrite := write_cases dir k host.brokerKey ⟨bytes, .other⟩ copied
    cases hfound : dir host.brokerKey with
    | none => simpa only [hfound] using hwrite
    | some found =>
      by_cases hsame : compared = true ∧ host.md5Hex bytes = host.md5Hex found.bytes
      · exact .inl (by simp only [if_pos hsame])
      · simpa only [hfound, if_neg hsame] using hwrite

theorem writeToFile_cases (file : BinaryData) (origin : Origin) (written : Written) :
    host.writeToFile dir file origin written k = dir k ∨
      host.place file.path = some k ∧ ∃ bytes, host.writeToFile dir file origin written k = some ⟨bytes, origin⟩ := by
  unfold writeToFile
  cases hplace : host.place file.path with
  | none => exact .inl rfl
  | some key =>
    have hwrite := write_cases dir k key ⟨host.decompress file.raw, origin⟩ written
    have hwritten := hwrite.imp_right fun h => (⟨congrArg some h.1, h.2⟩ : some key = some k ∧ _)
    cases hfound : dir key with
    | none => simpa only [hfound] using hwritten
    | some found =>
      by_cases hsame : host.md5Hex found.bytes = file.md5Code
      · by_cases hk : k = key
        · subst hk
          exact .inr ⟨rfl, found.bytes, by simp only [hfound, if_pos hsame, Function.update_self]⟩
        · exact .inl (by simp only [hfound, if_pos hsame, Function.update_of_ne hk])
      · simpa only [hfound, if_neg hsame] using hwritten

theorem wipe_cases (appMetadata : Bytes) (clear : Bool) (survives : Key → Bool) :
    (host.wipe appMetadata clear survives dir).1 = dir ∨
      (host.wipe appMetadata clear survives dir).1 = fun key => if survives key then dir key else none := by
  unfold wipe
  dsimp only
  generalize (if clear then (false, 0) else host.isTimestampMatches appMetadata dir).1 = kept
  cases kept with
  | true => exact .inl rfl
  | false => exact .inr rfl

end Parts

variable {host : Host} {dir : Dir} {k : Key}

theorem writeFiles_other {packagePaths : List Text} {files : List BinaryData} {written : Nat → Written}
    (h : ∀ file ∈ files, host.place file.path ≠ some k) : host.writeFiles packagePaths written dir files k = dir k := by
  induction files generalizing dir written with
  | nil => rfl
  | cons file files ih =>
    obtain ⟨hfile, hfiles⟩ := List.forall_mem_cons.1 h
    rw [writeFiles, ih hfiles]
    exact (host.writeToFile_cases dir k file _ (written 0)).resolve_right fun hplaced => hfile hplaced.1

/-- Only entries of the package make a file one of the package's. -/
theorem writeFiles_package {packagePaths : List Text} {files : List BinaryData} {written : Nat → Written} {f : File}
    (h : host.writeFiles packagePaths written dir files k = some f) (horigin : f.origin = .package) :
    (∃ f₀, dir k = some f₀ ∧ f₀.origin = .package) ∨ ∃ path ∈ packagePaths, host.place path = some k := by
  induction files generalizing dir written with
  | nil => exact .inl ⟨f, h, horigin⟩
  | cons file files ih =>
    rw [writeFiles] at h
    rcases ih h with ⟨f₀, hf₀, horigin₀⟩ | hpath
    · rcases host.writeToFile_cases dir k file (if packagePaths.contains file.path then .package else .payload) (written 0) with
        hsame | ⟨hplace, bytes, hbytes⟩
      · exact .inl ⟨f₀, hsame ▸ hf₀, horigin₀⟩
      · obtain rfl := Option.some.inj (hbytes.symm.trans hf₀)
        by_cases hmem : file.path ∈ packagePaths
        · exact .inr ⟨file.path, hmem, hplace⟩
        · rw [if_neg (mt List.contains_iff_mem.1 hmem)] at horigin₀
          cases horigin₀
    · exact .inr hpath

/-- The notes are read back as they were written. -/
theorem previousPackageFiles_writeMeta {paths : List Text} (ts : Nat) (h : ∀ path ∈ paths, Listable path) :
    host.previousPackageFiles (host.writeMeta dir ts paths .done) = paths := by
  have hmeta : host.writeMeta dir ts paths .done host.metaKey = some ⟨encodeUtf8 (metaContent ts paths), .other⟩ :=
    Function.update_self ..
  rw [previousPackageFiles, readMeta, hmeta, Option.bind_some, decodeUtf8_encodeUtf8]
  exact packageFilesOf_metaContent ts h

/-- The copy of the broker is not where the notes are. -/
theorem previousPackageFiles_copyRuntimeBroker (broker : Option Bytes) (compared : Bool) (copied : Written) :
    host.previousPackageFiles (host.copyRuntimeBroker broker compared copied dir) = host.previousPackageFiles dir := by
  have hmeta : host.copyRuntimeBroker broker compared copied dir host.metaKey = dir host.metaKey :=
    (host.copyRuntimeBroker_cases dir host.metaKey broker compared copied).resolve_right fun h =>
      host.apart (List.cons.inj h.1).1
  rw [previousPackageFiles, readMeta, hmeta]
  rfl

theorem listable_previous {path : Text} (h : path ∈ host.previousPackageFiles dir) : Listable path := by
  unfold previousPackageFiles at h
  split at h
  · cases h
  · exact listable_of_mem h

/-! ## Every run -/

/-- Paths that packages use: a line can hold them, the sweep can follow them, and two that are normalized alike are one
file. -/
structure Regular (host : Host) (paths : Set Text) : Prop where
  listable : ∀ path ∈ paths, Listable path
  resolves : ∀ path ∈ paths, (host.key path).isSome
  same : ∀ p ∈ paths, ∀ q ∈ paths,
    normalizePath host.toLowercase p = normalizePath host.toLowercase q → host.key p = host.key q

/-- A file that a package put into the directory has its line. -/
def Noted (host : Host) (paths : Set Text) (dir : Dir) : Prop :=
  ∀ k f, dir k = some f → f.origin = .package →
    ∃ path ∈ paths, path ∈ host.previousPackageFiles dir ∧ host.key path = some k

/-- What a run is asked for: packages with such paths, notes that are written, a wipe that takes the notes last, and an
application that takes no line out. -/
def Fair (host : Host) (paths : Set Text) (dir : Dir) : Event → Prop
  | .launch packer _ outcome =>
    (∀ reader, BinaryReader.new host.toLowercase packer.binData packer.resource = .ok reader →
      ∀ path ∈ reader.packagePaths, path ∈ paths) ∧
    outcome.noted = .done ∧
    ∀ k f, dir k = some f → f.origin = .package → outcome.survives k = true → outcome.survives host.metaKey = true
  | .activity dir' =>
    (∀ k f, dir' k = some f → f.origin = .package → ∃ f₀, dir k = some f₀ ∧ f₀.origin = .package) ∧
    host.previousPackageFiles dir ⊆ host.previousPackageFiles dir'

variable {paths : Set Text}

theorem Noted.wipe {appMetadata : Bytes} {clear : Bool} {survives : Key → Bool} (h : host.Noted paths dir)
    (hlast : ∀ k f, dir k = some f → f.origin = .package → survives k = true → survives host.metaKey = true) :
    host.Noted paths (host.wipe appMetadata clear survives dir).1 := by
  rcases host.wipe_cases dir appMetadata clear survives with heq | heq
  · rw [heq]
    exact h
  · rw [heq]
    intro k f hf horigin
    dsimp only at hf
    split at hf
    · next hsurvives =>
      obtain ⟨path, hpath, hmem, hkey⟩ := h k f hf horigin
      have hmeta := hlast k f hf horigin hsurvives
      refine ⟨path, hpath, ?_, hkey⟩
      simpa only [previousPackageFiles, readMeta, hmeta, if_true] using hmem
    · cases hf

/-- What one launch leaves of packages: the files of its own, and those that it could not remove. -/
theorem setup_noted (hreg : host.Regular paths) {appMetadata : Bytes} {reader : BinaryReader} {clear : Bool} {o : Outcome}
    (hpaths : ∀ path ∈ reader.packagePaths, path ∈ paths) (hnoted : o.noted = .done) (hdir : host.Noted paths dir)
    (hlast : ∀ k f, dir k = some f → f.origin = .package → o.survives k = true → o.survives host.metaKey = true)
    {f : File} (hf : host.setup appMetadata reader clear o dir k = some f) (horigin : f.origin = .package) :
    (∃ path ∈ reader.packagePaths, host.key path = some k ∧
      path ∈ host.previousPackageFiles (host.setup appMetadata reader clear o dir)) ∨
    o.removed k = false ∧ ∃ path ∈ paths, host.key path = some k ∧
      path ∈ host.previousPackageFiles (host.setup appMetadata reader clear o dir) := by
  have hwiped : host.Noted paths (host.wipe appMetadata clear o.survives dir).1 := hdir.wipe hlast
  unfold setup at hf ⊢
  rw [hnoted] at hf ⊢
  dsimp only at hf ⊢
  generalize host.wipe appMetadata clear o.survives dir = wiped at hf hwiped ⊢
  generalize hkeep : reader.packagePaths.map (normalizePath host.toLowercase) = keep at hf ⊢
  generalize hprevious : host.previousPackageFiles wiped.1 = previous at hf ⊢
  have honly := host.removeDropped_only wiped.1 k o.removed keep previous
  have hsub := host.failed_subset wiped.1 o.removed keep previous
  have hswept : ∀ path ∈ previous, normalizePath host.toLowercase path ∉ keep → host.key path = some k →
      (host.removeDropped o.removed keep wiped.1 previous).1 k = none ∨
        path ∈ (host.removeDropped o.removed keep wiped.1 previous).2 ∧ o.removed k = false :=
    fun path hpath => host.removeDropped_swept wiped.1 hpath
  generalize host.removeDropped o.removed keep wiped.1 previous = swept at hf honly hsub hswept ⊢
  have hlistable : ∀ path ∈ reader.packagePaths ++ swept.2, Listable path := by
    intro path hpath
    rcases List.mem_append.1 hpath with hmem | hmem
    · exact hreg.listable path (hpaths path hmem)
    · exact listable_previous (hprevious.symm ▸ hsub hmem)
  rw [previousPackageFiles_copyRuntimeBroker, previousPackageFiles_writeMeta _ hlistable]
  rcases host.copyRuntimeBroker_cases _ k o.broker o.compared o.copied with hbefore | ⟨-, bytes, hbytes⟩
  swap
  · obtain rfl := Option.some.inj (hbytes.symm.trans hf)
    cases horigin
  rw [hbefore] at hf
  have hwritten : host.writeFiles reader.packagePaths o.written swept.1 reader.files k = some f := by
    rcases write_cases _ k host.metaKey _ .done with hsame | ⟨-, bytes, hbytes⟩
    · exact hsame.symm.trans hf
    · obtain rfl := Option.some.inj (hbytes.symm.trans hf)
      cases horigin
  rcases writeFiles_package hwritten horigin with ⟨f₀, hf₀, horigin₀⟩ | ⟨path, hpath, hplace⟩
  · have hleft : wiped.1 k = some f₀ := by
      rcases honly with heq | hnone
      · rw [← heq, hf₀]
      · rw [hnone] at hf₀
        cases hf₀
    obtain ⟨path, hpath, hmem, hkey⟩ := hwiped k f₀ hleft horigin₀
    rw [hprevious] at hmem
    by_cases hcurrent : normalizePath host.toLowercase path ∈ keep
    · rw [← hkeep] at hcurrent
      obtain ⟨current, hmem', heq⟩ := List.mem_map.1 hcurrent
      refine .inl ⟨current, hmem', ?_, List.mem_append_left _ hmem'⟩
      rw [hreg.same current (hpaths current hmem') path hpath heq, hkey]
    · rcases hswept path hmem hcurrent hkey with hnone | ⟨hfailed, hremoved⟩
      · rw [hnone] at hf₀
        cases hf₀
      · exact .inr ⟨hremoved, path, hpath, hkey, List.mem_append_right _ hfailed⟩
  · obtain ⟨key, hkey⟩ := Option.isSome_iff_exists.1 (hreg.resolves path (hpaths path hpath))
    have hsame : key = k := Option.some.inj ((place_eq_key hkey).symm.trans hplace)
    exact .inl ⟨path, hpath, hsame ▸ hkey, List.mem_append_left _ hpath⟩

theorem Noted.step (hreg : host.Regular paths) {dir' : Dir} {event : Event} (h : host.Noted paths dir)
    (hfair : host.Fair paths dir event) (hstep : step host dir event = some dir') : host.Noted paths dir' := by
  cases event with
  | launch packer clear outcome =>
    obtain ⟨hpaths, hnoted, hlast⟩ := hfair
    unfold Portable.step at hstep
    dsimp only at hstep
    split at hstep
    · exact Option.some.inj hstep ▸ h
    · next reader hreader =>
      obtain rfl := Option.some.inj hstep
      intro k f hf horigin
      rcases setup_noted hreg (hpaths reader hreader) hnoted h hlast hf horigin with
        ⟨path, hpath, hkey, hmem⟩ | ⟨-, path, hpath, hkey, hmem⟩
      · exact ⟨path, hpaths reader hreader path hpath, hmem, hkey⟩
      · exact ⟨path, hpath, hmem, hkey⟩
  | activity dir₁ =>
    obtain rfl := Option.some.inj hstep
    intro k f hf horigin
    obtain ⟨f₀, hf₀, horigin₀⟩ := hfair.1 k f hf horigin
    obtain ⟨path, hpath, hmem, hkey⟩ := h k f₀ hf₀ horigin₀
    exact ⟨path, hpath, hfair.2 hmem, hkey⟩

end Host

/-- In every run, after any launch, a file that a package put into the directory is one of the package launched, or its
removal has just failed and it is noted for the next launch. -/
theorem dropped_files_swept {host : Host} {paths : Set Text} (hreg : host.Regular paths) {history : List (Dir × Event)}
    {dir dir' : Dir} {packer : Packer} {clear : Bool} {outcome : Outcome} {reader : BinaryReader}
    (hrun : Exec (fun dir => ∀ k f, dir k = some f → f.origin ≠ .package) (step host)
      ((dir, .launch packer clear outcome) :: history) dir')
    (hfair : ∀ p ∈ (dir, .launch packer clear outcome) :: history, host.Fair paths p.1 p.2)
    (hreader : BinaryReader.new host.toLowercase packer.binData packer.resource = .ok reader)
    {k : Key} {f : File} (hf : dir' k = some f) (horigin : f.origin = .package) :
    (∃ path ∈ reader.packagePaths, host.key path = some k) ∨
      outcome.removed k = false ∧ ∃ path ∈ host.previousPackageFiles dir', host.key path = some k := by
  obtain ⟨hhead, htail⟩ := List.forall_mem_cons.1 hfair
  cases hrun with
  | snoc hpast hstep =>
    have hnoted : host.Noted paths dir := hpast.invariant_of (I := host.Noted paths) (G := host.Fair paths)
      (fun _ hinit k f hf horigin => absurd horigin (hinit k f hf))
      (fun _ _ _ hi hg hs => hi.step hreg hg hs) htail
    simp only [step, hreader] at hstep
    obtain rfl := Option.some.inj hstep
    rcases Host.setup_noted hreg (hhead.1 reader hreader) hhead.2.1 hnoted hhead.2.2 hf horigin with
      ⟨path, hpath, hkey, -⟩ | ⟨hremoved, path, -, hkey, hmem⟩
    · exact .inl ⟨path, hpath, hkey⟩
    · exact .inr ⟨hremoved, path, hmem, hkey⟩

/-! ## Two launches -/

def ascii (text : String) : Bytes := encodeUtf8 text.toList

/-- Brotli and md5 on the bytes of the example. -/
def exampleHost : Host where
  decompress raw := (raw.drop 3).dropLast
  md5Hex bytes := ascii (
    if bytes = ascii "app" then "d2a57dc1d883fd21fb9951699df71cc7"
    else if bytes = ascii "cfg" then "011134986548f3458aa3e7e2a7fceb8d"
    else if bytes = ascii "img" then "b798abe6e1b1318ee36b0dcb3fb9e4d3"
    else "06416233fe5ec4c5933122e4ab248af1")
  toLowercase := List.map Char.toLower
  canon := List.map Char.toLower
  apart := by decide

def exampleEntry (path content : String) : BinaryData :=
  ⟨exampleHost.md5Hex (ascii content), [0x0b, 0x01, 0x80] ++ ascii content ++ [0x03], path.toList⟩

def exampleBlob (files : List BinaryData) (exe : Text) : Bytes :=
  IDENTIFIER ++ files.flatMap BinaryData.bytes ++ (IDENTIFIER ++ encodeUtf8 exe)

/-- The package of a customer in the packer of a release. -/
def examplePacker (package : List BinaryData) : Packer where
  binData := exampleBlob [exampleEntry "./rustdesk.exe" "app"] "./rustdesk.exe".toList
  resource := some (exampleBlob package "./acme.exe".toList)
  appMetadata := ascii "timestamp = 5\n"

def exampleReader (package : List BinaryData) : BinaryReader where
  files := exampleEntry "./acme.exe" "app" :: package
  exe := "./acme.exe".toList
  packagePaths := package.map BinaryData.path

/-- Everything can be written, and everything removed but `custom.txt`. -/
def exampleOutcome : Outcome where
  survives _ := true
  removed k := k ≠ ["custom.txt".toList]
  written _ := .done
  noted := .done
  broker := some (ascii "exe")
  compared := true
  copied := .done

def examplePackage₁ : List BinaryData :=
  [exampleEntry "./custom.txt" "cfg", exampleEntry "./hello.txt" "cfg", exampleEntry "./logo.png" "img"]

def examplePackage₂ : List BinaryData := [exampleEntry "./logo.png" "img"]

theorem length_md5Hex_exampleHost (bytes : Bytes) : (exampleHost.md5Hex bytes).length = MD5_LENGTH := by
  simp only [exampleHost]
  split
  · decide
  · split
    · decide
    · split <;> decide

theorem read_exampleEntry (path content : String) (hpath : (encodeUtf8 path.toList).length < 0x72757374)
    (hraw : (exampleEntry path content).raw.length < 256 ^ LENGTH) : (exampleEntry path content).Read where
  path := lt_trans hpath (by decide)
  raw := hraw
  md5Code := length_md5Hex_exampleHost _
  clear hmistaken := absurd hmistaken.1 (Nat.ne_of_lt hpath)

theorem examplePacker_new {package : List BinaryData} (hread : ∀ file ∈ package, file.Read)
    (hmerge : merge exampleHost.toLowercase ([exampleEntry "./rustdesk.exe" "app"], "./rustdesk.exe".toList)
      (package, "./acme.exe".toList) = (exampleEntry "./acme.exe" "app" :: package, "./acme.exe".toList)) :
    BinaryReader.new exampleHost.toLowercase (examplePacker package).binData (examplePacker package).resource =
      .ok (exampleReader package) := by
  have hgeneric : parse (exampleBlob [exampleEntry "./rustdesk.exe" "app"] "./rustdesk.exe".toList) =
      some ([exampleEntry "./rustdesk.exe" "app"], "./rustdesk.exe".toList) :=
    parse_eq_some_bytes.2 ⟨List.forall_mem_singleton.2 (read_exampleEntry _ _ (by decide) (by decide)), rfl⟩
  have hpackage : parse (exampleBlob package "./acme.exe".toList) = some (package, "./acme.exe".toList) :=
    parse_eq_some_bytes.2 ⟨hread, rfl⟩
  refine new_eq_ok.2 ⟨_, (package, "./acme.exe".toList), hgeneric, ?_, ?_⟩
  · change parsePackageBlob (some (exampleBlob package "./acme.exe".toList)) = _
    rw [parsePackageBlob, hpackage]
    exact if_neg (show trim "./acme.exe".toList ≠ [] by decide)
  · rw [hmerge]
    rfl

/-- What a launch of the example comes to, with the sweep over what was noted before. -/
theorem setup_example (package : List BinaryData) (dir : Dir) {previous : List Text}
    (hprevious : exampleHost.previousPackageFiles dir = previous) :
    ∃ ts, exampleHost.setup (examplePacker package).appMetadata (exampleReader package) false exampleOutcome dir =
      let paths := package.map BinaryData.path
      let swept := exampleHost.removeDropped exampleOutcome.removed
        (paths.map (normalizePath exampleHost.toLowercase)) dir previous
      exampleHost.copyRuntimeBroker (some (ascii "exe")) true .done (exampleHost.writeMeta
        (exampleHost.writeFiles paths (fun _ => .done) swept.1 (exampleEntry "./acme.exe" "app" :: package)) ts
        (paths ++ swept.2) .done) := by
  have hwiped : (exampleHost.wipe (examplePacker package).appMetadata false exampleOutcome.survives dir).1 = dir :=
    exampleHost.wipe_cases dir (examplePacker package).appMetadata false exampleOutcome.survives |>.elim id
      fun h => h.trans (funext fun k => if_pos rfl)
  refine ⟨(exampleHost.wipe (examplePacker package).appMetadata false exampleOutcome.survives dir).2, ?_⟩
  unfold Host.setup
  dsimp only
  rw [hwiped, hprevious]
  rfl

/-- A second package without two files of the first: one of them cannot be removed. -/
theorem dropped_files_swept_launches : ∃ dir₁ dir₂,
    step exampleHost (fun _ => none) (.launch (examplePacker examplePackage₁) false exampleOutcome) = some dir₁ ∧
    step exampleHost dir₁ (.launch (examplePacker examplePackage₂) false exampleOutcome) = some dir₂ ∧
    dir₁ ["hello.txt".toList] = some ⟨ascii "cfg", .package⟩ ∧ dir₂ ["hello.txt".toList] = none ∧
    dir₂ ["custom.txt".toList] = some ⟨ascii "cfg", .package⟩ ∧
    ((∃ path ∈ (exampleReader examplePackage₂).packagePaths, exampleHost.key path = some ["custom.txt".toList]) ∨
      exampleOutcome.removed ["custom.txt".toList] = false ∧
        ∃ path ∈ exampleHost.previousPackageFiles dir₂, exampleHost.key path = some ["custom.txt".toList]) := by
  have hread₁ : ∀ file ∈ examplePackage₁, file.Read := by
    simp only [examplePackage₁, List.forall_mem_cons]
    exact ⟨read_exampleEntry _ _ (by decide) (by decide), read_exampleEntry _ _ (by decide) (by decide),
      read_exampleEntry _ _ (by decide) (by decide), fun file hfile => by cases hfile⟩
  have hread₂ : ∀ file ∈ examplePackage₂, file.Read := fun file hfile =>
    hread₁ file (List.mem_of_mem_drop (i := 2) hfile)
  have hstep₁ : step exampleHost (fun _ => none) (.launch (examplePacker examplePackage₁) false exampleOutcome) =
      some (exampleHost.setup (examplePacker examplePackage₁).appMetadata (exampleReader examplePackage₁) false
        exampleOutcome fun _ => none) := by
    simp only [step, examplePacker_new hread₁ rfl]
  have hnone : exampleHost.previousPackageFiles (fun _ => none) = [] := rfl
  obtain ⟨ts₁, hdir₁⟩ := setup_example examplePackage₁ (fun _ => none) hnone
  rw [hdir₁] at hstep₁
  generalize hdir : exampleHost.copyRuntimeBroker _ _ _ _ = dir₁ at hstep₁
  have hlistable : ∀ path ∈ examplePackage₁.map BinaryData.path, Listable path := by
    simp only [examplePackage₁, List.map_cons, List.map_nil, List.forall_mem_cons]
    exact ⟨⟨by decide, by decide⟩, ⟨by decide, by decide⟩, ⟨by decide, by decide⟩, fun path hpath => by cases hpath⟩
  have hprevious : exampleHost.previousPackageFiles dir₁ = examplePackage₁.map BinaryData.path := by
    rw [← hdir]
    exact (Host.previousPackageFiles_copyRuntimeBroker ..).trans (Host.previousPackageFiles_writeMeta ts₁ hlistable)
  have hcustom : dir₁ ["custom.txt".toList] = some ⟨ascii "cfg", .package⟩ := by
    rw [← hdir]
    rfl
  have hhello : dir₁ ["hello.txt".toList] = some ⟨ascii "cfg", .package⟩ := by
    rw [← hdir]
    rfl
  have hstep₂ : step exampleHost dir₁ (.launch (examplePacker examplePackage₂) false exampleOutcome) =
      some (exampleHost.setup (examplePacker examplePackage₂).appMetadata (exampleReader examplePackage₂) false
        exampleOutcome dir₁) := by
    simp only [step, examplePacker_new hread₂ rfl]
  obtain ⟨ts₂, hdir₂⟩ := setup_example examplePackage₂ dir₁ hprevious
  have hsweep : exampleHost.removeDropped exampleOutcome.removed
      ((examplePackage₂.map BinaryData.path).map (normalizePath exampleHost.toLowercase)) dir₁
      (examplePackage₁.map BinaryData.path) =
        (Function.update dir₁ ["hello.txt".toList] none, ["./custom.txt".toList]) := by
    have hcustomKey : exampleHost.key "./custom.txt".toList = some ["custom.txt".toList] := rfl
    have hhelloKey : exampleHost.key "./hello.txt".toList = some ["hello.txt".toList] := rfl
    show exampleHost.removeDropped _ _ dir₁ ["./custom.txt".toList, "./hello.txt".toList, "./logo.png".toList] = _
    rw [Host.removeDropped, if_neg (by decide)]
    simp only [hcustomKey, hcustom, Option.isSome_some, if_true]
    rw [if_neg (by decide), Host.removeDropped, if_neg (by decide)]
    simp only [hhelloKey, hhello, Option.isSome_some, if_true]
    rw [if_pos (by decide), Host.removeDropped, if_pos (by decide), Host.removeDropped]
  -- nothing else is put where the files dropped are
  have hother : ∀ k, k ≠ exampleHost.brokerKey → k ≠ exampleHost.metaKey →
      (∀ file ∈ exampleEntry "./acme.exe" "app" :: examplePackage₂, exampleHost.place file.path ≠ some k) →
      exampleHost.setup (examplePacker examplePackage₂).appMetadata (exampleReader examplePackage₂) false
        exampleOutcome dir₁ k = Function.update dir₁ ["hello.txt".toList] none k := by
    intro k hbroker hmeta hplaced
    rw [hdir₂]
    dsimp only
    rw [hsweep]
    refine ((exampleHost.copyRuntimeBroker_cases _ k _ _ _).resolve_right fun h => hbroker h.1.symm).trans ?_
    refine ((Host.write_cases _ k exampleHost.metaKey _ _).resolve_right fun h => hmeta h.1.symm).trans ?_
    exact Host.writeFiles_other hplaced
  have hkept : exampleHost.setup (examplePacker examplePackage₂).appMetadata (exampleReader examplePackage₂) false
      exampleOutcome dir₁ ["custom.txt".toList] = some ⟨ascii "cfg", .package⟩ := by
    rw [hother _ (by decide) (by decide) (by decide)]
    exact (Function.update_of_ne (by decide) ..).trans hcustom
  have hgone : exampleHost.setup (examplePacker examplePackage₂).appMetadata (exampleReader examplePackage₂) false
      exampleOutcome dir₁ ["hello.txt".toList] = none := by
    rw [hother _ (by decide) (by decide) (by decide)]
    exact Function.update_self ..
  have hregular : exampleHost.Regular {path | path ∈ examplePackage₁.map BinaryData.path} := by
    have hresolves : ∀ path ∈ examplePackage₁.map BinaryData.path, (exampleHost.key path).isSome := by decide
    have hsame : ∀ p ∈ examplePackage₁.map BinaryData.path, ∀ q ∈ examplePackage₁.map BinaryData.path,
        normalizePath exampleHost.toLowercase p = normalizePath exampleHost.toLowercase q →
          exampleHost.key p = exampleHost.key q := by decide
    exact ⟨hlistable, hresolves, hsame⟩
  refine ⟨dir₁, _, hstep₁, hstep₂, hhello, hgone, hkept, dropped_files_swept hregular
    (.snoc (.snoc (.start ?_) hstep₁) hstep₂) ?_ (examplePacker_new hread₂ rfl) hkept rfl⟩
  · intro k f hf
    cases hf
  · intro p hp
    simp only [List.mem_cons, List.not_mem_nil, or_false] at hp
    rcases hp with rfl | rfl
    · refine ⟨?_, rfl, fun _ _ _ _ _ => rfl⟩
      intro reader hreader
      obtain rfl := Except.ok.inj ((examplePacker_new hread₂ rfl).symm.trans hreader)
      exact fun path hpath => List.mem_of_mem_drop (i := 2) hpath
    · refine ⟨?_, rfl, fun _ _ _ _ _ => rfl⟩
      intro reader hreader
      obtain rfl := Except.ok.inj ((examplePacker_new hread₁ rfl).symm.trans hreader)
      exact fun path hpath => hpath

end FontisRemote.Portable
