import FontisRemote.Portable.Sweep

/-!
# What is packed is installed

`generate.py` makes the generic blob of a release from one folder and the package of a customer from another. Launched,
the packer puts into the directory the two folders laid over each other (`overlay`): a file of the package in place of
the generic one of that path, and the generic executable under the name that the package decides.
-/

namespace FontisRemote.Portable

open FontisRemote.Lib (encodeUtf8)
open FontisRemote.Connection (trim)

/-- Files by their paths, of which a folder has each once, and the path of the executable. -/
structure Folder where
  files : List (Text × Bytes)
  exe : Text
  distinct : (files.map Prod.fst).Nodup

def Folder.empty : Folder := ⟨[], [], List.nodup_nil⟩

section Generate

variable (host : Host) (compress : Bytes → Bytes)

/-- `normalize(exclude) if exclude else None`, where nothing is skipped for an empty text. -/
def skip (exclude : Option Text) : Option Text :=
  ((exclude.filter (· ≠ [])).map (normalizePath host.toLowercase)).filter (· ≠ [])

def skips (exclude : Option Text) (file : Text × Bytes) : Bool :=
  (skip host exclude).any (normalizePath host.toLowercase file.1 == ·)

/-- `generate_md5_table`, over what `os.walk` finds. -/
def generateMd5Table (files : List (Text × Bytes)) (exclude : Option Text) : Except String Md5Table :=
  if (skip host exclude).isSome ∧ files.all (fun file => !skips host exclude file) then
    .error "excluded file was not found"
  else
    .ok ((files.filter fun file => !skips host exclude file).foldl
      (fun res file => res.set file.1 (compress file.2, host.md5Hex file.2)) .empty)

/-- `generate.py`, for a template or for a package. -/
def generate (folder : Folder) (excludeExe : Bool) : Except String Bytes := do
  let md5Table ← generateMd5Table host compress folder.files (if excludeExe then some folder.exe else none)
  writeBlob md5Table folder.exe

/-! ## The folders laid over each other -/

/-- What of a folder is packed. -/
def packed (folder : Folder) (excludeExe : Bool) : Folder where
  files := folder.files.filter fun file => !skips host (if excludeExe then some folder.exe else none) file
  exe := folder.exe
  distinct := folder.distinct.sublist (List.filter_sublist.map _)

def installPath (genericExe exe path : Text) : Text :=
  if genericExe ≠ [] ∧ normalizePath host.toLowercase exe ≠ normalizePath host.toLowercase genericExe ∧
      normalizePath host.toLowercase path = normalizePath host.toLowercase genericExe then exe
  else path

def overlay (generic package : Folder) : List (Text × Bytes) × Text :=
  let exe := if package.exe = [] then generic.exe else package.exe
  let files := generic.files.map fun file => (installPath host generic.exe exe file.1, file.2)
  let overridden := package.files.map fun file => normalizePath host.toLowercase file.1
  (files.filter (fun file => !overridden.contains (normalizePath host.toLowercase file.1)) ++ package.files, exe)

/-- A file as it is packed. -/
def entryOf (file : Text × Bytes) : BinaryData := ⟨host.md5Hex file.2, compress file.2, file.1⟩

end Generate

section Packed

variable {host : Host} {compress : Bytes → Bytes}

/-- Files that the dict does not have come in one behind the other. -/
theorem entries_foldl_set {files : List (Text × Bytes)} {table : Md5Table} (hdistinct : (files.map Prod.fst).Nodup)
    (hnew : ∀ file ∈ files, file.1 ∉ table.entries.map Prod.fst) :
    (files.foldl (fun res file => res.set file.1 (compress file.2, host.md5Hex file.2)) table).entries =
      table.entries ++ tableOf (files.map (entryOf host compress)) := by
  induction files generalizing table with
  | nil => exact (List.append_nil _).symm
  | cons file files ih =>
    rw [List.map_cons, List.nodup_cons] at hdistinct
    obtain ⟨hfile, hnew⟩ := List.forall_mem_cons.1 hnew
    rw [List.foldl_cons, ih hdistinct.2, Md5Table.entries_set _ hfile, List.append_assoc]
    · rfl
    · intro later hlater hmem
      rw [Md5Table.entries_set _ hfile, List.map_append, List.mem_append] at hmem
      rcases hmem with hmem | hmem
      · exact hnew later hlater hmem
      · exact hdistinct.1 (List.mem_singleton.1 hmem ▸ List.mem_map_of_mem hlater)

theorem generateMd5Table_eq_ok {files : List (Text × Bytes)} {exclude : Option Text} {table : Md5Table}
    (h : generateMd5Table host compress files exclude = .ok table) (hdistinct : (files.map Prod.fst).Nodup) :
    table.entries = tableOf ((files.filter fun file => !skips host exclude file).map (entryOf host compress)) := by
  unfold generateMd5Table at h
  split at h
  · cases h
  · obtain rfl := Except.ok.inj h
    exact entries_foldl_set (hdistinct.sublist (List.filter_sublist.map _)) fun _ _ hmem => by cases hmem

theorem generate_eq_ok {folder : Folder} {excludeExe : Bool} {blob : Bytes}
    (h : generate host compress folder excludeExe = .ok blob) :
    ∃ table : Md5Table, table.entries = tableOf ((packed host folder excludeExe).files.map (entryOf host compress)) ∧
      writeBlob table folder.exe = .ok blob := by
  obtain ⟨table, htable, hblob⟩ := bind_eq_ok.1 h
  exact ⟨table, generateMd5Table_eq_ok htable folder.distinct, hblob⟩

/-- What was packed is read. -/
theorem parse_generate {folder : Folder} {excludeExe : Bool} {blob : Bytes}
    (h : generate host compress folder excludeExe = .ok blob) (hmd5 : ∀ bytes, (host.md5Hex bytes).length = MD5_LENGTH)
    (hshort : ∀ file ∈ folder.files, (encodeUtf8 file.1).length < 0x72757374) :
    parse blob = some ((packed host folder excludeExe).files.map (entryOf host compress), folder.exe) := by
  refine (parse_eq_some.2 ⟨generate_eq_ok h, fun file hfile => ?_⟩).1
  obtain ⟨source, hsource, rfl⟩ := List.mem_map.1 hfile
  have hlt := hshort source (List.mem_filter.1 hsource).1
  exact ⟨hmd5 source.2, fun hmistaken => absurd hmistaken.1 (Nat.ne_of_lt hlt)⟩

theorem renamed_entryOf (genericExe exe : Text) (file : Text × Bytes) :
    renamed host.toLowercase genericExe exe (entryOf host compress file) =
      entryOf host compress (installPath host genericExe exe file.1, file.2) := by
  by_cases h : genericExe ≠ [] ∧ normalizePath host.toLowercase exe ≠ normalizePath host.toLowercase genericExe ∧
      normalizePath host.toLowercase file.1 = normalizePath host.toLowercase genericExe
  · have hpath : installPath host genericExe exe file.1 = exe := if_pos h
    rw [hpath]
    exact if_pos h
  · have hpath : installPath host genericExe exe file.1 = file.1 := if_neg h
    rw [hpath]
    exact if_neg h

/-- The reader folds entries as the folders are laid over each other. -/
theorem merge_entryOf (generic package : Folder) :
    merge host.toLowercase (generic.files.map (entryOf host compress), generic.exe)
        (package.files.map (entryOf host compress), package.exe) =
      ((overlay host generic package).1.map (entryOf host compress), (overlay host generic package).2) := by
  have hrenamed : ∀ exe, (generic.files.map (entryOf host compress)).map (renamed host.toLowercase generic.exe exe) =
      (generic.files.map fun file => (installPath host generic.exe exe file.1, file.2)).map (entryOf host compress) := by
    intro exe
    rw [List.map_map, List.map_map]
    exact List.map_congr_left fun file _ => renamed_entryOf generic.exe exe file
  unfold merge overlay
  dsimp only
  rw [hrenamed, List.map_append]
  generalize (generic.files.map fun file => (installPath host generic.exe _ file.1, file.2)) = files
  by_cases hempty : package.files = []
  · simp [hempty]
  · have hne : package.files.map (entryOf host compress) ≠ [] := by simpa using hempty
    rw [if_neg hne, List.filter_map]
    rw [List.map_map]
    rfl

/-- The executable is among the files if either folder has it. -/
theorem overlay_exe {generic package : Folder}
    (h : (generic.exe ≠ [] ∧ ∃ file ∈ generic.files, normalizePath host.toLowercase file.1 = normalizePath host.toLowercase generic.exe) ∨
      ∃ file ∈ package.files,
        normalizePath host.toLowercase file.1 = normalizePath host.toLowercase (overlay host generic package).2) :
    ∃ file ∈ (overlay host generic package).1,
      normalizePath host.toLowercase file.1 = normalizePath host.toLowercase (overlay host generic package).2 := by
  rcases h with ⟨hne, file, hfile, hname⟩ | ⟨file, hfile, hname⟩
  · have hrenamed : normalizePath host.toLowercase (installPath host generic.exe (overlay host generic package).2 file.1) =
        normalizePath host.toLowercase (overlay host generic package).2 := by
      unfold installPath
      split
      · rfl
      · next hkept =>
        by_contra hother
        exact hkept ⟨hne, fun heq => hother (hname.trans heq.symm), hname⟩
    by_cases hshadow : ∃ other ∈ package.files,
        normalizePath host.toLowercase other.1 = normalizePath host.toLowercase (overlay host generic package).2
    · obtain ⟨other, hother, heq⟩ := hshadow
      exact ⟨other, List.mem_append_right _ hother, heq⟩
    · refine ⟨_, List.mem_append_left _ (List.mem_filter.2 ⟨List.mem_map.2 ⟨file, hfile, rfl⟩, ?_⟩), hrenamed⟩
      rw [Bool.not_eq_true', ← Bool.not_eq_true, List.contains_iff_mem, List.mem_map]
      rintro ⟨other, hother, heq⟩
      exact hshadow ⟨other, hother, heq.trans hrenamed⟩
  · exact ⟨file, List.mem_append_right _ hfile, hname⟩

end Packed

/-! ## Files written -/

namespace Host

variable {host : Host} {dir : Dir} {k : Key}

theorem writeToFile_done {file : BinaryData} {origin : Origin} (hplace : host.place file.path = some k)
    (hmd5 : ∀ found, dir k = some found → host.md5Hex found.bytes = file.md5Code → found.bytes = host.decompress file.raw) :
    (host.writeToFile dir file origin .done k).map File.bytes = some (host.decompress file.raw) := by
  unfold writeToFile
  rw [hplace]
  cases hfound : dir k with
  | none => simp only [hfound, Dir.write, Function.update_self, Option.map_some]
  | some found =>
    by_cases hsame : host.md5Hex found.bytes = file.md5Code
    · simp only [hfound, if_pos hsame, Function.update_self, Option.map_some]
      exact congrArg some (hmd5 found hfound hsame)
    · simp only [hfound, if_neg hsame, Dir.write, Function.update_self, Option.map_some]

/-- Each file is there with its bytes, where each has a place of its own. -/
theorem writeFiles_done {packagePaths : List Text} {files : List BinaryData} {written : Nat → Written}
    (hwritten : ∀ n, written n = .done) (hnodup : (files.map fun file => host.place file.path).Nodup)
    (hmd5 : ∀ file ∈ files, ∀ k, host.place file.path = some k → ∀ found, dir k = some found →
      host.md5Hex found.bytes = file.md5Code → found.bytes = host.decompress file.raw)
    {file : BinaryData} (hfile : file ∈ files) (hplace : host.place file.path = some k) :
    (host.writeFiles packagePaths written dir files k).map File.bytes = some (host.decompress file.raw) := by
  induction files generalizing dir written with
  | nil => cases hfile
  | cons first files ih =>
    rw [List.map_cons, List.nodup_cons] at hnodup
    obtain ⟨hfirst, hmd5⟩ := List.forall_mem_cons.1 hmd5
    rw [writeFiles]
    rcases List.mem_cons.1 hfile with rfl | hmem
    · have hother : ∀ later ∈ files, host.place later.path ≠ some k := fun later hlater heq =>
        hnodup.1 (List.mem_map.2 ⟨later, hlater, heq.trans hplace.symm⟩)
      rw [writeFiles_other hother, hwritten 0]
      exact writeToFile_done hplace (hfirst k hplace)
    · refine ih (fun n => hwritten (n + 1)) hnodup.2 (fun later hlater j hj found hfound => ?_) hmem
      rcases host.writeToFile_cases dir j first (if packagePaths.contains first.path then .package else .payload) (written 0) with
        hsame | ⟨hplaced, -⟩
      · exact hmd5 later hlater j hj found (hsame ▸ hfound)
      · exact absurd (List.mem_map.2 ⟨later, hlater, hj.trans hplaced.symm⟩) hnodup.1

/-- A launch adds nothing before it writes. -/
theorem swept_subset {appMetadata : Bytes} {clear : Bool} {survives removed : Key → Bool} {keep paths : List Text}
    {found : File} (h : (host.removeDropped removed keep (host.wipe appMetadata clear survives dir).1 paths).1 k = some found) :
    dir k = some found := by
  have hwiped : (host.wipe appMetadata clear survives dir).1 k = some found := by
    rcases host.removeDropped_only (host.wipe appMetadata clear survives dir).1 k removed keep paths with heq | hnone
    · rw [← heq, h]
    · rw [hnone] at h
      cases h
  rcases host.wipe_cases dir appMetadata clear survives with heq | heq
  · exact heq ▸ hwiped
  · rw [heq] at hwiped
    dsimp only at hwiped
    split at hwiped
    · exact hwiped
    · cases hwiped

end Host

/-! ## The launch -/

/-- The package that a resource is made from; none is the empty one. -/
def Ships (host : Host) (compress : Bytes → Bytes) (resource : Option Bytes) (package : Folder) : Prop :=
  match resource with
  | none => package = .empty
  | some blob => generate host compress package false = .ok blob ∧ trim package.exe ≠ []

theorem packed_false (host : Host) (folder : Folder) : (packed host folder false).files = folder.files := by
  unfold packed skips skip
  simp

theorem Ships.parsePackageBlob {host : Host} {compress : Bytes → Bytes} {resource : Option Bytes} {package : Folder}
    (h : Ships host compress resource package) (hmd5 : ∀ bytes, (host.md5Hex bytes).length = MD5_LENGTH)
    (hshort : ∀ file ∈ package.files, (encodeUtf8 file.1).length < 0x72757374) :
    parsePackageBlob resource = .ok (package.files.map (entryOf host compress), package.exe) := by
  cases resource with
  | none =>
    obtain rfl : package = .empty := h
    rfl
  | some blob =>
    have hparse := parse_generate h.1 hmd5 hshort
    rw [packed_false] at hparse
    rw [Portable.parsePackageBlob, hparse]
    exact if_neg h.2

/-- Whatever is in the directory, a launch whose writes succeed leaves in it the two folders laid over each other, and the
executable that is run is there: if one of the two has it, each file has a place of its own that is neither that of the
notes nor that of the broker, and no other file that is there has the sum of one of them. -/
theorem installed {host : Host} {compress : Bytes → Bytes} {generic package : Folder} {excludeExe : Bool}
    {binData appMetadata : Bytes} {resource : Option Bytes} {clear : Bool} {outcome : Outcome} {dir dir' : Dir}
    {folder : List (Text × Bytes) × Text}
    (hround : ∀ bytes, host.decompress (compress bytes) = bytes)
    (hlen : ∀ bytes, (host.md5Hex bytes).length = MD5_LENGTH)
    (hshort : ∀ file ∈ generic.files ++ package.files, (encodeUtf8 file.1).length < 0x72757374)
    (hgeneric : generate host compress generic excludeExe = .ok binData) (hpackage : Ships host compress resource package)
    (hfolder : overlay host (packed host generic excludeExe) package = folder)
    (hexe : (generic.exe ≠ [] ∧ ∃ file ∈ (packed host generic excludeExe).files,
        normalizePath host.toLowercase file.1 = normalizePath host.toLowercase generic.exe) ∨
      ∃ file ∈ package.files, normalizePath host.toLowercase file.1 = normalizePath host.toLowercase folder.2)
    (hsame : ∀ file ∈ folder.1, normalizePath host.toLowercase file.1 = normalizePath host.toLowercase folder.2 →
      host.place file.1 = host.place folder.2)
    (hplace : ∀ file ∈ folder.1, ∃ k, host.place file.1 = some k ∧ k ≠ host.metaKey ∧ k ≠ host.brokerKey)
    (hnodup : (folder.1.map fun file => host.place file.1).Nodup)
    (hmd5 : ∀ k found, dir k = some found → ∀ file ∈ folder.1, host.md5Hex found.bytes = host.md5Hex file.2 → found.bytes = file.2)
    (hwritten : ∀ n, outcome.written n = .done)
    (hstep : step host dir (.launch ⟨binData, resource, appMetadata⟩ clear outcome) = some dir') :
    (∀ file ∈ folder.1, ∃ k, host.place file.1 = some k ∧ (dir' k).map File.bytes = some file.2) ∧
      ∃ k, host.place folder.2 = some k ∧ (dir' k).isSome := by
  suffices hfiles : ∀ file ∈ folder.1, ∃ k, host.place file.1 = some k ∧ (dir' k).map File.bytes = some file.2 by
    refine ⟨hfiles, ?_⟩
    subst hfolder
    obtain ⟨file, hfile, hname⟩ := @overlay_exe host (packed host generic excludeExe) package hexe
    obtain ⟨k, hk, hthere⟩ := hfiles file hfile
    refine ⟨k, (hsame file hfile hname).symm.trans hk, ?_⟩
    rw [← Option.isSome_map, hthere]
    rfl
  obtain ⟨hshort, hshort'⟩ := List.forall_mem_append.1 hshort
  have hreader : BinaryReader.new host.toLowercase binData resource = .ok _ :=
    new_eq_ok.2 ⟨_, _, parse_generate hgeneric hlen hshort, hpackage.parsePackageBlob hlen hshort', rfl⟩
  rw [show generic.exe = (packed host generic excludeExe).exe from rfl, merge_entryOf, hfolder] at hreader
  simp only [step, hreader] at hstep
  obtain rfl := Option.some.inj hstep
  intro file hfile
  obtain ⟨k, hk, hmeta, hbroker⟩ := hplace file hfile
  refine ⟨k, hk, ?_⟩
  have hnotes : ∀ (dir : Dir) (ts : Nat) (paths : List Text), host.writeMeta dir ts paths outcome.noted k = dir k :=
    fun dir ts paths => (Host.write_cases dir k host.metaKey _ outcome.noted).resolve_right fun h => hmeta h.1.symm
  unfold Host.setup
  dsimp only
  rw [(Host.copyRuntimeBroker_cases ..).resolve_right fun h => hbroker h.1.symm, hnotes]
  have hentry : entryOf host compress file ∈ folder.1.map (entryOf host compress) := List.mem_map_of_mem hfile
  refine (Host.writeFiles_done hwritten (by rw [List.map_map]; exact hnodup) ?_ hentry hk).trans
    (congrArg some (hround file.2))
  intro entry hentry j hj found hfound hsum
  obtain ⟨source, hsource, rfl⟩ := List.mem_map.1 hentry
  exact (hmd5 j found (Host.swept_subset hfound) source hsource hsum).trans (hround source.2).symm

/-! ## A customized client -/

def exampleCompress (bytes : Bytes) : Bytes := [0x0b, 0x01, 0x80] ++ bytes ++ [0x03]

def exampleGeneric : Folder where
  files := [("./rustdesk.exe".toList, ascii "app"), ("./sciter.dll".toList, ascii "dll")]
  exe := "./rustdesk.exe".toList
  distinct := by decide

def examplePackage : Folder where
  files := [("./custom.txt".toList, ascii "cfg")]
  exe := "./acme.exe".toList
  distinct := by decide

def exampleOverlay : List (Text × Bytes) × Text :=
  ([("./acme.exe".toList, ascii "app"), ("./sciter.dll".toList, ascii "dll"), ("./custom.txt".toList, ascii "cfg")],
    "./acme.exe".toList)

/-- What `generate.py` writes. -/
def exampleImage (folder : Folder) : Bytes := (generate exampleHost exampleCompress folder false).toOption.getD []

theorem installed_acme : ∃ dir',
    step exampleHost (fun _ => none)
      (.launch ⟨exampleImage exampleGeneric, some (exampleImage examplePackage), ascii "timestamp = 5\n"⟩ false exampleOutcome) =
        some dir' ∧
    (∀ file ∈ exampleOverlay.1, ∃ k, exampleHost.place file.1 = some k ∧ (dir' k).map File.bytes = some file.2) ∧
    ∃ k, exampleHost.place exampleOverlay.2 = some k ∧ (dir' k).isSome := by
  obtain ⟨dir', hstep⟩ : ∃ dir', step exampleHost (fun _ => none)
      (.launch ⟨exampleImage exampleGeneric, some (exampleImage examplePackage), ascii "timestamp = 5\n"⟩ false exampleOutcome) =
        some dir' := by
    unfold step
    dsimp only
    split
    · exact ⟨_, rfl⟩
    · exact ⟨_, rfl⟩
  have hround : ∀ bytes, exampleHost.decompress (exampleCompress bytes) = bytes := fun bytes => List.dropLast_concat ..
  have hplace : ∀ file ∈ exampleOverlay.1, ∃ k, exampleHost.place file.1 = some k ∧
      k ≠ exampleHost.metaKey ∧ k ≠ exampleHost.brokerKey := by
    intro file hfile
    simp only [exampleOverlay, List.mem_cons, List.not_mem_nil, or_false] at hfile
    rcases hfile with rfl | rfl | rfl
    · exact ⟨["acme.exe".toList], rfl, by decide, by decide⟩
    · exact ⟨["sciter.dll".toList], rfl, by decide, by decide⟩
    · exact ⟨["custom.txt".toList], rfl, by decide, by decide⟩
  have hgeneric : generate exampleHost exampleCompress exampleGeneric false = .ok (exampleImage exampleGeneric) := rfl
  have hships : Ships exampleHost exampleCompress (some (exampleImage examplePackage)) examplePackage :=
    ⟨rfl, by decide⟩
  have hoverlay : overlay exampleHost (packed exampleHost exampleGeneric false) examplePackage = exampleOverlay := rfl
  have hshort : ∀ file ∈ exampleGeneric.files ++ examplePackage.files, (encodeUtf8 file.1).length < 0x72757374 := by decide
  refine ⟨dir', hstep, installed hround length_md5Hex_exampleHost hshort hgeneric hships hoverlay
    (.inl ⟨by decide, ?_⟩) (by decide) hplace (by decide) ?_ (fun _ => rfl) hstep⟩
  · exact ⟨_, List.mem_cons_self, rfl⟩
  · intro k found hfound
    cases hfound

end FontisRemote.Portable
