import FontisRemote.Clipboard.ServFiles
import FontisRemote.Lib.Checked

/-!
# Reading ranges of copied files

A read seeks only where it does not start at `offset`, so the handle has to stand there whenever it is open.
`Positioned` says that it does, and that the offset of a closed file is 0, which is where it will be opened.

The calls on one list come in any order, each with what the disk says during it, so a read may fail at any
point. `Disk.Keeps` is what the disk says while no file's content changes. The checked version of a request
has the panics of its arithmetic.
-/

namespace FontisRemote.Clipboard

open FontisRemote.Lib
open FontisRemote.FileTransfer (Text)

variable {Handle : Text → Type} {content : Text → List UInt8} {pos : {path : Text} → Handle path → Nat}

/-- A handle is opened at the start, a seek moves it, and a read that succeeds takes the bytes from where it
stands and moves it past them. -/
structure Disk.Keeps (disk : Disk Handle) (content : Text → List UInt8) (pos : {path : Text} → Handle path → Nat) :
    Prop where
  openFile : ∀ {path : Text} {handle : Handle path}, disk.openFile path = .ok handle → pos handle = 0
  seek : ∀ {path : Text} {handle handle' : Handle path} {n : Nat}, disk.seek handle n = .ok handle' → pos handle' = n
  readExact : ∀ {path : Text} {handle handle' : Handle path} {n : Nat} {bytes : List UInt8},
    disk.readExact handle n = .ok (bytes, handle') →
      bytes = ((content path).drop (pos handle)).take n ∧ bytes.length = n ∧ pos handle' = pos handle + n

/-! ## One file -/

namespace LocalFile

variable {file : LocalFile Handle} {disk : Disk Handle} {len offset : Nat}

structure Positioned (pos : {path : Text} → Handle path → Nat) (file : LocalFile Handle) : Prop where
  closed : file.handle = none → file.offset = 0
  standing : ∀ handle, file.handle = some handle → pos handle = file.offset

/-- What no read changes. -/
def known (file : LocalFile Handle) : Text × UInt64 := (file.path, file.size)

theorem Positioned.loadHandle (h : file.Positioned pos) (hdisk : disk.Keeps content pos) :
    (file.loadHandle disk).1.Positioned pos := by
  unfold LocalFile.loadHandle
  split
  · rename_i hopen
    rw [Bool.and_eq_true, Option.isNone_iff_eq_none] at hopen
    split
    · rename_i handle hok
      refine ⟨fun hnone => ?_, fun handle' heq => ?_⟩
      · cases hnone
      · cases heq
        exact (hdisk.openFile hok).trans (h.closed hopen.2).symm
    · exact h
  · exact h

theorem loadHandle_known : (file.loadHandle disk).1.known = file.known := by
  unfold loadHandle
  split
  · split <;> rfl
  · rfl

/-- A read that succeeds gives the bytes from where it was to start. -/
theorem readAt_ok (h : file.Positioned pos) (hdisk : disk.Keeps content pos) {handle handle' : Handle file.path}
    (hhandle : file.handle = some handle) {buf : List UInt8}
    (hread : file.readAt disk handle len offset = .ok (buf, handle')) :
    buf = ((content file.path).drop offset).take len ∧ buf.length = len ∧ pos handle' = offset + len := by
  unfold readAt at hread
  split at hread
  · split at hread
    · rename_i moved hseek
      have hbytes := hdisk.readExact hread
      rw [hdisk.seek hseek] at hbytes
      exact hbytes
    · cases hread
  · rename_i hsame
    have hbytes := hdisk.readExact hread
    rw [h.standing handle hhandle, ← not_not.1 hsame] at hbytes
    exact hbytes

theorem Positioned.readLoaded (h : file.Positioned pos) (hdisk : disk.Keeps content pos) :
    (file.readLoaded disk len offset).1.Positioned pos := by
  have hclosed : ({ file with offset := 0, handle := none } : LocalFile Handle).Positioned pos :=
    ⟨fun _ => rfl, fun handle heq => by cases heq⟩
  unfold LocalFile.readLoaded
  split
  · exact h
  · rename_i handle hhandle
    split
    · exact hclosed
    · rename_i buf handle' hread
      split
      · exact hclosed
      · refine ⟨fun hnone => ?_, fun handle'' heq => ?_⟩
        · cases hnone
        · cases heq
          exact (readAt_ok h hdisk hhandle hread).2.2

theorem readLoaded_ok (h : file.Positioned pos) (hdisk : disk.Keeps content pos) {buf : List UInt8}
    (hread : (file.readLoaded disk len offset).2 = .ok buf) :
    buf = ((content file.path).drop offset).take len ∧ buf.length = len := by
  unfold readLoaded at hread
  split at hread
  · cases hread
  · rename_i handle hhandle
    split at hread
    · cases hread
    · rename_i buf' handle' hat
      have hbytes := readAt_ok h hdisk hhandle hat
      split at hread <;>
      · cases hread
        exact ⟨hbytes.1, hbytes.2.1⟩

theorem readLoaded_known : (file.readLoaded disk len offset).1.known = file.known := by
  unfold readLoaded
  split
  · rfl
  · split
    · rfl
    · split <;> rfl

theorem readExactAt_cases (file : LocalFile Handle) (disk : Disk Handle) (len offset : Nat) :
    (∃ error, file.readExactAt disk len offset = ((file.loadHandle disk).1, .error error)) ∨
      file.readExactAt disk len offset = (file.loadHandle disk).1.readLoaded disk len offset := by
  unfold readExactAt
  rcases file.loadHandle disk with ⟨loaded, error | -⟩
  · exact .inl ⟨error, rfl⟩
  · exact .inr rfl

theorem Positioned.readExactAt (h : file.Positioned pos) (hdisk : disk.Keeps content pos) :
    (file.readExactAt disk len offset).1.Positioned pos := by
  rcases file.readExactAt_cases disk len offset with ⟨error, heq⟩ | heq
  · rw [heq]
    exact h.loadHandle hdisk
  · rw [heq]
    exact (h.loadHandle hdisk).readLoaded hdisk

theorem readExactAt_ok (h : file.Positioned pos) (hdisk : disk.Keeps content pos) {buf : List UInt8}
    (hread : (file.readExactAt disk len offset).2 = .ok buf) :
    buf = ((content file.path).drop offset).take len ∧ buf.length = len := by
  rcases file.readExactAt_cases disk len offset with ⟨error, heq⟩ | heq
  · rw [heq] at hread
    cases hread
  · rw [heq] at hread
    have hpath : (file.loadHandle disk).1.path = file.path := congrArg Prod.fst file.loadHandle_known
    rw [← hpath]
    exact readLoaded_ok (h.loadHandle hdisk) hdisk hread

theorem readExactAt_known : (file.readExactAt disk len offset).1.known = file.known := by
  rcases file.readExactAt_cases disk len offset with ⟨error, heq⟩ | heq
  · rw [heq]
    exact loadHandle_known
  · rw [heq, readLoaded_known]
    exact loadHandle_known

end LocalFile

/-! ## One list -/

namespace ClipFiles

variable {clip : ClipFiles Handle} {disk : Disk Handle}

def Positioned (pos : {path : Text} → Handle path → Nat) (clip : ClipFiles Handle) : Prop :=
  ∀ file ∈ clip.fileList, file.Positioned pos

def known (clip : ClipFiles Handle) : List (Text × UInt64) := clip.fileList.map LocalFile.known

/-- The calls on a list, in the disk they find. -/
inductive Call (Handle : Text → Type)
  | serveFileContents (disk : Disk Handle) (connId : Int) (request : FileContentsRequest)
  | preload (disk : Disk Handle) (fileIdx : Nat)
  | releaseHandles
  | checkRetiredFile (disk : Disk Handle) (request : FileContentsRequest)

def Call.Keeps (content : Text → List UInt8) (pos : {path : Text} → Handle path → Nat) : Call Handle → Prop
  | .serveFileContents disk _ _ => disk.Keeps content pos
  | .preload disk _ => disk.Keeps content pos
  | .releaseHandles => True
  | .checkRetiredFile disk _ => disk.Keeps content pos

def call (clip : ClipFiles Handle) : Call Handle → Option (ClipFiles Handle)
  | .serveFileContents disk connId request => some (clip.serveFileContents disk connId request).1
  | .preload disk fileIdx => some (clip.preloadAfter disk fileIdx)
  | .releaseHandles => some clip.releaseHandles
  | .checkRetiredFile disk request => some (clip.checkRetiredFile disk request).1

/-- As the list is built: no file is open. -/
def Fresh (clip : ClipFiles Handle) : Prop :=
  ∀ file ∈ clip.fileList, file.handle = none ∧ file.offset = 0

theorem Fresh.positioned (h : clip.Fresh) : clip.Positioned pos := by
  intro file hfile
  obtain ⟨hnone, hzero⟩ := h file hfile
  refine ⟨fun _ => hzero, fun handle hsome => ?_⟩
  rw [hnone] at hsome
  cases hsome

/-- A call keeps the positions and what the files are. -/
structure Kept (pos : {path : Text} → Handle path → Nat) (clip clip' : ClipFiles Handle) : Prop where
  positioned : clip.Positioned pos → clip'.Positioned pos
  known : clip'.known = clip.known

theorem Kept.refl (clip : ClipFiles Handle) : Kept pos clip clip := ⟨fun h => h, rfl⟩

theorem Kept.trans {clip' clip'' : ClipFiles Handle} (h : Kept pos clip clip') (h' : Kept pos clip' clip'') :
    Kept pos clip clip'' :=
  ⟨fun hp => h'.positioned (h.positioned hp), h'.known.trans h.known⟩

theorem kept_set {fileIdx : Nat} {file file' : LocalFile Handle} (hfile : clip.fileList[fileIdx]? = some file)
    (hpos : file.Positioned pos → file'.Positioned pos) (hknown : file'.known = file.known) :
    Kept pos clip { clip with fileList := clip.fileList.set fileIdx file' } where
  positioned h f hf := by
    rcases List.mem_or_eq_of_mem_set hf with hold | rfl
    · exact h f hold
    · exact hpos (h file (List.mem_of_getElem? hfile))
  known := by
    have hget : clip.known[fileIdx]? = some file.known := by
      rw [known, List.getElem?_map, hfile, Option.map_some]
    unfold known at hget ⊢
    rw [List.map_set, hknown]
    refine List.ext_getElem? fun k => ?_
    rw [List.getElem?_set]
    split
    · rename_i hk
      subst hk
      rw [if_pos (List.getElem?_eq_some_iff.1 hget).1, hget]
    · rfl

theorem preload_kept (hdisk : disk.Keeps content pos) (l : List (LocalFile Handle)) :
    ((∀ file ∈ l, file.Positioned pos) → ∀ file ∈ preload disk l, file.Positioned pos) ∧
      (preload disk l).map LocalFile.known = l.map LocalFile.known := by
  induction l with
  | nil => exact ⟨fun h => h, rfl⟩
  | cons file rest ih =>
    unfold preload
    split
    · rw [List.map_cons, List.map_cons, ih.2]
      refine ⟨fun h f hf => ?_, rfl⟩
      rcases List.mem_cons.1 hf with rfl | hmem
      · exact h f List.mem_cons_self
      · exact ih.1 (fun g hg => h g (List.mem_cons_of_mem _ hg)) f hmem
    · rw [List.map_cons, List.map_cons, LocalFile.loadHandle_known]
      refine ⟨fun h f hf => ?_, rfl⟩
      rcases List.mem_cons.1 hf with rfl | hmem
      · exact (h file List.mem_cons_self).loadHandle hdisk
      · exact h f (List.mem_cons_of_mem _ hmem)

theorem preloadAfter_kept (hdisk : disk.Keeps content pos) (clip : ClipFiles Handle) (fileIdx : Nat) :
    Kept pos clip (clip.preloadAfter disk fileIdx) := by
  obtain ⟨hpos, hknown⟩ := preload_kept hdisk (clip.fileList.drop (fileIdx + 1))
  constructor
  · intro h file hfile
    rcases List.mem_append.1 hfile with hold | hnew
    · exact h file (List.mem_of_mem_take hold)
    · exact hpos (fun f hf => h f (List.mem_of_mem_drop hf)) file hnew
  · unfold known preloadAfter
    rw [List.map_append, hknown, ← List.map_append, List.take_append_drop]

theorem releaseHandles_kept (clip : ClipFiles Handle) : Kept pos clip clip.releaseHandles := by
  constructor
  · intro h file hfile
    obtain ⟨f, hf, rfl⟩ := List.mem_map.1 hfile
    dsimp only
    split
    · rename_i hzero
      exact ⟨fun _ => hzero, fun handle heq => by cases heq⟩
    · exact h f hf
  · unfold known releaseHandles
    rw [List.map_map]
    refine List.map_congr_left fun f _ => ?_
    rw [Function.comp_apply]
    split <;> rfl

theorem checkRetiredFile_kept (hdisk : disk.Keeps content pos) (clip : ClipFiles Handle)
    (request : FileContentsRequest) : Kept pos clip (clip.checkRetiredFile disk request).1 := by
  unfold checkRetiredFile
  split
  · exact .refl clip
  · split
    · exact .refl clip
    · rename_i file hfile
      split
      · exact .refl clip
      · split
        · exact .refl clip
        · rename_i loaded hload
          have hfst : loaded = (file.loadHandle disk).1 := by rw [hload]
          refine kept_set hfile (fun hp => ?_) ?_
          · rw [hfst]
            exact hp.loadHandle hdisk
          · rw [hfst]
            exact LocalFile.loadHandle_known

theorem serveFileContents_kept (hdisk : disk.Keeps content pos) (clip : ClipFiles Handle) (connId : Int)
    (request : FileContentsRequest) : Kept pos clip (clip.serveFileContents disk connId request).1 := by
  cases request with
  | size streamId fileIdx =>
    unfold serveFileContents
    dsimp only
    split
    · exact .refl clip
    · exact preloadAfter_kept hdisk clip fileIdx
  | range streamId fileIdx offset length =>
    unfold serveFileContents
    dsimp only
    split
    · exact .refl clip
    · rename_i file hfile
      split
      · exact .refl clip
      · generalize (if file.size.toNat - offset < length then file.size.toNat - offset else length) = readSize
        split
        · exact .refl clip
        · have hset : ∀ read r, file.readExactAt disk readSize offset = (read, r) →
              Kept pos clip { clip with fileList := clip.fileList.set fileIdx read } := by
            intro read r heq
            have hfst : read = (file.readExactAt disk readSize offset).1 := by rw [heq]
            rw [hfst]
            exact kept_set hfile (fun hp => hp.readExactAt hdisk) LocalFile.readExactAt_known
          split
          · rename_i heq
            exact hset _ _ heq
          · rename_i heq
            exact (hset _ _ heq).trans (preloadAfter_kept hdisk _ fileIdx)

theorem call_kept {clip' : ClipFiles Handle} {c : Call Handle} (hkeeps : c.Keeps content pos)
    (hcall : clip.call c = some clip') : Kept pos clip clip' := by
  cases c with
  | serveFileContents disk connId request =>
    cases hcall
    exact serveFileContents_kept hkeeps clip connId request
  | preload disk fileIdx =>
    cases hcall
    exact preloadAfter_kept hkeeps clip fileIdx
  | releaseHandles =>
    cases hcall
    exact releaseHandles_kept clip
  | checkRetiredFile disk request =>
    cases hcall
    exact checkRetiredFile_kept hkeeps clip request

/-! ## The arithmetic of a request -/

/-- With the addition of the offset after a read, in 64 bits. -/
def readExactAt? (disk : Disk Handle) (file : LocalFile Handle) (len offset : Nat) :
    Option (LocalFile Handle × Except CliprdrError (List UInt8)) :=
  match file.readExactAt disk len offset with
  | (read, .error error) => some (read, .error error)
  | (read, .ok buf) => (checkedAdd 64 offset buf.length).map fun _ => (read, .ok buf)

def preloadAfter? (disk : Disk Handle) (clip : ClipFiles Handle) (fileIdx : Nat) : Option (ClipFiles Handle) :=
  (checkedAdd 64 fileIdx 1).map fun _ => clip.preloadAfter disk fileIdx

def serveFileContents? (clip : ClipFiles Handle) (disk : Disk Handle) (connId : Int) :
    FileContentsRequest → Option (ClipFiles Handle × Except CliprdrError ClipboardFile)
  | .size streamId fileIdx =>
    match clip.fileList[fileIdx]? with
    | none => some (clip, .error (invalidIndexError fileIdx connId))
    | some file => do
      let next ← preloadAfter? disk clip fileIdx
      some (next, .ok (.fileContentsResponse 1 streamId (leBytes 8 file.size.toNat)))
  | .range streamId fileIdx offset length =>
    match clip.fileList[fileIdx]? with
    | none => some (clip, .error (invalidIndexError fileIdx connId))
    | some file =>
      if file.size.toNat < offset then
        some (clip, .error (.invalidRequest s!"invalid reading offset requested from conn: {connId}"))
      else do
        let rest ← checkedSub file.size.toNat offset
        let readSize := if rest < length then rest else length
        if MAX_RANGE_READ < readSize then
          some (clip, .error (.invalidRequest
            s!"file contents request of {readSize} bytes exceeds the {MAX_RANGE_READ} byte limit, conn: {connId}"))
        else do
          match ← readExactAt? disk file readSize offset with
          | (file, .error error) => some ({ clip with fileList := clip.fileList.set fileIdx file }, .error error)
          | (file, .ok buf) =>
            let next ← preloadAfter? disk { clip with fileList := clip.fileList.set fileIdx file } fileIdx
            some (next, .ok (.fileContentsResponse 1 streamId buf))

theorem preloadAfter?_eq (disk : Disk Handle) (clip : ClipFiles Handle) {fileIdx : Nat} (h : fileIdx + 1 < 2 ^ 64) :
    preloadAfter? disk clip fileIdx = some (clip.preloadAfter disk fileIdx) := by
  rw [preloadAfter?, checkedAdd_of_lt h, Option.map_some]

theorem readExactAt?_eq {file : LocalFile Handle} {len offset : Nat} (hpos : file.Positioned pos)
    (hdisk : disk.Keeps content pos) (h : offset + len < 2 ^ 64) :
    readExactAt? disk file len offset = some (file.readExactAt disk len offset) := by
  unfold readExactAt?
  rcases hread : file.readExactAt disk len offset with ⟨read, error | buf⟩
  · rfl
  · have hlen := (LocalFile.readExactAt_ok hpos hdisk (congrArg Prod.snd hread)).2
    dsimp only
    rw [hlen, checkedAdd_of_lt h, Option.map_some]

/-- The list has fewer than 2^64 files, as any `Vec`: no operation of a request overflows. -/
theorem serveFileContents?_eq (hpos : clip.Positioned pos) (hdisk : disk.Keeps content pos)
    (hlist : clip.fileList.length < 2 ^ 64) (connId : Int) (request : FileContentsRequest) :
    clip.serveFileContents? disk connId request = some (clip.serveFileContents disk connId request) := by
  cases request with
  | size streamId fileIdx =>
    unfold serveFileContents? serveFileContents
    dsimp only
    cases hfile : clip.fileList[fileIdx]? with
    | none => rfl
    | some file =>
      have hidx := (List.getElem?_eq_some_iff.1 hfile).1
      dsimp only
      rw [preloadAfter?_eq disk clip (by omega), some_bind]
  | range streamId fileIdx offset length =>
    unfold serveFileContents? serveFileContents
    dsimp only
    cases hfile : clip.fileList[fileIdx]? with
    | none => rfl
    | some file =>
      have hidx := (List.getElem?_eq_some_iff.1 hfile).1
      have hsize := file.size.toNat_lt
      dsimp only
      split
      · rfl
      · rename_i hoffset
        rw [checkedSub_of_le (by omega), some_bind]
        have hread : (if file.size.toNat - offset < length then file.size.toNat - offset else length) ≤
            file.size.toNat - offset := by
          split <;> omega
        generalize (if file.size.toNat - offset < length then file.size.toNat - offset else length) = readSize
          at hread ⊢
        split
        · rfl
        · rw [readExactAt?_eq (hpos file (List.mem_of_getElem? hfile)) hdisk (by omega), some_bind]
          rcases file.readExactAt disk readSize offset with ⟨read, error | buf⟩
          · rfl
          · dsimp only
            rw [preloadAfter?_eq disk _ (by omega), some_bind]

/-! ## What a range response holds -/

theorem serveFileContents_range (hpos : clip.Positioned pos) (hdisk : disk.Keeps content pos) {connId streamId : Int}
    {fileIdx offset length : Nat} {flags : Nat} {streamId' : Int} {data : List UInt8}
    (h : (clip.serveFileContents disk connId (.range streamId fileIdx offset length)).2 =
      .ok (.fileContentsResponse flags streamId' data)) :
    ∃ file, clip.fileList[fileIdx]? = some file ∧ offset ≤ file.size.toNat ∧
      data = ((content file.path).drop offset).take (min (offset + length) file.size.toNat - offset) ∧
      data.length = min (offset + length) file.size.toNat - offset ∧ data.length ≤ MAX_RANGE_READ := by
  unfold serveFileContents at h
  dsimp only at h
  split at h
  · cases h
  · rename_i file hfile
    split at h
    · cases h
    · rename_i hoffset
      have hsize : (if file.size.toNat - offset < length then file.size.toNat - offset else length) =
          min (offset + length) file.size.toNat - offset := by
        split <;> omega
      rw [hsize] at h
      split at h
      · cases h
      · rename_i hmax
        split at h
        · cases h
        · rename_i read buf hread
          obtain ⟨-, -, rfl⟩ := ClipboardFile.fileContentsResponse.inj (Except.ok.inj h)
          have hbytes := LocalFile.readExactAt_ok (hpos file (List.mem_of_getElem? hfile)) hdisk
            (congrArg Prod.snd hread)
          refine ⟨file, hfile, Nat.le_of_not_lt hoffset, hbytes.1, hbytes.2, ?_⟩
          rw [hbytes.2]
          exact Nat.le_of_not_lt hmax

/-- Whatever calls came before on a list, a range response holds the bytes of the file that the list was built
with, from the offset on. -/
theorem range_reads_positioned {built : ClipFiles Handle} (hfresh : built.Fresh)
    (hlist : built.fileList.length < 2 ^ 64) {h : List (ClipFiles Handle × Call Handle)} {clip : ClipFiles Handle}
    (hx : Exec (· = built) call h clip) (hcalls : ∀ p ∈ h, p.2.Keeps content pos) {disk : Disk Handle}
    (hdisk : disk.Keeps content pos) (connId : Int) (request : FileContentsRequest) :
    clip.serveFileContents? disk connId request = some (clip.serveFileContents disk connId request) ∧
      ∀ streamId fileIdx offset length flags streamId' data, request = .range streamId fileIdx offset length →
        (clip.serveFileContents disk connId request).2 = .ok (.fileContentsResponse flags streamId' data) →
        ∃ file, built.fileList[fileIdx]? = some file ∧ offset ≤ file.size.toNat ∧
          data = ((content file.path).drop offset).take (min (offset + length) file.size.toNat - offset) ∧
          data.length = min (offset + length) file.size.toNat - offset ∧ data.length ≤ MAX_RANGE_READ := by
  have hkept : Kept pos built clip := by
    refine hx.invariant_of (I := Kept pos built) (G := fun _ c => c.Keeps content pos) ?_ ?_ hcalls
    · rintro s rfl
      exact .refl s
    · intro s c s' hs hc hstep
      exact hs.trans (call_kept hc hstep)
  have hpos := hkept.positioned hfresh.positioned
  have hlen : clip.fileList.length = built.fileList.length := by
    have hknown := congrArg List.length hkept.known
    rw [known, known, List.length_map, List.length_map] at hknown
    exact hknown
  refine ⟨serveFileContents?_eq hpos hdisk (hlen ▸ hlist) connId request, ?_⟩
  rintro streamId fileIdx offset length flags streamId' data rfl hok
  obtain ⟨file, hfile, hresponse⟩ := serveFileContents_range hpos hdisk hok
  have hknown := congrArg (fun l => l[fileIdx]?) hkept.known
  rw [known, known, List.getElem?_map, List.getElem?_map, hfile, Option.map_some] at hknown
  obtain ⟨file₀, hfile₀, heq⟩ := Option.map_eq_some_iff.1 hknown.symm
  obtain ⟨hpath, hsize⟩ := Prod.mk.inj heq
  refine ⟨file₀, hfile₀, ?_⟩
  rw [hpath, hsize]
  exact hresponse

/-- One file of three bytes, a handle being the position in it. -/
def threeBytes : Disk fun _ => Nat where
  fingerprint _ := {}
  constructFileList _ := .ok []
  isDir _ := false
  isFile _ := true
  openFile _ := .ok 0
  metadata _ := some (3, some 0)
  seek _ n := .ok n
  readExact handle n :=
    if handle + n ≤ 3 then .ok (([97, 98, 99].drop handle).take n, handle + n) else .error "failed to fill whole buffer"

def threeBytesFile : LocalFile fun _ => Nat where
  path := ['f']
  name := ['f']
  descriptorName := ['f']
  size := 3
  lastWriteTime := 0
  isDir := false
  perm := 0
  readOnly := false
  hidden := false
  system := false
  archive := false
  normal := true

theorem threeBytes_keeps : threeBytes.Keeps (fun _ => [97, 98, 99]) (fun handle => handle) where
  openFile := by
    rintro path handle h
    cases h
    rfl
  seek := by
    rintro path handle handle' n h
    cases h
    rfl
  readExact := by
    intro path handle handle' n bytes h
    simp only [threeBytes] at h
    split at h
    · rename_i hle
      cases h
      refine ⟨rfl, ?_, rfl⟩
      rw [List.length_take, List.length_drop]
      simp only [List.length_cons, List.length_nil]
      omega
    · cases h

/-- The first two bytes are read, then what is left of four from the third on. -/
theorem range_reads_positioned_on :
    let built : ClipFiles fun _ => Nat := { fileList := [threeBytesFile] }
    let clip := (built.serveFileContents threeBytes 1 (.range 7 0 0 2)).1
    (clip.serveFileContents threeBytes 1 (.range 8 0 2 4)).2 = .ok (.fileContentsResponse 1 8 [99]) ∧
      [99] = (([97, 98, 99] : List UInt8).drop 2).take (min (2 + 4) 3 - 2) := by
  intro built clip
  have hfresh : built.Fresh := by
    intro file hfile
    rw [List.mem_singleton.1 hfile]
    exact ⟨rfl, rfl⟩
  have hx : Exec (· = built) call [(built, .serveFileContents threeBytes 1 (.range 7 0 0 2))] clip :=
    Exec.snoc (Exec.start rfl) rfl
  have hok : (clip.serveFileContents threeBytes 1 (.range 8 0 2 4)).2 = .ok (.fileContentsResponse 1 8 [99]) := by
    rfl
  obtain ⟨-, hrange⟩ := range_reads_positioned hfresh (by decide) hx
    (by
      intro p hp
      rw [List.mem_singleton.1 hp]
      exact threeBytes_keeps)
    threeBytes_keeps 1 (.range 8 0 2 4)
  obtain ⟨file, hfile, -, hdata, -⟩ := hrange 8 0 2 4 1 8 [99] rfl hok
  cases hfile
  exact ⟨hok, hdata⟩

end ClipFiles

end FontisRemote.Clipboard
