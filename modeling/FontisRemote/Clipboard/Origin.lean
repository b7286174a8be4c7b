import FontisRemote.Clipboard.ListIsolation
import FontisRemote.Clipboard.RangeReads

/-!
# Where served bytes come from

The lists that were made, each with its files as they were then. While the files keep their content, the bytes of a
range response are those of a file of a list with the id that was asked for, whatever was copied, sent, retired and
read before.
-/

namespace FontisRemote.Clipboard

open FontisRemote.Lib
open FontisRemote.FileTransfer (Text)

variable {Handle : Text → Type} {content : Text → List UInt8} {pos : {path : Text} → Handle path → Nat}

/-- A list that was made. -/
structure Listed (Handle : Text → Type) where
  pdu : List UInt8
  files : List (LocalFile Handle)

def Listed.id (l : Listed Handle) : Int32 := fileListId l.pdu

def Listed.Built (l : Listed Handle) : Prop :=
  ∃ nonce, buildFileListPdu l.files nonce = .ok (l.pdu, l.id)

/-- The bytes of a file from an offset on, so many as there are. -/
def LocalFile.Slice (content : Text → List UInt8) (file : LocalFile Handle) (offset length : Nat) (data : List UInt8) :
    Prop :=
  offset ≤ file.size.toNat ∧
    data = ((content file.path).drop offset).take (min (offset + length) file.size.toNat - offset) ∧
    data.length = min (offset + length) file.size.toNat - offset

theorem LocalFile.Slice.of_known {file file' : LocalFile Handle} {offset length : Nat} {data : List UInt8}
    (h : file.Slice content offset length data) (hknown : file.known = file'.known) :
    file'.Slice content offset length data := by
  obtain ⟨hpath, hsize⟩ := Prod.mk.inj hknown
  unfold LocalFile.Slice
  rw [← hpath, ← hsize]
  exact h

namespace ServFiles

variable {s t : ServFiles Handle} {made : List (Listed Handle)}

/-- The list a step makes. -/
def listed (s t : ServFiles Handle) : List (Listed Handle) :=
  if t.built = s.built then [] else [⟨t.current.filesPdu, t.current.fileList⟩]

/-- Files keep their content, and are not open when they are listed. -/
def Event.Keeps (content : Text → List UInt8) (pos : {path : Text} → Handle path → Nat) : Event Handle → Prop
  | .syncFiles disk files _ =>
    ∀ fileList, disk.constructFileList files = .ok fileList →
      ∀ file ∈ fileList, file.handle = none ∧ file.offset = 0
  | .getFileListPdu _ => True
  | .clearFiles => True
  | .readFileContents disk _ _ _ _ _ _ _ _ => disk.Keeps content pos

/-- A list is one of those that were made, if it has any files. -/
def Made (made : List (Listed Handle)) (clip : ClipFiles Handle) : Prop :=
  clip.fileList = [] ∧ clip.filesPdu = [] ∨
    ∃ l ∈ made, clip.filesPdu = l.pdu ∧ clip.id = l.id ∧ clip.known = l.files.map LocalFile.known

structure Origin (pos : {path : Text} → Handle path → Nat) (made : List (Listed Handle)) (s : ServFiles Handle) :
    Prop where
  ids : made.map Listed.id = s.built
  built : ∀ l ∈ made, l.Built
  held : ∀ clip ∈ s.held, Made made clip ∧ clip.Positioned pos

theorem Made.mono {clip : ClipFiles Handle} (h : Made made clip) (l : Listed Handle) : Made (l :: made) clip := by
  rcases h with hnone | ⟨m, hm, hmade⟩
  · exact .inl hnone
  · exact .inr ⟨m, List.mem_cons_of_mem _ hm, hmade⟩

/-- What a call changes of a list is not what it is. -/
structure Same (pos : {path : Text} → Handle path → Nat) (clip clip' : ClipFiles Handle) : Prop where
  kept : ClipFiles.Kept pos clip clip'
  pdu : clip'.filesPdu = clip.filesPdu
  id : clip'.id = clip.id

theorem Same.refl (clip : ClipFiles Handle) : Same pos clip clip := ⟨.refl clip, rfl, rfl⟩

theorem Same.trans {clip clip' clip'' : ClipFiles Handle} (h : Same pos clip clip') (h' : Same pos clip' clip'') :
    Same pos clip clip'' :=
  ⟨h.kept.trans h'.kept, h'.pdu.trans h.pdu, h'.id.trans h.id⟩

theorem Same.origin {clip clip' : ClipFiles Handle} (hsame : Same pos clip clip')
    (h : Made made clip ∧ clip.Positioned pos) : Made made clip' ∧ clip'.Positioned pos := by
  obtain ⟨hmade, hpos⟩ := h
  refine ⟨?_, hsame.kept.positioned hpos⟩
  rcases hmade with ⟨hfiles, hpdu⟩ | ⟨l, hl, hpdu, hid, hknown⟩
  · left
    have hknown := hsame.kept.known
    unfold ClipFiles.known at hknown
    rw [hfiles, List.map_nil, List.map_eq_nil_iff] at hknown
    exact ⟨hknown, hsame.pdu.trans hpdu⟩
  · exact .inr ⟨l, hl, hsame.pdu.trans hpdu, hsame.id.trans hid, hsame.kept.known.trans hknown⟩

/-! ## The calls -/

theorem same_answer {disk : Disk Handle} (hdisk : disk.Keeps content pos) (clip : ClipFiles Handle) (connId : Int)
    (request : FileContentsRequest) : Same pos clip (clip.answer disk connId request).1 := by
  have hlabel := clip.serve_label disk connId request
  obtain ⟨hpdu, hid, -⟩ := Label.mk.inj hlabel
  exact ⟨ClipFiles.serveFileContents_kept hdisk clip connId request, hpdu, hid⟩

theorem same_check {disk : Disk Handle} (hdisk : disk.Keeps content pos) {clip checked : ClipFiles Handle}
    {request : FileContentsRequest} {r : Except CliprdrError Unit}
    (h : clip.checkRetiredFile disk request = (checked, r)) : Same pos clip checked := by
  obtain ⟨hpdu, hid, -⟩ := Label.mk.inj (ClipFiles.check_label h)
  have hkept := ClipFiles.checkRetiredFile_kept hdisk clip request
  rw [h] at hkept
  exact ⟨hkept, hpdu, hid⟩

/-- A call that makes no list, and leaves each list it holds what it was or drops it. -/
theorem Origin.same (h : s.Origin pos made) (hbuilt : t.built = s.built)
    (hheld : ∀ clip' ∈ t.held, (∃ clip ∈ s.held, Same pos clip clip') ∨
      clip'.fileList = [] ∧ clip'.filesPdu = []) : t.Origin pos made := by
  refine ⟨h.ids.trans hbuilt.symm, h.built, fun clip' hclip' => ?_⟩
  rcases hheld clip' hclip' with ⟨clip, hclip, hsame⟩ | ⟨hfiles, hpdu⟩
  · exact hsame.origin (h.held clip hclip)
  · refine ⟨.inl ⟨hfiles, hpdu⟩, fun file hfile => ?_⟩
    rw [hfiles] at hfile
    cases hfile

theorem Origin.readRequest (h : s.Origin pos made) {disk : Disk Handle} (hdisk : disk.Keeps content pos)
    (connId : Int) (clipDataId : Option Int32) (request : FileContentsRequest) :
    (s.readRequest disk connId clipDataId request).2.Origin pos made := by
  refine h.same (readRequest_built disk connId clipDataId request) fun clip' hclip' => .inl ?_
  unfold ServFiles.readRequest at hclip'
  split at hclip'
  · exact ⟨clip', hclip', .refl clip'⟩
  · rename_i place _
    have hset : ∀ {i : Nat} {clip new : ClipFiles Handle}, s.retired[i]? = some clip → Same pos clip new →
        clip' ∈ ServFiles.held { s with retired := s.retired.set i new } → ∃ clip ∈ s.held, Same pos clip clip' := by
      intro i clip new hi hsame hmem
      rcases List.mem_cons.1 hmem with rfl | hmem
      · exact ⟨_, List.mem_cons_self .., .refl _⟩
      · rcases List.mem_or_eq_of_mem_set hmem with hold | rfl
        · exact ⟨clip', List.mem_cons_of_mem _ hold, .refl clip'⟩
        · exact ⟨clip, List.mem_cons_of_mem _ (List.mem_of_getElem? hi), hsame⟩
    cases place with
    | current =>
      rcases List.mem_cons.1 hclip' with rfl | hmem
      · exact ⟨s.current, List.mem_cons_self .., same_answer hdisk s.current connId request⟩
      · exact ⟨clip', List.mem_cons_of_mem _ hmem, .refl clip'⟩
    | retired i =>
      unfold readSelected at hclip'
      dsimp only at hclip'
      split at hclip'
      · exact ⟨clip', hclip', .refl clip'⟩
      · rename_i clip hi
        split at hclip'
        · rename_i checked error hcheck
          exact hset hi (same_check hdisk hcheck) hclip'
        · rename_i checked hcheck
          exact hset hi ((same_check hdisk hcheck).trans (same_answer hdisk checked connId request)) hclip'

theorem Origin.getFileListPdu (h : s.Origin pos made) (connId : Int) :
    (s.getFileListPdu connId).2.Origin pos made := by
  unfold ServFiles.getFileListPdu
  split
  · exact h
  · refine h.same rfl fun clip' hclip' => .inl ?_
    rcases List.mem_cons.1 hclip' with rfl | hmem
    · exact ⟨s.current, List.mem_cons_self .., ⟨⟨fun hpos => hpos, rfl⟩, rfl, rfl⟩⟩
    · exact ⟨clip', List.mem_cons_of_mem _ hmem, .refl clip'⟩

/-- A list that was replaced is retired as it is, or is gone. -/
theorem same_retire {clip' : ClipFiles Handle} (hclip' : clip' ∈ s.retireIfServed s.current) :
    ∃ clip ∈ s.held, Same pos clip clip' := by
  unfold retireIfServed at hclip'
  split at hclip'
  · exact ⟨clip', List.mem_cons_of_mem _ hclip', .refl clip'⟩
  · rcases List.mem_cons.1 hclip' with rfl | hmem
    · exact ⟨s.current, List.mem_cons_self .., ClipFiles.releaseHandles_kept s.current, rfl, rfl⟩
    · refine ⟨clip', List.mem_cons_of_mem _ ?_, .refl clip'⟩
      split at hmem
      · exact List.dropLast_subset _ hmem
      · exact hmem

/-- The new list, where the call makes one, is the one that is remembered. -/
theorem syncFiles_listed {disk : Disk Handle} {files : List Text} (nonce : Vector UInt8 16)
    (hfresh : ∀ fileList, disk.constructFileList files = .ok fileList →
      ∀ file ∈ fileList, file.handle = none ∧ file.offset = 0) :
    (s.syncFiles disk files nonce).2 = s ∨
      ∃ next : ClipFiles Handle, Listed.Built ⟨next.filesPdu, next.fileList⟩ ∧ next.id = fileListId next.filesPdu ∧
        next.Fresh ∧ (s.syncFiles disk files nonce).2 =
          { s with current := next, retired := s.retireIfServed s.current, built := next.id :: s.built } := by
  unfold syncFiles
  dsimp only
  split
  · exact .inl rfl
  · split
    · exact .inl rfl
    · rename_i synced hsync
      split
      · exact .inl rfl
      · rename_i next hbuild
        refine .inr ⟨next, ?_⟩
        have hopen : synced.Fresh := by
          unfold ClipFiles.syncFiles at hsync
          split at hsync
          · cases hsync
          · rename_i fileList hlist
            cases hsync
            exact hfresh fileList hlist
        unfold ClipFiles.buildPdu at hbuild
        split at hbuild
        · cases hbuild
        · rename_i filesPdu id hpdu
          cases hbuild
          obtain ⟨hid, -⟩ := buildFileListPdu_ok hpdu
          subst hid
          exact ⟨⟨nonce, hpdu⟩, rfl, hopen, rfl⟩

/-- Every step keeps to the lists that were made. -/
theorem Origin.step (h : s.Origin pos made) {e : Event Handle} (hkeeps : e.Keeps content pos)
    (hstep : s.step e = some t) : t.Origin pos (s.listed t ++ made) := by
  have hnone : ∀ {t : ServFiles Handle}, t.built = s.built → t.Origin pos made →
      t.Origin pos (s.listed t ++ made) := by
    intro t hbuilt ht
    rw [listed, if_pos hbuilt, List.nil_append]
    exact ht
  cases e with
  | syncFiles disk files nonce =>
    cases hstep
    rcases s.syncFiles_listed nonce hkeeps with hsame | ⟨next, hbuilt, hid, hfresh, heq⟩
    · rw [hsame]
      exact hnone rfl h
    · rw [heq]
      have hlisted : s.listed { s with
          current := next, retired := s.retireIfServed s.current, built := next.id :: s.built } =
          [⟨next.filesPdu, next.fileList⟩] := by
        rw [listed, if_neg]
        exact fun heq => absurd (congrArg List.length heq) (by simp)
      rw [hlisted]
      refine ⟨?_, ?_, ?_⟩
      · show fileListId next.filesPdu :: made.map Listed.id = next.id :: s.built
        rw [h.ids, hid]
      · intro l hl
        rcases List.mem_cons.1 hl with rfl | hl
        · exact hbuilt
        · exact h.built l hl
      · intro clip hclip
        rcases List.mem_cons.1 hclip with rfl | hclip
        · exact ⟨.inr ⟨_, List.mem_cons_self .., rfl, hid, rfl⟩, hfresh.positioned⟩
        · obtain ⟨old, hold, hsame⟩ := same_retire hclip
          obtain ⟨hmade, hpos⟩ := hsame.origin (h.held old hold)
          exact ⟨hmade.mono _, hpos⟩
  | getFileListPdu connId =>
    cases hstep
    refine hnone ?_ (h.getFileListPdu connId)
    unfold ServFiles.getFileListPdu
    split <;> rfl
  | clearFiles =>
    cases hstep
    refine hnone rfl (h.same rfl fun clip hclip => .inr ?_)
    rw [List.mem_singleton.1 hclip]
    exact ⟨rfl, rfl⟩
  | readFileContents disk connId streamId listIndex dwFlags low high cbRequested clipDataId =>
    cases hstep
    unfold readFileContents
    split
    · exact hnone rfl h
    · rename_i request _
      exact hnone (readRequest_built disk connId clipDataId request) (h.readRequest hkeeps connId clipDataId request)

theorem origin_init : ({} : ServFiles Handle).Origin pos [] := by
  refine ⟨rfl, fun l hl => (by cases hl), fun clip hclip => ?_⟩
  rw [List.mem_singleton.1 hclip]
  exact ⟨.inl ⟨rfl, rfl⟩, fun file hfile => (by cases hfile)⟩

/-! ## The responses -/

/-- The list a named request reads has that id. -/
theorem place_named {connId : Int} {id : Int32} {place : Place} (h : s.selectClipFiles connId (some id) = some place) :
    (place = .current ∧ s.current.id = id) ∨
      ∃ i clip, place = .retired i ∧ s.retired[i]? = some clip ∧ clip.id = id := by
  unfold selectClipFiles at h
  dsimp only at h
  split at h
  · rename_i hid
    cases h
    exact .inl ⟨rfl, hid⟩
  · obtain ⟨i, hi, rfl⟩ := Option.map_eq_some_iff.1 h
    obtain ⟨hlt, hp, -⟩ := List.findIdx?_eq_some_iff_getElem.1 hi
    rw [Bool.and_eq_true] at hp
    exact .inr ⟨i, _, rfl, List.getElem?_eq_getElem hlt, eq_of_beq hp.1⟩

theorem served_of_answer {clip : ClipFiles Handle} {disk : Disk Handle} {connId : Int} {request : FileContentsRequest}
    {flags : Nat} {streamId : Int} {data : List UInt8}
    (h : .ok (.fileContentsResponse flags streamId data) ∈ (clip.answer disk connId request).2) :
    (clip.serveFileContents disk connId request).2 = .ok (.fileContentsResponse flags streamId data) := by
  rcases List.mem_append.1 h with haudit | hserved
  · obtain ⟨audited, hmem, heq⟩ := List.mem_map.1 haudit
    cases heq
    exfalso
    unfold ClipFiles.getFilesForAudit at hmem
    split at hmem
    · cases hmem
    · split at hmem
      · dsimp only at hmem
        split at hmem
        · cases hmem
        · cases List.mem_singleton.1 hmem
      · cases hmem
  · exact (List.mem_singleton.1 hserved).symm

/-- The stream of a response is that of its request. -/
theorem served_stream {clip : ClipFiles Handle} {disk : Disk Handle} {connId streamId streamId' : Int}
    {fileIdx offset length flags : Nat} {data : List UInt8}
    (h : (clip.serveFileContents disk connId (.range streamId fileIdx offset length)).2 =
      .ok (.fileContentsResponse flags streamId' data)) : streamId' = streamId := by
  unfold ClipFiles.serveFileContents at h
  dsimp only at h
  split at h
  · cases h
  · rename_i file _
    split at h
    · cases h
    · generalize (if file.size.toNat - offset < length then file.size.toNat - offset else length) = readSize at h
      split at h
      · cases h
      · split at h
        · cases h
        · cases h
          rfl

/-- The bytes of a response to a range request are those of a file of a list that was made under the id asked for. -/
theorem Origin.response (h : s.Origin pos made) {disk : Disk Handle} (hdisk : disk.Keeps content pos)
    {connId streamId streamId' : Int} {id : Int32} {fileIdx offset length flags : Nat} {data : List UInt8}
    (hresponse : .ok (.fileContentsResponse flags streamId' data) ∈
      (s.readRequest disk connId (some id) (.range streamId fileIdx offset length)).1) :
    streamId' = streamId ∧ ∃ l ∈ made, l.id = id ∧
      ∃ file, l.files[fileIdx]? = some file ∧ file.Slice content offset length data := by
  have hlist : ∀ {clip old : ClipFiles Handle}, old ∈ s.held → Same pos old clip → old.id = id →
      .ok (.fileContentsResponse flags streamId' data) ∈
        (clip.answer disk connId (.range streamId fileIdx offset length)).2 →
      streamId' = streamId ∧ ∃ l ∈ made, l.id = id ∧
        ∃ file, l.files[fileIdx]? = some file ∧ file.Slice content offset length data := by
    intro clip old hold hsame hid hmem
    have hserved := served_of_answer hmem
    obtain ⟨hmade, hpos⟩ := hsame.origin (h.held old hold)
    obtain ⟨file, hfile, hoffset, hdata, hlength, -⟩ := ClipFiles.serveFileContents_range hpos hdisk hserved
    refine ⟨served_stream hserved, ?_⟩
    rcases hmade with ⟨hnone, -⟩ | ⟨l, hl, -, hlid, hknown⟩
    · rw [hnone] at hfile
      cases hfile
    · have hget := congrArg (·[fileIdx]?) hknown
      rw [ClipFiles.known, List.getElem?_map, List.getElem?_map, hfile, Option.map_some] at hget
      obtain ⟨file', hfile', hsame'⟩ := Option.map_eq_some_iff.1 hget.symm
      have hslice : file.Slice content offset length data := ⟨hoffset, hdata, hlength⟩
      exact ⟨l, hl, hlid.symm.trans (hsame.id.trans hid), file', hfile', hslice.of_known hsame'.symm⟩
  unfold ServFiles.readRequest at hresponse
  split at hresponse
  · cases List.mem_singleton.1 hresponse
  · rename_i place hplace
    rcases place_named hplace with ⟨rfl, hid⟩ | ⟨i, clip, rfl, hi, hid⟩
    · exact hlist (List.mem_cons_self ..) (.refl _) hid hresponse
    · have hheld : clip ∈ s.held := List.mem_cons_of_mem _ (List.mem_of_getElem? hi)
      unfold readSelected at hresponse
      dsimp only at hresponse
      rw [hi] at hresponse
      dsimp only at hresponse
      split at hresponse
      · cases List.mem_singleton.1 hresponse
      · rename_i checked hcheck
        exact hlist hheld (same_check hdisk hcheck) hid hresponse

end ServFiles

end FontisRemote.Clipboard
