import FontisRemote.Clipboard.ServFiles
import FontisRemote.Clipboard.RoundTrip

/-!
# Whose list a request reads

A list is known by its PDU, its id and the connections it was sent to, which no read changes. While no two
lists built have one id, a connection is among those a list was sent to exactly if the list's PDU was sent to
it, and the newest list it is among is the one last sent to it.
-/

namespace FontisRemote.Clipboard

open FontisRemote.Lib
open FontisRemote.FileTransfer (Text)

variable {Handle : Text → Type}

/-! ## What a list answers -/

namespace LocalFile

variable {file : LocalFile Handle} {disk : Disk Handle}

theorem loadHandle_loaded {loaded : LocalFile Handle} (h : file.loadHandle disk = (loaded, .ok ())) :
    loaded.loadHandle disk = (loaded, .ok ()) := by
  unfold loadHandle at h
  split at h
  · split at h
    · obtain ⟨rfl, -⟩ := Prod.mk.inj h
      unfold loadHandle
      rw [if_neg (by simp)]
    · cases (Prod.mk.inj h).2
  · rename_i hclosed
    obtain ⟨rfl, -⟩ := Prod.mk.inj h
    unfold loadHandle
    rw [if_neg hclosed]

/-- Reading from a file that was just opened for it. -/
theorem readExactAt_loaded {loaded : LocalFile Handle} (h : file.loadHandle disk = (loaded, .ok ()))
    (len offset : Nat) : loaded.readExactAt disk len offset = file.readExactAt disk len offset := by
  unfold readExactAt
  rw [h, loadHandle_loaded h]

theorem loadHandle_size {loaded : LocalFile Handle} {r : Except CliprdrError Unit}
    (h : file.loadHandle disk = (loaded, r)) : loaded.size = file.size := by
  unfold loadHandle at h
  split at h
  · split at h <;>
    · obtain ⟨rfl, -⟩ := Prod.mk.inj h
      rfl
  · obtain ⟨rfl, -⟩ := Prod.mk.inj h
    rfl

/-- What the file gives for a request: its size, or bytes read from it where the request says. -/
def Gives (file : LocalFile Handle) (disk : Disk Handle) (data : List UInt8) : FileContentsRequest → Prop
  | .size _ _ => data = leBytes 8 file.size.toNat
  | .range _ _ offset length => (file.readExactAt disk (min (file.size.toNat - offset) length) offset).2 = .ok data

end LocalFile

namespace ClipFiles

variable {clip : ClipFiles Handle} {disk : Disk Handle}

/-- A response is what the file at the requested index gives. -/
theorem answer_from {connId : Int} {request : FileContentsRequest} {flags : Nat} {streamId : Int}
    {data : List UInt8}
    (h : .ok (.fileContentsResponse flags streamId data) ∈ (clip.answer disk connId request).2) :
    ∃ file, clip.fileList[request.fileIdx]? = some file ∧ file.Gives disk data request := by
  have hserved : (clip.serveFileContents disk connId request).2 =
      .ok (.fileContentsResponse flags streamId data) := by
    obtain haudit | hserved := List.mem_append.mp h
    · obtain ⟨audited, hmem, heq⟩ := List.mem_map.mp haudit
      obtain rfl := Except.ok.inj heq
      exfalso
      unfold getFilesForAudit at hmem
      split at hmem
      · cases hmem
      · split at hmem
        · dsimp only at hmem
          split at hmem
          · cases hmem
          · cases List.mem_singleton.mp hmem
        · cases hmem
    · exact (List.mem_singleton.mp hserved).symm
  unfold serveFileContents at hserved
  cases request with
  | size streamId' fileIdx =>
    dsimp only at hserved
    split at hserved
    · cases hserved
    · rename_i file hfile
      obtain ⟨-, -, rfl⟩ := ClipboardFile.fileContentsResponse.inj (Except.ok.inj hserved)
      exact ⟨file, hfile, rfl⟩
  | range streamId' fileIdx offset length =>
    dsimp only at hserved
    split at hserved
    · cases hserved
    · rename_i file hfile
      have hsize : (if file.size.toNat - offset < length then file.size.toNat - offset else length) =
          min (file.size.toNat - offset) length := by
        split <;> omega
      rw [hsize] at hserved
      split at hserved
      · cases hserved
      · split at hserved
        · cases hserved
        · split at hserved
          · cases hserved
          · rename_i read buf hread
            obtain ⟨-, -, rfl⟩ := ClipboardFile.fileContentsResponse.inj (Except.ok.inj hserved)
            refine ⟨file, hfile, ?_⟩
            unfold LocalFile.Gives
            dsimp only
            rw [hread]

/-- A retired list that passed the check gives what it would have given. -/
theorem checked_from {checked : ClipFiles Handle} {request : FileContentsRequest}
    (h : clip.checkRetiredFile disk request = (checked, .ok ())) {file : LocalFile Handle}
    (hfile : checked.fileList[request.fileIdx]? = some file) {data : List UInt8}
    (hgives : file.Gives disk data request) :
    ∃ file, clip.fileList[request.fileIdx]? = some file ∧ file.Gives disk data request := by
  unfold checkRetiredFile at h
  cases request with
  | size streamId fileIdx =>
    obtain ⟨rfl, -⟩ := Prod.mk.inj h
    exact ⟨file, hfile, hgives⟩
  | range streamId fileIdx offset length =>
    dsimp only at h
    split at h
    · obtain ⟨rfl, -⟩ := Prod.mk.inj h
      exact ⟨file, hfile, hgives⟩
    · rename_i old hold
      split at h
      · obtain ⟨rfl, -⟩ := Prod.mk.inj h
        exact ⟨file, hfile, hgives⟩
      · split at h
        · cases (Prod.mk.inj h).2
        · rename_i loaded hload
          obtain ⟨rfl, -⟩ := Prod.mk.inj h
          obtain ⟨hlt, -⟩ := List.getElem?_eq_some_iff.mp hold
          change (clip.fileList.set fileIdx loaded)[fileIdx]? = some file at hfile
          rw [List.getElem?_set_self hlt] at hfile
          obtain rfl := Option.some.inj hfile
          refine ⟨old, hold, ?_⟩
          unfold LocalFile.Gives at hgives ⊢
          dsimp only at hgives ⊢
          rwa [LocalFile.readExactAt_loaded hload, LocalFile.loadHandle_size hload] at hgives

end ClipFiles

/-! ## What a list is known by -/

structure Label where
  pdu : List UInt8
  id : Int32
  servedTo : List Int

def ClipFiles.label (clip : ClipFiles Handle) : Label where
  pdu := clip.filesPdu
  id := clip.id
  servedTo := clip.servedTo

theorem ClipFiles.serve_label (clip : ClipFiles Handle) (disk : Disk Handle) (connId : Int)
    (request : FileContentsRequest) : (clip.serveFileContents disk connId request).1.label = clip.label := by
  unfold serveFileContents
  cases request with
  | size streamId fileIdx =>
    dsimp only
    split <;> rfl
  | range streamId fileIdx offset length =>
    dsimp only
    split
    · rfl
    · rename_i file _
      generalize (if file.size.toNat - offset < length then file.size.toNat - offset else length) = readSize
      split
      · rfl
      · split
        · rfl
        · split <;> rfl

theorem ClipFiles.check_label {clip checked : ClipFiles Handle} {disk : Disk Handle}
    {request : FileContentsRequest} {r : Except CliprdrError Unit}
    (h : clip.checkRetiredFile disk request = (checked, r)) : checked.label = clip.label := by
  unfold checkRetiredFile at h
  cases request with
  | size streamId fileIdx =>
    obtain ⟨rfl, -⟩ := Prod.mk.inj h
    rfl
  | range streamId fileIdx offset length =>
    dsimp only at h
    split at h
    · obtain ⟨rfl, -⟩ := Prod.mk.inj h
      rfl
    · split at h
      · obtain ⟨rfl, -⟩ := Prod.mk.inj h
        rfl
      · split at h <;>
        · obtain ⟨rfl, -⟩ := Prod.mk.inj h
          rfl

namespace ServFiles

/-- The list on the clipboard and the retired ones, the newest first. -/
def held (s : ServFiles Handle) : List (ClipFiles Handle) :=
  s.current :: s.retired

def labels (s : ServFiles Handle) : List Label :=
  s.held.map ClipFiles.label

/-- The list most recently sent to a connection. -/
def lastSent (s : ServFiles Handle) (connId : Int) : Option (List UInt8) :=
  (s.sent.find? fun p => p.1 == connId).map Prod.snd

structure Inv (s : ServFiles Handle) : Prop where
  id : ∀ l ∈ s.labels, l.pdu ≠ [] → l.id = fileListId l.pdu ∧ l.id ∈ s.built
  sent : ∀ p ∈ s.sent, p.2 ≠ [] ∧ fileListId p.2 ∈ s.built
  distinct : (s.labels.map Label.pdu).Nodup
  served : ∀ l ∈ s.labels, ∀ connId, connId ∈ l.servedTo ↔ (connId, l.pdu) ∈ s.sent
  newest : ∀ connId l, (s.labels.find? fun l => l.servedTo.contains connId) = some l →
    s.lastSent connId = some l.pdu

variable {s t : ServFiles Handle}

theorem Inv.same (h : s.Inv) (hlabels : t.labels = s.labels) (hsent : t.sent = s.sent)
    (hbuilt : t.built = s.built) : t.Inv := by
  refine ⟨?_, ?_, ?_, ?_, ?_⟩
  · rw [hlabels, hbuilt]
    exact h.id
  · rw [hsent, hbuilt]
    exact h.sent
  · rw [hlabels]
    exact h.distinct
  · rw [hlabels, hsent]
    exact h.served
  · unfold lastSent
    rw [hlabels, hsent]
    exact h.newest

section Steps

theorem set_labels {i : Nat} {clip clip' : ClipFiles Handle} (hi : s.retired[i]? = some clip)
    (hlabel : clip'.label = clip.label) :
    labels { s with retired := s.retired.set i clip' } = s.labels := by
  unfold labels held
  rw [List.map_cons, List.map_cons, List.map_set, hlabel]
  obtain ⟨hlt, -⟩ := List.getElem?_eq_some_iff.mp hi
  refine congrArg (s.current.label :: ·) (List.ext_getElem? fun j => ?_)
  rw [List.getElem?_set]
  split
  · rename_i hij
    subst hij
    rw [List.length_map, if_pos hlt, List.getElem?_map, hi, Option.map_some]
  · rfl

theorem readSelected_frame (disk : Disk Handle) (connId : Int) (request : FileContentsRequest) (place : Place) :
    (s.readSelected disk connId request place).2.labels = s.labels ∧
      (s.readSelected disk connId request place).2.sent = s.sent ∧
      (s.readSelected disk connId request place).2.built = s.built := by
  unfold readSelected
  cases place with
  | current =>
    refine ⟨?_, rfl, rfl⟩
    unfold labels held
    rw [List.map_cons, List.map_cons]
    exact congrArg (· :: _) (s.current.serve_label disk connId request)
  | retired i =>
    dsimp only
    split
    · exact ⟨rfl, rfl, rfl⟩
    · rename_i clip hclip
      split
      · rename_i hcheck
        exact ⟨set_labels hclip (ClipFiles.check_label hcheck), rfl, rfl⟩
      · rename_i checked hcheck
        refine ⟨set_labels hclip ?_, rfl, rfl⟩
        exact (checked.serve_label disk connId request).trans (ClipFiles.check_label hcheck)

theorem Inv.read (h : s.Inv) (disk : Disk Handle) (connId : Int) (clipDataId : Option Int32)
    (request : FileContentsRequest) : (s.readRequest disk connId clipDataId request).2.Inv := by
  unfold readRequest
  split
  · exact h
  · rename_i place _
    obtain ⟨hlabels, hsent, hbuilt⟩ := s.readSelected_frame disk connId request place
    exact h.same hlabels hsent hbuilt

/-- No list is there, and none was sent. -/
theorem Inv.bare (hlabels : s.labels = [⟨[], 0, []⟩]) (hsent : s.sent = []) : s.Inv := by
  refine ⟨fun l hl hpdu => ?_, fun p hp => ?_, ?_, fun l hl connId => ?_, fun connId l hfind => ?_⟩
  · rw [hlabels] at hl
    obtain rfl := List.mem_singleton.mp hl
    exact absurd rfl hpdu
  · rw [hsent] at hp
    cases hp
  · rw [hlabels]
    exact List.pairwise_singleton ..
  · rw [hlabels] at hl
    obtain rfl := List.mem_singleton.mp hl
    rw [hsent]
    exact ⟨nofun, nofun⟩
  · rw [hlabels] at hfind
    cases hfind

/-- The labels with another connection among those that were sent the current list. -/
theorem getFileListPdu_labels (connId : Int) :
    (s.getFileListPdu connId).2 = s ∨
      s.current.filesPdu ≠ [] ∧ (s.getFileListPdu connId).2.sent = (connId, s.current.filesPdu) :: s.sent ∧
        (s.getFileListPdu connId).2.built = s.built ∧
        ∃ servedTo, (∀ c, c ∈ servedTo ↔ c = connId ∨ c ∈ s.current.servedTo) ∧
          (s.getFileListPdu connId).2.labels =
            ⟨s.current.filesPdu, s.current.id, servedTo⟩ :: s.retired.map ClipFiles.label := by
  unfold getFileListPdu
  split
  · exact .inl rfl
  · rename_i hpdu
    refine .inr ⟨hpdu, rfl, rfl, _, fun c => ?_, rfl⟩
    split
    · rename_i hin
      have hmem := List.contains_iff_mem.mp hin
      exact ⟨.inr, fun hc => hc.elim (fun heq => heq ▸ hmem) id⟩
    · rw [List.mem_append, List.mem_singleton]
      exact Or.comm

theorem Inv.getFileListPdu (h : s.Inv) (connId : Int) : (s.getFileListPdu connId).2.Inv := by
  obtain hsame | ⟨hpdu, hsent, hbuilt, servedTo, hserved, hlabels⟩ := s.getFileListPdu_labels connId
  · rw [hsame]
    exact h
  · have hcurrent : s.current.label ∈ s.labels := List.mem_cons_self ..
    have hothers : ∀ l ∈ s.retired.map ClipFiles.label, l.pdu ≠ s.current.filesPdu := by
      intro l hl heq
      exact (List.nodup_cons.mp h.distinct).1 (List.mem_map.mpr ⟨l, hl, heq⟩)
    refine ⟨fun l hl => ?_, fun p hp => ?_, ?_, fun l hl c => ?_, fun c l hfind => ?_⟩
    · rw [hbuilt]
      rw [hlabels] at hl
      obtain rfl | hl := List.mem_cons.mp hl
      · exact h.id s.current.label hcurrent
      · exact h.id l (List.mem_cons_of_mem _ hl)
    · rw [hbuilt]
      rw [hsent] at hp
      obtain rfl | hp := List.mem_cons.mp hp
      · obtain ⟨hid, hmem⟩ := h.id _ hcurrent hpdu
        exact ⟨hpdu, hid ▸ hmem⟩
      · exact h.sent p hp
    · rw [hlabels]
      exact h.distinct
    · rw [hsent, List.mem_cons, Prod.mk.injEq]
      rw [hlabels] at hl
      obtain rfl | hl := List.mem_cons.mp hl
      · have hbefore : c ∈ s.current.servedTo ↔ (c, s.current.filesPdu) ∈ s.sent := h.served _ hcurrent c
        exact (hserved c).trans (or_congr (and_iff_left rfl).symm hbefore)
      · have hbefore := h.served l (List.mem_cons_of_mem _ hl) c
        exact hbefore.trans (or_iff_right fun hboth => hothers l hl hboth.2).symm
    · have hlast : (s.getFileListPdu connId).2.lastSent c =
          if connId = c then some s.current.filesPdu else s.lastSent c := by
        unfold lastSent
        rw [hsent, List.find?_cons]
        by_cases hc : connId = c
        · rw [if_pos hc, beq_iff_eq.mpr hc]
          rfl
        · rw [if_neg hc, beq_false_of_ne hc]
      rw [hlast]
      rw [hlabels, List.find?_cons] at hfind
      by_cases hc : connId = c
      · have hin : servedTo.contains c = true := List.contains_iff_mem.mpr ((hserved c).mpr (.inl hc.symm))
        dsimp only at hfind
        rw [hin] at hfind
        obtain rfl := Option.some.inj hfind
        rw [if_pos hc]
      · rw [if_neg hc]
        have hkept : servedTo.contains c = s.current.servedTo.contains c := by
          rw [Bool.eq_iff_iff, List.contains_iff_mem, List.contains_iff_mem, hserved c]
          exact or_iff_right (Ne.symm hc)
        have hnewest := h.newest c
        unfold labels held at hnewest
        rw [List.map_cons, List.find?_cons] at hnewest
        change ∀ l, (match s.current.servedTo.contains c with
          | true => some s.current.label
          | false => _) = some l → _ at hnewest
        dsimp only at hfind
        rw [hkept] at hfind
        cases hin : s.current.servedTo.contains c with
        | true =>
          rw [hin] at hfind hnewest
          obtain rfl := Option.some.inj hfind
          exact hnewest s.current.label rfl
        | false =>
          rw [hin] at hfind hnewest
          exact hnewest l hfind

/-- The lists kept once the current one was replaced are lists there were, and for each connection the
newest among them that served it is the newest there was. -/
theorem retireIfServed_labels :
    ((s.retireIfServed s.current).map ClipFiles.label).Sublist s.labels ∧
      ∀ connId l,
        (((s.retireIfServed s.current).map ClipFiles.label).find? fun l => l.servedTo.contains connId) = some l →
          (s.labels.find? fun l => l.servedTo.contains connId) = some l := by
  unfold retireIfServed labels held
  rw [List.map_cons]
  split
  · rename_i hnone
    refine ⟨List.sublist_cons_self .., fun connId l hfind => ?_⟩
    have hnot : s.current.label.servedTo.contains connId = false := by
      unfold ClipFiles.label
      rw [hnone]
      rfl
    rw [List.find?_cons_of_neg (by rw [hnot]; exact Bool.false_ne_true)]
    exact hfind
  · have hkept : ((if s.retired.length = MAX_RETIRED_CLIP_FILES then s.retired.dropLast else s.retired).map
        ClipFiles.label) <+: s.retired.map ClipFiles.label := by
      split
      · exact (List.dropLast_prefix _).map _
      · exact List.prefix_refl _
    have hheld : (s.current.label :: (if s.retired.length = MAX_RETIRED_CLIP_FILES then s.retired.dropLast
        else s.retired).map ClipFiles.label) <+: s.current.label :: s.retired.map ClipFiles.label :=
      List.cons_prefix_cons.mpr ⟨rfl, hkept⟩
    exact ⟨hheld.sublist, fun connId l hfind => hheld.find?_eq_some hfind⟩

theorem syncFiles_error {disk : Disk Handle} {files : List Text} {nonce : Vector UInt8 16} {error : CliprdrError}
    (h : (s.syncFiles disk files nonce).1 = .error error) : (s.syncFiles disk files nonce).2 = s := by
  unfold syncFiles at h ⊢
  dsimp only at h ⊢
  split at h
  · cases h
  · rename_i hnew
    rw [if_neg hnew]
    split at h
    · rfl
    · split at h
      · rfl
      · cases h

/-- The new list, where the call makes one. -/
theorem syncFiles_new (disk : Disk Handle) (files : List Text) (nonce : Vector UInt8 16) :
    (s.syncFiles disk files nonce).2 = s ∨
      ∃ next : ClipFiles Handle, next.filesPdu ≠ [] ∧ next.id = fileListId next.filesPdu ∧ next.servedTo = [] ∧
        (s.syncFiles disk files nonce).2 =
          { s with current := next, retired := s.retireIfServed s.current, built := next.id :: s.built } := by
  unfold syncFiles
  dsimp only
  split
  · exact .inl rfl
  · split
    · exact .inl rfl
    · rename_i next hsync
      split
      · exact .inl rfl
      · rename_i built hbuild
        refine .inr ⟨built, ?_⟩
        have hserved : next.servedTo = [] := by
          unfold ClipFiles.syncFiles at hsync
          split at hsync
          · cases hsync
          · obtain rfl := Except.ok.inj hsync
            rfl
        unfold ClipFiles.buildPdu at hbuild
        split at hbuild
        · cases hbuild
        · rename_i filesPdu id hpdu
          obtain rfl := Except.ok.inj hbuild
          obtain ⟨hid, records, rfl, -⟩ := buildFileListPdu_ok hpdu
          exact ⟨nofun, hid, hserved, rfl⟩

theorem Inv.syncFiles (h : s.Inv) (disk : Disk Handle) (files : List Text) (nonce : Vector UInt8 16)
    (hfresh : (s.syncFiles disk files nonce).2.built.Nodup) : (s.syncFiles disk files nonce).2.Inv := by
  obtain hsame | ⟨next, hpdu, hid, hserved, heq⟩ := s.syncFiles_new disk files nonce
  · rw [hsame]
    exact h
  · rw [heq] at hfresh ⊢
    obtain ⟨hnew, -⟩ := List.nodup_cons.mp hfresh
    obtain ⟨hkept, hnewest⟩ := s.retireIfServed_labels
    have hother : ∀ pdu, fileListId pdu ∈ s.built → pdu ≠ next.filesPdu := by
      intro pdu hmem heq
      rw [heq, ← hid] at hmem
      exact hnew hmem
    have hunsent : ∀ connId, (connId, next.filesPdu) ∉ s.sent :=
      fun connId hmem => hother _ (h.sent _ hmem).2 rfl
    refine ⟨fun l hl hne => ?_, fun p hp => ?_, List.nodup_cons.mpr ⟨fun hmem => ?_, ?_⟩, fun l hl connId => ?_,
      fun connId l hfind => ?_⟩
    · obtain rfl | hl := List.mem_cons.mp hl
      · exact ⟨hid, List.mem_cons_self ..⟩
      · obtain ⟨hlid, hmem⟩ := h.id l (hkept.subset hl) hne
        exact ⟨hlid, List.mem_cons_of_mem _ hmem⟩
    · obtain ⟨hne, hmem⟩ := h.sent p hp
      exact ⟨hne, List.mem_cons_of_mem _ hmem⟩
    · obtain ⟨l, hl, hsame⟩ := List.mem_map.mp hmem
      have hne : l.pdu ≠ [] := fun hnil => hpdu (hsame.symm.trans hnil)
      obtain ⟨hlid, hbuilt⟩ := h.id l (hkept.subset hl) hne
      exact hother l.pdu (hlid ▸ hbuilt) hsame
    · exact (hkept.map Label.pdu).nodup h.distinct
    · obtain rfl | hl := List.mem_cons.mp hl
      · have hnone : next.label.servedTo = [] := hserved
        rw [hnone]
        exact iff_of_false List.not_mem_nil (hunsent connId)
      · exact h.served l (hkept.subset hl) connId
    · have hnot : next.label.servedTo.contains connId = false := by
        unfold ClipFiles.label
        rw [hserved]
        rfl
      refine h.newest connId l (hnewest connId l ?_)
      unfold labels held at hfind
      rw [List.map_cons, List.find?_cons_of_neg (by rw [hnot]; exact Bool.false_ne_true)] at hfind
      exact hfind

theorem Inv.step (h : s.Inv) {e : Event Handle} (hstep : s.step e = some t) (hfresh : t.built.Nodup) : t.Inv := by
  cases e with
  | syncFiles disk files nonce =>
    obtain rfl := Option.some.inj hstep
    exact h.syncFiles disk files nonce hfresh
  | getFileListPdu connId =>
    obtain rfl := Option.some.inj hstep
    exact h.getFileListPdu connId
  | clearFiles =>
    obtain rfl := Option.some.inj hstep
    exact .bare rfl rfl
  | readFileContents disk connId streamId listIndex dwFlags low high cbRequested clipDataId =>
    obtain rfl := Option.some.inj hstep
    unfold readFileContents
    split
    · exact h
    · exact h.read disk connId clipDataId _

theorem readRequest_built (disk : Disk Handle) (connId : Int) (clipDataId : Option Int32)
    (request : FileContentsRequest) : (s.readRequest disk connId clipDataId request).2.built = s.built := by
  unfold readRequest
  split
  · rfl
  · exact (s.readSelected_frame disk connId request _).2.2

/-- Ids are only added. -/
theorem built_step {e : Event Handle} (hstep : s.step e = some t) : s.built.Sublist t.built := by
  cases e with
  | syncFiles disk files nonce =>
    obtain rfl := Option.some.inj hstep
    obtain hsame | ⟨next, -, -, -, heq⟩ := s.syncFiles_new disk files nonce
    · rw [hsame]
    · rw [heq]
      exact List.sublist_cons_self ..
  | getFileListPdu connId =>
    obtain rfl := Option.some.inj hstep
    obtain hsame | ⟨-, -, hbuilt, -⟩ := s.getFileListPdu_labels connId
    · rw [hsame]
    · rw [hbuilt]
  | clearFiles =>
    obtain rfl := Option.some.inj hstep
    exact List.Sublist.refl _
  | readFileContents disk connId streamId listIndex dwFlags low high cbRequested clipDataId =>
    obtain rfl := Option.some.inj hstep
    unfold readFileContents
    split
    · exact List.Sublist.refl _
    · rw [readRequest_built]

theorem Inv.of_exec {history : List (ServFiles Handle × Event Handle)} (hx : Exec Init ServFiles.step history s)
    (hfresh : s.built.Nodup) : s.Inv := by
  refine hx.induct (I := fun _ s => s.built.Nodup → s.Inv) ?_ ?_ hfresh
  · rintro s rfl -
    exact .bare rfl rfl
  · intro _ s e s' _ hinv hstep hfresh
    exact (hinv ((built_step hstep).nodup hfresh)).step hstep hfresh

end Steps

/-! ## What a request gets -/

/-- A request does not name the current list unless it was sent to the connection; one that names none comes
from a connection whose last list is still held. -/
def Honoured (s : ServFiles Handle) (connId : Int) : Option Int32 → Prop
  | some id => s.current.id = id → connId ∈ s.current.servedTo
  | none => ∃ clip ∈ s.held, s.lastSent connId = some clip.filesPdu

/-- The list that a request is about: the one it names, or the last one sent to the connection. -/
def About (s : ServFiles Handle) (connId : Int) (clip : ClipFiles Handle) : Option Int32 → Prop
  | some id => clip.id = id ∧ fileListId clip.filesPdu = id
  | none => s.lastSent connId = some clip.filesPdu

/-- The answers are an error, or every response in them is what the file at the requested index gives, in a
list that was sent to this connection and that the request is about. -/
def Isolated (s : ServFiles Handle) (disk : Disk Handle) (connId : Int) (clipDataId : Option Int32)
    (request : FileContentsRequest) (answers : List (Except CliprdrError ClipboardFile)) : Prop :=
  (∃ error, answers = [.error error]) ∨
    ∃ clip ∈ s.held, (connId, clip.filesPdu) ∈ s.sent ∧ s.About connId clip clipDataId ∧
      ∀ flags streamId data, .ok (.fileContentsResponse flags streamId data) ∈ answers →
        ∃ file, clip.fileList[request.fileIdx]? = some file ∧ file.Gives disk data request

section Requests

theorem mem_sent_of_lastSent {connId : Int} {pdu : List UInt8} (h : s.lastSent connId = some pdu) :
    (connId, pdu) ∈ s.sent := by
  obtain ⟨p, hfind, rfl⟩ := Option.map_eq_some_iff.mp h
  have hconn : (p.1 == connId) = true := List.find?_some (p := fun p : Int × List UInt8 => p.1 == connId) hfind
  rw [← beq_iff_eq.mp hconn]
  exact List.mem_of_find?_eq_some hfind

variable {disk : Disk Handle} {connId : Int} {clipDataId : Option Int32} {request : FileContentsRequest}

theorem isolated_current (hsent : (connId, s.current.filesPdu) ∈ s.sent)
    (habout : s.About connId s.current clipDataId) :
    s.Isolated disk connId clipDataId request (s.readSelected disk connId request .current).1 := by
  refine .inr ⟨s.current, List.mem_cons_self .., hsent, habout, fun flags streamId data hdata => ?_⟩
  exact ClipFiles.answer_from hdata

theorem isolated_retired {i : Nat} {clip : ClipFiles Handle} (hi : s.retired[i]? = some clip)
    (hsent : (connId, clip.filesPdu) ∈ s.sent) (habout : s.About connId clip clipDataId) :
    s.Isolated disk connId clipDataId request (s.readSelected disk connId request (.retired i)).1 := by
  unfold readSelected
  dsimp only
  rw [hi]
  dsimp only
  split
  · exact .inl ⟨_, rfl⟩
  · rename_i checked hcheck
    refine .inr ⟨clip, List.mem_cons_of_mem _ (List.mem_of_getElem? hi), hsent, habout, ?_⟩
    intro flags streamId data hdata
    obtain ⟨file, hfile, hgives⟩ := ClipFiles.answer_from hdata
    exact ClipFiles.checked_from hcheck hfile hgives

/-- The first retired list that a request looks for. -/
theorem findIdx?_retired {p : ClipFiles Handle → Bool} {i : Nat} (h : s.retired.findIdx? p = some i) :
    ∃ clip, s.retired[i]? = some clip ∧ p clip = true ∧ s.retired.find? p = some clip := by
  obtain ⟨hlt, hp, hbefore⟩ := List.findIdx?_eq_some_iff_getElem.mp h
  refine ⟨_, List.getElem?_eq_getElem hlt, hp, ?_⟩
  rw [List.find?_eq_some_iff_getElem]
  exact ⟨hp, i, hlt, rfl, fun j hj => by simpa using hbefore j hj⟩

theorem Inv.isolated_named (h : s.Inv) {id : Int32} (hread : s.Honoured connId (some id)) :
    s.Isolated disk connId (some id) request (s.readRequest disk connId (some id) request).1 := by
  unfold readRequest selectClipFiles
  have hknown : ∀ clip ∈ s.held, connId ∈ clip.servedTo → (connId, clip.filesPdu) ∈ s.sent ∧
      clip.id = fileListId clip.filesPdu := by
    intro clip hclip hserved
    have hlabel : clip.label ∈ s.labels := List.mem_map.mpr ⟨clip, hclip, rfl⟩
    have hsent := (h.served _ hlabel connId).mp hserved
    exact ⟨hsent, (h.id _ hlabel (h.sent _ hsent).1).1⟩
  dsimp only
  split
  · rename_i hnone
    exact .inl ⟨_, rfl⟩
  · rename_i place hplace
    split at hplace
    · rename_i hid
      obtain rfl := Option.some.inj hplace
      obtain ⟨hsent, hpdu⟩ := hknown s.current (List.mem_cons_self ..) (hread hid)
      exact isolated_current hsent ⟨hid, hpdu ▸ hid⟩
    · obtain ⟨i, hfind, rfl⟩ := Option.map_eq_some_iff.mp hplace
      obtain ⟨clip, hi, hp, -⟩ := findIdx?_retired hfind
      obtain ⟨hid, hserved⟩ := Bool.and_eq_true_iff.mp hp
      have hid : clip.id = id := beq_iff_eq.mp hid
      obtain ⟨hsent, hpdu⟩ := hknown clip (List.mem_cons_of_mem _ (List.mem_of_getElem? hi))
        (List.contains_iff_mem.mp hserved)
      exact isolated_retired hi hsent ⟨hid, hpdu ▸ hid⟩

theorem Inv.isolated_unnamed (h : s.Inv) (hread : s.Honoured connId none) :
    s.Isolated disk connId none request (s.readRequest disk connId none request).1 := by
  obtain ⟨last, hlast, hsent⟩ := hread
  have hserving : last.servedTo.contains connId = true := by
    have hlabel : last.label ∈ s.labels := List.mem_map.mpr ⟨last, hlast, rfl⟩
    exact List.contains_iff_mem.mpr ((h.served _ hlabel connId).mpr (mem_sent_of_lastSent hsent))
  have hnewest := h.newest connId
  unfold labels at hnewest
  rw [List.find?_map] at hnewest
  unfold readRequest selectClipFiles
  dsimp only
  split
  · rename_i hnone
    split at hnone
    · cases hnone
    · split at hnone <;> cases hnone
  · rename_i place hplace
    split at hplace
    · rename_i hin
      obtain rfl := Option.some.inj hplace
      have hfind : s.held.find? ((fun l : Label => l.servedTo.contains connId) ∘ ClipFiles.label) =
          some s.current := List.find?_cons_of_pos hin
      have hpdu := hnewest s.current.label (by rw [hfind, Option.map_some])
      exact isolated_current (mem_sent_of_lastSent hpdu) hpdu
    · rename_i hout
      split at hplace
      · rename_i i hi
        obtain rfl := Option.some.inj hplace
        obtain ⟨clip, hclip, -, hfirst⟩ := findIdx?_retired hi
        have hfind : s.held.find? ((fun l : Label => l.servedTo.contains connId) ∘ ClipFiles.label) =
            some clip := by
          unfold held
          rw [List.find?_cons_of_neg (by exact hout)]
          exact hfirst
        have hpdu := hnewest clip.label (by rw [hfind, Option.map_some])
        exact isolated_retired hclip (mem_sent_of_lastSent hpdu) hpdu
      · -- the last list sent is held, so one of those looked at serves the connection
        rename_i hnone
        exfalso
        obtain rfl | hretired := List.mem_cons.mp hlast
        · exact hout hserving
        · have hnot := List.findIdx?_eq_none_iff.mp hnone last hretired
          rw [hserving] at hnot
          cases hnot

end Requests

/-- In every run in which no two lists get one id, a failed copy changes nothing, and a request of a kind
that is honoured reads from the list it is about, which was sent to its connection. -/
theorem lists_isolated {history : List (ServFiles Handle × Event Handle)} (hx : Exec Init ServFiles.step history s)
    (hids : s.built.Nodup) :
    (∀ disk files nonce error, (s.syncFiles disk files nonce).1 = .error error →
        (s.syncFiles disk files nonce).2 = s) ∧
      ∀ disk connId streamId listIndex dwFlags low high cbRequested clipDataId, s.Honoured connId clipDataId →
        (∃ error, (s.readFileContents disk connId streamId listIndex dwFlags low high cbRequested clipDataId).1 =
            [.error error]) ∨
          ∃ request, fileContentsRequest streamId listIndex dwFlags low high cbRequested = .ok request ∧
            s.Isolated disk connId clipDataId request
              (s.readFileContents disk connId streamId listIndex dwFlags low high cbRequested clipDataId).1 := by
  have hinv := Inv.of_exec hx hids
  refine ⟨fun disk files nonce error herror => syncFiles_error herror, ?_⟩
  intro disk connId streamId listIndex dwFlags low high cbRequested clipDataId hread
  unfold readFileContents
  split
  · exact .inl ⟨_, rfl⟩
  · rename_i request hrequest
    refine .inr ⟨request, hrequest, ?_⟩
    cases clipDataId with
    | some id => exact hinv.isolated_named hread
    | none => exact hinv.isolated_unnamed hread

/-- A disk whose files can all be read and hold zeros. -/
def zeroDisk : Disk fun _ => Unit where
  fingerprint _ := {}
  constructFileList paths := .ok (paths.map fileNamed)
  isDir _ := false
  isFile _ := true
  openFile _ := .ok ()
  metadata _ := some (8, some 0)
  seek _ _ := .ok ()
  readExact _ len := .ok (List.replicate len 0, ())

/-- `a` is copied and its list sent to connection 1, then `b` is copied. -/
def copiedEvents : List (Event fun _ => Unit) :=
  [.syncFiles zeroDisk [['a']] (Vector.replicate 16 1), .getFileListPdu 1,
    .syncFiles zeroDisk [['b']] (Vector.replicate 16 2)]

theorem copied_runs : (trace ServFiles.step {} copiedEvents).isSome = true := by
  decide +kernel

def copied : ServFiles fun _ => Unit :=
  ((trace ServFiles.step {} copiedEvents).get copied_runs).2

theorem copied_exec : ∃ history, Exec Init ServFiles.step history copied := by
  have hstart : Exec Init ServFiles.step [] ({} : ServFiles fun _ => Unit) := .start rfl
  have hx := hstart.trace (Option.some_get copied_runs).symm
  exact ⟨_, hx⟩

theorem copied_ids : copied.built.Nodup := by
  decide +kernel

theorem lists_isolated_copied :
    ∃ request, fileContentsRequest 7 0 1 0 0 8 = .ok request ∧
      copied.Isolated zeroDisk 1 none request (copied.readFileContents zeroDisk 1 7 0 1 0 0 8 none).1 := by
  obtain ⟨history, hx⟩ := copied_exec
  have hheld : (copied.held.any fun clip => copied.lastSent 1 == some clip.filesPdu) = true := by
    decide +kernel
  obtain ⟨clip, hclip, hlast⟩ := List.any_eq_true.mp hheld
  have hread : copied.Honoured 1 none := ⟨clip, hclip, beq_iff_eq.mp hlast⟩
  obtain ⟨error, herror⟩ | hisolated := (lists_isolated hx copied_ids).2 zeroDisk 1 7 0 1 0 0 8 none hread
  · have hok : ((copied.readFileContents zeroDisk 1 7 0 1 0 0 8 none).1.head?.any Except.toBool) = true := by
      decide +kernel
    rw [herror] at hok
    cases hok
  · exact hisolated

/-- Connection 1 was sent the list of `a` only, names the list of `b`, and gets the size of `b`. -/
theorem unsent_list_served :
    (∃ history, Exec Init ServFiles.step history copied) ∧ copied.built.Nodup ∧ copied.lastSent 1 ≠ none ∧
      ¬ copied.Isolated zeroDisk 1 (some copied.current.id) (.size 7 0)
        (copied.readFileContents zeroDisk 1 7 0 1 0 0 8 (some copied.current.id)).1 := by
  refine ⟨copied_exec, copied_ids, by decide +kernel, ?_⟩
  have hnone : ∀ clip ∈ copied.held,
      ¬ ((1, clip.filesPdu) ∈ copied.sent ∧ clip.id = copied.current.id) := by
    decide +kernel
  rintro (⟨error, herror⟩ | ⟨clip, hclip, hsent, habout, -⟩)
  · have hok : ((copied.readFileContents zeroDisk 1 7 0 1 0 0 8 (some copied.current.id)).1.head?.any
        Except.toBool) = true := by
      decide +kernel
    rw [herror] at hok
    cases hok
  · exact hnone clip hclip ⟨hsent, habout.1⟩

end ServFiles

end FontisRemote.Clipboard
