import FontisRemote.FileTransfer.Deposit
import FontisRemote.FileTransfer.Produced

/-!
# How the files of a job arrive

What a directory that was empty holds while the blocks of a list of files are written below it, as long as no
entry meets another's side files: the files so far with their contents (`Stored`), and while one of them is
under way its download and its digest beside them (`Underway`).
-/

namespace FontisRemote.FileTransfer

open FontisRemote.Lib

/-- Where the files of a list lie. -/
def places (base : Text) (files : List FileEntry) : Set (List Text) := {k | ∃ file ∈ files, keyOf base file [] = k}

/-- Below the base there are these files and nothing else, but for the directories they need. -/
structure Stored (base : Text) (content : FileEntry → Bytes) (done : List FileEntry) (d : Disk) : Prop where
  housed : d.fs.Housed (pathKey base) (places base done)
  below : d.fs.filesBelow (pathKey base) = places base done
  contents : ∀ file ∈ done, d.fs.contents (keyOf base file []) = some (content file)

/-- Another file is being written, through this handle, and has these bytes so far. -/
structure Underway (base : Text) (content : FileEntry → Bytes) (done : List FileEntry) (file : FileEntry)
    (bytes : Bytes) (h : Handle) (d : Disk) : Prop where
  housed : d.fs.Housed (pathKey base) (places base (done ++ [file]))
  below : d.fs.filesBelow (pathKey base) =
    insert (keyOf base file suffixDigest) (insert (keyOf base file suffixDownload) (places base done))
  contents : ∀ f ∈ done, d.fs.contents (keyOf base f []) = some (content f)
  opened : d.fs.fileAt (keyOf base file suffixDownload) = some h.ino
  alone : ∀ k, d.fs.fileAt k = some h.ino → k = keyOf base file suffixDownload
  data : d.fs.data h.ino = bytes
  atEnd : h.pos = bytes.length
  writable : h.writable = true

/-- A file that goes with those before it: neither is below the other, none of them lies where its side files
go or below that, and where it lies at the same place it is the same. -/
structure Fits (base : Text) (content : FileEntry → Bytes) (done : List FileEntry) (file : FileEntry) : Prop where
  listed : Listed file.name
  notBelow : ∀ f ∈ done, keyOf base f [] <+: keyOf base file [] → keyOf base f [] = keyOf base file []
  notAbove : ∀ f ∈ done, keyOf base file [] <+: keyOf base f [] → keyOf base f [] = keyOf base file []
  clear : ∀ f ∈ done, ∀ sfx ∈ [suffixDownload, suffixDigest], ¬ keyOf base file sfx <+: keyOf base f []
  same : ∀ f ∈ done, keyOf base f [] = keyOf base file [] → content f = content file

section Arrival

variable {c : Codec} {base : Text} {content : FileEntry → Bytes} {done : List FileEntry} {file : FileEntry}
  {bytes : Bytes} {h : Handle} {d : Disk} {sfx : Text}

theorem places_concat : places base (done ++ [file]) = insert (keyOf base file []) (places base done) := by
  ext k
  constructor
  · rintro ⟨f, hf, rfl⟩
    rcases List.mem_append.1 hf with hf | hf
    · exact .inr ⟨f, hf, rfl⟩
    · exact .inl (by rw [List.mem_singleton.1 hf])
  · rintro (rfl | ⟨f, hf, rfl⟩)
    · exact ⟨file, List.mem_append_right _ (List.mem_singleton_self _), rfl⟩
    · exact ⟨f, List.mem_append_left _ hf, rfl⟩

/-- A name is joined with the base if no file is on the way. -/
theorem resolves_of_way (hlisted : Listed file.name) (hfree : ∀ j, j <+: pathKey base → d.fs.fileAt j = none)
    (hway : ∀ j, pathKey base <+: j → j <+: keyOf base file [] → j ≠ keyOf base file [] → d.fs.fileAt j = none) :
    Resolves base file d := by
  refine hlisted.joinValidatedPath_of_free fun j hj hne => ?_
  rw [pathKey_file hlisted] at hj hne
  rcases List.prefix_or_prefix_of_prefix hj (keyOf_below hlisted base (by decide)).1 with hjb | hbj
  · exact hfree j hjb
  · exact hway j hbj hj hne

namespace Fits

variable (hfits : Fits base content done file)

include hfits

theorem not_mem (hsfx : sfx ∈ [suffixDownload, suffixDigest]) : keyOf base file sfx ∉ places base done := by
  rintro ⟨f, hf, heq⟩
  exact hfits.clear f hf sfx hsfx (heq ▸ List.prefix_refl _)

/-- No file is on the way. -/
theorem way {files : Set (List Text)} (hbelow : d.fs.filesBelow (pathKey base) = files)
    (hfiles : ∀ k ∈ files, k ∈ places base done ∨ ∃ sfx ∈ suffixes, k = keyOf base file sfx) :
    ∀ j, pathKey base <+: j → j <+: keyOf base file [] → j ≠ keyOf base file [] → d.fs.fileAt j = none := by
  intro j hbj hj hne
  by_contra hsome
  have hmem : j ∈ d.fs.filesBelow (pathKey base) := ⟨hbj, Option.isSome_iff_ne_none.2 hsome⟩
  rw [hbelow] at hmem
  rcases hfiles j hmem with ⟨f, hf, rfl⟩ | ⟨sfx, hsfx, rfl⟩
  · exact hne (hfits.notBelow f hf hj)
  · exact hne (congrArg _ (keyOf_inj hfits.listed hsfx (by decide) hj))

/-- No directory is at the side files' places. -/
theorem no_dir (hsfx : sfx ∈ [suffixDownload, suffixDigest])
    (hhoused : d.fs.Housed (pathKey base) (places base (done ++ [file]))) :
    d.fs.node (keyOf base file sfx) ≠ some .dir := by
  have hmem : ∀ sfx ∈ [suffixDownload, suffixDigest], sfx ∈ suffixes ∧ sfx ≠ [] := by decide
  obtain ⟨hsuffixes, hnil⟩ := hmem sfx hsfx
  obtain ⟨hbelow, hne⟩ := keyOf_below hfits.listed base hsuffixes
  intro hdir
  obtain ⟨a, ⟨f, hf, rfl⟩, hpre, -⟩ := hhoused.dirs _ hbelow hne hdir
  rcases List.mem_append.1 hf with hf | hf
  · exact hfits.clear f hf sfx hsfx hpre
  · rw [List.mem_singleton.1 hf] at hpre
    exact hnil (keyOf_inj hfits.listed hsuffixes (by decide) hpre)

/-- Nor at its own. -/
theorem no_dir_self (hhoused : d.fs.Housed (pathKey base) (places base (done ++ [file]))) :
    d.fs.node (keyOf base file []) ≠ some .dir := by
  obtain ⟨hbelow, hne⟩ := keyOf_below hfits.listed base (show ([] : Text) ∈ suffixes by decide)
  intro hdir
  obtain ⟨a, ⟨f, hf, rfl⟩, hpre, hneq⟩ := hhoused.dirs _ hbelow hne hdir
  rcases List.mem_append.1 hf with hf | hf
  · exact hneq (hfits.notAbove f hf hpre).symm
  · rw [List.mem_singleton.1 hf] at hneq
    exact hneq rfl

/-- The directory of the side files is there. -/
theorem parent_isDir (hsfx : sfx ∈ suffixes) (hhoused : d.fs.Housed (pathKey base) (places base (done ++ [file]))) :
    d.fs.isDir (keyOf base file sfx).dropLast := by
  obtain ⟨dir, last, hdir, hkey⟩ := keyOf_beside hfits.listed base
  have hself := hkey [] (by decide)
  rw [hkey sfx hsfx, List.dropLast_concat]
  refine hhoused.above _ ⟨file, List.mem_append_right _ (List.mem_singleton_self _), rfl⟩ dir hdir ?_ ?_
  · rw [hself]
    exact List.prefix_append ..
  · rw [hself]
    intro heq
    have hlength := congrArg List.length heq
    rw [List.length_append, List.length_singleton] at hlength
    omega

end Fits

variable {job : TransferJob Handle}

/-- The next file begins, with its side files new beside it. -/
theorem Stored.createStream (hs : Stored base content done d) (hfits : Fits base content done file)
    (hk : Receives base job) :
    ∃ d' ino, job.createStream (Disk.host c {}) base file d =
        (.ok (), { job with dataStream := some (.fileStream ⟨ino, 0, true⟩) }, d') ∧
      Underway base content done file [] ⟨ino, 0, true⟩ d' := by
  have hlisted := hfits.listed
  have hway := hfits.way hs.below fun k hk => .inl hk
  have hres : Resolves base file d := resolves_of_way hlisted hs.housed.free hway
  have hdl := keyOf_below hlisted base (show suffixDownload ∈ suffixes by decide)
  have hdg := keyOf_below hlisted base (show suffixDigest ∈ suffixes by decide)
  have hne : keyOf base file suffixDigest ≠ keyOf base file suffixDownload :=
    keyOf_ne hlisted (by decide) (by decide) (by decide)
  -- the directories
  have hhoused : (withParent base file d).fs.Housed (pathKey base) (places base (done ++ [file])) := by
    rw [places_concat]
    exact hs.housed.mkdirs (keyOf_below hlisted base (by decide)).1 hway
  have hfiles := withParent_fileAt base file d
  obtain ⟨hdata, hfresh⟩ := d.fs.mkdirs_data [] (keyOf base file []).dropLast
  have hnone : ∀ sfx ∈ [suffixDownload, suffixDigest], (withParent base file d).fs.fileAt (keyOf base file sfx) = none := by
    intro sfx hsfx
    have hsuffixes : ∀ sfx ∈ [suffixDownload, suffixDigest], sfx ∈ suffixes := by decide
    rw [hfiles]
    by_contra hsome
    refine hfits.not_mem hsfx ?_
    rw [← hs.below]
    exact ⟨(keyOf_below hlisted base (hsuffixes sfx hsfx)).1, Option.isSome_iff_ne_none.2 hsome⟩
  -- no digest is there yet
  have hdigest : TransferJob.removeDigest (Disk.host c {}) (join false base file.name) (withParent base file d) =
      (.ok (), withParent base file d) := by
    rw [removeDigest_eq hlisted,
      FileSystem.node_eq_none (hnone _ (by decide)) (hfits.no_dir (by decide) hhoused)]
  -- the download, then the digest
  obtain ⟨fs₂, hcreate₂, hhoused₂, hat₂, hother₂, hdata₂, hfresh₂⟩ := hhoused.create hdl.1 hdl.2
    (FileSystem.node_eq_none (hnone _ (by decide)) (hfits.no_dir (by decide) hhoused))
    (hfits.parent_isDir (by decide) hhoused)
  rw [show (withParent base file d).fs.fresh = d.fs.fresh from hfresh] at hcreate₂ hat₂ hdata₂ hfresh₂
  have hnone₂ : fs₂.fileAt (keyOf base file suffixDigest) = none := by
    rw [hother₂ _ hne]
    exact hnone _ (by decide)
  obtain ⟨fs₃, hcreate₃, hhoused₃, hat₃, hother₃, hdata₃, hfresh₃⟩ := hhoused₂.create hdg.1 hdg.2
    (FileSystem.node_eq_none hnone₂ (hfits.no_dir (d := { d with fs := fs₂ }) (by decide) hhoused₂))
    (hfits.parent_isDir (d := { d with fs := fs₂ }) (by decide) hhoused₂)
  refine ⟨_, _, createStream_of_some hk hlisted hres hdigest hcreate₂, ?_⟩
  have hfs : ((Disk.host c {}).writeDigest (join false base file.name ++ suffixDigest) job.digest
      { withParent base file d with fs := fs₂ }).fs =
      fs₃.setData fs₂.fresh (overwrite (fs₃.data fs₂.fresh) 0 (c.writeDigest job.digest)) := by
    rw [writeDigest_fs hlisted, hcreate₃]
  generalize (Disk.host c {}).writeDigest (join false base file.name ++ suffixDigest) job.digest
    { withParent base file d with fs := fs₂ } = d' at hfs ⊢
  have hold : ∀ k, k ≠ keyOf base file suffixDownload → k ≠ keyOf base file suffixDigest →
      d'.fs.fileAt k = d.fs.fileAt k := by
    intro k hkl hkg
    rw [hfs, ← hfiles k, ← hother₂ k hkl, ← hother₃ k hkg]
    rfl
  have hatl : d'.fs.fileAt (keyOf base file suffixDownload) = some d.fs.fresh := by
    rw [hfs, ← hat₂, ← hother₃ _ hne.symm]
    rfl
  have hatg : d'.fs.fileAt (keyOf base file suffixDigest) = some (d.fs.fresh + 1) := by
    rw [hfs, ← hfresh₂, ← hat₃]
    rfl
  have hbytes : ∀ i, i ≠ d.fs.fresh + 1 → d'.fs.data i = if i = d.fs.fresh then [] else d.fs.data i := by
    intro i hi
    rw [hfs]
    calc (fs₃.setData fs₂.fresh _).data i = fs₃.data i := Function.update_of_ne (hfresh₂ ▸ hi) ..
      _ = fs₂.data i := by rw [hdata₃, Function.update_of_ne (hfresh₂ ▸ hi)]
      _ = if i = d.fs.fresh then [] else d.fs.data i := by
        rw [hdata₂, Function.update_apply]
        exact if_congr Iff.rfl rfl (congrFun hdata i)
  have hbelow₃ := FileSystem.filesBelow_insert hdg.1 (by rw [hat₃]; rfl) hother₃
  have hbelow₂ := FileSystem.filesBelow_insert hdl.1 (by rw [hat₂]; rfl) hother₂
  have hbelow₁ : (withParent base file d).fs.filesBelow (pathKey base) = d.fs.filesBelow (pathKey base) :=
    FileSystem.filesBelow_congr hfiles
  refine ⟨hfs ▸ hhoused₃.setData .., ?_, fun f hf => ?_, hatl, fun k hk => ?_, ?_, rfl, rfl⟩
  · rw [hfs, ← hs.below, ← hbelow₁, ← hbelow₂, ← hbelow₃]
    rfl
  · have hmem : keyOf base f [] ∈ places base done := ⟨f, hf, rfl⟩
    obtain ⟨i, hi, hbytesi⟩ := FileSystem.contents_eq_some.1 (hs.contents f hf)
    have hlt := hs.housed.numbered _ i hi
    refine FileSystem.contents_eq_some.2 ⟨i, ?_, ?_⟩
    · rw [hold _ (fun heq => hfits.not_mem (by decide) (heq ▸ hmem)) fun heq => hfits.not_mem (by decide) (heq ▸ hmem)]
      exact hi
    · rw [hbytes i (by omega), if_neg (by omega), hbytesi]
  · by_contra hkl
    by_cases hkg : k = keyOf base file suffixDigest
    · rw [hkg, hatg] at hk
      exact Nat.succ_ne_self _ (Option.some.inj hk)
    · rw [hold k hkl hkg] at hk
      exact lt_irrefl _ (hs.housed.numbered k _ hk)
  · show d'.fs.data d.fs.fresh = []
    rw [hbytes _ (Nat.succ_ne_self _).symm, if_pos rfl]

/-- Bytes are added to the download. -/
theorem Underway.write (hu : Underway base content done file bytes h d) (hfits : Fits base content done file)
    (new : Bytes) :
    Underway base content done file (bytes ++ new) { h with pos := h.pos + new.length } (d.write h new) where
  housed := hu.housed.setData ..
  below := hu.below
  contents f hf := by
    obtain ⟨i, hi, hbytes⟩ := FileSystem.contents_eq_some.1 (hu.contents f hf)
    refine FileSystem.contents_eq_some.2 ⟨i, hi, ?_⟩
    rw [← hbytes]
    refine Function.update_of_ne ?_ ..
    rintro rfl
    exact hfits.not_mem (by decide) ⟨f, hf, hu.alone _ hi⟩
  opened := hu.opened
  alone := hu.alone
  data := by
    show Function.update d.fs.data h.ino _ h.ino = _
    rw [Function.update_self, hu.atEnd, hu.data, overwrite_at_end]
  atEnd := by
    rw [hu.atEnd, List.length_append]
  writable := hu.writable

/-- The download and its digest are gone, and the file is there. -/
theorem Underway.modifyTime (hu : Underway base content done file (content file) h d)
    (hfits : Fits base content done file) (hk : Receives base job)
    (hentry : entryAt job.files job.fileNum = some file) :
    Stored base content (done ++ [file]) (job.modifyTime (Disk.host c {}) d) := by
  have hlisted := hfits.listed
  have hres : Resolves base file d := by
    refine resolves_of_way hlisted hu.housed.free (hfits.way hu.below fun k hk => ?_)
    rcases hk with rfl | rfl | hk
    · exact .inr ⟨suffixDigest, by decide, rfl⟩
    · exact .inr ⟨suffixDownload, by decide, rfl⟩
    · exact .inl hk
  have hself := keyOf_below hlisted base (show ([] : Text) ∈ suffixes by decide)
  have hne : keyOf base file suffixDigest ≠ keyOf base file suffixDownload :=
    keyOf_ne hlisted (by decide) (by decide) (by decide)
  have hnel : keyOf base file suffixDownload ≠ keyOf base file [] :=
    keyOf_ne hlisted (by decide) (by decide) (by decide)
  have hneg : keyOf base file suffixDigest ≠ keyOf base file [] :=
    keyOf_ne hlisted (by decide) (by decide) (by decide)
  obtain ⟨i, hdigest⟩ : ∃ i, d.fs.fileAt (keyOf base file suffixDigest) = some i := by
    have hmem : keyOf base file suffixDigest ∈ d.fs.filesBelow (pathKey base) := by
      rw [hu.below]
      exact .inl rfl
    exact Option.isSome_iff_exists.1 hmem.2
  obtain ⟨hremove, hhoused₁, hgone₁, hother₁⟩ := hu.housed.remove hdigest
  have hopened₁ := (hother₁ _ hne.symm).trans hu.opened
  obtain ⟨fs₂, hrename, hhoused₂, hat₂, hgone₂, hother₂, hdata₂⟩ := hhoused₁.rename hopened₁ hnel hself.1 hself.2
    (hfits.no_dir_self (d := { d with fs := d.fs.setNode (keyOf base file suffixDigest) none }) hhoused₁)
    (hfits.parent_isDir (d := { d with fs := d.fs.setNode (keyOf base file suffixDigest) none }) (by decide) hhoused₁)
  have hfs : (job.modifyTime (Disk.host c {}) d).fs = fs₂ := by
    rw [modifyTime_fs hk hentry hlisted hres, hremove, Option.getD_some, hrename, Option.getD_some]
  refine ⟨hfs ▸ hhoused₂, ?_, ?_⟩
  · have hnotl := hfits.not_mem (show suffixDownload ∈ [suffixDownload, suffixDigest] by decide)
    have hnotg : keyOf base file suffixDigest ∉ insert (keyOf base file suffixDownload) (places base done) := by
      rintro (heq | hmem)
      · exact hne heq
      · exact hfits.not_mem (by decide) hmem
    rw [hfs, FileSystem.filesBelow_move hself.1 (by rw [hat₂]; rfl) hgone₂ hother₂,
      FileSystem.filesBelow_erase hgone₁ hother₁, hu.below, Set.insert_sdiff_self_of_notMem hnotg,
      Set.insert_sdiff_self_of_notMem hnotl, places_concat]
  · have hnew : fs₂.contents (keyOf base file []) = some (content file) := by
      refine FileSystem.contents_eq_some.2 ⟨h.ino, hat₂, ?_⟩
      rw [hdata₂]
      exact hu.data
    have hall : ∀ f ∈ done, fs₂.contents (keyOf base f []) = some (content f) := by
      intro f hf
      by_cases heq : keyOf base f [] = keyOf base file []
      · rw [heq, hnew, hfits.same f hf heq]
      · have hmem : keyOf base f [] ∈ places base done := ⟨f, hf, rfl⟩
        obtain ⟨i, hi, hbytes⟩ := FileSystem.contents_eq_some.1 (hu.contents f hf)
        refine FileSystem.contents_eq_some.2 ⟨i, ?_, hdata₂ ▸ hbytes⟩
        rw [hother₂ _ (fun hl => hfits.not_mem (by decide) (hl ▸ hmem)) heq,
          hother₁ _ fun hg => hfits.not_mem (by decide) (hg ▸ hmem)]
        exact hi
    rw [hfs]
    intro f hf
    rcases List.mem_append.1 hf with hf | hf
    · exact hall f hf
    · rw [List.mem_singleton.1 hf, hnew]

/-! ## Block after block -/

variable {files : List FileEntry} {id : Int} {m : Nat} {block : FileTransferBlock}

theorem writeBlock_host (block : FileTransferBlock) (hstream : job.dataStream = some (.fileStream h)) (hwritable : h.writable = true) (d : Disk) :
    ∃ res job', job.writeBlock (Disk.host c {}) block d = (res, job', d.write h (block.payload (Disk.host c {}))) ∧
      job'.dataStream = some (.fileStream { h with pos := h.pos + (block.payload (Disk.host c {})).length }) ∧
      job'.fileNum = job.fileNum ∧ (∀ base files id, Takes base files id job → Takes base files id job') := by
  have hwrite : (DataStream.fileStream h).writeAll (Disk.host c {}) (block.payload (Disk.host c {})) d =
      (.ok (), .fileStream { h with pos := h.pos + (block.payload (Disk.host c {})).length },
        d.write h (block.payload (Disk.host c {}))) := by
    simp only [DataStream.writeAll, Disk.host, hwritable, Bool.not_true, Bool.false_eq_true, if_false]
  unfold TransferJob.writeBlock
  rw [hstream]
  dsimp only
  rw [show (if block.compressed then (Disk.host c {}).decompress block.data else block.data) =
    block.payload (Disk.host c {}) from rfl, hwrite]
  exact ⟨_, _, rfl, rfl, rfl, fun base files id hk => ⟨⟨hk.generic, hk.path⟩, hk.files, hk.id⟩⟩

/-- The job and the disk after blocks, whatever the calls returned. -/
def received {W H : Type} (os : Host W H) (job : TransferJob H) (blocks : List FileTransferBlock) (w : W) :
    TransferJob H × W :=
  blocks.foldl (fun s block => (s.1.write os block s.2).2) (job, w)

theorem received_append {W H : Type} (os : Host W H) (job : TransferJob H) (blocks rest : List FileTransferBlock)
    (w : W) : received os job (blocks ++ rest) w =
      received os (received os job blocks w).1 rest (received os job blocks w).2 :=
  List.foldl_append ..

/-- The blocks of a file after the one that began it. -/
theorem received_more (hfits : Fits base content done file) (hk : Takes base files id job) (hnum : job.fileNum = m)
    (hstream : job.dataStream = some (.fileStream h)) (hentry : entryAt files m = some file)
    {blocks : List FileTransferBlock} (hown : ∀ block ∈ blocks, block.id = id ∧ block.fileNum = m)
    (hu : Underway base content done file bytes h d) :
    ∃ job' h' d', received (Disk.host c {}) job blocks d = (job', d') ∧ Takes base files id job' ∧
      job'.fileNum = m ∧ job'.dataStream = some (.fileStream h') ∧
      Underway base content done file (bytes ++ blocks.flatMap (·.payload (Disk.host c {}))) h' d' := by
  induction blocks generalizing job bytes h d with
  | nil =>
    refine ⟨job, h, d, rfl, hk, hnum, hstream, ?_⟩
    rwa [List.flatMap_nil, List.append_nil]
  | cons block blocks ih =>
    obtain ⟨⟨hid, hnumber⟩, hown⟩ := List.forall_mem_cons.1 hown
    obtain ⟨res, job', hwrite, hstream', hnum', hk'⟩ := writeBlock_host (c := c) block hstream hu.writable d
    rw [← write_continues hk hid (hnumber ▸ hentry) (hnum.trans hnumber.symm) (by rw [hstream]; rfl)] at hwrite
    obtain ⟨job'', h'', d'', hreceived, hmore⟩ := ih (hk' _ _ _ hk) (hnum'.trans hnum) hstream' hown
      (hu.write hfits (block.payload (Disk.host c {})))
    refine ⟨job'', h'', d'', ?_, ?_⟩
    · rw [← hreceived, received, List.foldl_cons, hwrite]
      rfl
    · rwa [List.flatMap_cons, ← List.append_assoc]

/-- The blocks of a file: when they are done, it goes to its name. -/
theorem received_file (hfits : Fits base content done file) (hk : Takes base files id job)
    (hidle : job.dataStream = none ∨ job.fileNum < m) (hentry : entryAt files m = some file)
    {blocks : List FileTransferBlock} (hcarries : CarriesFile (Disk.host c {}) id m (content file) blocks)
    (hs : Stored base content done (job.modifyTime (Disk.host c {}) d)) :
    ∃ job' d', received (Disk.host c {}) job blocks d = (job', d') ∧ Takes base files id job' ∧ job'.fileNum = m ∧
      job'.dataStream.isSome = true ∧ Stored base content (done ++ [file]) (job'.modifyTime (Disk.host c {}) d') := by
  obtain ⟨block, blocks, rfl⟩ := List.exists_cons_of_ne_nil hcarries.ne
  obtain ⟨⟨hid, hnumber⟩, hown⟩ := List.forall_mem_cons.1 hcarries.own
  have hbegin : block.fileNum ≠ job.fileNum ∨ job.dataStream.isNone = true := by
    rcases hidle with hnone | hlt
    · exact .inr (by rw [hnone]; rfl)
    · exact .inl (by omega)
  have hat : Receives base { job with fileNum := block.fileNum } := ⟨hk.generic, hk.path⟩
  obtain ⟨d₁, ino, hcreate, hu⟩ := hs.createStream hfits hat
  have hopen : ({ job with
      fileNum := block.fileNum
      dataStream := some (.fileStream ⟨ino, 0, true⟩) } : TransferJob Handle).dataStream =
        some (.fileStream ⟨ino, 0, true⟩) := rfl
  obtain ⟨res, job', hwrite, hstream', hnum', hk'⟩ := writeBlock_host (c := c) block hopen rfl d₁
  have hfirst : job.write (Disk.host c {}) block d = (res, job', d₁.write ⟨ino, 0, true⟩ (block.payload (Disk.host c {}))) := by
    rw [write_begins hk hid (hnumber ▸ hentry) hbegin, hcreate]
    exact hwrite
  have hk'' := hk' base files id ⟨⟨hk.generic, hk.path⟩, hk.files, hk.id⟩
  obtain ⟨job'', h'', d'', hreceived, hk₂, hnum₂, hstream₂, hu₂⟩ := received_more hfits hk'' (hnum'.trans hnumber)
    hstream' hentry hown (hu.write hfits (block.payload (Disk.host c {})))
  refine ⟨job'', d'', ?_, hk₂, hnum₂, by rw [hstream₂]; rfl, ?_⟩
  · rw [← hreceived, received, List.foldl_cons, hfirst]
    rfl
  · rw [List.nil_append, ← List.flatMap_cons, hcarries.bytes] at hu₂
    exact hu₂.modifyTime hfits hk₂.toReceives (by rw [hk₂.files, hnum₂, hentry])

end Arrival

end FontisRemote.FileTransfer
