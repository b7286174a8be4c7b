import FontisRemote.FileTransfer.Arrival

/-!
# What a collision loses

Whatever is below the base, a file of the list adds one file at most (`received_count`), and none at all if one
of its side files goes where a file before it lies, or above it (`received_collision`).
-/

namespace FontisRemote.FileTransfer

open FontisRemote.Lib

/-- There are so many files below the base at most, not counting the digest that `modify_time` will remove. -/
def Few (base : Text) (n : ℕ∞) (file : FileEntry) (d : Disk) : Prop :=
  (d.fs.filesBelow (pathKey base)).encard ≤ n ∨
    Resolves base file d ∧ (d.fs.filesBelow (pathKey base) \ {keyOf base file suffixDigest}).encard ≤ n

section Count

variable {c : Codec} {base : Text} {file : FileEntry} {n : ℕ∞} {d d' : Disk} {job : TransferJob Handle}

theorem Resolves.mono (hlisted : Listed file.name) (h : Resolves base file d)
    (hnode : ∀ j, j <+: keyOf base file [] → (d.fs.node j).isSome → (d'.fs.node j).isSome)
    (hfile : ∀ j, j <+: keyOf base file [] → (d'.fs.fileAt j).isSome → (d.fs.fileAt j).isSome) :
    Resolves base file d' := by
  rw [← pathKey_file hlisted] at hnode hfile
  exact hlisted.joinValidatedPath_mono h hnode hfile

theorem Few.of_node (hlisted : Listed file.name) (h : Few base n file d) (hnode : d'.fs.node = d.fs.node) :
    Few base n file d' := by
  have hfiles : ∀ k, d'.fs.fileAt k = d.fs.fileAt k := fun k => FileSystem.fileAt_congr (congrFun hnode k)
  have hbelow : d'.fs.filesBelow (pathKey base) = d.fs.filesBelow (pathKey base) :=
    FileSystem.filesBelow_congr hfiles
  refine h.imp (fun hn => hbelow ▸ hn) (fun ⟨hres, hn⟩ => ⟨?_, hbelow ▸ hn⟩)
  exact hres.mono hlisted (fun j _ hj => hnode ▸ hj) fun j _ hj => hfiles j ▸ hj

theorem Few.modifyTime (hlisted : Listed file.name) (h : Few base n file d) (hk : Receives base job)
    (hentry : entryAt job.files job.fileNum = some file) :
    ((job.modifyTime (Disk.host c {}) d).fs.filesBelow (pathKey base)).encard ≤ n := by
  by_cases hres : Resolves base file d
  · rw [modifyTime_fs hk hentry hlisted hres]
    have hremoved := d.fs.filesBelow_removed (keyOf base file suffixDigest) (pathKey base)
    have hfew : (((d.fs.remove (keyOf base file suffixDigest)).getD d.fs).filesBelow (pathKey base)).encard ≤ n := by
      rcases h with hn | ⟨-, hn⟩
      · exact (Set.encard_le_encard (hremoved.trans Set.sdiff_subset)).trans hn
      · exact (Set.encard_le_encard hremoved).trans hn
    generalize (d.fs.remove (keyOf base file suffixDigest)).getD d.fs = fs at hfew ⊢
    cases hrename : fs.rename (keyOf base file suffixDownload) (keyOf base file []) with
    | none => exact hfew
    | some fs' =>
      exact (FileSystem.rename_encard_le (keyOf_below hlisted base (by decide)).1 hrename).trans hfew
  · rw [modifyTime_of_not hk hentry hres]
    exact h.resolve_right fun hright => hres hright.1

/-- How the beginning of an entry ends: it fails and leaves no new file, or the side files are made. -/
theorem createStream_cases (hlisted : Listed file.name) (hk : Receives base job) (d : Disk) :
    (∃ err d', job.createStream (Disk.host c {}) base file d = (.error err, job, d') ∧
        d'.fs.filesBelow (pathKey base) ⊆ d.fs.filesBelow (pathKey base)) ∨
      ∃ ino d', job.createStream (Disk.host c {}) base file d =
          (.ok (), { job with dataStream := some (.fileStream ⟨ino, 0, true⟩) }, d') ∧ Resolves base file d' ∧
        d'.fs.filesBelow (pathKey base) ⊆ insert (keyOf base file suffixDigest)
          (insert (keyOf base file suffixDownload) (d.fs.filesBelow (pathKey base))) ∧
        ∀ sfx ∈ [suffixDownload, suffixDigest], d.fs.node (keyOf base file sfx) ≠ some .dir := by
  by_cases hres : Resolves base file d
  · have hfiles := withParent_fileAt base file d
    have hbelow : (withParent base file d).fs.filesBelow (pathKey base) = d.fs.filesBelow (pathKey base) :=
      FileSystem.filesBelow_congr hfiles
    have hkept : ∀ k n, d.fs.node k = some n → (withParent base file d).fs.node k = some n :=
      fun k n hn => FileSystem.mkdirs_keeps [] _ hn
    have hnotSide : ∀ sfx ∈ suffixes, sfx ≠ [] → ∀ j, j <+: keyOf base file [] → j ≠ keyOf base file sfx := by
      rintro sfx hsfx hne j hj rfl
      exact hne (keyOf_inj hlisted hsfx (by decide) hj)
    have hdigest : (∃ err, TransferJob.removeDigest (Disk.host c {}) (join false base file.name)
          (withParent base file d) = (.error err, withParent base file d)) ∨
        ∃ w, TransferJob.removeDigest (Disk.host c {}) (join false base file.name) (withParent base file d) = (.ok (), w) ∧
          w.fs.filesBelow (pathKey base) ⊆ d.fs.filesBelow (pathKey base) ∧
          (∀ j, j ≠ keyOf base file suffixDigest → w.fs.node j = (withParent base file d).fs.node j) ∧
          (withParent base file d).fs.node (keyOf base file suffixDigest) ≠ some .dir := by
      rw [removeDigest_eq hlisted]
      cases hnode : (withParent base file d).fs.node (keyOf base file suffixDigest) with
      | none => exact .inr ⟨_, rfl, hbelow.le, fun _ _ => rfl, fun hx => (by cases hx)⟩
      | some n =>
        cases n with
        | dir => exact .inl ⟨_, rfl⟩
        | file i =>
          refine .inr ⟨_, rfl, ?_, fun j hj => FileSystem.setNode_of_ne hj, fun hx => (by cases hx)⟩
          refine (FileSystem.filesBelow_erase (FileSystem.fileAt_none_of_none (FileSystem.setNode_self ..)) fun j hj =>
            FileSystem.fileAt_congr (FileSystem.setNode_of_ne hj)).le.trans (Set.sdiff_subset.trans hbelow.le)
    rcases hdigest with ⟨err, herr⟩ | ⟨w, hw, hsub, hother, hnodir⟩
    · exact .inl ⟨err, _, createStream_of_error hk hlisted hres herr, hbelow.le⟩
    · cases hcreate : w.fs.create (keyOf base file suffixDownload) with
      | none => exact .inl ⟨_, w, createStream_of_none hk hlisted hres hw hcreate, hsub⟩
      | some r =>
        obtain ⟨ino, fs⟩ := r
        obtain ⟨-, hothers, hnofile⟩ := FileSystem.create_node hcreate
        have hdigestNode : ∀ j, j ≠ keyOf base file suffixDigest →
            ((Disk.host c {}).writeDigest (join false base file.name ++ suffixDigest) job.digest
              { w with fs := fs }).fs.node j = fs.node j := fun j hj => writeDigest_node hlisted job.digest hj
        have hway : ∀ j, j <+: keyOf base file [] →
            ((Disk.host c {}).writeDigest (join false base file.name ++ suffixDigest) job.digest
              { w with fs := fs }).fs.node j = (withParent base file d).fs.node j := by
          intro j hj
          have hjg := hnotSide suffixDigest (by decide) (by decide) j hj
          rw [hdigestNode j hjg, hothers j (hnotSide suffixDownload (by decide) (by decide) j hj), hother j hjg]
        refine .inr ⟨ino, _, createStream_of_some hk hlisted hres hw hcreate, ?_, ?_, ?_⟩
        · refine hres.mono hlisted (fun j hj hsome => ?_) fun j hj hsome => ?_
          · obtain ⟨n, hn⟩ := Option.isSome_iff_exists.1 hsome
            rw [hway j hj, hkept j n hn]
            rfl
          · rwa [FileSystem.fileAt_congr (hway j hj), hfiles j] at hsome
        · refine (FileSystem.filesBelow_subset_insert hdigestNode).trans (Set.insert_subset_insert ?_)
          exact (FileSystem.filesBelow_subset_insert hothers).trans (Set.insert_subset_insert hsub)
        · have hne : keyOf base file suffixDownload ≠ keyOf base file suffixDigest :=
            keyOf_ne hlisted (by decide) (by decide) (by decide)
          intro sfx hsfx hdir
          rcases List.mem_cons.1 hsfx with rfl | hsfx
          · exact hnofile ((hother _ hne).trans (hkept _ _ hdir))
          · rw [List.mem_singleton.1 hsfx] at hdir
            exact hnodir (hkept _ _ hdir)
  · obtain ⟨err, herr⟩ := createStream_of_not hk hres
    exact .inl ⟨err, d, herr, subset_rfl⟩

end Count

section Received

variable {c : Codec} {base : Text} {files : List FileEntry} {id : Int} {m : Nat} {n : ℕ∞} {file : FileEntry} {d : Disk}
  {job : TransferJob Handle} {block : FileTransferBlock} {blocks : List FileTransferBlock}

/-- The bytes of a block change nothing at any path. -/
theorem writeBlock_node (block : FileTransferBlock) (hk : Takes base files id job) (hsome : job.dataStream.isSome = true) (d : Disk) :
    ∃ res job' d', job.writeBlock (Disk.host c {}) block d = (res, job', d') ∧ Takes base files id job' ∧
      job'.fileNum = job.fileNum ∧ job'.dataStream.isSome = true ∧ d'.fs.node = d.fs.node := by
  obtain ⟨stream, hstream⟩ := Option.isSome_iff_exists.1 hsome
  have hwrite : ∀ bytes, ∃ res stream' d', stream.writeAll (Disk.host c {}) bytes d = (res, stream', d') ∧
      d'.fs.node = d.fs.node := by
    intro bytes
    cases stream with
    | bufStream data pos => exact ⟨_, _, _, rfl, rfl⟩
    | fileStream h =>
      cases hw : h.writable with
      | false =>
        refine ⟨.error "Bad file descriptor (os error 9)", .fileStream h, d, ?_, rfl⟩
        simp only [DataStream.writeAll, Disk.host, hw, Bool.not_false, if_true]
      | true =>
        refine ⟨.ok (), .fileStream { h with pos := h.pos + bytes.length }, d.write h bytes, ?_, rfl⟩
        simp only [DataStream.writeAll, Disk.host, hw, Bool.not_true, Bool.false_eq_true, if_false]
  unfold TransferJob.writeBlock
  rw [hstream]
  dsimp only
  obtain ⟨res, stream', d', heq, hnode⟩ :=
    hwrite (if block.compressed then (Disk.host c {}).decompress block.data else block.data)
  rw [heq]
  rcases res with err | ⟨⟩
  · exact ⟨_, _, _, rfl, ⟨⟨hk.generic, hk.path⟩, hk.files, hk.id⟩, rfl, rfl, hnode⟩
  · exact ⟨_, _, _, rfl, ⟨⟨hk.generic, hk.path⟩, hk.files, hk.id⟩, rfl, rfl, hnode⟩

/-- Nor do the blocks of a file that go on. -/
theorem received_node (hk : Takes base files id job) (hnum : job.fileNum = m) (hsome : job.dataStream.isSome = true)
    (hentry : entryAt files m = some file) (hown : ∀ block ∈ blocks, block.id = id ∧ block.fileNum = m) :
    ∃ job' d', received (Disk.host c {}) job blocks d = (job', d') ∧ Takes base files id job' ∧ job'.fileNum = m ∧
      job'.dataStream.isSome = true ∧ d'.fs.node = d.fs.node := by
  induction blocks generalizing job d with
  | nil => exact ⟨job, d, rfl, hk, hnum, hsome, rfl⟩
  | cons block blocks ih =>
    obtain ⟨⟨hid, hnumber⟩, hown⟩ := List.forall_mem_cons.1 hown
    obtain ⟨res, job', d', hwrite, hk', hnum', hsome', hnode⟩ := writeBlock_node (c := c) block hk hsome d
    rw [← write_continues hk hid (hnumber ▸ hentry) (hnum.trans hnumber.symm) hsome] at hwrite
    obtain ⟨job'', d'', hreceived, hk'', hnum'', hsome'', hnode'⟩ := ih (d := d') hk' (hnum'.trans hnum) hsome' hown
    refine ⟨job'', d'', ?_, hk'', hnum'', hsome'', hnode'.trans hnode⟩
    rw [← hreceived, received, List.foldl_cons, hwrite]
    rfl

variable (hlisted : Listed file.name) (hk : Takes base files id job) (hentry : entryAt files m = some file)

include hlisted hk hentry

/-- The first block of a file fails and leaves no new file, or it makes the side files. -/
theorem write_first (hid : block.id = id) (hnumber : block.fileNum = m)
    (hbegin : block.fileNum ≠ job.fileNum ∨ job.dataStream.isNone = true) :
    ∃ res job' d', job.write (Disk.host c {}) block d = (res, job', d') ∧ Takes base files id job' ∧ job'.fileNum = m ∧
      (job'.dataStream = job.dataStream ∧
          d'.fs.filesBelow (pathKey base) ⊆ (job.modifyTime (Disk.host c {}) d).fs.filesBelow (pathKey base) ∨
        job'.dataStream.isSome = true ∧ Resolves base file d' ∧
          d'.fs.filesBelow (pathKey base) ⊆ insert (keyOf base file suffixDigest)
            (insert (keyOf base file suffixDownload)
              ((job.modifyTime (Disk.host c {}) d).fs.filesBelow (pathKey base))) ∧
          ∀ sfx ∈ [suffixDownload, suffixDigest],
            (job.modifyTime (Disk.host c {}) d).fs.node (keyOf base file sfx) ≠ some .dir) := by
  have hat : Receives base { job with fileNum := block.fileNum } := ⟨hk.generic, hk.path⟩
  have hkept : Takes base files id { job with fileNum := block.fileNum } := ⟨hat, hk.files, hk.id⟩
  rw [write_begins hk hid (hnumber ▸ hentry) hbegin]
  rcases createStream_cases (c := c) hlisted hat (job.modifyTime (Disk.host c {}) d) with
    ⟨err, d₁, hfailed, hsub⟩ | ⟨ino, d₁, hmade, hres, hsub, hdir⟩
  · rw [hfailed]
    exact ⟨_, _, _, rfl, hkept, hnumber, .inl ⟨rfl, hsub⟩⟩
  · rw [hmade]
    have hopen : Takes base files id { job with
        fileNum := block.fileNum
        dataStream := some (.fileStream ⟨ino, 0, true⟩) } := ⟨⟨hk.generic, hk.path⟩, hk.files, hk.id⟩
    obtain ⟨res, job', d', hwrite, hk', hnum', hsome, hnode⟩ := writeBlock_node (c := c) block hopen rfl d₁
    have hfiles : ∀ k, d'.fs.fileAt k = d₁.fs.fileAt k := fun k => FileSystem.fileAt_congr (congrFun hnode k)
    refine ⟨res, job', d', hwrite, hk', hnum'.trans hnumber, .inr ⟨hsome, ?_, ?_, hdir⟩⟩
    · exact hres.mono hlisted (fun j _ hj => hnode ▸ hj) fun j _ hj => hfiles j ▸ hj
    · rwa [FileSystem.filesBelow_congr hfiles]

/-- One file more at most is there with the blocks of a file. -/
theorem received_count (hbegin : (m : Int) ≠ job.fileNum ∨ job.dataStream.isNone = true)
    (hn : ((job.modifyTime (Disk.host c {}) d).fs.filesBelow (pathKey base)).encard ≤ n) (hne : blocks ≠ [])
    (hown : ∀ block ∈ blocks, block.id = id ∧ block.fileNum = m) :
    ∃ job' d', received (Disk.host c {}) job blocks d = (job', d') ∧ Takes base files id job' ∧ job'.fileNum = m ∧
      Few base (n + 1) file d' := by
  induction blocks generalizing job d with
  | nil => exact absurd rfl hne
  | cons block blocks ih =>
    obtain ⟨⟨hid, hnumber⟩, hown⟩ := List.forall_mem_cons.1 hown
    obtain ⟨res, job₁, d₁, hwrite, hk₁, hnum₁, hcase⟩ :=
      write_first (c := c) (d := d) hlisted hk hentry hid hnumber (hnumber ▸ hbegin)
    have hreceived : received (Disk.host c {}) job (block :: blocks) d = received (Disk.host c {}) job₁ blocks d₁ := by
      rw [received, List.foldl_cons, hwrite]
      rfl
    rw [hreceived]
    have hon : job₁.dataStream.isSome = true → Few base (n + 1) file d₁ → ∃ job' d',
        received (Disk.host c {}) job₁ blocks d₁ = (job', d') ∧ Takes base files id job' ∧ job'.fileNum = m ∧
          Few base (n + 1) file d' := by
      intro hsome hfew
      obtain ⟨job', d', hmore, hk', hnum', -, hnode⟩ := received_node (c := c) (d := d₁) hk₁ hnum₁ hsome hentry hown
      exact ⟨job', d', hmore, hk', hnum', hfew.of_node hlisted hnode⟩
    rcases hcase with ⟨hsame, hsub⟩ | ⟨hsome, hres, hsub, -⟩
    · have hfew := (Set.encard_le_encard hsub).trans hn
      cases hstream : job₁.dataStream with
      | some stream => exact hon (by rw [hstream]; rfl) (.inl (hfew.trans le_self_add))
      | none =>
        by_cases hrest : blocks = []
        · subst hrest
          exact ⟨job₁, d₁, rfl, hk₁, hnum₁, .inl (hfew.trans le_self_add)⟩
        · -- nothing is open yet, so the next block begins the file again
          refine ih hk₁ (.inr (by rw [hstream]; rfl)) ?_ hrest hown
          have hleft : Few base n file d₁ := .inl hfew
          exact hleft.modifyTime hlisted hk₁.toReceives (by rw [hk₁.files, hnum₁, hentry])
    · refine hon hsome (.inr ⟨hres, ?_⟩)
      have hdrop : d₁.fs.filesBelow (pathKey base) \ {keyOf base file suffixDigest} ⊆
          insert (keyOf base file suffixDownload)
            ((job.modifyTime (Disk.host c {}) d).fs.filesBelow (pathKey base)) := by
        rintro k ⟨hmem, hdigest⟩
        exact (hsub hmem).resolve_left hdigest
      exact (Set.encard_le_encard hdrop).trans ((Set.encard_insert_le _ _).trans (add_le_add hn le_rfl))

/-- None is there more if one of its side files goes where a file lies, or where a directory is. -/
theorem received_collision (hnum : (m : Int) ≠ job.fileNum) (hsome : job.dataStream.isSome = true)
    (hn : ((job.modifyTime (Disk.host c {}) d).fs.filesBelow (pathKey base)).encard ≤ n)
    {sfx : Text} (hsfx : sfx ∈ [suffixDownload, suffixDigest])
    (hcollides : keyOf base file sfx ∈ (job.modifyTime (Disk.host c {}) d).fs.filesBelow (pathKey base) ∨
      (job.modifyTime (Disk.host c {}) d).fs.node (keyOf base file sfx) = some .dir) (hne : blocks ≠ [])
    (hown : ∀ block ∈ blocks, block.id = id ∧ block.fileNum = m) :
    ∃ job' d', received (Disk.host c {}) job blocks d = (job', d') ∧ Takes base files id job' ∧ job'.fileNum = m ∧
      Few base n file d' := by
  obtain ⟨block, blocks, rfl⟩ := List.exists_cons_of_ne_nil hne
  obtain ⟨⟨hid, hnumber⟩, hown⟩ := List.forall_mem_cons.1 hown
  obtain ⟨res, job₁, d₁, hwrite, hk₁, hnum₁, hcase⟩ :=
    write_first (c := c) (d := d) hlisted hk hentry hid hnumber (.inl (hnumber ▸ hnum))
  have hopen : job₁.dataStream.isSome = true := by
    rcases hcase with ⟨hsame, -⟩ | ⟨hopen, -⟩
    · rwa [hsame]
    · exact hopen
  obtain ⟨job', d', hmore, hk', hnum', -, hnode⟩ := received_node (c := c) (d := d₁) hk₁ hnum₁ hopen hentry hown
  refine ⟨job', d', ?_, hk', hnum', Few.of_node hlisted ?_ hnode⟩
  · rw [← hmore, received, List.foldl_cons, hwrite]
    rfl
  rcases hcase with ⟨-, hsub⟩ | ⟨-, hres, hsub, hdir⟩
  · exact .inl ((Set.encard_le_encard hsub).trans hn)
  · have hthere := hcollides.resolve_right (hdir sfx hsfx)
    have hsides : keyOf base file suffixDownload ≠ keyOf base file suffixDigest :=
      keyOf_ne hlisted (by decide) (by decide) (by decide)
    refine .inr ⟨hres, ?_⟩
    generalize (job.modifyTime (Disk.host c {}) d).fs.filesBelow (pathKey base) = there at hn hsub hthere
    have hdrop : d₁.fs.filesBelow (pathKey base) \ {keyOf base file suffixDigest} ⊆
        insert (keyOf base file suffixDownload) (there \ {keyOf base file suffixDigest}) := by
      rintro k ⟨hmem, hdigest⟩
      rcases hsub hmem with rfl | rfl | hk
      · exact absurd rfl hdigest
      · exact .inl rfl
      · exact .inr ⟨hk, hdigest⟩
    refine (Set.encard_le_encard hdrop).trans (le_trans ?_ hn)
    rcases List.mem_cons.1 hsfx with rfl | hsfx
    · -- the download goes over a file that is there
      rw [Set.insert_eq_of_mem (show _ ∈ there \ {keyOf base file suffixDigest} from ⟨hthere, hsides⟩)]
      exact Set.encard_le_encard Set.sdiff_subset
    · -- the digest that is removed was a file of its own
      obtain rfl := List.mem_singleton.1 hsfx
      calc (insert (keyOf base file suffixDownload) (there \ {keyOf base file suffixDigest})).encard
          ≤ (there \ {keyOf base file suffixDigest}).encard + 1 := Set.encard_insert_le _ _
        _ = there.encard := Set.encard_sdiff_singleton_add_one hthere

end Received

end FontisRemote.FileTransfer
