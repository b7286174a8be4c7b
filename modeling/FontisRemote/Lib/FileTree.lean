import FontisRemote.Lib.FileSystem
import Mathlib.Data.Set.Card

/-!
# What the operations leave

What is at a path after each operation of a `FileSystem`, and how many files there are below a directory: an
operation that makes a file adds one at most, and the others add none.
-/

namespace FontisRemote.Lib.FileSystem

variable {N β : Type} {fs fs' : FileSystem N β} {k j src dst base : List N}

theorem fileAt_eq_some {ino : Nat} : fs.fileAt k = some ino ↔ fs.node k = some (.file ino) := by
  unfold fileAt
  split
  · rename_i i hi
    rw [hi]
    exact ⟨fun h => by cases h; rfl, fun h => by cases h; rfl⟩
  · rename_i hno
    exact ⟨fun h => (by cases h), fun h => absurd h (hno ino)⟩

theorem fileAt_congr (h : fs'.node k = fs.node k) : fs'.fileAt k = fs.fileAt k := by
  rw [fileAt, fileAt, h]

theorem fileAt_none_of_dir (h : fs.node k = some .dir) : fs.fileAt k = none := by
  rw [fileAt, h]

theorem fileAt_none_of_none (h : fs.node k = none) : fs.fileAt k = none := by
  rw [fileAt, h]

theorem node_eq_none (hfile : fs.fileAt k = none) (hdir : fs.node k ≠ some .dir) : fs.node k = none := by
  cases hnode : fs.node k with
  | none => rfl
  | some n =>
    cases n with
    | dir => exact absurd hnode hdir
    | file ino =>
      rw [fileAt_eq_some.2 hnode] at hfile
      cases hfile

theorem contents_eq_some {bytes : List β} :
    fs.contents k = some bytes ↔ ∃ ino, fs.fileAt k = some ino ∧ fs.data ino = bytes :=
  Option.map_eq_some_iff

/-- The paths below one, that one included, at which there is a file. -/
def filesBelow (fs : FileSystem N β) (base : List N) : Set (List N) := {k | base <+: k ∧ (fs.fileAt k).isSome}

theorem filesBelow_congr (h : ∀ k, fs'.fileAt k = fs.fileAt k) : fs'.filesBelow base = fs.filesBelow base :=
  Set.ext fun k => and_congr_right fun _ => by rw [h k]

theorem filesBelow_insert (hk : base <+: k) (hsome : (fs'.fileAt k).isSome)
    (hother : ∀ j, j ≠ k → fs'.fileAt j = fs.fileAt j) : fs'.filesBelow base = insert k (fs.filesBelow base) := by
  ext j
  by_cases hj : j = k
  · subst hj
    exact ⟨fun _ => .inl rfl, fun _ => ⟨hk, hsome⟩⟩
  · rw [Set.mem_insert_iff, or_iff_right hj]
    exact and_congr_right fun _ => by rw [hother j hj]

/-- Where only one path changed, there is one file more at most. -/
theorem filesBelow_subset_insert (hother : ∀ j, j ≠ k → fs'.node j = fs.node j) :
    fs'.filesBelow base ⊆ insert k (fs.filesBelow base) := by
  rintro j ⟨hj, hfile⟩
  by_cases hne : j = k
  · exact .inl hne
  · rw [fileAt_congr (hother j hne)] at hfile
    exact .inr ⟨hj, hfile⟩

theorem filesBelow_erase (hnone : fs'.fileAt k = none) (hother : ∀ j, j ≠ k → fs'.fileAt j = fs.fileAt j) :
    fs'.filesBelow base = fs.filesBelow base \ {k} := by
  ext j
  by_cases hj : j = k
  · subst hj
    refine ⟨fun hmem => ?_, fun hmem => absurd rfl hmem.2⟩
    have hsome := hmem.2
    rw [hnone] at hsome
    cases hsome
  · have hiff : j ∈ fs'.filesBelow base ↔ j ∈ fs.filesBelow base := and_congr_right fun _ => by rw [hother j hj]
    exact ⟨fun hmem => ⟨hiff.1 hmem, hj⟩, fun hmem => hiff.2 hmem.1⟩

theorem filesBelow_move (hdst : base <+: dst) (hsome : (fs'.fileAt dst).isSome) (hnone : fs'.fileAt src = none)
    (hother : ∀ j, j ≠ src → j ≠ dst → fs'.fileAt j = fs.fileAt j) :
    fs'.filesBelow base = insert dst (fs.filesBelow base \ {src}) := by
  ext j
  by_cases hjd : j = dst
  · subst hjd
    exact ⟨fun _ => .inl rfl, fun _ => ⟨hdst, hsome⟩⟩
  · rw [Set.mem_insert_iff, or_iff_right hjd]
    by_cases hjs : j = src
    · subst hjs
      refine ⟨fun hmem => ?_, fun hmem => absurd rfl hmem.2⟩
      have hsome := hmem.2
      rw [hnone] at hsome
      cases hsome
    · have hiff : j ∈ fs'.filesBelow base ↔ j ∈ fs.filesBelow base :=
        and_congr_right fun _ => by rw [hother j hjs hjd]
      exact ⟨fun hmem => ⟨hiff.1 hmem, hjs⟩, fun hmem => hiff.2 hmem.1⟩

variable [DecidableEq N]

@[simp] theorem setNode_self (fs : FileSystem N β) (k : List N) (n : Option Node) : (fs.setNode k n).node k = n :=
  Function.update_self ..

theorem setNode_of_ne {n : Option Node} (h : j ≠ k) : (fs.setNode k n).node j = fs.node j :=
  Function.update_of_ne h ..

/-! ## Directories -/

/-- Directories are made where nothing was, each at a beginning of the path. -/
theorem mkdirs_node (fs : FileSystem N β) (before rest k : List N) :
    (fs.mkdirs before rest).node k = fs.node k ∨
      fs.node k = none ∧ (fs.mkdirs before rest).node k = some .dir ∧ ∃ p, p <+: rest ∧ p ≠ [] ∧ k = before ++ p := by
  induction rest generalizing fs before with
  | nil => exact .inl rfl
  | cons name rest ih =>
    have hlater : ∀ {x : Prop}, (x ∧ ∃ p, p <+: rest ∧ p ≠ [] ∧ k = before ++ [name] ++ p) →
        x ∧ ∃ p, p <+: name :: rest ∧ p ≠ [] ∧ k = before ++ p := by
      rintro x ⟨hx, p, hp, -, hk⟩
      refine ⟨hx, name :: p, ?_, List.cons_ne_nil _ _, by rw [hk, List.append_assoc]; rfl⟩
      exact List.cons_prefix_cons.2 ⟨rfl, hp⟩
    unfold mkdirs
    split
    · exact .inl rfl
    · rcases ih fs (before ++ [name]) with h | ⟨hnone, h⟩
      · exact .inl h
      · exact .inr ⟨hnone, hlater h⟩
    · rename_i habsent
      by_cases hk : k = before ++ [name]
      · refine .inr ⟨hk ▸ habsent, ?_, [name], List.cons_prefix_cons.2 ⟨rfl, List.nil_prefix⟩,
          List.cons_ne_nil _ _, hk⟩
        rcases ih (fs.setNode (before ++ [name]) (some .dir)) (before ++ [name]) with h | ⟨hnone, -⟩
        · rw [h, hk, setNode_self]
        · rw [hk, setNode_self] at hnone
          cases hnone
      · rcases ih (fs.setNode (before ++ [name]) (some .dir)) (before ++ [name]) with h | ⟨hnone, h⟩
        · exact .inl (h.trans (setNode_of_ne hk))
        · exact .inr ⟨(setNode_of_ne hk).symm.trans hnone, hlater h⟩

theorem mkdirs_keeps {n : Node} (before rest : List N) (h : fs.node k = some n) :
    (fs.mkdirs before rest).node k = some n := by
  rcases fs.mkdirs_node before rest k with hsame | ⟨hnone, -⟩
  · exact hsame.trans h
  · rw [h] at hnone
    cases hnone

theorem mkdirs_fileAt (fs : FileSystem N β) (before rest k : List N) :
    (fs.mkdirs before rest).fileAt k = fs.fileAt k := by
  rcases fs.mkdirs_node before rest k with h | ⟨hnone, hdir, -⟩
  · exact fileAt_congr h
  · rw [fileAt_none_of_dir hdir, fileAt_none_of_none hnone]

theorem mkdirs_data (fs : FileSystem N β) (before rest : List N) :
    (fs.mkdirs before rest).data = fs.data ∧ (fs.mkdirs before rest).fresh = fs.fresh := by
  induction rest generalizing fs before with
  | nil => exact ⟨rfl, rfl⟩
  | cons name rest ih =>
    unfold mkdirs
    split
    · exact ⟨rfl, rfl⟩
    · exact ih fs (before ++ [name])
    · exact ih (fs.setNode (before ++ [name]) (some .dir)) (before ++ [name])

/-- With no file in the way all of them are there. -/
theorem mkdirs_dir {before rest : List N} (hfree : ∀ p, p <+: rest → p ≠ [] → fs.fileAt (before ++ p) = none) :
    ∀ p, p <+: rest → p ≠ [] → (fs.mkdirs before rest).node (before ++ p) = some .dir := by
  induction rest generalizing fs before with
  | nil => exact fun p hp hne => absurd (List.prefix_nil.1 hp) hne
  | cons name rest ih =>
    intro p hp hne
    have hhead : [name] <+: name :: rest := List.cons_prefix_cons.2 ⟨rfl, List.nil_prefix⟩
    have hshift : ∀ q : List N, before ++ [name] ++ q = before ++ (name :: q) := fun q => by simp
    have hrest : ∀ (fs' : FileSystem N β), fs'.node (before ++ [name]) = some .dir →
        (∀ q, q <+: rest → q ≠ [] → fs'.fileAt (before ++ [name] ++ q) = none) →
        (fs'.mkdirs (before ++ [name]) rest).node (before ++ p) = some .dir := by
      intro fs' hdir hfree'
      obtain ⟨n, q, rfl⟩ := List.exists_cons_of_ne_nil hne
      obtain ⟨rfl, hq⟩ := List.cons_prefix_cons.1 hp
      rw [← hshift q]
      by_cases hnil : q = []
      · rw [hnil, List.append_nil]
        rcases fs'.mkdirs_node (before ++ [n]) rest (before ++ [n]) with h | ⟨-, h, -⟩
        · rw [h, hdir]
        · exact h
      · exact ih hfree' q hq hnil
    unfold mkdirs
    split
    · rename_i ino hfile
      have hno := hfree [name] hhead (List.cons_ne_nil _ _)
      rw [fileAt_eq_some.2 hfile] at hno
      cases hno
    · rename_i hdir
      refine hrest fs hdir fun q hq hne => ?_
      rw [hshift]
      exact hfree _ (List.cons_prefix_cons.2 ⟨rfl, hq⟩) (List.cons_ne_nil _ _)
    · refine hrest _ (setNode_self ..) fun q hq hne => ?_
      have hother : before ++ [name] ++ q ≠ before ++ [name] := fun heq =>
        hne (List.append_right_eq_self.1 heq)
      rw [fileAt_congr (setNode_of_ne hother), hshift]
      exact hfree _ (List.cons_prefix_cons.2 ⟨rfl, hq⟩) (List.cons_ne_nil _ _)

/-! ## How many files there are -/

theorem remove_eq_some (h : fs.remove k = some fs') : fs' = fs.setNode k none ∧ (fs.fileAt k).isSome := by
  unfold remove at h
  split at h
  · rename_i ino hfile
    rw [fileAt_eq_some.2 hfile]
    exact ⟨(Option.some.inj h).symm, rfl⟩
  · cases h

theorem filesBelow_remove (h : fs.remove k = some fs') : fs'.filesBelow base ⊆ fs.filesBelow base \ {k} := by
  obtain ⟨rfl, -⟩ := remove_eq_some h
  rintro j ⟨hj, hfile⟩
  have hne : j ≠ k := by
    rintro rfl
    rw [fileAt_none_of_none (setNode_self ..)] at hfile
    cases hfile
  rw [fileAt_congr (setNode_of_ne hne)] at hfile
  exact ⟨⟨hj, hfile⟩, hne⟩

/-- No file is at a path where one was removed, or none could be. -/
theorem filesBelow_removed (fs : FileSystem N β) (k base : List N) :
    ((fs.remove k).getD fs).filesBelow base ⊆ fs.filesBelow base \ {k} := by
  cases h : fs.remove k with
  | some fs' => exact filesBelow_remove h
  | none =>
    rw [Option.getD_none]
    refine fun j hj => ⟨hj, ?_⟩
    rintro rfl
    obtain ⟨ino, hino⟩ := Option.isSome_iff_exists.1 hj.2
    rw [remove, fileAt_eq_some.1 hino] at h
    cases h

/-- What is at the paths after a file was opened for writing or made. -/
theorem create_node {ino : Nat} (h : fs.create k = some (ino, fs')) :
    fs'.node k = some (.file ino) ∧ (∀ j, j ≠ k → fs'.node j = fs.node j) ∧ fs.node k ≠ some .dir := by
  obtain ⟨⟨i, fs₁⟩, hopen, heq⟩ := Option.map_eq_some_iff.1 h
  cases heq
  unfold openCreate at hopen
  split at hopen
  · rename_i hfile
    cases hopen
    exact ⟨hfile, fun _ _ => rfl, by rw [hfile]; exact fun h => by cases h⟩
  · cases hopen
  · rename_i hnone
    split_ifs at hopen
    cases hopen
    exact ⟨setNode_self .., fun j hj => setNode_of_ne hj, by rw [hnone]; exact fun h => by cases h⟩

/-- A file that was moved is one file still. -/
theorem moveFile_encard_le {ino : Nat} (hsrc : base <+: src) (hino : fs.node src = some (.file ino)) :
    (((fs.setNode src none).setNode dst (some (.file ino))).filesBelow base).encard ≤ (fs.filesBelow base).encard := by
  have hkept : ∀ k, k ≠ dst → k ∈ ((fs.setNode src none).setNode dst (some (.file ino))).filesBelow base →
      k ≠ src ∧ k ∈ fs.filesBelow base := by
    rintro k hkd ⟨hk, hfile⟩
    rw [fileAt_congr (setNode_of_ne hkd)] at hfile
    have hks : k ≠ src := by
      rintro rfl
      rw [fileAt_none_of_none (setNode_self ..)] at hfile
      cases hfile
    rw [fileAt_congr (setNode_of_ne hks)] at hfile
    exact ⟨hks, hk, hfile⟩
  refine Set.encard_le_encard_of_injOn (f := fun k => if k = dst then src else k) ?_ ?_
  · intro k hk
    show (if k = dst then src else k) ∈ _
    split_ifs with hkd
    · exact ⟨hsrc, by rw [fileAt_eq_some.2 hino]; rfl⟩
    · exact (hkept k hkd hk).2
  · intro k hk k' hk' heq
    dsimp only at heq
    split_ifs at heq with hkd hkd' hkd'
    · rw [hkd, hkd']
    · exact absurd heq.symm (hkept k' hkd' hk').1
    · exact absurd heq (hkept k hkd hk).1
    · exact heq

/-- So is each file of a directory that was moved. -/
theorem moveDir_encard_le (hsrc : base <+: src) (hnode : ∀ k, fs'.node k =
      if dst <+: k then fs.node (src ++ k.drop dst.length) else if src <+: k then none else fs.node k) :
    (fs'.filesBelow base).encard ≤ (fs.filesBelow base).encard := by
  have hkept : ∀ k, ¬ dst <+: k → k ∈ fs'.filesBelow base → ¬ src <+: k ∧ k ∈ fs.filesBelow base := by
    rintro k hkd ⟨hk, hfile⟩
    have hn := hnode k
    rw [if_neg hkd] at hn
    split_ifs at hn with hks
    · rw [fileAt_none_of_none hn] at hfile
      cases hfile
    · rw [fileAt_congr hn] at hfile
      exact ⟨hks, hk, hfile⟩
  refine Set.encard_le_encard_of_injOn (f := fun k => if dst <+: k then src ++ k.drop dst.length else k) ?_ ?_
  · intro k hk
    show (if dst <+: k then src ++ k.drop dst.length else k) ∈ _
    split_ifs with hkd
    · refine ⟨hsrc.trans (List.prefix_append _ _), ?_⟩
      have hn := hnode k
      rw [if_pos hkd] at hn
      have hfile := hk.2
      unfold fileAt at hfile ⊢
      rwa [hn] at hfile
    · exact (hkept k hkd hk).2
  · intro k hk k' hk' heq
    dsimp only at heq
    split_ifs at heq with hkd hkd' hkd'
    · obtain ⟨t, rfl⟩ := hkd
      obtain ⟨t', rfl⟩ := hkd'
      rw [List.drop_left, List.drop_left] at heq
      rw [List.append_cancel_left heq]
    · exact absurd (heq ▸ List.prefix_append src _) (hkept k' hkd' hk').1
    · exact absurd (heq ▸ List.prefix_append src _) (hkept k hkd hk).1
    · exact heq

theorem rename_encard_le (hsrc : base <+: src) (h : fs.rename src dst = some fs') :
    (fs'.filesBelow base).encard ≤ (fs.filesBelow base).encard := by
  unfold rename at h
  split at h
  · rename_i ino _ hs hd
    cases h
    exact moveFile_encard_le hsrc hs
  · rename_i ino hs hd
    split_ifs at h
    cases h
    exact moveFile_encard_le hsrc hs
  · split_ifs at h
    cases h
    exact moveDir_encard_le hsrc fun k => rfl
  · cases h

/-! ## Directories on the way -/

/-- Every file has a number that has been given out. -/
def Numbered (fs : FileSystem N β) : Prop := ∀ k ino, fs.fileAt k = some ino → ino < fs.fresh

/-- A directory below which the directories are those on the way to some paths. -/
structure Housed (fs : FileSystem N β) (base : List N) (aims : Set (List N)) : Prop where
  root : fs.isDir base
  free : ∀ j, j <+: base → fs.fileAt j = none
  numbered : fs.Numbered
  dirs : ∀ j, base <+: j → j ≠ base → fs.node j = some .dir → ∃ a ∈ aims, j <+: a ∧ j ≠ a
  above : ∀ a ∈ aims, ∀ j, base <+: j → j <+: a → j ≠ a → fs.isDir j

section Housed

variable {aims : Set (List N)} {ino : Nat}

omit [DecidableEq N] in
theorem not_prefix_base (hk : base <+: k) (hne : k ≠ base) : ¬ k <+: base := fun h =>
  hne (h.eq_of_length (le_antisymm h.length_le hk.length_le))

omit [DecidableEq N] in
/-- What is on the way stays while no directory comes or goes. -/
theorem Housed.of_dirs (h : Housed fs base aims) (hdir : ∀ j, fs'.node j = some .dir ↔ fs.node j = some .dir)
    (hfree : ∀ j, j <+: base → fs'.fileAt j = none) (hnumbered : fs'.Numbered) : Housed fs' base aims where
  root := h.root.imp_right (hdir base).2
  free := hfree
  numbered := hnumbered
  dirs j hj hne hnode := h.dirs j hj hne ((hdir j).1 hnode)
  above a ha j hj hja hne := (h.above a ha j hj hja hne).imp_right (hdir j).2

omit [DecidableEq N] in
theorem Housed.setData (h : Housed fs base aims) (i : Nat) (bytes : List β) : Housed (fs.setData i bytes) base aims :=
  h.of_dirs (fun _ => Iff.rfl) h.free h.numbered

/-- Make the directories for one path more. -/
theorem Housed.mkdirs (h : Housed fs base aims) (hk : base <+: k)
    (hfree : ∀ j, base <+: j → j <+: k → j ≠ k → fs.fileAt j = none) :
    Housed (fs.mkdirs [] k.dropLast) base (insert k aims) := by
  have hdropLast : ∀ j, j <+: k → j ≠ k → j <+: k.dropLast := by
    rintro j ⟨t, rfl⟩ hne
    have ht : t ≠ [] := fun ht => hne (by rw [ht, List.append_nil])
    rw [List.dropLast_append_of_ne_nil ht]
    exact List.prefix_append ..
  have hkept : ∀ j, fs.isDir j → (fs.mkdirs [] k.dropLast).isDir j := by
    rintro j (hj | hj)
    · exact .inl hj
    · exact .inr (mkdirs_keeps [] _ hj)
  have hway : ∀ p, p <+: k.dropLast → p ≠ [] → fs.fileAt ([] ++ p) = none := by
    intro p hp hne
    have hpk : p <+: k := hp.trans (List.dropLast_prefix k)
    rw [List.nil_append]
    rcases List.prefix_or_prefix_of_prefix hpk hk with hpb | hbp
    · exact h.free p hpb
    · refine hfree p hbp hpk ?_
      rintro rfl
      have hlength := hp.length_le
      have hpos := List.length_pos_of_ne_nil hne
      rw [List.length_dropLast] at hlength
      omega
  refine ⟨hkept base h.root, fun j hj => ?_, fun j ino hj => ?_, fun j hj hne hnode => ?_,
    fun a ha j hj hja hne => ?_⟩
  · rw [mkdirs_fileAt, h.free j hj]
  · rw [mkdirs_fileAt] at hj
    rw [(fs.mkdirs_data [] k.dropLast).2]
    exact h.numbered j ino hj
  · rcases fs.mkdirs_node [] k.dropLast j with hsame | ⟨-, -, p, hp, hpne, hjp⟩
    · obtain ⟨a, ha, hja⟩ := h.dirs j hj hne (hsame.symm.trans hnode)
      exact ⟨a, .inr ha, hja⟩
    · obtain rfl : p = j := hjp.symm
      have hpk : p <+: k := hp.trans (List.dropLast_prefix k)
      refine ⟨k, .inl rfl, hpk, ?_⟩
      rintro rfl
      have hlength := hp.length_le
      have hpos := List.length_pos_of_ne_nil hpne
      rw [List.length_dropLast] at hlength
      omega
  · rcases ha with rfl | ha
    · by_cases hnil : j = []
      · exact .inl hnil
      · exact .inr (mkdirs_dir hway j (hdropLast j hja hne) hnil)
    · exact hkept j (h.above a ha j hj hja hne)

/-- Make a file where nothing is. -/
theorem create_of_none (hnone : fs.node k = none) (hne : k ≠ []) (hparent : fs.isDir k.dropLast) :
    ∃ fs', fs.create k = some (fs.fresh, fs') ∧ fs'.node k = some (.file fs.fresh) ∧
      (∀ j, j ≠ k → fs'.node j = fs.node j) ∧ fs'.data = Function.update fs.data fs.fresh [] ∧
      fs'.fresh = fs.fresh + 1 := by
  refine ⟨(fs.newFile k).setData fs.fresh [], ?_, setNode_self .., fun j hj => setNode_of_ne hj, ?_, rfl⟩
  · rw [create, openCreate, hnone]
    simp only [hne, hparent, ne_eq, not_false_eq_true, and_self, if_true, Option.map_some]
  · exact Function.update_idem ..

theorem Housed.create (h : Housed fs base aims) (hk : base <+: k) (hne : k ≠ base) (hnone : fs.node k = none)
    (hparent : fs.isDir k.dropLast) :
    ∃ fs', fs.create k = some (fs.fresh, fs') ∧ Housed fs' base aims ∧ fs'.fileAt k = some fs.fresh ∧
      (∀ j, j ≠ k → fs'.fileAt j = fs.fileAt j) ∧ fs'.data = Function.update fs.data fs.fresh [] ∧
      fs'.fresh = fs.fresh + 1 := by
  have hnil : k ≠ [] := by
    rintro rfl
    exact hne (List.prefix_nil.1 hk).symm
  obtain ⟨fs', hcreate, hfile, hother, hdata, hfresh⟩ := create_of_none hnone hnil hparent
  have hfiles : ∀ j, j ≠ k → fs'.fileAt j = fs.fileAt j := fun j hj => fileAt_congr (hother j hj)
  refine ⟨fs', hcreate, h.of_dirs (fun j => ?_) (fun j hj => ?_) (fun j i hj => ?_), fileAt_eq_some.2 hfile, hfiles,
    hdata, hfresh⟩
  · by_cases hjk : j = k
    · rw [hjk, hfile, hnone]
      exact ⟨fun hx => (by cases hx), fun hx => (by cases hx)⟩
    · rw [hother j hjk]
  · rw [hfiles j fun hjk => not_prefix_base hk hne (hjk ▸ hj), h.free j hj]
  · rw [hfresh]
    by_cases hjk : j = k
    · rw [hjk, fileAt_eq_some.2 hfile] at hj
      cases hj
      exact Nat.lt_succ_self _
    · rw [hfiles j hjk] at hj
      exact (h.numbered j i hj).trans (Nat.lt_succ_self _)

/-- Remove a file. -/
theorem Housed.remove (h : Housed fs base aims) (hfile : fs.fileAt k = some ino) :
    fs.remove k = some (fs.setNode k none) ∧ Housed (fs.setNode k none) base aims ∧
      (fs.setNode k none).fileAt k = none ∧ ∀ j, j ≠ k → (fs.setNode k none).fileAt j = fs.fileAt j := by
  have hnode := fileAt_eq_some.1 hfile
  have hgone : (fs.setNode k none).fileAt k = none := fileAt_none_of_none (setNode_self ..)
  have hother : ∀ j, j ≠ k → (fs.setNode k none).fileAt j = fs.fileAt j := fun j hj => fileAt_congr (setNode_of_ne hj)
  refine ⟨by rw [FileSystem.remove, hnode], h.of_dirs (fun j => ?_) (fun j hj => ?_) (fun j i hj => ?_), hgone, hother⟩
  · by_cases hjk : j = k
    · rw [hjk, setNode_self, hnode]
      exact ⟨fun hx => (by cases hx), fun hx => (by cases hx)⟩
    · rw [setNode_of_ne hjk]
  · by_cases hjk : j = k
    · rw [hjk, hgone]
    · rw [hother j hjk, h.free j hj]
  · by_cases hjk : j = k
    · rw [hjk, hgone] at hj
      cases hj
    · rw [hother j hjk] at hj
      exact h.numbered j i hj

/-- Move a file to where a file or nothing is. -/
theorem Housed.rename (h : Housed fs base aims) (hfile : fs.fileAt src = some ino) (hne : src ≠ dst)
    (hdst : base <+: dst) (hbase : dst ≠ base) (hnodir : fs.node dst ≠ some .dir) (hparent : fs.isDir dst.dropLast) :
    ∃ fs', fs.rename src dst = some fs' ∧ Housed fs' base aims ∧ fs'.fileAt dst = some ino ∧ fs'.fileAt src = none ∧
      (∀ j, j ≠ src → j ≠ dst → fs'.fileAt j = fs.fileAt j) ∧ fs'.data = fs.data := by
  have hnode := fileAt_eq_some.1 hfile
  have hnil : dst ≠ [] := by
    rintro rfl
    exact hbase (List.prefix_nil.1 hdst).symm
  have hat : ((fs.setNode src none).setNode dst (some (.file ino))).fileAt dst = some ino :=
    fileAt_eq_some.2 (setNode_self ..)
  have hgone : ((fs.setNode src none).setNode dst (some (.file ino))).fileAt src = none := by
    rw [fileAt_congr (setNode_of_ne hne)]
    exact fileAt_none_of_none (setNode_self ..)
  have hother : ∀ j, j ≠ src → j ≠ dst →
      ((fs.setNode src none).setNode dst (some (.file ino))).node j = fs.node j := fun j hjs hjd =>
    (setNode_of_ne hjd).trans (setNode_of_ne hjs)
  refine ⟨(fs.setNode src none).setNode dst (some (.file ino)), ?_,
    h.of_dirs (fun j => ?_) (fun j hj => ?_) (fun j i hj => ?_), hat, hgone,
    fun j hjs hjd => fileAt_congr (hother j hjs hjd), rfl⟩
  · unfold FileSystem.rename
    cases hd : fs.node dst with
    | none => simp [hnode, hnil, hparent]
    | some n =>
      cases n with
      | dir => exact absurd hd hnodir
      | file i => simp [hnode]
  · by_cases hjd : j = dst
    · rw [hjd, setNode_self]
      exact ⟨fun hx => (by cases hx), fun hx => absurd hx hnodir⟩
    · rw [setNode_of_ne hjd]
      by_cases hjs : j = src
      · rw [hjs, setNode_self, hnode]
        exact ⟨fun hx => (by cases hx), fun hx => (by cases hx)⟩
      · rw [setNode_of_ne hjs]
  · by_cases hjs : j = src
    · rw [hjs, hgone]
    · rw [fileAt_congr (hother j hjs fun hjd => not_prefix_base hdst hbase (hjd ▸ hj)), h.free j hj]
  · by_cases hjd : j = dst
    · rw [hjd, hat] at hj
      cases hj
      exact h.numbered src _ hfile
    · by_cases hjs : j = src
      · rw [hjs, hgone] at hj
        cases hj
      · rw [fileAt_congr (hother j hjs hjd)] at hj
        exact h.numbered j i hj

end Housed

end FontisRemote.Lib.FileSystem
