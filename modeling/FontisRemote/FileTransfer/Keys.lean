import FontisRemote.Lib.FileTree
import FontisRemote.FileTransfer.Containment

/-!
# Where names lead

On a disk, a name joined with a base leads to the names of its path below those of the base
(`pathKey_join`), and a side file lies beside its file, with the suffix on the last name
(`pathKey_suffix`). The check for symlinks looks at the paths in between (`joinValidatedPath_iff`): a name is
refused for a file that stands where it needs a directory.
-/

namespace FontisRemote.FileTransfer

open FontisRemote.Lib

variable {base name sfx : Text}

/-! ## The names of a path -/

theorem segments_unix (t : Text) : segments false t = (t.splitOnP (isSep false)).filter (· ≠ []) :=
  segments_eq rfl

theorem segments_append_sep (a b : Text) : segments false (a ++ '/' :: b) = segments false a ++ segments false b := by
  rw [segments_unix, segments_unix, segments_unix, List.splitOnP_append_cons a b rfl, List.filter_append]

theorem slash_of_isSep {c : Char} (h : isSep false c = true) : c = '/' := by
  simpa [isSep] using h

/-- A name that does not begin with a separator is put after the base. -/
theorem join_unix (base : Text) (hname : name ≠ []) (hsep : name.head?.any (isSep false) = false) :
    join false base name = if base.getLast?.any (fun c => !isSep false c) then base ++ '/' :: name else base ++ name := by
  have hroot : hasRoot false name = false := hsep
  unfold join push
  rw [if_neg hname]
  have hverbatim : isVerbatim false base = false := rfl
  have hdrive : (parsePrefix false base ≠ some (.disk, base.length)) = True := eq_true (fun h => by cases h)
  simp [hroot, hverbatim, hdrive, mainSep]

theorem segments_join (base : Text) (hname : name ≠ []) (hsep : name.head?.any (isSep false) = false) :
    segments false (join false base name) = segments false base ++ segments false name := by
  rw [join_unix base hname hsep]
  split_ifs with hlast
  · exact segments_append_sep base name
  · rcases List.eq_nil_or_concat' base with rfl | ⟨b, c, rfl⟩
    · rfl
    · have hc : isSep false c = true := by simpa using hlast
      obtain rfl := slash_of_isSep hc
      rw [List.append_assoc, List.singleton_append, segments_append_sep, segments_append_sep b []]
      simp [segments_unix]

theorem pathKey_join (base : Text) (hname : name ≠ []) (hsep : name.head?.any (isSep false) = false) :
    pathKey (join false base name) = pathKey base ++ pathKey name := by
  rw [pathKey, segments_join base hname hsep, List.filter_append]
  rfl

/-- Putting the name after the base and then a suffix is putting the name with the suffix after it. -/
theorem join_suffix (base : Text) (hname : name ≠ []) (hsep : name.head?.any (isSep false) = false) (sfx : Text) :
    join false base name ++ sfx = join false base (name ++ sfx) := by
  have hname' : name ++ sfx ≠ [] := fun h => hname (List.append_eq_nil_iff.1 h).1
  have hsep' : (name ++ sfx).head?.any (isSep false) = false := by
    rwa [List.head?_append_of_ne_nil _ hname]
  rw [join_unix base hname hsep, join_unix base hname' hsep']
  split_ifs
  · rw [List.append_assoc, List.cons_append]
  · rw [List.append_assoc]

/-- Of a name that can be a file, the names it goes through and the last one, which a suffix goes to. -/
theorem segments_concat (hname : name ≠ []) (hdir : mustDir name = false) :
    ∃ ini last, last ≠ [] ∧ last ≠ ['.'] ∧ segments false name = ini ++ [last] ∧
      ∀ sfx : Text, (∀ c ∈ sfx, isSep false c = false) → segments false (name ++ sfx) = ini ++ [last ++ sfx] := by
  obtain ⟨b, c, rfl⟩ := (List.eq_nil_or_concat' name).resolve_left hname
  obtain ⟨hend, hdot⟩ := Bool.or_eq_false_iff.1 hdir
  have hc : isSep false c = false := by simpa using hend
  obtain ⟨ini, last, hb, hlast⟩ : ∃ ini last, b.splitOnP (isSep false) = ini ++ [last] ∧
      ∀ sfx : Text, (∀ c ∈ sfx, isSep false c = false) →
        (b ++ [c] ++ sfx).splitOnP (isSep false) = ini ++ [last ++ [c] ++ sfx] := by
    obtain ⟨ini, last, hb, -⟩ := splitOnP_append_plain b (p := isSep false) (b := []) (fun x hx => by cases hx)
    refine ⟨ini, last, hb, fun sfx hsfx => ?_⟩
    obtain ⟨ini', last', hb', hsplit⟩ := splitOnP_append_plain b (p := isSep false) (b := [c] ++ sfx) (by
      intro x hx
      rcases List.mem_append.1 hx with hx | hx
      · rwa [List.mem_singleton.1 hx]
      · exact hsfx x hx)
    obtain ⟨rfl, hl⟩ := List.append_inj' (hb.symm.trans hb') rfl
    obtain rfl : last = last' := by simpa using hl
    rw [List.append_assoc, hsplit, List.append_assoc]
  have hsegments : ∀ sfx : Text, (∀ c ∈ sfx, isSep false c = false) →
      segments false (b ++ [c] ++ sfx) = ini.filter (· ≠ []) ++ [last ++ [c] ++ sfx] := by
    intro sfx hsfx
    rw [segments_unix, hlast sfx hsfx, List.filter_append, List.filter_singleton]
    simp
  have hplain := hsegments [] (fun x hx => by cases hx)
  rw [List.append_nil, List.append_nil] at hplain
  refine ⟨_, last ++ [c], by simp, ?_, hplain, hsegments⟩
  rintro heq
  rw [hplain, heq] at hdot
  simp at hdot

/-- The side file of a file lies in the same directory, with the suffix on its last name. -/
theorem pathKey_suffix (hname : name ≠ []) (hdir : mustDir name = false) :
    ∃ dir last, pathKey name = dir ++ [last] ∧
      ∀ sfx ∈ suffixes, pathKey (name ++ sfx) = dir ++ [last ++ sfx] := by
  obtain ⟨ini, last, hne, hdot, hsegments, hsuffix⟩ := segments_concat hname hdir
  refine ⟨ini.filter (· ≠ ['.']), last, ?_, fun sfx hsfx => ?_⟩
  · rw [pathKey, hsegments, List.filter_append]
    simp [hdot]
  · have hkept : last ++ sfx ≠ ['.'] := by
      intro heq
      have hlong : ∀ sfx ∈ suffixes, sfx = [] ∨ 1 < sfx.length := by decide
      rcases hlong sfx hsfx with rfl | hlong
      · exact hdot (by simpa using heq)
      · have hlength := congrArg List.length heq
        simp only [List.length_append, List.length_cons, List.length_nil] at hlength
        omega
    rw [pathKey, hsuffix sfx (suffixes_plain false hsfx), List.filter_append]
    simp [hkept]

/-- A path below a base that can be a file is so by its name. -/
theorem mustDir_of_join (base : Text) (hname : name ≠ []) (hsep : name.head?.any (isSep false) = false)
    (hdir : mustDir (join false base name) = false) : mustDir name = false := by
  obtain ⟨hend, hdot⟩ := Bool.or_eq_false_iff.1 hdir
  refine Bool.or_eq_false_iff.2 ⟨?_, ?_⟩
  · rw [join_unix base hname hsep] at hend
    split_ifs at hend
    · rwa [List.getLast?_append_of_ne_nil _ (List.cons_ne_nil _ _), List.getLast?_cons_of_ne_nil hname] at hend
    · rwa [List.getLast?_append_of_ne_nil _ hname] at hend
  · rw [decide_eq_false_iff_not, segments_join base hname hsep] at hdot
    rw [decide_eq_false_iff_not]
    intro hlast
    rw [List.getLast?_append, hlast] at hdot
    exact hdot rfl

/-- The path of a side file can always be a file. -/
theorem mustDir_suffix (t : Text) (hsfx : sfx ∈ suffixes) (hne : sfx ≠ []) : mustDir (t ++ sfx) = false := by
  obtain ⟨ini, last, -, hsplit⟩ := splitOnP_append_plain t (suffixes_plain false hsfx)
  have hlong : ∀ sfx ∈ suffixes, sfx = [] ∨ 1 < sfx.length ∧ sfx.getLast?.any (isSep false) = false := by decide
  obtain ⟨hlength, hend⟩ := (hlong sfx hsfx).resolve_left hne
  refine Bool.or_eq_false_iff.2 ⟨?_, ?_⟩
  · rwa [List.getLast?_append_of_ne_nil _ hne]
  · rw [decide_eq_false_iff_not, segments_unix, hsplit, List.filter_append, List.filter_singleton]
    have hkept : last ++ sfx ≠ ['.'] := by
      intro heq
      have hlength' := congrArg List.length heq
      simp only [List.length_append, List.length_cons, List.length_nil] at hlength'
      omega
    simp [hne, hkept]

/-! ## The check for symlinks -/

/-- A path that is there, or could be but for what it is called. -/
def Disk.Reaches (d : Disk) (k : List Text) : Prop := (d.fs.node k).isSome ∨ d.throughFile k = false

theorem mem_inits_dropLast {α : Type} {j k : List α} : j ∈ k.inits.dropLast ↔ j <+: k ∧ j ≠ k := by
  induction k generalizing j with
  | nil => simp
  | cons a k ih =>
    have hne : k.inits.map (fun t => a :: t) ≠ [] := by cases k <;> simp
    rw [List.inits_cons, List.dropLast_cons_of_ne_nil hne, ← List.map_dropLast, List.mem_cons, List.mem_map]
    constructor
    · rintro (rfl | ⟨t, ht, rfl⟩)
      · exact ⟨List.nil_prefix, (List.cons_ne_nil a k).symm⟩
      · obtain ⟨hpre, hne⟩ := ih.1 ht
        exact ⟨List.cons_prefix_cons.2 ⟨rfl, hpre⟩, fun h => hne (List.tail_eq_of_cons_eq h)⟩
    · rintro ⟨hpre, hne⟩
      cases j with
      | nil => exact .inl rfl
      | cons b j =>
        obtain ⟨rfl, hj⟩ := List.cons_prefix_cons.1 hpre
        exact .inr ⟨j, ih.2 ⟨hj, fun h => hne (h ▸ rfl)⟩, rfl⟩

theorem throughFile_eq_false {d : Disk} {k : List Text} :
    d.throughFile k = false ↔ ∀ j, j <+: k → j ≠ k → d.fs.fileAt j = none := by
  rw [Disk.throughFile, List.any_eq_false]
  constructor
  · intro h j hj hne
    simpa using h j (mem_inits_dropLast.2 ⟨hj, hne⟩)
  · intro h j hj
    obtain ⟨hpre, hne⟩ := mem_inits_dropLast.1 hj
    simp [h j hpre hne]

theorem lstat_passes {t : Text} {d : Disk} :
    (Disk.lstat t d = .found false ∨ Disk.lstat t d = .notFound) ↔ d.Reaches (pathKey t) := by
  unfold Disk.lstat Disk.Reaches
  cases hnode : d.fs.node (pathKey t) with
  | some n => simp
  | none => cases hthrough : d.throughFile (pathKey t) <;> simp

/-- The walk passes if and only if each component is plain and each path that it looks at is no symlink and can
be looked at. -/
theorem walkNoSymlink_iff {win : Bool} {lstat : Text → LStat} {cs : List Component} {current : Text} :
    walkNoSymlink win lstat current cs = .ok () ↔ (∀ c ∈ cs, c = .curDir ∨ ∃ seg, c = .normal seg) ∧
      ∀ p ∈ checkedPaths win current cs, lstat p = .found false ∨ lstat p = .notFound := by
  induction cs generalizing current with
  | nil => simp [walkNoSymlink, checkedPaths]
  | cons c cs ih =>
    cases c with
    | normal seg =>
      simp only [walkNoSymlink, checkedPaths, List.forall_mem_cons]
      rcases hstat : lstat (push win current seg) with _ | _ | err
      · rename_i isSymlink
        cases isSymlink with
        | true => simp
        | false => simp [ih]
      · simp [ih]
      · simp
    | curDir => simp [walkNoSymlink, checkedPaths, ih]
    | pfx kind text => simp [walkNoSymlink]
    | rootDir => simp [walkNoSymlink]
    | parentDir => simp [walkNoSymlink]

/-- A segment of a path: what a name that is no dot leaves of it. -/
def PlainSegment (seg : Text) : Prop := seg ≠ [] ∧ seg ≠ ['.'] ∧ ∀ c ∈ seg, isSep false c = false

theorem pathKey_segment {seg : Text} (h : PlainSegment seg) : pathKey seg = [seg] := by
  rw [pathKey, segments_unix, List.splitOnP_eq_singleton h.2.2]
  simp [h.1, h.2.1]

theorem pathKey_plain (t : Text) : ∀ seg ∈ pathKey t, PlainSegment seg := by
  intro seg hseg
  obtain ⟨hseg, hdot⟩ := List.mem_filter.1 hseg
  rw [segments_unix] at hseg
  obtain ⟨hseg, hne⟩ := List.mem_filter.1 hseg
  exact ⟨by simpa using hne, by simpa using hdot, not_mem_of_mem_splitOnP hseg⟩

theorem checkedPaths_keys {k : List Text} (hk : ∀ seg ∈ k, PlainSegment seg) {current p : Text}
    (hp : p ∈ checkedPaths false current (k.map .normal)) : ∃ j, j <+: k ∧ pathKey p = pathKey current ++ j := by
  induction k generalizing current with
  | nil => cases hp
  | cons seg k ih =>
    obtain ⟨hseg, hk⟩ := List.forall_mem_cons.1 hk
    have hsep : seg.head?.any (isSep false) = false := by
      cases seg with
      | nil => rfl
      | cons c seg => exact hseg.2.2 c (List.mem_cons_self ..)
    have hstep : pathKey (push false current seg) = pathKey current ++ [seg] := by
      have hjoin := pathKey_join current hseg.1 hsep
      rwa [join, if_neg hseg.1, pathKey_segment hseg] at hjoin
    rcases List.mem_cons.1 hp with rfl | hp
    · exact ⟨[seg], List.cons_prefix_cons.2 ⟨rfl, List.nil_prefix⟩, hstep⟩
    · obtain ⟨j, hj, hkey⟩ := ih hk hp
      refine ⟨seg :: j, List.cons_prefix_cons.2 ⟨rfl, hj⟩, ?_⟩
      rw [hkey, hstep, List.append_assoc, List.singleton_append]

/-- The components of a name that passed the check on its text: its path, after a dot perhaps. -/
theorem components_of_valid (h : validateFileNameNoTraversal false name = .ok ()) :
    components false name = (if leadingDot false name then [.curDir] else []) ++ (pathKey name).map .normal := by
  obtain ⟨-, hdots, -, hsep⟩ := validateFileNameNoTraversal_ok h
  rw [components_eq rfl hsep, pathKey]
  congr 1
  have hnone : ∀ seg ∈ segments false name, seg ≠ ['.', '.'] := by
    rintro seg hseg rfl
    rw [segments_unix] at hseg
    exact hdots (List.mem_filter.1 hseg).1
  generalize segments false name = segs at hnone ⊢
  induction segs with
  | nil => rfl
  | cons seg segs ih =>
    obtain ⟨hseg, hsegs⟩ := List.forall_mem_cons.1 hnone
    have ih := ih hsegs
    by_cases hdot : seg = ['.']
    · simpa [component?, hdot] using ih
    · simpa [component?, hdot, hseg] using ih

/-- A relative name that passed the check on its text and can be the name of a file. -/
structure Listed (name : Text) : Prop where
  valid : validateFileNameNoTraversal false name = .ok ()
  ne : name ≠ []
  file : mustDir name = false

namespace Listed

variable {d d' : Disk} (h : Listed name)

include h

theorem sep : name.head?.any (isSep false) = false := (validateFileNameNoTraversal_ok h.valid).2.2.2

theorem pathKey_join (base : Text) : pathKey (join false base name) = pathKey base ++ pathKey name :=
  FileTransfer.pathKey_join base h.ne h.sep

/-- A name is joined with the base if each path in between is there, or could be. -/
theorem joinValidatedPath_iff {path : Text} :
    joinValidatedPath false (Disk.lstat · d) base name = .ok path ↔ path = join false base name ∧
      ∀ p ∈ checkedPaths false base ((pathKey name).map .normal), d.Reaches (pathKey p) := by
  have hchecked : checkedPaths false base (components false name) =
      checkedPaths false base ((pathKey name).map .normal) := by
    rw [components_of_valid h.valid]
    split_ifs <;> rfl
  have hplain : ∀ c ∈ components false name, c = .curDir ∨ ∃ seg, c = .normal seg := by
    rw [components_of_valid h.valid]
    intro c hc
    rcases List.mem_append.1 hc with hc | hc
    · split_ifs at hc
      · exact .inl (List.mem_singleton.1 hc)
      · cases hc
    · obtain ⟨seg, -, rfl⟩ := List.mem_map.1 hc
      exact .inr ⟨seg, rfl⟩
  have hwalk : walkNoSymlink false (Disk.lstat · d) base (components false name) = .ok () ↔
      ∀ p ∈ checkedPaths false base ((pathKey name).map .normal), d.Reaches (pathKey p) := by
    rw [walkNoSymlink_iff, hchecked]
    constructor
    · intro hok p hp
      exact lstat_passes.1 (hok.2 p hp)
    · intro hok
      exact ⟨hplain, fun p hp => lstat_passes.2 (hok p hp)⟩
  rw [← hwalk, joinValidatedPath, h.valid, validateNoSymlinkComponents, if_neg h.ne]
  cases walkNoSymlink false (Disk.lstat · d) base (components false name) with
  | error err => simp
  | ok _ => simp [eq_comm]

/-- No file stands where the path needs a directory. -/
theorem joinValidatedPath_of_free (hfree : ∀ j, j <+: pathKey (join false base name) →
      j ≠ pathKey (join false base name) → d.fs.fileAt j = none) :
    joinValidatedPath false (Disk.lstat · d) base name = .ok (join false base name) := by
  refine h.joinValidatedPath_iff.2 ⟨rfl, fun p hp => .inr (throughFile_eq_false.2 fun j hj hne => ?_)⟩
  obtain ⟨k, hk, hkey⟩ := checkedPaths_keys (pathKey_plain name) hp
  have hbelow : pathKey p <+: pathKey (join false base name) := by
    rw [h.pathKey_join, hkey]
    exact (List.prefix_append_right_inj _).2 hk
  refine hfree j (hj.trans hbelow) ?_
  rintro rfl
  exact hne (List.IsPrefix.eq_of_length hj (le_antisymm hj.length_le hbelow.length_le))

/-- A name stays joined while what is on its path stays there and no file is put on it. -/
theorem joinValidatedPath_mono {path : Text} (hjoin : joinValidatedPath false (Disk.lstat · d) base name = .ok path)
    (hnode : ∀ j, j <+: pathKey (join false base name) → (d.fs.node j).isSome → (d'.fs.node j).isSome)
    (hfile : ∀ j, j <+: pathKey (join false base name) → (d'.fs.fileAt j).isSome → (d.fs.fileAt j).isSome) :
    joinValidatedPath false (Disk.lstat · d') base name = .ok path := by
  obtain ⟨rfl, hreaches⟩ := h.joinValidatedPath_iff.1 hjoin
  refine h.joinValidatedPath_iff.2 ⟨rfl, fun p hp => ?_⟩
  obtain ⟨k, hk, hkey⟩ := checkedPaths_keys (pathKey_plain name) hp
  have hbelow : pathKey p <+: pathKey (join false base name) := by
    rw [h.pathKey_join, hkey]
    exact (List.prefix_append_right_inj _).2 hk
  rcases hreaches p hp with hsome | hthrough
  · exact .inl (hnode _ hbelow hsome)
  · refine .inr (throughFile_eq_false.2 fun j hj hne => ?_)
    by_contra hfound
    have := hfile j (hj.trans hbelow) (Option.isSome_iff_ne_none.2 hfound)
    rw [throughFile_eq_false.1 hthrough j hj hne] at this
    cases this

end Listed

end FontisRemote.FileTransfer
