import FontisRemote.Drm.Connectors

/-!
# Which connectors and outputs are matched

A resolution pairing is made only where one connector and one output of that resolution are left over by the
names, so it leaves nothing of its resolution behind and the order of the loop does not matter: the pairings
are those that are forced when the names have been matched. Where the names are distinct that depends on the
entries only, not on their places.
-/

namespace FontisRemote.Drm

open FontisRemote.Lib

variable {drm : List DrmDisplayInfo} {wl : List WaylandDisplayInfo} {a : Assignment} {n : Nat}

/-! ## What the passes establish -/

/-- The names of the first `n` connectors have been looked for. -/
structure NamesMatched (drm : List DrmDisplayInfo) (wl : List WaylandDisplayInfo) (n : Nat) (a : Assignment) :
    Prop where
  sound : a.Sound drm.length wl.length
  unread : ∀ k, n ≤ k → ∀ j, ¬ a.Matches k j
  names : ∀ k j, a.Matches k j → ∃ d w, drm[k]? = some d ∧ wl[j]? = some w ∧ w.normalName = d.normalName
  complete : ∀ k d j w, k < n → drm[k]? = some d → a.isUnmatched k → wl[j]? = some w →
    w.normalName = d.normalName → ¬ a.isFree j

theorem NamesMatched.step {d : DrmDisplayInfo} (h : NamesMatched drm wl n a) (hd : drm[n]? = some d) :
    NamesMatched drm wl (n + 1) (nameStep wl a (d, n)) := by
  have hun : a.isUnmatched n :=
    h.sound.unmatched_of_none (List.getElem?_eq_some_iff.1 hd).1 (h.unread n (Nat.le_refl n))
  rcases nameStep_cases wl a d n with ⟨j, w, hw, hfree, hname, heq⟩ | ⟨hnone, heq⟩
  · rw [heq]
    refine ⟨h.sound.claim hun hfree, fun k hk l hl => ?_, fun k l hl => ?_, fun k e l v hk he hunk hv hev => ?_⟩
    · rcases (Assignment.matches_claim hun).1 hl with hold | ⟨rfl, -⟩
      · exact h.unread k (by omega) l hold
      · omega
    · rcases (Assignment.matches_claim hun).1 hl with hold | ⟨rfl, rfl⟩
      · exact h.names k l hold
      · exact ⟨d, w, hd, hw, hname⟩
    · obtain ⟨hunk', hne⟩ := (Assignment.isUnmatched_claim hun).1 hunk
      intro hfree'
      exact h.complete k e l v (by omega) he hunk' hv hev ((Assignment.isFree_claim hfree).1 hfree').1
  · rw [heq]
    refine ⟨h.sound, fun k hk => h.unread k (by omega), h.names, fun k e l v hk he hunk hv hev => ?_⟩
    rcases Nat.lt_succ_iff_lt_or_eq.1 hk with hlt | rfl
    · exact h.complete k e l v hlt he hunk hv hev
    · rw [hd] at he
      cases he
      exact hnone l v hv hev

theorem namesMatched (drm : List DrmDisplayInfo) (wl : List WaylandDisplayInfo) :
    NamesMatched drm wl drm.length (namePass drm wl) := by
  refine foldl_zipIdx_induction ⟨Assignment.Sound.empty _ _, ?_, ?_, ?_⟩ fun n a d hd h => h.step hd
  · intro k _ j
    exact Assignment.not_matches_empty
  · intro k j hj
    exact absurd hj Assignment.not_matches_empty
  · intro k d j w hk
    exact absurd hk (Nat.not_lt_zero k)

theorem DrmDisplayInfo.fits_sameSize {d o : DrmDisplayInfo} {w : WaylandDisplayInfo} (hd : d.fits w) (ho : o.fits w) :
    d.sameSize o := by
  have hinj : ∀ {u v : UInt32}, u.toInt32 = v.toInt32 → u = v := by
    intro u v h
    rw [← UInt32.toUInt32_toInt32 u, h, UInt32.toUInt32_toInt32]
  simp only [fits, Bool.and_eq_true, beq_iff_eq] at hd ho
  simp only [sameSize, Bool.and_eq_true, beq_iff_eq]
  exact ⟨hinj (ho.1.symm.trans hd.1), hinj (ho.2.symm.trans hd.2)⟩

theorem DrmDisplayInfo.fits_of_sameSize {d o : DrmDisplayInfo} {w : WaylandDisplayInfo} (hs : d.sameSize o) :
    o.fits w = d.fits w := by
  simp only [sameSize, Bool.and_eq_true, beq_iff_eq] at hs
  rw [fits, fits, hs.1, hs.2]

/-- Of the first `n` connectors, those are matched that a name matched or that are forced. -/
structure ResolutionsMatched (drm : List DrmDisplayInfo) (wl : List WaylandDisplayInfo) (n : Nat) (a : Assignment) :
    Prop where
  sound : a.Sound drm.length wl.length
  matches_iff : ∀ k j, a.Matches k j ↔ (namePass drm wl).Matches k j ∨
    k < n ∧ ∃ d, drm[k]? = some d ∧ Forced drm wl (namePass drm wl) k j d

namespace ResolutionsMatched

variable {d : DrmDisplayInfo} {i j : Nat}

/-- The earlier pairings have another resolution than a connector that is still unmatched. -/
theorem free_iff (h : ResolutionsMatched drm wl n a) (hd : drm[n]? = some d)
    (hun : (namePass drm wl).isUnmatched n) {w : WaylandDisplayInfo} (hw : wl[j]? = some w) (hfits : d.fits w) :
    a.isFree j ↔ (namePass drm wl).isFree j := by
  have hlt := (List.getElem?_eq_some_iff.1 hw).1
  rw [h.sound.free_iff hlt, (namesMatched drm wl).sound.free_iff hlt]
  refine ⟨fun hno k hk => hno k ((h.matches_iff k j).2 (.inl hk)), fun hno k hk => ?_⟩
  rcases (h.matches_iff k j).1 hk with hold | ⟨hkn, e, he, hf⟩
  · exact hno k hold
  · obtain ⟨v, hv, hev⟩ := hf.fits
    rw [hw] at hv
    cases hv
    have hnk := hf.only_connector n d hd hun (DrmDisplayInfo.fits_sameSize hev hfits)
    omega

theorem unmatched_iff (h : ResolutionsMatched drm wl n a) (hd : drm[n]? = some d)
    (hun : (namePass drm wl).isUnmatched n) {k : Nat} {o : DrmDisplayInfo} (ho : drm[k]? = some o)
    (hs : d.sameSize o) : a.isUnmatched k ↔ (namePass drm wl).isUnmatched k := by
  have hlt := (List.getElem?_eq_some_iff.1 ho).1
  rw [h.sound.unmatched_iff hlt, (namesMatched drm wl).sound.unmatched_iff hlt]
  refine ⟨fun hno l hl => hno l ((h.matches_iff k l).2 (.inl hl)), fun hno l hl => ?_⟩
  rcases (h.matches_iff k l).1 hl with hold | ⟨hkn, e, he, hf⟩
  · exact hno l hold
  · rw [ho] at he
    cases he
    obtain ⟨v, hv, hev⟩ := hf.fits
    have hfits : d.fits v := by
      rw [← DrmDisplayInfo.fits_of_sameSize hs]
      exact hev
    have hnk := hf.only_connector n d hd hun (DrmDisplayInfo.fits_sameSize hev hfits)
    omega

theorem unmatched_self (h : ResolutionsMatched drm wl n a) (hd : drm[n]? = some d) :
    a.isUnmatched n ↔ (namePass drm wl).isUnmatched n := by
  have hlt := (List.getElem?_eq_some_iff.1 hd).1
  rw [h.sound.unmatched_iff hlt, (namesMatched drm wl).sound.unmatched_iff hlt]
  refine ⟨fun hno l hl => hno l ((h.matches_iff n l).2 (.inl hl)), fun hno l hl => ?_⟩
  rcases (h.matches_iff n l).1 hl with hold | ⟨hlt, -⟩
  · exact hno l hold
  · exact Nat.lt_irrefl n hlt

theorem forced_iff (h : ResolutionsMatched drm wl n a) (hd : drm[n]? = some d) :
    Forced drm wl a n j d ↔ Forced drm wl (namePass drm wl) n j d := by
  constructor
  · intro hf
    have hun := (h.unmatched_self hd).1 hf.unmatched
    obtain ⟨w, hw, hfits⟩ := hf.fits
    exact ⟨hun, (h.free_iff hd hun hw hfits).1 hf.free, hf.fits,
      fun l v hv hl hfits => hf.only_output l v hv ((h.free_iff hd hun hv hfits).2 hl) hfits,
      fun k o ho hk hs => hf.only_connector k o ho ((h.unmatched_iff hd hun ho hs).2 hk) hs⟩
  · intro hf
    have hun := hf.unmatched
    obtain ⟨w, hw, hfits⟩ := hf.fits
    exact ⟨(h.unmatched_self hd).2 hun, (h.free_iff hd hun hw hfits).2 hf.free, hf.fits,
      fun l v hv hl hfits => hf.only_output l v hv ((h.free_iff hd hun hv hfits).1 hl) hfits,
      fun k o ho hk hs => hf.only_connector k o ho ((h.unmatched_iff hd hun ho hs).1 hk) hs⟩

theorem step (h : ResolutionsMatched drm wl n a) (hd : drm[n]? = some d) :
    ResolutionsMatched drm wl (n + 1) (resolutionStep drm wl a (d, n)) := by
  rcases resolutionStep_cases wl a hd with ⟨j, hf, heq⟩ | ⟨hnone, heq⟩
  · rw [heq]
    refine ⟨h.sound.claim hf.unmatched hf.free, fun k l => ?_⟩
    rw [Assignment.matches_claim hf.unmatched, h.matches_iff k l]
    have hf' := (h.forced_iff hd).1 hf
    constructor
    · rintro ((hname | ⟨hk, he⟩) | ⟨rfl, rfl⟩)
      · exact .inl hname
      · exact .inr ⟨Nat.lt_succ_of_lt hk, he⟩
      · exact .inr ⟨Nat.lt_succ_self k, d, hd, hf'⟩
    · rintro (hname | ⟨hk, e, he, hfe⟩)
      · exact .inl (.inl hname)
      · rcases Nat.lt_succ_iff_lt_or_eq.1 hk with hlt | rfl
        · exact .inl (.inr ⟨hlt, e, he, hfe⟩)
        · rw [hd] at he
          cases he
          obtain ⟨v, hv, hfits⟩ := hfe.fits
          exact .inr ⟨rfl, hf'.only_output l v hv hfe.free hfits⟩
  · rw [heq]
    refine ⟨h.sound, fun k l => ?_⟩
    rw [h.matches_iff k l]
    constructor
    · rintro (hname | ⟨hk, he⟩)
      · exact .inl hname
      · exact .inr ⟨Nat.lt_succ_of_lt hk, he⟩
    · rintro (hname | ⟨hk, e, he, hfe⟩)
      · exact .inl hname
      · rcases Nat.lt_succ_iff_lt_or_eq.1 hk with hlt | rfl
        · exact .inr ⟨hlt, e, he, hfe⟩
        · rw [hd] at he
          cases he
          exact absurd ((h.forced_iff hd).2 hfe) (hnone l)

end ResolutionsMatched

theorem resolutionsMatched (drm : List DrmDisplayInfo) (wl : List WaylandDisplayInfo) :
    ResolutionsMatched drm wl drm.length (resolutionPass drm wl) := by
  refine foldl_zipIdx_induction ⟨(namesMatched drm wl).sound, fun k j => ?_⟩ fun n a d hd h => h.step hd
  simp

structure FallenBack (drm : List DrmDisplayInfo) (wl : List WaylandDisplayInfo) (n : Nat) (a : Assignment) :
    Prop where
  sound : a.Sound drm.length wl.length
  extended : ∀ k j, (resolutionPass drm wl).Matches k j → a.Matches k j
  complete : ∀ k, k < n → a.isUnmatched k → ∀ j, ¬ a.isFree j

theorem FallenBack.step (h : FallenBack drm wl n a) (d : DrmDisplayInfo) :
    FallenBack drm wl (n + 1) (fallbackStep wl a (d, n)) := by
  rcases fallbackStep_cases wl a d n with ⟨j, hun, hfree, heq⟩ | ⟨hnone, heq⟩
  · rw [heq]
    refine ⟨h.sound.claim hun hfree, fun k l hl => (Assignment.matches_claim hun).2 (.inl (h.extended k l hl)),
      fun k hk hunk l hl => ?_⟩
    obtain ⟨hunk', hne⟩ := (Assignment.isUnmatched_claim hun).1 hunk
    exact h.complete k (by omega) hunk' l ((Assignment.isFree_claim hfree).1 hl).1
  · rw [heq]
    refine ⟨h.sound, h.extended, fun k hk hunk => ?_⟩
    rcases Nat.lt_succ_iff_lt_or_eq.1 hk with hlt | rfl
    · exact h.complete k hlt hunk
    · exact hnone hunk

theorem fallenBack (drm : List DrmDisplayInfo) (wl : List WaylandDisplayInfo) :
    FallenBack drm wl drm.length (fallbackPass drm wl) := by
  refine foldl_zipIdx_induction ⟨(resolutionsMatched drm wl).sound.ofMatched, fun k j h => h, fun k hk => ?_⟩
    fun n a d _ h => h.step d
  exact absurd hk (Nat.not_lt_zero k)

/-! ## Names and what remains -/

/-- No output is held twice. -/
def MatchInjective (matched : List (Option Nat)) : Prop :=
  ∀ i k j : Nat, matched[i]? = some (some j) → matched[k]? = some (some j) → i = k

theorem matchInjective_of_sound {m : Nat} (h : a.Sound n m) : MatchInjective a.matched :=
  fun _ _ _ hi hk => h.injective hi hk

def MatchedByName (drm : List DrmDisplayInfo) (wl : List WaylandDisplayInfo) (i j : Nat) : Prop :=
  (identityMatches drm wl)[i]? = some (some j) ∧
    ∃ d w, drm[i]? = some d ∧ wl[j]? = some w ∧ w.normalName = d.normalName

/-- Of what no name matched, they are the only ones of their resolution. -/
structure LastOfSize (drm : List DrmDisplayInfo) (wl : List WaylandDisplayInfo) (i j : Nat) (d : DrmDisplayInfo)
    (w : WaylandDisplayInfo) : Prop where
  fits : d.fits w
  output : ∀ l v, wl[l]? = some v → d.fits v → ((∀ k, ¬ MatchedByName drm wl k l) ↔ l = j)
  connector : ∀ k o, drm[k]? = some o → d.sameSize o → ((∀ l, ¬ MatchedByName drm wl k l) ↔ k = i)


theorem identityMatches_iff (drm : List DrmDisplayInfo) (wl : List WaylandDisplayInfo) (i j : Nat) :
    (identityMatches drm wl)[i]? = some (some j) ↔ (namePass drm wl).Matches i j ∨
      ∃ d, drm[i]? = some d ∧ Forced drm wl (namePass drm wl) i j d := by
  refine Iff.trans ((resolutionsMatched drm wl).matches_iff i j) ⟨?_, ?_⟩
  · rintro (h | ⟨-, h⟩)
    · exact .inl h
    · exact .inr h
  · rintro (h | ⟨d, hd, h⟩)
    · exact .inl h
    · exact .inr ⟨(List.getElem?_eq_some_iff.1 hd).1, d, hd, h⟩

theorem matchedByName_iff {i j : Nat} : MatchedByName drm wl i j ↔ (namePass drm wl).Matches i j := by
  have hnames := namesMatched drm wl
  constructor
  · rintro ⟨hid, d, w, hd, hw, hname⟩
    rcases (identityMatches_iff drm wl i j).1 hid with h | ⟨e, he, hf⟩
    · exact h
    · have hi := (List.getElem?_eq_some_iff.1 hd).1
      exact absurd hf.free (hnames.complete i d j w hi hd hf.unmatched hw hname)
  · intro h
    exact ⟨(identityMatches_iff drm wl i j).2 (.inl h), hnames.names i j h⟩

theorem identity_named_or_last {i j : Nat} (h : (identityMatches drm wl)[i]? = some (some j)) :
    ∃ d w, drm[i]? = some d ∧ wl[j]? = some w ∧
      (w.normalName = d.normalName ∨ LastOfSize drm wl i j d w) := by
  have hnames := namesMatched drm wl
  rcases (identityMatches_iff drm wl i j).1 h with hname | ⟨d, hd, hf⟩
  · obtain ⟨d, w, hd, hw, heq⟩ := hnames.names i j hname
    exact ⟨d, w, hd, hw, .inl heq⟩
  · obtain ⟨w, hw, hfits⟩ := hf.fits
    refine ⟨d, w, hd, hw, .inr ⟨hfits, fun l v hv hfv => ?_, fun k o ho hs => ?_⟩⟩
    · simp only [matchedByName_iff]
      rw [← hnames.sound.free_iff (List.getElem?_eq_some_iff.1 hv).1]
      refine ⟨fun hl => hf.only_output l v hv hl hfv, ?_⟩
      rintro rfl
      exact hf.free
    · simp only [matchedByName_iff]
      rw [← hnames.sound.unmatched_iff (List.getElem?_eq_some_iff.1 ho).1]
      refine ⟨fun hk => hf.only_connector k o ho hk hs, ?_⟩
      rintro rfl
      exact hf.unmatched

/-! ## The order of the lists -/

/-- An output is matched with a connector, told from the entries alone. -/
structure OnlyRemaining (drm : List DrmDisplayInfo) (wl : List WaylandDisplayInfo) (d : DrmDisplayInfo)
    (w : WaylandDisplayInfo) : Prop where
  connector : ∀ v ∈ wl, v.normalName ≠ d.normalName
  output : ∀ o ∈ drm, w.normalName ≠ o.normalName
  fits : d.fits w
  only_output : ∀ v ∈ wl, (∀ o ∈ drm, v.normalName ≠ o.normalName) → d.fits v → v = w
  only_connector : ∀ o ∈ drm, (∀ v ∈ wl, v.normalName ≠ o.normalName) → d.sameSize o → o = d

theorem OnlyRemaining.perm {drm' : List DrmDisplayInfo} {wl' : List WaylandDisplayInfo} (hdrm : drm.Perm drm')
    (hwl : wl.Perm wl') {d : DrmDisplayInfo} {w : WaylandDisplayInfo} (h : OnlyRemaining drm wl d w) :
    OnlyRemaining drm' wl' d w where
  connector v hv := h.connector v (hwl.mem_iff.2 hv)
  output o ho := h.output o (hdrm.mem_iff.2 ho)
  fits := h.fits
  only_output v hv hno := h.only_output v (hwl.mem_iff.2 hv) fun o ho => hno o (hdrm.mem_iff.1 ho)
  only_connector o ho hno := h.only_connector o (hdrm.mem_iff.2 ho) fun v hv => hno v (hwl.mem_iff.1 hv)

section Distinct

variable (hdrm : (drm.map (·.normalName)).Nodup) (hwl : (wl.map (·.normalName)).Nodup)

include hdrm hwl

theorem namePass_iff {i j : Nat} {d : DrmDisplayInfo} {w : WaylandDisplayInfo} (hd : drm[i]? = some d)
    (hw : wl[j]? = some w) : (namePass drm wl).Matches i j ↔ w.normalName = d.normalName := by
  have hnames := namesMatched drm wl
  constructor
  · intro h
    obtain ⟨e, v, he, hv, hname⟩ := hnames.names i j h
    rw [hd] at he
    rw [hw] at hv
    cases he
    cases hv
    exact hname
  · intro hname
    have hi := (List.getElem?_eq_some_iff.1 hd).1
    have hj := (List.getElem?_eq_some_iff.1 hw).1
    by_contra hno
    -- What holds the connector or the output instead would have the same name.
    have hun : (namePass drm wl).isUnmatched i := by
      refine hnames.sound.unmatched_of_none hi fun l hl => ?_
      obtain ⟨e, v, he, hv, hev⟩ := hnames.names i l hl
      rw [hd] at he
      cases he
      rw [index_unique hwl hv hw (hev.trans hname.symm)] at hl
      exact hno hl
    refine hnames.complete i d j w hi hd hun hw hname ((hnames.sound.free_iff hj).2 fun k hk => ?_)
    obtain ⟨e, v, he, hv, hev⟩ := hnames.names k j hk
    rw [hw] at hv
    cases hv
    rw [index_unique hdrm he hd (hev.symm.trans hname)] at hk
    exact hno hk

theorem unmatched_iff_name {i : Nat} {d : DrmDisplayInfo} (hd : drm[i]? = some d) :
    (namePass drm wl).isUnmatched i ↔ ∀ v ∈ wl, v.normalName ≠ d.normalName := by
  have hnames := namesMatched drm wl
  rw [hnames.sound.unmatched_iff (List.getElem?_eq_some_iff.1 hd).1]
  constructor
  · intro hno v hv hname
    obtain ⟨l, hl⟩ := List.mem_iff_getElem?.1 hv
    exact hno l ((namePass_iff hdrm hwl hd hl).2 hname)
  · intro hno l hl
    obtain ⟨e, v, he, hv, hname⟩ := hnames.names i l hl
    rw [hd] at he
    cases he
    exact hno v (List.mem_of_getElem? hv) hname

theorem free_iff_name {j : Nat} {w : WaylandDisplayInfo} (hw : wl[j]? = some w) :
    (namePass drm wl).isFree j ↔ ∀ o ∈ drm, w.normalName ≠ o.normalName := by
  have hnames := namesMatched drm wl
  rw [hnames.sound.free_iff (List.getElem?_eq_some_iff.1 hw).1]
  constructor
  · intro hno o ho hname
    obtain ⟨k, hk⟩ := List.mem_iff_getElem?.1 ho
    exact hno k ((namePass_iff hdrm hwl hk hw).2 hname)
  · intro hno k hk
    obtain ⟨e, v, he, hv, hname⟩ := hnames.names k j hk
    rw [hw] at hv
    cases hv
    exact hno e (List.mem_of_getElem? he) hname

theorem forced_iff_only {i j : Nat} {d : DrmDisplayInfo} {w : WaylandDisplayInfo} (hd : drm[i]? = some d)
    (hw : wl[j]? = some w) : Forced drm wl (namePass drm wl) i j d ↔ OnlyRemaining drm wl d w := by
  constructor
  · intro hf
    obtain ⟨v, hv, hfits⟩ := hf.fits
    rw [hw] at hv
    cases hv
    refine ⟨(unmatched_iff_name hdrm hwl hd).1 hf.unmatched, (free_iff_name hdrm hwl hw).1 hf.free, hfits,
      fun v hv hno hfv => ?_, fun o ho hno hs => ?_⟩
    · obtain ⟨l, hl⟩ := List.mem_iff_getElem?.1 hv
      rw [hf.only_output l v hl ((free_iff_name hdrm hwl hl).2 hno) hfv, hw] at hl
      exact (Option.some.inj hl).symm
    · obtain ⟨k, hk⟩ := List.mem_iff_getElem?.1 ho
      rw [hf.only_connector k o hk ((unmatched_iff_name hdrm hwl hk).2 hno) hs, hd] at hk
      exact (Option.some.inj hk).symm
  · intro h
    refine ⟨(unmatched_iff_name hdrm hwl hd).2 h.connector, (free_iff_name hdrm hwl hw).2 h.output,
      ⟨w, hw, h.fits⟩, fun l v hv hl hfv => ?_, fun k o ho hk hs => ?_⟩
    · have heq := h.only_output v (List.mem_of_getElem? hv) ((free_iff_name hdrm hwl hv).1 hl) hfv
      exact index_unique hwl hv hw (congrArg _ heq)
    · have heq := h.only_connector o (List.mem_of_getElem? ho) ((unmatched_iff_name hdrm hwl ho).1 hk) hs
      exact index_unique hdrm ho hd (congrArg _ heq)

theorem identityMatches_iff_entries {i j : Nat} {d : DrmDisplayInfo} {w : WaylandDisplayInfo}
    (hd : drm[i]? = some d) (hw : wl[j]? = some w) :
    (identityMatches drm wl)[i]? = some (some j) ↔ w.normalName = d.normalName ∨ OnlyRemaining drm wl d w := by
  rw [identityMatches_iff, namePass_iff hdrm hwl hd hw, ← forced_iff_only hdrm hwl hd hw]
  refine or_congr_right ⟨?_, fun h => ⟨d, hd, h⟩⟩
  rintro ⟨e, he, hf⟩
  rw [hd] at he
  cases he
  exact hf

end Distinct

/-- Entries keep their match when the lists are reordered. -/
theorem identityMatches_perm (hdrm : (drm.map (·.normalName)).Nodup) (hwl : (wl.map (·.normalName)).Nodup)
    {drm' : List DrmDisplayInfo} {wl' : List WaylandDisplayInfo} (hpd : drm.Perm drm') (hpw : wl.Perm wl')
    {i j i' j' : Nat} {d : DrmDisplayInfo} {w : WaylandDisplayInfo} (hd : drm[i]? = some d)
    (hd' : drm'[i']? = some d) (hw : wl[j]? = some w) (hw' : wl'[j']? = some w) :
    (identityMatches drm wl)[i]? = some (some j) ↔ (identityMatches drm' wl')[i']? = some (some j') := by
  rw [identityMatches_iff_entries hdrm hwl hd hw,
    identityMatches_iff_entries (((hpd.map _).nodup_iff).1 hdrm) (((hpw.map _).nodup_iff).1 hwl) hd' hw']
  exact or_congr_right ⟨OnlyRemaining.perm hpd hpw, OnlyRemaining.perm hpd.symm hpw.symm⟩

end FontisRemote.Drm
