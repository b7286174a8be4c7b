import FontisRemote.Drm.IdentityMatch

/-!
# The advertised geometry and the delivered one

`augment_with_wayland_geometry_from` says what a display is advertised as, `transform_and_origin` how the
capturer turns its frames and where it puts them. They run the match of the same snapshot each for itself,
behind guards of their own. A rotation is taken from an identity match only, and the assignment extends the
identity matches, so both take it from the same output.

`scale` is the quotient it is computed as, numerator first.
-/

namespace FontisRemote.Drm

open FontisRemote.Lib

structure DisplayInfo where
  x : Int32
  y : Int32
  width : Int32
  height : Int32
  name : List Char
  online : Bool
  cursorEmbedded : Bool
  originalResolution : Int32 × Int32
  scale : Int32 × Int32
deriving DecidableEq, Repr

/-- The source's `as usize` of an `i32`. -/
def asUsize (v : Int32) : Nat := (v.toInt % 2 ^ 64).toNat

def rotatedDims (transform : Int32) (w h : Nat) : Nat × Nat :=
  if transform = 90 ∨ transform = 270 then (h, w) else (w, h)

section Advertised

variable (getOriginalResolution : List Char → Nat → Nat → Int32 × Int32)

def displayInfoFromDrm (d : DrmDisplayInfo) : DisplayInfo where
  x := d.x
  y := d.y
  width := d.width.toInt32
  height := d.height.toInt32
  name := d.name
  online := d.active
  cursorEmbedded := false
  originalResolution := getOriginalResolution d.name d.width.toNat d.height.toNat
  scale := (1, 1)

namespace DisplayInfo

def swapped (info : DisplayInfo) (d : DrmDisplayInfo) : DisplayInfo :=
  { info with
    width := info.height
    height := info.width
    originalResolution := getOriginalResolution d.name (asUsize info.height) (asUsize info.width) }

def scaled (info : DisplayInfo) (d : DrmDisplayInfo) (w : WaylandDisplayInfo) : DisplayInfo :=
  match w.logicalSize with
  | some (lw, lh) =>
    if 0 < lw ∧ 0 < lh then
      { info with
        scale := (info.width, lw)
        originalResolution := getOriginalResolution d.name (asUsize lw) (asUsize lh) }
    else info
  | none => info

/-- What becomes of a display with the output it was given. -/
def augmented (info : DisplayInfo) (d : DrmDisplayInfo) (w : WaylandDisplayInfo) (isIdentity originOnly : Bool) :
    DisplayInfo :=
  let info := { info with x := w.x, y := w.y }
  let info :=
    if isIdentity ∧ (w.transform = 90 ∨ w.transform = 270) then info.swapped getOriginalResolution d else info
  if originOnly then info else info.scaled getOriginalResolution d w

end DisplayInfo

def augmentWithWaylandGeometryFrom (drm : List DrmDisplayInfo) (wl : Displays) (matched : List (Option Nat)) :
    List DisplayInfo :=
  let infos := drm.map (displayInfoFromDrm getOriginalResolution)
  if drm.isEmpty then infos
  else if wl.displays.isEmpty then infos
  else
    let originOnly := wl.displays.length == 1
    if originOnly && decide (drm.length > 1) then infos
    else
      let identity := identityMatches drm wl.displays
      infos.zipIdx.map fun (info, i) =>
        match drm[i]?, matched[i]?.join.bind fun j => wl.displays[j]? with
        | some d, some w =>
          let isIdentity := identity[i]?.join.isSome && identity[i]?.join == matched[i]?.join
          info.augmented getOriginalResolution d w isIdentity originOnly
        | _, _ => info

/-- With the snapshot it reads. -/
def augmentWithWaylandGeometry (drm : List DrmDisplayInfo) (wl : Displays) : List DisplayInfo :=
  augmentWithWaylandGeometryFrom getOriginalResolution drm wl (assignWaylandOutputs drm wl.displays)

/-- The second component is `UNROTATED_SNAPSHOT_PENDING`, before and after. -/
def transformAndOrigin (drm : List DrmDisplayInfo) (wireIdx : Nat) (wl : Displays) (pending : Bool) :
    (Int32 × Option (Int32 × Int32)) × Bool :=
  if wl.displays.isEmpty || (wl.displays.length == 1 && decide (drm.length > 1)) then
    ((0, none), pending || (wl.displays.isEmpty && !drm.isEmpty))
  else
    let assignment := assignWaylandOutputs drm wl.displays
    let transform := ((identityMatches drm wl.displays)[wireIdx]?.join.bind fun j =>
      wl.displays[j]?.map (·.transform)).getD 0
    let origin := (augmentWithWaylandGeometryFrom getOriginalResolution drm wl assignment)[wireIdx]?.map
      fun di => (di.x, di.y)
    ((transform, origin), pending)

/-! ## Both follow the same output -/

namespace DisplayInfo

variable (info : DisplayInfo) (d : DrmDisplayInfo) (w : WaylandDisplayInfo) (isIdentity originOnly : Bool)

theorem scaled_size : ((info.scaled getOriginalResolution d w).width, (info.scaled getOriginalResolution d w).height) =
    (info.width, info.height) := by
  unfold scaled
  split
  · split <;> rfl
  · rfl

theorem augmented_size : ((info.augmented getOriginalResolution d w isIdentity originOnly).width,
    (info.augmented getOriginalResolution d w isIdentity originOnly).height) =
      if isIdentity ∧ (w.transform = 90 ∨ w.transform = 270) then (info.height, info.width)
      else (info.width, info.height) := by
  unfold augmented
  dsimp only
  cases originOnly with
  | true =>
    rw [if_pos rfl]
    split <;> rfl
  | false =>
    rw [if_neg Bool.false_ne_true, scaled_size]
    split <;> rfl

end DisplayInfo

section Places

variable {drm : List DrmDisplayInfo} {wl : Displays} {i : Nat} {d : DrmDisplayInfo}

theorem assigned_of_identity {j : Nat} (h : (identityMatches drm wl.displays)[i]? = some (some j)) :
    (assignWaylandOutputs drm wl.displays)[i]? = some (some j) :=
  (fallenBack drm wl.displays).extended i j h

/-- The snapshot is not used: it is empty, or it shows one output for several connectors. -/
def unusable (drm : List DrmDisplayInfo) (wl : Displays) : Bool :=
  wl.displays.isEmpty || (wl.displays.length == 1 && decide (drm.length > 1))

theorem augmented_unusable (hd : drm[i]? = some d) (hun : unusable drm wl) :
    (augmentWithWaylandGeometry getOriginalResolution drm wl)[i]? =
      some (displayInfoFromDrm getOriginalResolution d) := by
  have hget : (drm.map (displayInfoFromDrm getOriginalResolution))[i]? =
      some (displayInfoFromDrm getOriginalResolution d) := by
    rw [List.getElem?_map, hd, Option.map_some]
  unfold augmentWithWaylandGeometry augmentWithWaylandGeometryFrom
  dsimp only
  split
  · exact hget
  · split
    · exact hget
    · rename_i hempty
      rw [unusable, Bool.eq_false_iff.2 hempty, Bool.false_or] at hun
      rw [if_pos hun]
      exact hget

theorem augmented_usable (hd : drm[i]? = some d) (hun : unusable drm wl = false) {o : Option Nat}
    (ho : (assignWaylandOutputs drm wl.displays)[i]? = some o) :
    (augmentWithWaylandGeometry getOriginalResolution drm wl)[i]? = some
      ((o.bind fun j => wl.displays[j]?).elim (displayInfoFromDrm getOriginalResolution d) fun w =>
        (displayInfoFromDrm getOriginalResolution d).augmented getOriginalResolution d w
          ((identityMatches drm wl.displays)[i]?.join.isSome && (identityMatches drm wl.displays)[i]?.join == o)
          (wl.displays.length == 1)) := by
  rw [unusable, Bool.or_eq_false_iff] at hun
  have hne : drm.isEmpty = false := by
    cases drm with
    | nil => simp at hd
    | cons => rfl
  unfold augmentWithWaylandGeometry augmentWithWaylandGeometryFrom
  dsimp only
  rw [hne, hun.1, hun.2, if_neg Bool.false_ne_true, if_neg Bool.false_ne_true, if_neg Bool.false_ne_true,
    List.getElem?_map, List.getElem?_zipIdx, List.getElem?_map, hd]
  simp only [Option.map_some, Nat.zero_add, ho, hd, Option.join_some]
  cases o.bind fun j => wl.displays[j]? <;> rfl

/-- What the capturer delivers for a connector is what the connector is advertised as. -/
theorem geometry_agrees (hd : drm[i]? = some d) (pending : Bool) :
    ∃ info, (augmentWithWaylandGeometry getOriginalResolution drm wl)[i]? = some info ∧
      (info.width, info.height) =
        ((rotatedDims (transformAndOrigin getOriginalResolution drm i wl pending).1.1 d.width.toNat
          d.height.toNat).map Int32.ofNat Int32.ofNat) ∧
      (info.x, info.y) = (transformAndOrigin getOriginalResolution drm i wl pending).1.2.getD (d.x, d.y) := by
  have hcast : ∀ u : UInt32, Int32.ofNat u.toNat = u.toInt32 := by
    intro u
    rw [← UInt32.toInt32_ofNat', UInt32.ofNat_toNat]
  have hupright : ∀ w h, rotatedDims 0 w h = (w, h) := fun w h => if_neg (by decide)
  cases hun : unusable drm wl with
  | true =>
    refine ⟨_, augmented_unusable getOriginalResolution hd hun, ?_⟩
    have hto : transformAndOrigin getOriginalResolution drm i wl pending =
        ((0, none), pending || (wl.displays.isEmpty && !drm.isEmpty)) := if_pos hun
    rw [hto]
    refine ⟨?_, rfl⟩
    rw [hupright, Prod.map_apply, hcast, hcast]
    rfl
  | false =>
    have hi := (List.getElem?_eq_some_iff.1 hd).1
    have hsound := (fallenBack drm wl.displays).sound
    have hisound := (resolutionsMatched drm wl.displays).sound
    obtain ⟨o, ho⟩ : ∃ o, (assignWaylandOutputs drm wl.displays)[i]? = some o :=
      ⟨_, List.getElem?_eq_getElem (hsound.matched_length ▸ hi)⟩
    have hget := augmented_usable getOriginalResolution hd hun ho
    refine ⟨_, hget, ?_⟩
    have hto : transformAndOrigin getOriginalResolution drm i wl pending =
        ((((identityMatches drm wl.displays)[i]?.join.bind fun j => wl.displays[j]?.map (·.transform)).getD 0,
          (augmentWithWaylandGeometry getOriginalResolution drm wl)[i]?.map fun di => (di.x, di.y)), pending) :=
      if_neg (Bool.eq_false_iff.1 hun)
    rw [hto, hget]
    refine ⟨?_, rfl⟩
    dsimp only
    cases hid : (identityMatches drm wl.displays)[i]?.join with
    | none =>
      -- No rotation is known: neither side turns the picture.
      rw [Option.bind_none, Option.getD_none, hupright, Prod.map_apply, hcast, hcast]
      cases o.bind fun j => wl.displays[j]? with
      | none => rfl
      | some w =>
        rw [Option.elim_some, DisplayInfo.augmented_size, if_neg (by simp)]
        rfl
    | some j =>
      have hid' := Option.join_eq_some_iff.1 hid
      have hassigned := assigned_of_identity hid'
      rw [ho] at hassigned
      cases hassigned
      obtain ⟨w, hw⟩ : ∃ w, wl.displays[j]? = some w :=
        ⟨_, List.getElem?_eq_getElem (hisound.lt (show Assignment.Matches _ i j from hid'))⟩
      rw [Option.bind_some, Option.bind_some, hw, Option.elim_some, DisplayInfo.augmented_size, Option.map_some,
        Option.getD_some, rotatedDims]
      simp only [Option.isSome_some, beq_self_eq_true, Bool.and_self, true_and]
      split
      · rw [Prod.map_apply, hcast, hcast]
        rfl
      · rw [Prod.map_apply, hcast, hcast]
        rfl

end Places

/-- Every list of connectors and every snapshot: the matches, and what is advertised and delivered by them. -/
theorem connectors_agree (drm : List DrmDisplayInfo) (wl : Displays) :
    (MatchInjective (identityMatches drm wl.displays) ∧ MatchInjective (assignWaylandOutputs drm wl.displays)) ∧
    (∀ i j : Nat, (identityMatches drm wl.displays)[i]? = some (some j) →
      (assignWaylandOutputs drm wl.displays)[i]? = some (some j)) ∧
    (∀ i : Nat, (assignWaylandOutputs drm wl.displays)[i]? = some none →
      ∀ j, j < wl.displays.length → ∃ k : Nat, (assignWaylandOutputs drm wl.displays)[k]? = some (some j)) ∧
    (∀ i j : Nat, (identityMatches drm wl.displays)[i]? = some (some j) →
      ∃ d w, drm[i]? = some d ∧ wl.displays[j]? = some w ∧
        (w.normalName = d.normalName ∨ LastOfSize drm wl.displays i j d w)) ∧
    (∀ drm' wl', drm.Perm drm' → wl.displays.Perm wl' → (drm.map (·.normalName)).Nodup →
      (wl.displays.map (·.normalName)).Nodup → ∀ (i j i' j' : Nat) d w, drm[i]? = some d → drm'[i']? = some d →
      wl.displays[j]? = some w → wl'[j']? = some w →
      ((identityMatches drm wl.displays)[i]? = some (some j) ↔ (identityMatches drm' wl')[i']? = some (some j'))) ∧
    (∀ (i : Nat) d pending, drm[i]? = some d →
      ∃ info, (augmentWithWaylandGeometry getOriginalResolution drm wl)[i]? = some info ∧
        (info.width, info.height) =
          ((rotatedDims (transformAndOrigin getOriginalResolution drm i wl pending).1.1 d.width.toNat
            d.height.toNat).map Int32.ofNat Int32.ofNat) ∧
        (info.x, info.y) = (transformAndOrigin getOriginalResolution drm i wl pending).1.2.getD (d.x, d.y)) := by
  have hfall := fallenBack drm wl.displays
  refine ⟨⟨matchInjective_of_sound (resolutionsMatched drm wl.displays).sound, matchInjective_of_sound hfall.sound⟩,
    fun i j => assigned_of_identity, fun i hnone j hj => ?_, fun i j => identity_named_or_last,
    fun drm' wl' hpd hpw hnd hnw i j i' j' d w hd hd' hw hw' =>
      identityMatches_perm hnd hnw hpd hpw hd hd' hw hw',
    fun i d pending hd => geometry_agrees getOriginalResolution hd pending⟩
  -- A connector without an output has seen none that is free.
  have hi := (List.getElem?_eq_some_iff.1 hnone).1
  have hfree := hfall.complete i (hfall.sound.matched_length ▸ hi) (Assignment.isUnmatched_iff.2 hnone) j
  rw [hfall.sound.free_iff hj, not_forall] at hfree
  obtain ⟨k, hk⟩ := hfree
  exact ⟨k, not_not.1 hk⟩

/-- A rotated output listed after another one, and its connector before: the connector is advertised as high
as it is wide. -/
theorem connectors_agree_two :
    let hdmi : DrmDisplayInfo := ⟨"HDMI-A-1".toList, 0, 0, 1920, 1080, true⟩
    let dp : DrmDisplayInfo := ⟨"DP-1".toList, 0, 0, 2560, 1440, true⟩
    let portrait : WaylandDisplayInfo := ⟨"HDMI-1".toList, 2560, 0, 1920, 1080, none, 90⟩
    let wide : WaylandDisplayInfo := ⟨"DP-1".toList, 0, 0, 2560, 1440, none, 0⟩
    (identityMatches [hdmi, dp] [wide, portrait])[0]? = some (some 1) ∧
      (identityMatches [dp, hdmi] [wide, portrait])[1]? = some (some 1) ∧
      ∃ info, (augmentWithWaylandGeometry (fun _ w h => (Int32.ofNat w, Int32.ofNat h)) [hdmi, dp]
        ⟨0, [wide, portrait]⟩)[0]? = some info ∧ (info.width, info.height) = (1080, 1920) ∧
          (info.x, info.y) = (2560, 0) := by
  intro hdmi dp portrait wide
  obtain ⟨-, -, -, -, hperm, hgeometry⟩ := connectors_agree (fun _ w h => (Int32.ofNat w, Int32.ofNat h)) [hdmi, dp]
    ⟨0, [wide, portrait]⟩
  have hid : (identityMatches [hdmi, dp] [wide, portrait])[0]? = some (some 1) := by decide +kernel
  refine ⟨hid, ?_, ?_⟩
  · exact (hperm [dp, hdmi] [wide, portrait] (List.Perm.swap _ _ _) (List.Perm.refl _) (by decide +kernel)
      (by decide +kernel) 0 1 1 1 hdmi portrait rfl rfl rfl rfl).1 hid
  · obtain ⟨info, hinfo, hsize, hplace⟩ := hgeometry 0 hdmi false rfl
    exact ⟨info, hinfo, hsize.trans (by decide +kernel), hplace.trans (by decide +kernel)⟩

end Advertised

end FontisRemote.Drm
