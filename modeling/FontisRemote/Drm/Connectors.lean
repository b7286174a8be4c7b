import FontisRemote.Lib.Matching

/-!
# Connectors and outputs

`drm_capturer.rs`: a connector of the DRM list is matched with the output of the Wayland snapshot that shows
the same monitor, by its name and, where that leaves one choice only, by its resolution. What is left over
is paired in layout order. The advertised geometry and the capturer's transform are both read off such a
match.

Of a connector's and an output's fields those that are read here are kept. `get_original_resolution` looks
the connector up among the changed resolutions and is a parameter; its result is a width and a height.
-/

namespace FontisRemote.Drm

open FontisRemote.Lib

structure DrmDisplayInfo where
  name : List Char
  x : Int32
  y : Int32
  width : UInt32
  height : UInt32
  active : Bool
deriving DecidableEq, Repr

structure WaylandDisplayInfo where
  name : List Char
  x : Int32
  y : Int32
  width : Int32
  height : Int32
  logicalSize : Option (Int32 × Int32)
  /-- Degrees. -/
  transform : Int32
deriving DecidableEq, Repr

structure Displays where
  primary : Nat
  displays : List WaylandDisplayInfo

/-! ## The match -/

def normalizeConnector (name : List Char) : List Char :=
  match name.splitOn '-' with
  | [a, b, c] => if (b.map Char.utf8Size).sum = 1 ∧ b.all Char.isAlpha then a ++ '-' :: c else name
  | _ => name

def DrmDisplayInfo.normalName (d : DrmDisplayInfo) : List Char := normalizeConnector d.name
def WaylandDisplayInfo.normalName (w : WaylandDisplayInfo) : List Char := normalizeConnector w.name

def DrmDisplayInfo.fits (d : DrmDisplayInfo) (w : WaylandDisplayInfo) : Bool :=
  w.width == d.width.toInt32 && w.height == d.height.toInt32

def DrmDisplayInfo.sameSize (d o : DrmDisplayInfo) : Bool := o.width == d.width && o.height == d.height

section Passes

variable (drm : List DrmDisplayInfo) (wl : List WaylandDisplayInfo)

def nameStep (a : Assignment) (entry : DrmDisplayInfo × Nat) : Assignment :=
  match wl.zipIdx.find? fun p => a.isFree p.2 && p.1.normalName == entry.1.normalName with
  | some (_, j) => a.claim entry.2 j
  | none => a

def namePass : Assignment := drm.zipIdx.foldl (nameStep wl) (Assignment.empty drm.length wl.length)

def resolutionStep (a : Assignment) (entry : DrmDisplayInfo × Nat) : Assignment :=
  if a.isUnmatched entry.2 then
    let freeSame := wl.zipIdx.filter fun p => a.isFree p.2 && entry.1.fits p.1
    let unmatchedSame := drm.zipIdx.filter fun p => a.isUnmatched p.2 && entry.1.sameSize p.1
    match freeSame with
    | [(_, j)] => if unmatchedSame.length = 1 then a.claim entry.2 j else a
    | _ => a
  else a

def resolutionPass : Assignment := drm.zipIdx.foldl (resolutionStep drm wl) (namePass drm wl)

def identityMatches : List (Option Nat) := (resolutionPass drm wl).matched

def fallbackStep (a : Assignment) (entry : DrmDisplayInfo × Nat) : Assignment :=
  if a.isUnmatched entry.2 then
    let freeSameSize := (wl.zipIdx.find? fun p => a.isFree p.2 && entry.1.fits p.1).map Prod.snd
    match freeSameSize.or (a.taken.findIdx? fun t => !t) with
    | some j => a.claim entry.2 j
    | none => a
  else a

def fallbackPass : Assignment :=
  drm.zipIdx.foldl (fallbackStep wl) (Assignment.ofMatched (identityMatches drm wl) wl.length)

def assignWaylandOutputs : List (Option Nat) := (fallbackPass drm wl).matched

end Passes

/-! ## Every pass claims what is free -/

section Sound

variable {drm : List DrmDisplayInfo} {wl : List WaylandDisplayInfo} {a : Assignment} {d : DrmDisplayInfo}
  {i : Nat}

theorem nameStep_cases (wl : List WaylandDisplayInfo) (a : Assignment) (d : DrmDisplayInfo) (i : Nat) :
    (∃ j w, wl[j]? = some w ∧ a.isFree j ∧ w.normalName = d.normalName ∧ nameStep wl a (d, i) = a.claim i j) ∨
      (∀ j w, wl[j]? = some w → w.normalName = d.normalName → ¬ a.isFree j) ∧ nameStep wl a (d, i) = a := by
  unfold nameStep
  cases hf : wl.zipIdx.find? (fun p => a.isFree p.2 && p.1.normalName == d.normalName) with
  | some q =>
    obtain ⟨w, j⟩ := q
    obtain ⟨hw, hp⟩ := find?_zipIdx_eq_some hf
    rw [Bool.and_eq_true, beq_iff_eq] at hp
    exact .inl ⟨j, w, hw, hp.1, hp.2, rfl⟩
  | none =>
    refine .inr ⟨fun j w hw hname hfree => ?_, rfl⟩
    have hno := find?_zipIdx_eq_none hf hw
    simp [hfree, hname] at hno

/-- The connector is the only unmatched one of its size, and the output the only free one. -/
structure Forced (drm : List DrmDisplayInfo) (wl : List WaylandDisplayInfo) (a : Assignment) (i j : Nat)
    (d : DrmDisplayInfo) : Prop where
  unmatched : a.isUnmatched i
  free : a.isFree j
  fits : ∃ w, wl[j]? = some w ∧ d.fits w
  only_output : ∀ l w, wl[l]? = some w → a.isFree l → d.fits w → l = j
  only_connector : ∀ k o, drm[k]? = some o → a.isUnmatched k → d.sameSize o → k = i

theorem DrmDisplayInfo.sameSize_self (d : DrmDisplayInfo) : d.sameSize d := by
  simp [sameSize]

theorem resolutionStep_cases (wl : List WaylandDisplayInfo) (a : Assignment) (hd : drm[i]? = some d) :
    (∃ j, Forced drm wl a i j d ∧ resolutionStep drm wl a (d, i) = a.claim i j) ∨
      (∀ j, ¬ Forced drm wl a i j d) ∧ resolutionStep drm wl a (d, i) = a := by
  unfold resolutionStep
  split
  · rename_i hun
    -- A forced pair is what makes both filters lists of one element.
    have hforced : ∀ j, Forced drm wl a i j d →
        (∃ w, wl.zipIdx.filter (fun p => a.isFree p.2 && d.fits p.1) = [(w, j)]) ∧
          drm.zipIdx.filter (fun p => a.isUnmatched p.2 && d.sameSize p.1) = [(d, i)] := by
      intro j h
      obtain ⟨w, hw, hfits⟩ := h.fits
      refine ⟨⟨w, filter_zipIdx_eq_singleton.2 ⟨hw, ?_, fun v l hv hp => ?_⟩⟩,
        filter_zipIdx_eq_singleton.2 ⟨hd, ?_, fun o k ho hp => ?_⟩⟩
      · simp [h.free, hfits]
      · rw [Bool.and_eq_true] at hp
        exact h.only_output l v hv hp.1 hp.2
      · simp [hun, d.sameSize_self]
      · rw [Bool.and_eq_true] at hp
        exact h.only_connector k o ho hp.1 hp.2
    dsimp only
    split
    · rename_i w j hfree
      split
      · rename_i hone
        refine .inl ⟨j, ?_, rfl⟩
        obtain ⟨⟨o, k⟩, hsame⟩ := List.length_eq_one_iff.1 hone
        obtain ⟨hw, hp, honly⟩ := filter_zipIdx_eq_singleton.1 hfree
        obtain ⟨-, -, honly'⟩ := filter_zipIdx_eq_singleton.1 hsame
        have hik : i = k := honly' d i hd (by simp [hun, d.sameSize_self])
        rw [Bool.and_eq_true] at hp
        refine ⟨hun, hp.1, ⟨w, hw, hp.2⟩, fun l v hv hl hfits => ?_, fun l o' ho' hl hsize => ?_⟩
        · exact honly v l hv (by simp [hl, hfits])
        · rw [hik]
          exact honly' o' l ho' (by simp [hl, hsize])
      · rename_i hone
        refine .inr ⟨fun l h => hone ?_, rfl⟩
        rw [(hforced l h).2]
        rfl
    · rename_i hnone
      refine .inr ⟨fun j h => ?_, rfl⟩
      obtain ⟨w, hw⟩ := (hforced j h).1
      exact hnone w j hw
  · rename_i hun
    exact .inr ⟨fun j h => hun h.unmatched, rfl⟩

theorem fallbackStep_cases (wl : List WaylandDisplayInfo) (a : Assignment) (d : DrmDisplayInfo) (i : Nat) :
    (∃ j, a.isUnmatched i ∧ a.isFree j ∧ fallbackStep wl a (d, i) = a.claim i j) ∨
      (a.isUnmatched i → ∀ j, ¬ a.isFree j) ∧ fallbackStep wl a (d, i) = a := by
  unfold fallbackStep
  split
  · rename_i hun
    dsimp only
    cases hf : wl.zipIdx.find? (fun p => a.isFree p.2 && d.fits p.1) with
    | some q =>
      obtain ⟨w, j⟩ := q
      have hp := (find?_zipIdx_eq_some hf).2
      rw [Bool.and_eq_true] at hp
      exact .inl ⟨j, hun, hp.1, rfl⟩
    | none =>
      rw [Option.map_none, Option.none_or]
      cases hpos : a.taken.findIdx? (fun t => !t) with
      | some j =>
        obtain ⟨hlt, hj, -⟩ := List.findIdx?_eq_some_iff_getElem.1 hpos
        refine .inl ⟨j, hun, Assignment.isFree_iff.2 (List.getElem?_eq_some_iff.2 ⟨hlt, ?_⟩), rfl⟩
        simpa using hj
      | none =>
        refine .inr ⟨fun _ j hfree => ?_, rfl⟩
        have hj := List.findIdx?_eq_none_iff.1 hpos false (List.mem_of_getElem? (Assignment.isFree_iff.1 hfree))
        cases hj
  · rename_i hun
    exact .inr ⟨fun h => absurd h hun, rfl⟩

end Sound

end FontisRemote.Drm
