import FontisRemote.Video.Exact

/-!
# When a reduction raises the ratio

A step that is asked for is at most one, so what `adjust_ratio` proposes for it is not above the ratio;
only the clamp can raise it, where the lower bound is above the ratio already. The latest quality takes it
there when its viewer has left.
-/

namespace FontisRemote.Video

open FontisRemote.Lib

namespace UserData

variable {R : Type} [RatioNumber R] {u : UserData R}

/-- A viewer that has no target has shown nothing. -/
def Fresh (u : UserData R) : Prop :=
  u.delay.fps = none → u.delay = {}

theorem Fresh.noteReduction (h : u.Fresh) (lowered : Bool) :
    (VideoQoS.noteReduction lowered u).Fresh := by
  unfold VideoQoS.noteReduction
  split
  · rename_i hneeds
    intro hfps
    have hnew : u.delay = {} := h hfps
    rw [hnew] at hneeds
    cases hneeds
  · exact h

end UserData

namespace VideoQoS

variable {qos : VideoQoS ℚ}

/-! ## One adjustment -/

theorem limitIncrease_le {v : ℚ} (hv : v ≤ qos.ratio) : qos.limitIncrease v ≤ qos.ratio := by
  unfold limitIncrease
  split
  · dsimp only
    split
    · rename_i habove
      exact (habove.1.trans_le hv).le
    · exact hv
  · exact hv

theorem proposal_le (hpos : 0 < qos.ratio) {maxDelay : Nat} {dynamicScreen : Bool}
    (h : dynamicScreen = false ∨ qos.reduction.isSome = true) :
    qos.proposal maxDelay dynamicScreen ≤ qos.ratio := by
  unfold proposal
  refine limitIncrease_le ?_
  cases hreduction : qos.reduction with
  | some factor =>
    have hfactor : factor ≤ 1 := by
      obtain ⟨p, -, hp⟩ := List.mem_filterMap.mp (reduction_mem hreduction)
      exact (UserDelay.ratioReduction_mem hp).2
    exact mul_le_of_le_one_right hpos.le hfactor
  | none =>
    rw [hreduction] at h
    obtain rfl | h := h
    · exact le_refl _
    · cases h

/-- An adjustment is made, unless a delay is elevated that nobody has confirmed. -/
def Confirmed (qos : VideoQoS ℚ) : Prop :=
  ∃ maxDelay, qos.maxDelay = some maxDelay ∧
    (qos.reduction.isNone && decide (maxDelay ≥ DELAY_THRESHOLD_150MS)) = false

theorem adjustRatio_of_confirmed {maxDelay : Nat} (hvbr : qos.inVbrState = true)
    (hmax : qos.maxDelay = some maxDelay)
    (hgo : (qos.reduction.isNone && decide (maxDelay ≥ DELAY_THRESHOLD_150MS)) = false)
    (dynamicScreen : Bool) (now : Nat) :
    (qos.adjustRatio dynamicScreen now).ratio =
        fclamp qos.minRatio qos.maxRatio (qos.proposal maxDelay dynamicScreen) ∧
      (qos.adjustRatio dynamicScreen now).adjustRatioInstant = now := by
  unfold adjustRatio
  rw [if_pos hvbr, hmax]
  dsimp only
  rw [hgo, if_neg Bool.false_ne_true]
  exact ⟨rfl, rfl⟩

/-- Without one the ratio and the cooldown stay. -/
theorem adjustRatio_of_not_confirmed (h : ¬ (qos.inVbrState = true ∧ qos.Confirmed))
    (dynamicScreen : Bool) (now : Nat) :
    (qos.adjustRatio dynamicScreen now).ratio = qos.ratio ∧
      (qos.adjustRatio dynamicScreen now).adjustRatioInstant = qos.adjustRatioInstant := by
  unfold adjustRatio
  split
  · rename_i hvbr
    cases hmax : qos.maxDelay with
    | none => exact ⟨rfl, rfl⟩
    | some maxDelay =>
      dsimp only
      split
      · exact ⟨rfl, rfl⟩
      · rename_i hgo
        exact absurd ⟨hvbr, maxDelay, hmax, Bool.not_eq_true _ ▸ hgo⟩ h
  · exact ⟨rfl, rfl⟩

theorem latestQuality_of_map {s : VideoQoS ℚ}
    (h : s.users.map (fun p => p.2.quality) = qos.users.map fun p => p.2.quality) :
    s.latestQuality = qos.latestQuality := by
  have hfilter : ∀ t : VideoQoS ℚ, (t.users.filterMap fun p => p.2.quality) =
      (t.users.map fun p => p.2.quality).filterMap id := by
    intro t
    rw [List.filterMap_map]
    rfl
  unfold latestQuality
  rw [hfilter, hfilter, h]

theorem users_adjustRatio (dynamicScreen : Bool) (now : Nat) :
    ∃ f : Int → UserData ℚ → UserData ℚ, (∀ id u, f id u = u ∨ ∃ b, f id u = noteReduction b u) ∧
      (qos.adjustRatio dynamicScreen now).users = Assoc.mapValues f qos.users ∧
      (qos.adjustRatio dynamicScreen now).bitrateStore = qos.bitrateStore := by
  have hsame : qos.users = Assoc.mapValues (fun _ u => u) qos.users := by
    unfold Assoc.mapValues
    exact (List.map_id' _).symm
  unfold adjustRatio
  split
  · split
    · exact ⟨fun _ u => u, fun _ _ => .inl rfl, hsame, rfl⟩
    · split
      · exact ⟨fun _ u => u, fun _ _ => .inl rfl, hsame, rfl⟩
      · dsimp only [resetSendCounters]
        split
        · exact ⟨_, fun _ _ => .inr ⟨_, rfl⟩, rfl, rfl⟩
        · exact ⟨fun _ u => u, fun _ _ => .inl rfl, hsame, rfl⟩
  · exact ⟨fun _ u => u, fun _ _ => .inl rfl, hsame, rfl⟩

theorem latestQuality_mapValues {s : VideoQoS ℚ} {f : Int → UserData ℚ → UserData ℚ}
    (husers : s.users = Assoc.mapValues f qos.users) (hf : ∀ id u, (f id u).quality = u.quality) :
    s.latestQuality = qos.latestQuality := by
  refine latestQuality_of_map ?_
  rw [husers]
  unfold Assoc.mapValues
  rw [List.map_map]
  exact List.map_congr_left fun p _ => hf p.1 p.2

theorem latestQuality_setUser (id : Int) {f : UserData ℚ → UserData ℚ} (hf : ∀ u, (f u).quality = u.quality) :
    (qos.setUser id f).latestQuality = qos.latestQuality := by
  have husers : (qos.setUser id f).users =
      Assoc.mapValues (fun i u => if i = id then f u else u) qos.users := rfl
  refine latestQuality_mapValues husers fun i u => ?_
  split
  · exact hf u
  · rfl

/-- The count is no part of the quality. -/
theorem latestQuality_adjustRatio (dynamicScreen : Bool) (now : Nat) :
    (qos.adjustRatio dynamicScreen now).latestQuality = qos.latestQuality := by
  obtain ⟨f, hf, husers, -⟩ := qos.users_adjustRatio dynamicScreen now
  refine latestQuality_mapValues husers fun id u => ?_
  obtain h | ⟨b, h⟩ := hf id u
  · rw [h]
  · rw [h]
    unfold noteReduction
    split <;> rfl

/-- An adjustment leaves the ratio within the bounds it was made with, and one that does not raise it
within those that the ratio then has. -/
theorem adjustRatio_mem (dynamicScreen : Bool) (now : Nat)
    (hchanged : (qos.adjustRatio dynamicScreen now).ratio ≠ qos.ratio) :
    qos.minRatio ≤ (qos.adjustRatio dynamicScreen now).ratio ∧
      (qos.adjustRatio dynamicScreen now).ratio ≤ qos.latestQuality.ratio ∧
      ((qos.adjustRatio dynamicScreen now).ratio < qos.ratio →
        (qos.adjustRatio dynamicScreen now).minRatio ≤ (qos.adjustRatio dynamicScreen now).ratio) := by
  by_cases hgo : qos.inVbrState = true ∧ qos.Confirmed
  · obtain ⟨hvbr, maxDelay, hmax, hgo⟩ := hgo
    obtain ⟨hratio, -⟩ := adjustRatio_of_confirmed hvbr hmax hgo dynamicScreen now
    have hbounds : qos.minRatio ≤ qos.maxRatio := minRatio_le_maxRatio
    have hmem := fclamp_mem hbounds (qos.proposal maxDelay dynamicScreen)
    rw [← hratio] at hmem
    refine ⟨hmem.1, hmem.2.trans_eq maxRatio_eq, fun hdown => ?_⟩
    obtain ⟨-, -, -, hbitrate⟩ := qos.users_adjustRatio dynamicScreen now
    exact (minRatio_mono (qos.latestQuality_adjustRatio _ _) hbitrate hdown.le).trans hmem.1
  · exact absurd (adjustRatio_of_not_confirmed hgo dynamicScreen now).1 hchanged

/-- An adjustment that does not go after a dynamic screen raises the ratio where the lower bound is above
it, and nowhere else. -/
theorem adjustRatio_le_iff (hpos : 0 < qos.ratio) (hvbr : qos.inVbrState = true) (hgo : qos.Confirmed)
    {dynamicScreen : Bool} (h : dynamicScreen = false ∨ qos.reduction.isSome = true) (now : Nat) :
    (qos.adjustRatio dynamicScreen now).ratio ≤ qos.ratio ↔ qos.minRatio ≤ qos.ratio := by
  obtain ⟨maxDelay, hmax, hgo⟩ := hgo
  rw [(adjustRatio_of_confirmed hvbr hmax hgo dynamicScreen now).1]
  refine ⟨fun hle => ?_, fun hmin => ?_⟩
  · exact (fclamp_mem minRatio_le_maxRatio _).1.trans hle
  · exact fclamp_le hmin (proposal_le hpos h)

/-! ## Every run -/

structure Inv (qos : VideoQoS ℚ) : Prop where
  pos : 0 < qos.ratio
  fresh : ∀ p ∈ qos.users, p.2.Fresh

theorem ratio_pos (q : Quality ℚ) : 0 < q.ratio :=
  (by decide +kernel : (0 : ℚ) < BR_MIN).trans_le q.min_le_ratio

theorem fresh_mapValues (h : ∀ p ∈ qos.users, p.2.Fresh) {f : Int → UserData ℚ → UserData ℚ}
    (hf : ∀ id u, u.Fresh → (f id u).Fresh) : ∀ p ∈ Assoc.mapValues f qos.users, p.2.Fresh := by
  intro p hp
  obtain ⟨q, hq, rfl⟩ := List.mem_map.mp hp
  exact hf q.1 q.2 (h q hq)

theorem Inv.setUser (h : qos.Inv) (id : Int) {f : UserData ℚ → UserData ℚ}
    (hf : ∀ u, u.Fresh → (f u).Fresh) : (qos.setUser id f).Inv := by
  refine ⟨h.pos, fresh_mapValues (f := fun i u => if i = id then f u else u) h.fresh fun i u hu => ?_⟩
  split
  · exact hf u hu
  · exact hu

theorem Inv.adjustRatio (h : qos.Inv) (dynamicScreen : Bool) (now : Nat) :
    (qos.adjustRatio dynamicScreen now).Inv := by
  obtain ⟨f, hf, husers, -⟩ := qos.users_adjustRatio dynamicScreen now
  refine ⟨?_, ?_⟩
  · by_cases hchanged : (qos.adjustRatio dynamicScreen now).ratio = qos.ratio
    · exact h.pos.trans_eq hchanged.symm
    · exact minRatio_pos.trans_le (adjustRatio_mem dynamicScreen now hchanged).1
  · rw [husers]
    refine fresh_mapValues h.fresh fun id u hu => ?_
    obtain hsame | ⟨b, hnoted⟩ := hf id u
    · rw [hsame]
      exact hu
    · rw [hnoted]
      exact hu.noteReduction b

theorem Inv.adjustFps (h : qos.Inv) (now : Nat) : (qos.adjustFps now).Inv :=
  ⟨h.pos, h.fresh⟩

theorem Inv.afterReply (h : qos.Inv) (adjustRatio reduceBitrate : Bool) (now : Nat) :
    (qos.afterReply adjustRatio reduceBitrate now).Inv := by
  have hadjust : ∀ (s : VideoQoS ℚ) (b : Bool), s.Inv →
      VideoQoS.Inv (if b then s.adjustRatio false now else s) := by
    intro s b hs
    split
    · exact hs.adjustRatio false now
    · exact hs
  unfold VideoQoS.afterReply
  exact hadjust _ _ (hadjust _ _ (h.adjustFps now))

theorem Inv.apply (h : qos.Inv) (e : Nat × Event) : (qos.apply e).Inv := by
  obtain ⟨now, e⟩ := e
  unfold VideoQoS.apply
  cases e with
  | connectionOpen id enableAbr =>
    refine ⟨h.pos, fun p hp => ?_⟩
    obtain rfl | hp := Assoc.mem_put hp
    · exact fun _ => rfl
    · exact h.fresh p hp
  | connectionClose id =>
    dsimp only [onConnectionClose]
    split
    · refine ⟨ratio_pos .balanced, ?_⟩
      intro p hp
      cases hp
    · exact ⟨h.pos, fun p hp => h.fresh p (List.mem_filter.mp hp).1⟩
  | customFps id fps =>
    dsimp only [userCustomFps]
    split
    · exact h.setUser id fun u hu => hu
    · exact h
  | autoAdjustFps id fps =>
    dsimp only [userAutoAdjustFps]
    split
    · exact h.setUser id fun u hu => hu
    · exact h
  | imageQuality id imageQuality time =>
    dsimp only [userImageQuality]
    split
    · have hset := h.setUser id (f := fun u => { u with quality := some (time, convertQuality imageQuality) })
        fun u hu => hu
      exact ⟨ratio_pos _, hset.fresh⟩
    · exact h
  | record id v => exact h.setUser id fun u hu => hu
  | networkDelay id delay =>
    dsimp only [userNetworkDelay]
    split
    · exact h.adjustFps now
    · refine (h.setUser id ?_).afterReply _ _ now
      intro u hu hfps
      cases hfps
  | delayResponseElapsed id elapsed =>
    dsimp only [userDelayResponseElapsed]
    split
    · exact h
    · split
      · exact h
      · refine (h.setUser id ?_).adjustFps now
        intro u hu hfps
        cases hfps
  | newDisplay name => exact ⟨h.pos, h.fresh⟩
  | removeDisplay name => exact ⟨h.pos, h.fresh⟩
  | supportChangingQuality name support => exact ⟨h.pos, h.fresh⟩
  | updateDisplayData name sendCounter =>
    have hcounted : ∀ displays, (VideoQoS.adjustFps { qos with displays := displays } now).Inv :=
      fun _ => ⟨h.pos, h.fresh⟩
    dsimp only [updateDisplayData]
    split
    · split
      · exact (hcounted _).adjustRatio _ now
      · exact hcounted _
    · exact ⟨ratio_pos _, h.fresh⟩
  | storeBitrate bitrate => exact ⟨h.pos, h.fresh⟩
  | readRatio =>
    refine ⟨?_, h.fresh⟩
    dsimp only
    split
    · exact ratio_pos .balanced
    · exact h.pos
  | rehash ids =>
    dsimp only [VideoQoS.rehash]
    split
    · refine ⟨h.pos, fun p hp => ?_⟩
      obtain ⟨id, -, hid⟩ := List.mem_filterMap.mp hp
      obtain ⟨u, hu, rfl⟩ := Option.map_eq_some_iff.mp hid
      exact h.fresh (id, u) (Assoc.mem_of_get hu)
    · exact h

theorem inv_of_reachable (h : Reachable Initial step qos) : qos.Inv := by
  refine h.invariant (I := Inv) ?_ ?_
  · rintro s ⟨now, first, rfl⟩
    refine ⟨ratio_pos .balanced, ?_⟩
    intro p hp
    cases hp
  · intro s e s' hs hstep
    obtain rfl := Option.some.inj hstep
    exact hs.apply e

/-! ## A call -/

/-- Some viewer's own evidence asks for a reduction. -/
def Asked (qos : VideoQoS ℚ) : Prop :=
  ∃ id u, Assoc.get qos.users id = some u ∧ (u.delay.ratioReduction : Option ℚ).isSome = true

theorem Asked.reduction (h : qos.Asked) : qos.reduction.isSome = true := by
  obtain ⟨id, u, hu, hasks⟩ := h
  obtain ⟨factor, hfactor⟩ := Option.isSome_iff_exists.mp hasks
  have hmem : factor ∈ qos.users.filterMap fun p => p.2.delay.ratioReduction :=
    List.mem_filterMap.mpr ⟨(id, u), Assoc.mem_of_get hu, hfactor⟩
  unfold VideoQoS.reduction
  split
  · rename_i hnil
    rw [hnil] at hmem
    cases hmem
  · rfl

/-- What is asked for is done. -/
theorem Asked.confirmed (h : qos.Asked) : qos.Confirmed := by
  obtain ⟨id, u, hu, -⟩ := id h
  have hmax : qos.maxDelay.isSome = true := by
    unfold VideoQoS.maxDelay
    rw [List.isSome_max?_iff]
    exact List.ne_nil_of_mem (List.mem_map.mpr ⟨(id, u), Assoc.mem_of_get hu, rfl⟩)
  obtain ⟨maxDelay, hmax⟩ := Option.isSome_iff_exists.mp hmax
  refine ⟨maxDelay, hmax, ?_⟩
  rw [Option.isNone_eq_false_iff.mpr h.reduction]
  rfl

/-- The calls of the connections and of the video service. -/
def isCall : Event → Bool
  | .updateDisplayData _ _ => true
  | .networkDelay _ _ => true
  | .delayResponseElapsed _ _ => true
  | _ => false

/-- The calls that adjust the ratio whatever the bitrate is: with the cooldown over, a frame, and where it
counts as one the first reply of a viewer. -/
def adjusts (qos : VideoQoS ℚ) (now : Nat) : Event → Bool
  | .updateDisplayData _ _ => qos.cooledDown now
  | .networkDelay id _ =>
    (Assoc.get qos.users id).any (fun u => u.delay.fps.isNone) && qos.firstReplyAdjustsRatio &&
      qos.cooledDown now
  | _ => false

theorem updateDisplayData_le_iff (hpos : 0 < qos.ratio) (hvbr : qos.inVbrState = true) (hasked : qos.Asked)
    (name : String) (sendCounter now : Nat) :
    (qos.updateDisplayData name sendCounter now).ratio ≤ qos.ratio ↔
      ¬ (qos.cooledDown now = true ∧ qos.ratio < qos.minRatio) := by
  let counted : VideoQoS ℚ := adjustFps { qos with
    displays := Assoc.mapValues
      (fun n e => if n = name then { e with sendCounter := e.sendCounter + sendCounter } else e)
      qos.displays } now
  have hcounted : counted.inVbrState = true := by
    obtain ⟨habr, hsupport⟩ := Bool.and_eq_true_iff.mp hvbr
    refine Bool.and_eq_true_iff.mpr ⟨habr, List.all_eq_true.mpr fun e he => ?_⟩
    obtain ⟨d, hd, rfl⟩ := List.mem_map.mp he
    have hd : d.2.supportChangingQuality = true := List.all_eq_true.mp hsupport d hd
    dsimp only
    split
    · exact hd
    · exact hd
  have hasked' : counted.Asked := hasked
  unfold updateDisplayData
  dsimp only
  rw [if_pos hcounted]
  split
  · rename_i hcool
    have hpos' : 0 < counted.ratio := hpos
    have hle : ∀ dynamicScreen, (counted.adjustRatio dynamicScreen now).ratio ≤ counted.ratio ↔
        counted.minRatio ≤ counted.ratio := fun _ =>
      adjustRatio_le_iff hpos' hcounted hasked'.confirmed (.inr hasked'.reduction) now
    exact (hle _).trans ⟨fun hmin h => not_le.mpr h.2 hmin, fun h => not_lt.mp fun hlt => h ⟨hcool, hlt⟩⟩
  · rename_i hcool
    exact ⟨fun _ h => hcool h.1, fun _ => le_refl _⟩

/-- An adjustment after a reply is not after a dynamic screen. -/
theorem adjustRatio_le (hpos : 0 < qos.ratio) (hmin : qos.minRatio ≤ qos.ratio) (now : Nat) :
    (qos.adjustRatio false now).ratio ≤ qos.ratio := by
  by_cases hgo : qos.inVbrState = true ∧ qos.Confirmed
  · exact (adjustRatio_le_iff hpos hgo.1 hgo.2 (.inl rfl) now).mpr hmin
  · exact (adjustRatio_of_not_confirmed hgo false now).1.le

/-- Another viewer's evidence stays through a reply. -/
theorem Asked.setUser {id : Int} {u : UserData ℚ} (h : qos.Asked) (hu : Assoc.get qos.users id = some u)
    (hnone : (u.delay.ratioReduction : Option ℚ) = none) {f : UserData ℚ → UserData ℚ} : (qos.setUser id f).Asked := by
  obtain ⟨i, v, hv, hasks⟩ := h
  have hother : i ≠ id := by
    rintro rfl
    obtain rfl := Option.some.inj (hu.symm.trans hv)
    rw [hnone] at hasks
    cases hasks
  refine ⟨i, v, ?_, hasks⟩
  unfold VideoQoS.setUser
  dsimp only
  rw [Assoc.get_mapValues, hv, Option.map_some, if_neg hother]

theorem quality_reply (delay : Nat) (u : UserData ℚ) : (qos.reply delay u).1.quality = u.quality := by
  unfold reply UserData.networkDelay
  rfl

theorem userNetworkDelay_le_iff (hinv : qos.Inv) (hvbr : qos.inVbrState = true) (hasked : qos.Asked)
    (id : Int) (delay now : Nat) :
    (qos.userNetworkDelay id delay now).ratio ≤ qos.ratio ↔
      ¬ (qos.adjusts now (.networkDelay id delay) = true ∧ qos.ratio < qos.minRatio) := by
  unfold userNetworkDelay
  cases hu : Assoc.get qos.users id with
  | none =>
    have hadjusts : qos.adjusts now (.networkDelay id delay) = false := by
      dsimp only [adjusts]
      rw [hu]
      rfl
    dsimp only
    rw [hadjusts]
    exact ⟨fun _ h => Bool.false_ne_true h.1, fun _ => le_refl _⟩
  | some u =>
    dsimp only
    set replied := (qos.setUser id fun u => (qos.reply delay u).1).adjustFps now
    have hadjusts : qos.adjusts now (.networkDelay id delay) =
        ((qos.reply delay u).2.1 && replied.firstReplyAdjustsRatio && replied.cooledDown now) := by
      dsimp only [adjusts]
      rw [hu]
      rfl
    have hquality : replied.latestQuality = qos.latestQuality :=
      latestQuality_setUser (f := fun u => (qos.reply delay u).1) id (quality_reply delay)
    have hbitrate : replied.bitrateStore = qos.bitrateStore := rfl
    have hratio : replied.ratio = qos.ratio := rfl
    have hmin : replied.minRatio = qos.minRatio :=
      le_antisymm (minRatio_mono hquality hbitrate hratio.le)
        (minRatio_mono hquality.symm hbitrate.symm hratio.ge)
    have hpos : 0 < replied.ratio := hinv.pos
    have hvbr : replied.inVbrState = true := hvbr
    have hadjusted : (qos.setUser id fun u => (qos.reply delay u).1).adjustFps now = replied := rfl
    rw [hadjusts]
    unfold afterReply
    dsimp only
    rw [hadjusted]
    by_cases hfirst : ((qos.reply delay u).2.1 && replied.firstReplyAdjustsRatio &&
        replied.cooledDown now) = true
    · -- the viewer has shown nothing, so it is another one's evidence
      have hnew : u.delay.fps = none := by
        obtain ⟨hnone, -⟩ := Bool.and_eq_true_iff.mp hfirst
        exact Option.isNone_iff_eq_none.mp (Bool.and_eq_true_iff.mp hnone).1
      have hempty : u.delay = {} := hinv.fresh _ (Assoc.mem_of_get hu) hnew
      have hasked' : replied.Asked := hasked.setUser (f := fun u => (qos.reply delay u).1) hu (by rw [hempty]; rfl)
      obtain ⟨maxDelay, hmax, hgo⟩ := hasked'.confirmed
      have hspent : (replied.adjustRatio false now).cooledDown now = false := by
        unfold cooledDown secsSince
        rw [(adjustRatio_of_confirmed hvbr hmax hgo false now).2, Nat.sub_self]
        rfl
      have hle : (replied.adjustRatio false now).ratio ≤ replied.ratio ↔ replied.minRatio ≤ replied.ratio :=
        adjustRatio_le_iff hpos hvbr ⟨maxDelay, hmax, hgo⟩ (.inl rfl) now
      rw [if_pos hfirst]
      rw [hspent, Bool.and_false, if_neg Bool.false_ne_true]
      rw [hmin] at hle
      exact hle.trans ⟨fun hmin h => not_le.mpr h.2 hmin, fun h => not_lt.mp fun hlt => h ⟨hfirst, hlt⟩⟩
    · rw [if_neg hfirst]
      refine ⟨fun _ h => hfirst h.1, fun _ => ?_⟩
      split
      · -- asked for only while the ratio is above its bound
        rename_i hreduce
        have hcan : qos.canReduceBitrate = true :=
          (Bool.and_eq_true_iff.mp (Bool.and_eq_true_iff.mp (Bool.and_eq_true_iff.mp hreduce).1).1).1
        have habove : qos.minRatio * 1.02 < qos.ratio :=
          of_decide_eq_true (Bool.and_eq_true_iff.mp hcan).2
        have hminPos : 0 < qos.minRatio := minRatio_pos
        have hbelow : replied.minRatio ≤ replied.ratio := by
          rw [hmin]
          exact (by linarith : qos.minRatio ≤ qos.ratio)
        exact adjustRatio_le hpos hbelow now
      · exact le_refl _

/-- In every state reached in which a viewer's evidence asks for a reduction, a call keeps the ratio or
takes it down, unless it adjusts it with the lower bound above it; and every adjustment that changes the
ratio leaves it within the bounds. -/
theorem reduction_lowers_iff (hx : Reachable Initial step qos) (hvbr : qos.inVbrState = true)
    (hasked : qos.Asked) {e : Event} (he : isCall e = true) (now : Nat) :
    ((qos.apply (now, e)).ratio ≤ qos.ratio ↔
      ¬ (qos.adjusts now e = true ∧ qos.ratio < qos.minRatio)) ∧
    ∀ (s : VideoQoS ℚ) (dynamicScreen : Bool) (at' : Nat), (s.adjustRatio dynamicScreen at').ratio ≠ s.ratio →
      s.minRatio ≤ (s.adjustRatio dynamicScreen at').ratio ∧
        (s.adjustRatio dynamicScreen at').ratio ≤ s.latestQuality.ratio ∧
        ((s.adjustRatio dynamicScreen at').ratio < s.ratio →
          (s.adjustRatio dynamicScreen at').minRatio ≤ (s.adjustRatio dynamicScreen at').ratio) := by
  refine ⟨?_, fun s dynamicScreen at' hchanged => adjustRatio_mem dynamicScreen at' hchanged⟩
  have hinv := inv_of_reachable hx
  cases e with
  | updateDisplayData name sendCounter =>
    exact updateDisplayData_le_iff hinv.pos hvbr hasked name sendCounter now
  | networkDelay id delay => exact userNetworkDelay_le_iff hinv hvbr hasked id delay now
  | delayResponseElapsed id elapsed =>
    have hsame : (qos.userDelayResponseElapsed id elapsed now).ratio = qos.ratio := by
      unfold userDelayResponseElapsed
      split
      · rfl
      · split <;> rfl
    exact ⟨fun _ h => Bool.false_ne_true h.1, fun _ => hsame.le⟩
  | _ => cases he

theorem reachable_foldl (now : Nat) (first : Bool) (es : List (Nat × Event)) :
    Reachable Initial step
      (es.foldl apply ({ adjustRatioInstant := now, firstReplyAdjustsRatio := first } : VideoQoS ℚ)) := by
  have hruns : ∀ (es : List (Nat × Event)) (s : VideoQoS ℚ),
      runs step s es = some (es.foldl apply s) := by
    intro es
    induction es with
    | nil => exact fun s => rfl
    | cons e es ih => exact fun s => ih (s.apply e)
  exact Reachable.append ⟨[], .start ⟨now, first, rfl⟩⟩ (hruns es _)

/-- Two viewers, the first with the best and the second, later, with the low quality; the first does not
answer. -/
def stalled : VideoQoS ℚ :=
  [(0, .connectionOpen 1 true), (0, .newDisplay "0"), (0, .supportChangingQuality "0" true),
    (1000, .imageQuality 1 4 1), (2000, .connectionOpen 2 true), (2000, .imageQuality 2 2 2),
    (5000, .delayResponseElapsed 1 2500), (6000, .delayResponseElapsed 1 3500)].foldl apply
      { firstReplyAdjustsRatio := true }

/-- A frame takes the ratio from 0.5 to 0.4. -/
theorem reduction_lowers_iff_stalled :
    Reachable Initial step stalled ∧ stalled.Asked ∧
      (stalled.apply (6000, .updateDisplayData "0" 0)).ratio ≤ stalled.ratio ∧
      (stalled.apply (6000, .updateDisplayData "0" 0)).ratio = 4 / 10 := by
  have hx : Reachable Initial step stalled := reachable_foldl 0 true _
  have hasked : stalled.Asked := ⟨1, _, rfl, by decide +kernel⟩
  obtain ⟨hle, -⟩ := reduction_lowers_iff hx (by decide +kernel) hasked
    (e := .updateDisplayData "0" 0) rfl 6000
  exact ⟨hx, hasked, hle.mpr (by decide +kernel), by decide +kernel⟩

/-- Had the second viewer left before it, the frame would have taken it up to 0.6, the lower bound of the
best quality. -/
theorem reduction_raises :
    ∃ (qos : VideoQoS ℚ) (e : Event) (now : Nat), Reachable Initial step qos ∧ qos.inVbrState = true ∧ qos.Asked ∧ isCall e = true ∧
      qos.ratio = 1 / 2 ∧ (qos.apply (now, e)).ratio = 6 / 10 := by
  have hleave : runs step stalled [(6000, .connectionClose 2)] =
      some (stalled.apply (6000, .connectionClose 2)) := rfl
  have hx : Reachable Initial step (stalled.apply (6000, .connectionClose 2)) :=
    Reachable.append (reachable_foldl 0 true _) hleave
  exact ⟨_, .updateDisplayData "0" 0, 6000, hx, by decide +kernel, ⟨1, _, rfl, by decide +kernel⟩, rfl,
    by decide +kernel, by decide +kernel⟩

end VideoQoS

end FontisRemote.Video
