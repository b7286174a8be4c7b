import FontisRemote.Video.Confirmation

/-!
# Caps, the floor and the stream

A reply leaves its viewer a target within the cap of that moment. Caps change without a target being
touched, so over a run a target is only as high as the lowest cap lets it be, and the automatic floor is
taken from that one too. The stream follows the lowest target and the lowest cap.
-/

namespace FontisRemote.Video

open FontisRemote.Lib

/-! ## The floor -/

namespace UserDelay

variable (d : UserDelay) (currentFps fps delay excess : Nat) (bitrateFirst braked : Bool)

theorem min_le_limitBad :
    min currentFps fps ≤ (d.limitBad currentFps fps excess bitrateFirst braked).1 := by
  unfold limitBad
  dsimp only
  split
  · exact Nat.min_le_left _ _
  · split
    · exact Nat.min_le_left _ _
    · exact (Nat.min_le_right _ _).trans (Nat.le_max_left _ _)

theorem min_le_limitFpsChange :
    min currentFps fps ≤ (d.limitFpsChange currentFps fps delay bitrateFirst braked).1 := by
  unfold limitFpsChange
  dsimp only
  split
  · exact (Nat.min_le_left _ _).trans (le_recover _)
  · exact min_le_limitBad _ _ _ _ _ _

end UserDelay

namespace UserData

variable {R : Type} [RatioNumber R] (u : UserData R) {minFps normalFps delay elapsed : Nat} {bitrateFirst : Bool}

/-- A reply takes no target below the floor that was above it. -/
theorem floor_le_networkDelay :
    min u.target (min MIN_AUTO_FPS u.fpsCap) ≤
      (u.networkDelay minFps normalFps bitrateFirst delay).1.target := by
  have hproposed : min MIN_AUTO_FPS u.fpsCap ≤
      (u.propose minFps normalFps bitrateFirst (max delay 10)).1 := Nat.le_max_right _ _
  have hlimited := (u.propose minFps normalFps bitrateFirst (max delay 10)).2.min_le_limitFpsChange u.target
    (u.propose minFps normalFps bitrateFirst (max delay 10)).1 (max delay 10) bitrateFirst u.braked
  have hfloor : min u.target (min MIN_AUTO_FPS u.fpsCap) ≤ min u.target
      (u.propose minFps normalFps bitrateFirst (max delay 10)).1 := min_le_min_left _ hproposed
  have hcap : min u.target (min MIN_AUTO_FPS u.fpsCap) ≤ u.fpsCap :=
    (Nat.min_le_right _ _).trans (Nat.min_le_right _ _)
  rw [target_networkDelay]
  refine le_clamp ?_ hcap
  exact (Nat.le_min.mpr ⟨hfloor.trans hlimited, hcap⟩).trans (UserDelay.accelerateStartup_bounds _).1

variable {u}

/-- Nor does a timeout. -/
theorem Sound.floor_le_delayResponseElapsed (h : u.Sound) :
    min u.target (min MIN_AUTO_FPS u.fpsCap) ≤ (u.delayResponseElapsed elapsed).target := by
  obtain ⟨fps, hfps⟩ := h.target_delayResponseElapsed elapsed
  rw [hfps]
  refine Nat.le_min.mpr ⟨?_, Nat.min_le_left _ _⟩
  exact (Nat.min_le_right _ _).trans (lo_le_clamp (Nat.min_le_right _ _))

end UserData

namespace VideoQoS

variable {R : Type} [RatioNumber R] {qos : VideoQoS R} {id : Int} {u : UserData R}

def opens (id : Int) : Event → Bool
  | .connectionOpen i _ => i == id
  | _ => false

/-- The lowest of a viewer's caps since it joined, with the cap it has now. -/
def lowestCap (id : Int) : (cap : Nat) → List (VideoQoS R × Nat × Event) → Nat
  | cap, [] => cap
  | cap, p :: older =>
    if opens id p.2.2 then cap
    else
      match Assoc.get p.1.users id with
      | some u => lowestCap id (min cap u.fpsCap) older
      | none => lowestCap id cap older

theorem lowestCap_le (cap : Nat) (history : List (VideoQoS R × Nat × Event)) :
    lowestCap id cap history ≤ cap := by
  induction history generalizing cap with
  | nil => exact Nat.le_refl cap
  | cons p older ih =>
    unfold lowestCap
    split
    · exact Nat.le_refl cap
    · split
      · exact (ih _).trans (Nat.min_le_left _ _)
      · exact ih cap

theorem lowestCap_mono {cap cap' : Nat} (h : cap ≤ cap') (history : List (VideoQoS R × Nat × Event)) :
    lowestCap id cap history ≤ lowestCap id cap' history := by
  induction history generalizing cap cap' with
  | nil => exact h
  | cons p older ih =>
    unfold lowestCap
    split
    · exact h
    · split
      · exact ih (min_le_min_right _ h)
      · exact ih h

/-- The targets are above the floor of the lowest cap. -/
def Floored (history : List (VideoQoS R × Nat × Event)) (qos : VideoQoS R) : Prop :=
  ∀ id u fps, Assoc.get qos.users id = some u → u.delay.fps = some fps →
    min MIN_AUTO_FPS (lowestCap id u.fpsCap history) ≤ fps

/-- So are the rates that viewers start from. -/
theorem Floored.le_target {history : List (VideoQoS R × Nat × Event)} (h : Floored history qos)
    (hu : Assoc.get qos.users id = some u) :
    min MIN_AUTO_FPS (lowestCap id u.fpsCap history) ≤ u.target := by
  cases hfps : u.delay.fps with
  | some fps =>
    rw [u.target_of_fps hfps]
    exact h id u fps hu hfps
  | none =>
    rw [UserData.target_of_none hfps]
    exact min_le_min (by decide) (lowestCap_le _ _)

theorem Floored.step {history : List (VideoQoS R × Nat × Event)} {e : Nat × Event}
    (h : Floored history qos) (hsound : qos.AllSound) : Floored ((qos, e) :: history) (qos.apply e) := by
  intro id u' fps hu' hfps
  have hold : ∀ u, Assoc.get qos.users id = some u → opens id e.2 = false →
      min u.target (min MIN_AUTO_FPS u.fpsCap) ≤ fps →
        min MIN_AUTO_FPS (lowestCap id u'.fpsCap ((qos, e) :: history)) ≤ fps := by
    intro u hu hopens hle
    have hlow : lowestCap id u'.fpsCap ((qos, e) :: history) =
        lowestCap id (min u'.fpsCap u.fpsCap) history := by
      dsimp only [lowestCap]
      rw [hopens, if_neg Bool.false_ne_true, hu]
    have hcap : lowestCap id (min u'.fpsCap u.fpsCap) history ≤ u.fpsCap :=
      (lowestCap_le _ _).trans (Nat.min_le_right _ _)
    have hmono : lowestCap id (min u'.fpsCap u.fpsCap) history ≤ lowestCap id u.fpsCap history :=
      lowestCap_mono (Nat.min_le_right _ _) history
    have htarget := h.le_target hu
    rw [hlow]
    omega
  have htarget : u'.target = fps := u'.target_of_fps hfps
  have hforget : ∀ {w : UserData R}, u'.forget = w.forget → w.target = fps := by
    intro w hsame
    have : u'.forget.target = w.forget.target := by rw [hsame]
    exact this.symm.trans htarget
  by_cases hown : e.2.viewer = some id
  · obtain ⟨w, hw, hsame⟩ : ∃ w, serve qos.fpsLevels qos.canReduceBitrate e.1 e.2
        (Assoc.get qos.users id) = some w ∧ u'.forget = w.forget := by
      have hview := qos.view_apply_own id hown
      unfold view at hview
      rw [hu'] at hview
      obtain ⟨w, hw, hsame⟩ := Option.map_eq_some_iff.mp hview.symm
      exact ⟨w, hw, hsame.symm⟩
    have hwfps : w.delay.fps = some fps := by
      have hkept : u'.forget.delay.fps = w.forget.delay.fps := by rw [hsame]
      exact hkept.symm.trans hfps
    have hwtarget : w.target = fps := hforget hsame
    obtain ⟨hnew, -⟩ | ⟨u, hu, hcases⟩ := serve_cases hw
    · rw [hnew] at hwfps
      cases hwfps
    · have hopens : opens id e.2 = false := by
        by_contra hopens
        rw [Bool.not_eq_false] at hopens
        obtain ⟨now, e⟩ := e
        cases e with
        | connectionOpen i enableAbr =>
          obtain rfl := Option.some.inj hw
          cases hwfps
        | _ => cases hopens
      refine hold u hu hopens ?_
      obtain hdelay | ⟨delay, rfl⟩ | ⟨elapsed, rfl⟩ := hcases
      · rw [hdelay] at hwfps
        exact (Nat.min_le_left _ _).trans_eq (u.target_of_fps hwfps)
      · rw [← hwtarget]
        exact u.floor_le_networkDelay
      · rw [← hwtarget]
        exact (hsound id u hu).floor_le_delayResponseElapsed
  · obtain ⟨u, hu, hsame⟩ : ∃ u, Assoc.get qos.users id = some u ∧ u'.forget = u.forget := by
      have hview := qos.view_apply_other id hown
      unfold view at hview
      rw [hu'] at hview
      obtain ⟨u, hu, hsame⟩ := Option.map_eq_some_iff.mp hview.symm
      exact ⟨u, hu, hsame.symm⟩
    refine hold u hu ?_ ((Nat.min_le_left _ _).trans_eq (hforget hsame))
    cases hevent : e.2 with
    | connectionOpen i enableAbr =>
      rw [hevent] at hown
      exact beq_eq_false_iff_ne.mpr fun hi => hown (congrArg some hi)
    | _ => rfl

theorem floored_of_exec {history : List (VideoQoS R × Nat × Event)} (hx : Exec Initial step history qos) :
    Floored history qos := by
  refine hx.induct (I := Floored) ?_ ?_
  · rintro s ⟨now, first, rfl⟩ id u fps hu
    cases hu
  · intro history s e s' hx hfloored hstep
    obtain rfl := Option.some.inj hstep
    exact hfloored.step (allSound_of_exec hx)

/-! ## The cap -/

/-- A reply leaves its viewer with a target, and within its cap. -/
theorem within_apply_networkDelay {now delay : Nat} {u' : UserData R}
    (hu' : Assoc.get (qos.apply (now, .networkDelay id delay)).users id = some u') :
    ∃ fps, u'.delay.fps = some fps ∧ MIN_FPS ≤ fps ∧ fps ≤ u'.fpsCap := by
  have hview := qos.view_apply_own (e := (now, .networkDelay id delay)) id rfl
  unfold view at hview
  rw [hu'] at hview
  obtain ⟨w, hw, hsame⟩ := Option.map_eq_some_iff.mp hview.symm
  obtain ⟨u, -, rfl⟩ := Option.map_eq_some_iff.mp hw
  have htarget := UserData.target_of_forget hsame
  have hcap := UserData.fpsCap_of_forget hsame
  obtain ⟨fps, hfps⟩ : ∃ fps, u'.delay.fps = some fps := by
    have hkept : u'.forget.delay.fps = (UserData.forget _).delay.fps := congrArg (·.delay.fps) hsame.symm
    exact ⟨_, hkept⟩
  refine ⟨fps, hfps, ?_, ?_⟩
  · rw [← u'.target_of_fps hfps, ← htarget]
    exact UserData.sound_networkDelay.pos
  · rw [← u'.target_of_fps hfps, ← htarget, ← hcap, UserData.target_networkDelay,
      UserData.fpsCap_networkDelay]
    exact clamp_le u.min_fps_le_fpsCap

/-! ## The stream -/

/-- A viewer's first second. -/
def starting (now : Nat) (u : UserData R) : Bool :=
  u.joinedAt.any fun joined => decide (secsSince now joined < 1)

/-- What a viewer lets the stream have: its target, and in its first second no more than the rate that
one without a target starts from. -/
def allowed (now : Nat) (u : UserData R) : Nat :=
  let fps := u.delay.fps.getD INIT_FPS
  if starting now u then min fps INIT_FPS else fps

/-- The slowest viewer's, within the lowest cap. -/
def streamFps (now : Nat) (users : List (Int × UserData R)) : Nat :=
  clamp MIN_FPS ((users.map fun p => p.2.fpsCap).min?.getD FPS)
    ((users.map fun p => allowed now p.2).min?.getD INIT_FPS)

/-- One viewer in its first second holds the minimum of them all. -/
theorem min?_allowed (now : Nat) (users : List (Int × UserData R)) :
    (users.map fun p => allowed now p.2).min? =
      (users.map fun p => p.2.delay.fps.getD INIT_FPS).min?.map fun fps =>
        if users.any fun p => starting now p.2 then min fps INIT_FPS else fps := by
  induction users with
  | nil => rfl
  | cons p users ih =>
    rw [List.map_cons, List.map_cons, List.min?_cons, List.min?_cons, ih, List.any_cons, Option.map_some]
    congr 1
    unfold allowed
    dsimp only
    cases hrest : (users.map fun p => p.2.delay.fps.getD INIT_FPS).min? with
    | none =>
      obtain rfl : users = [] := List.map_eq_nil_iff.mp (List.min?_eq_none_iff.mp hrest)
      rw [List.any_nil, Bool.or_false]
      rfl
    | some fps =>
      rw [Option.map_some, Option.elim_some, Option.elim_some]
      cases starting now p.2 with
      | true =>
        rw [Bool.true_or, if_pos rfl, if_pos rfl]
        split <;> omega
      | false =>
        rw [Bool.false_or, if_neg Bool.false_ne_true]
        split <;> omega

/-- The caps are in range by themselves. -/
theorem highestFps_eq : qos.highestFps = (qos.users.map fun p => p.2.fpsCap).min?.getD FPS := by
  have hrange : ∀ n, MIN_FPS ≤ n → n ≤ MAX_FPS → clamp MIN_FPS MAX_FPS n = n := by
    intro n hmin hmax
    unfold clamp
    rw [if_neg (Nat.not_lt.mpr hmin), if_neg (Nat.not_lt.mpr hmax)]
  unfold highestFps
  cases hcaps : (qos.users.map fun p => p.2.fpsCap).min? with
  | none => exact hrange FPS (by decide) (by decide)
  | some cap =>
    obtain ⟨p, -, rfl⟩ := List.mem_map.mp (List.min?_mem hcaps)
    exact hrange _ p.2.min_fps_le_fpsCap (clamp_le (by decide))

theorem fps_adjustFps (now : Nat) : (qos.adjustFps now).fps = streamFps now qos.users := by
  unfold adjustFps streamFps
  dsimp only
  rw [highestFps_eq, min?_allowed]
  congr 1
  cases hfps : (qos.users.map fun p => p.2.delay.fps.getD INIT_FPS).min? with
  | none => exact (if_congr Iff.rfl (Nat.min_self _) rfl).trans (ite_self _)
  | some fps => rfl

/-- The count is no part of the stream either. -/
theorem streamFps_of_forget (now : Nat) {users : List (Int × UserData R)} {f : Int → UserData R → UserData R}
    (hf : ∀ id u, (f id u).forget = u.forget) :
    streamFps now (Assoc.mapValues f users) = streamFps now users := by
  have hallowed : ∀ id u, allowed now (f id u) = allowed now u := by
    intro id u
    have h : allowed now (f id u).forget = allowed now u.forget := by rw [hf]
    exact h
  unfold streamFps Assoc.mapValues
  simp only [List.map_map, Function.comp_def, hallowed, UserData.fpsCap_of_forget (hf _ _)]

/-- The stream goes at the rate of the slowest viewer. -/
def Streams (now : Nat) (qos : VideoQoS R) : Prop :=
  qos.fps = streamFps now qos.users

/-- The ratio leaves the rate alone. -/
theorem Streams.adjustRatio {now : Nat} (h : qos.Streams now) (dynamicScreen : Bool) (at' : Nat) :
    (qos.adjustRatio dynamicScreen at').Streams now := by
  unfold VideoQoS.adjustRatio
  split
  · split
    · exact h
    · dsimp only
      split
      · exact h
      · unfold Streams
        dsimp only [resetSendCounters]
        split
        · exact h.trans (streamFps_of_forget now fun _ u => forget_noteReduction _ u).symm
        · exact h
  · exact h

theorem streams_afterReply (adjustRatio reduceBitrate : Bool) (now : Nat) :
    (qos.afterReply adjustRatio reduceBitrate now).Streams now := by
  have hadjust : ∀ (s : VideoQoS R) (b : Bool), s.Streams now →
      VideoQoS.Streams now (if b then s.adjustRatio false now else s) := by
    intro s b hs
    split
    · exact hs.adjustRatio false now
    · exact hs
  unfold afterReply
  dsimp only
  exact hadjust _ _ (hadjust _ _ (fps_adjustFps now))

/-- The operations that end in `adjust_fps`: a leave of any but the last viewer, a reply, a timeout of a
viewer that is there, and a frame. -/
def endsInAdjustFps (qos : VideoQoS R) : Event → Bool
  | .connectionClose id => !(Assoc.erase qos.users id).isEmpty
  | .networkDelay _ _ => true
  | .delayResponseElapsed id elapsed => (Assoc.get qos.users id).isSome && decide (2000 < elapsed)
  | .updateDisplayData _ _ => true
  | _ => false

theorem streams_apply {now : Nat} {e : Event} (h : qos.endsInAdjustFps e = true) :
    (qos.apply (now, e)).Streams now := by
  unfold VideoQoS.apply
  dsimp only
  cases e with
  | connectionClose id =>
    dsimp only [endsInAdjustFps] at h
    have hothers : Assoc.erase qos.users id ≠ [] := by
      intro hnil
      rw [hnil] at h
      cases h
    dsimp only [onConnectionClose]
    rw [if_neg hothers]
    exact fps_adjustFps now
  | networkDelay id delay =>
    dsimp only [userNetworkDelay]
    split
    · exact fps_adjustFps now
    · exact streams_afterReply _ _ now
  | delayResponseElapsed id elapsed =>
    dsimp only [endsInAdjustFps] at h
    obtain ⟨hsome, helapsed⟩ := Bool.and_eq_true_iff.mp h
    obtain ⟨u, hu⟩ := Option.isSome_iff_exists.mp hsome
    dsimp only [userDelayResponseElapsed]
    rw [hu]
    dsimp only
    rw [if_neg (Nat.not_le.mpr (of_decide_eq_true helapsed))]
    exact fps_adjustFps now
  | updateDisplayData name sendCounter =>
    have hadjusted : ∀ s : VideoQoS R, (s.adjustFps now).Streams now := fun s => fps_adjustFps now
    dsimp only [updateDisplayData]
    split
    · split
      · exact (hadjusted _).adjustRatio _ now
      · exact hadjusted _
    · exact hadjusted _
  | _ => cases h

/-- In every run: a reply leaves its viewer a target within its cap, no target is below the floor that the
lowest cap of its viewer so far lets it have, and what ends in `adjust_fps` leaves the stream at the rate
of the slowest viewer. -/
theorem targets_and_stream {history : List (VideoQoS R × Nat × Event)} (hx : Exec Initial step history qos) :
    (∀ id delay now u', Assoc.get (qos.apply (now, .networkDelay id delay)).users id = some u' →
      ∃ fps, u'.delay.fps = some fps ∧ MIN_FPS ≤ fps ∧ fps ≤ u'.fpsCap) ∧
    (∀ id u, Assoc.get qos.users id = some u →
      min MIN_AUTO_FPS (lowestCap id u.fpsCap history) ≤ u.target) ∧
    ∀ now e, qos.endsInAdjustFps e = true → (qos.apply (now, e)).Streams now := by
  refine ⟨?_, ?_, ?_⟩
  · intro id delay now u' hu'
    exact within_apply_networkDelay hu'
  · intro id u hu
    exact (floored_of_exec hx).le_target hu
  · intro now e he
    exact streams_apply he

/-- A timeout takes a viewer to the floor, its cap then goes below it, and the next frame follows. -/
theorem targets_and_stream_capped :
    ∃ (history : List (VideoQoS Float32 × Nat × Event)) (qos : VideoQoS Float32) (u : UserData Float32),
      Exec Initial step history qos ∧ Assoc.get qos.users 1 = some u ∧
      lowestCap 1 u.fpsCap history = 3 ∧ min MIN_AUTO_FPS 3 ≤ u.target ∧ u.target = MIN_AUTO_FPS ∧
      (qos.apply (4000, .updateDisplayData "0" 0)).Streams 4000 ∧
      (qos.apply (4000, .updateDisplayData "0" 0)).fps = 3 := by
  let start : VideoQoS Float32 := { firstReplyAdjustsRatio := false }
  let joined := start.apply (0, .connectionOpen 1 false)
  let stalled := joined.apply (3000, .delayResponseElapsed 1 3000)
  let capped := stalled.apply (3500, .customFps 1 3)
  have hx : Exec Initial step
      [(stalled, 3500, .customFps 1 3), (joined, 3000, .delayResponseElapsed 1 3000),
        (start, 0, .connectionOpen 1 false)] capped :=
    .snoc (.snoc (.snoc (.start ⟨0, false, rfl⟩) rfl) rfl) rfl
  obtain ⟨-, hfloor, hstream⟩ := targets_and_stream hx
  exact ⟨_, capped, _, hx, rfl, by decide, hfloor 1 _ rfl, by decide, hstream 4000 _ rfl, by decide⟩

end VideoQoS

end FontisRemote.Video
