import FontisRemote.Video.Isolation

/-!
# What a reply and a timeout do to a target

Bad evidence never raises a target, good evidence never lowers it below the cap, and the late reply of a
probe that was braked does not brake again. Only `limit_fps_change` tells good from bad; the candidate
that it is given may be anything, as long as it is not zero.
-/

namespace FontisRemote.Video

open FontisRemote.Lib

theorem clamp_le_of_le {lo hi n m : Nat} (hlo : lo ≤ m) (hn : n ≤ m) : clamp lo hi n ≤ m := by
  unfold clamp
  split
  · exact hlo
  · split
    · omega
    · exact hn

theorem le_clamp {lo hi n m : Nat} (hn : m ≤ n) (hhi : m ≤ hi) : m ≤ clamp lo hi n := by
  unfold clamp
  split
  · omega
  · split
    · exact hhi
    · exact hn

theorem clamp_le {lo hi n : Nat} (h : lo ≤ hi) : clamp lo hi n ≤ hi := by
  unfold clamp
  split
  · exact h
  · split <;> omega

theorem lo_le_clamp {lo hi n : Nat} (h : lo ≤ hi) : lo ≤ clamp lo hi n := by
  unfold clamp
  split
  · exact Nat.le_refl lo
  · split <;> omega

namespace UserDelay

variable (d : UserDelay) {currentFps fps cap delay excess : Nat} {bitrateFirst braked : Bool}

/-! ## One stage after the other -/

theorem le_recover : currentFps ≤ (d.recover currentFps fps).1 := by
  unfold recover
  dsimp only
  split
  · rename_i level hlevel
    have habove : currentFps < level := by
      have := (Option.filter_eq_some_iff.mp hlevel).2
      simpa using this
    split
    · exact habove.le.trans (Nat.le_max_right _ _)
    · exact Nat.le_add_right _ _
  · split
    · exact (Nat.le_add_right _ _).trans (Nat.le_max_right _ _)
    · exact Nat.le_add_right _ _

/-- A bad reply keeps the rate or takes it down, and keeps it where the timeout has taken it down. -/
theorem limitBad_le : (d.limitBad currentFps fps excess bitrateFirst braked).1 ≤ currentFps ∧
    (braked = true → (d.limitBad currentFps fps excess bitrateFirst braked).1 = currentFps) := by
  unfold limitBad
  dsimp only
  split
  · exact ⟨Nat.le_refl _, fun _ => rfl⟩
  · rename_i hlower
    split
    · exact ⟨Nat.le_refl _, fun _ => rfl⟩
    · refine ⟨?_, fun hbraked => (hlower (.inr hbraked)).elim⟩
      exact Nat.max_le.mpr ⟨by omega, Nat.sub_le _ _⟩

theorem le_limitFpsChange (hgood : d.excess delay < DELAY_THRESHOLD_150MS) :
    currentFps ≤ (d.limitFpsChange currentFps fps delay bitrateFirst braked).1 := by
  unfold limitFpsChange
  dsimp only
  rw [if_pos hgood]
  exact le_recover _

theorem limitFpsChange_le (hbad : DELAY_THRESHOLD_150MS ≤ d.excess delay) :
    (d.limitFpsChange currentFps fps delay bitrateFirst braked).1 ≤ currentFps ∧
      (braked = true → (d.limitFpsChange currentFps fps delay bitrateFirst braked).1 = currentFps) := by
  unfold limitFpsChange
  dsimp only
  rw [if_neg (Nat.not_lt.mpr hbad)]
  exact limitBad_le _

theorem rttCalculator_recover :
    (d.recover currentFps fps).2.rttCalculator = d.rttCalculator := by
  unfold recover
  dsimp only
  split <;> split <;> rfl

theorem rttCalculator_limitBad :
    (d.limitBad currentFps fps excess bitrateFirst braked).2.rttCalculator = d.rttCalculator := by
  have hgiveUp : ∀ (e : UserDelay) (failed : Bool),
      (e.giveUpRestored currentFps failed).rttCalculator = e.rttCalculator := by
    intro e failed
    unfold giveUpRestored
    split <;> rfl
  unfold limitBad
  dsimp only
  split
  · exact hgiveUp _ _
  · split
    · exact hgiveUp _ _
    · exact hgiveUp _ _

/-- The baseline stays what it is for the rest of the reply. -/
theorem excess_limitFpsChange (delay' : Nat) :
    (d.limitFpsChange currentFps fps delay bitrateFirst braked).2.excess delay' = d.excess delay' := by
  unfold UserDelay.excess
  unfold limitFpsChange
  dsimp only
  split
  · rw [rttCalculator_recover]
    rfl
  · rw [rttCalculator_limitBad]

/-- Startup acceleration takes no rate down but to the cap, and only low delays accelerate. -/
theorem accelerateStartup_bounds :
    min fps cap ≤ (d.accelerateStartup currentFps fps cap delay braked).1 ∧
      ((50 ≤ d.excess delay ∨ braked = true) →
        (d.accelerateStartup currentFps fps cap delay braked).1 = fps) := by
  unfold accelerateStartup
  split
  · exact ⟨Nat.min_le_left _ _, fun _ => rfl⟩
  · split
    · exact ⟨Nat.min_le_left _ _, fun _ => rfl⟩
    · rename_i hclean
      split
      · exact ⟨Nat.min_le_left _ _, fun _ => rfl⟩
      · refine ⟨?_, fun hend => ?_⟩
        · dsimp only
          omega
        · exfalso
          apply hclean
          obtain hexcess | hbraked := hend
          · exact .inr (.inl hexcess)
          · exact .inl hbraked

theorem rttCalculator_candidate (minFps normalFps avgDelay oldAvgDelay : Nat) :
    (d.candidate minFps normalFps fps avgDelay oldAvgDelay).2.rttCalculator = d.rttCalculator := by
  unfold candidate
  dsimp only
  split
  · rfl
  · split
    · rfl
    · split
      · rfl
      · split
        · rfl
        · split
          · rfl
          · split <;> rfl

theorem rttCalculator_countStable (avgDelay : Nat) :
    (d.countStable fps avgDelay).2.rttCalculator = d.rttCalculator := by
  unfold countStable
  dsimp only
  split <;> split <;> rfl

end UserDelay

namespace UserData

variable {R : Type} [RatioNumber R] (u : UserData R) {minFps normalFps delay elapsed : Nat} {bitrateFirst : Bool}

theorem min_fps_le_fpsCap : MIN_FPS ≤ u.fpsCap :=
  lo_le_clamp (by decide)

/-- The excess of a reply over the baseline used for it. -/
def replyExcess (delay : Nat) : Nat :=
  (u.enter (max delay 10)).excess (max delay 10)

theorem excess_propose (delay' : Nat) :
    (u.propose minFps normalFps bitrateFirst delay).2.excess delay' = (u.enter delay).excess delay' := by
  unfold UserDelay.excess propose
  dsimp only
  rw [UserDelay.rttCalculator_countStable, UserDelay.rttCalculator_candidate]

theorem target_of_fps {fps : Nat} (h : u.delay.fps = some fps) : u.target = fps := by
  unfold target
  rw [h]
  rfl

theorem target_networkDelay :
    (u.networkDelay minFps normalFps bitrateFirst delay).1.target =
      clamp MIN_FPS u.fpsCap
        (((u.propose minFps normalFps bitrateFirst (max delay 10)).2.limitFpsChange u.target
            (u.propose minFps normalFps bitrateFirst (max delay 10)).1 (max delay 10) bitrateFirst
            u.braked).2.accelerateStartup u.target
          ((u.propose minFps normalFps bitrateFirst (max delay 10)).2.limitFpsChange u.target
            (u.propose minFps normalFps bitrateFirst (max delay 10)).1 (max delay 10) bitrateFirst
            u.braked).1 u.fpsCap (max delay 10) u.braked).1 :=
  target_of_fps _ rfl

/-- A bad reply: the target does not rise. -/
theorem target_networkDelay_le (hpos : MIN_FPS ≤ u.target)
    (hbad : DELAY_THRESHOLD_150MS ≤ u.replyExcess delay) :
    (u.networkDelay minFps normalFps bitrateFirst delay).1.target ≤ u.target := by
  rw [target_networkDelay]
  set proposed := u.propose minFps normalFps bitrateFirst (max delay 10) with hproposed
  have hexcess : DELAY_THRESHOLD_150MS ≤ proposed.2.excess (max delay 10) := by
    rw [hproposed, excess_propose]
    exact hbad
  set limited := proposed.2.limitFpsChange u.target proposed.1 (max delay 10) bitrateFirst u.braked
    with hlimited
  have hdown : limited.1 ≤ u.target := (UserDelay.limitFpsChange_le _ hexcess).1
  -- far too slow a reply to accelerate
  have hstart : (limited.2.accelerateStartup u.target limited.1 u.fpsCap (max delay 10) u.braked).1 =
      limited.1 := by
    refine (UserDelay.accelerateStartup_bounds _).2 (.inl ?_)
    rw [hlimited, UserDelay.excess_limitFpsChange]
    exact (show 50 ≤ DELAY_THRESHOLD_150MS by decide).trans hexcess
  rw [hstart]
  exact clamp_le_of_le hpos hdown

/-- A good reply: the target does not fall, but to the cap. -/
theorem le_target_networkDelay (hgood : u.replyExcess delay < DELAY_THRESHOLD_150MS) :
    min u.target u.fpsCap ≤ (u.networkDelay minFps normalFps bitrateFirst delay).1.target := by
  rw [target_networkDelay]
  set proposed := u.propose minFps normalFps bitrateFirst (max delay 10) with hproposed
  have hexcess : proposed.2.excess (max delay 10) < DELAY_THRESHOLD_150MS := by
    rw [hproposed, excess_propose]
    exact hgood
  set limited := proposed.2.limitFpsChange u.target proposed.1 (max delay 10) bitrateFirst u.braked
  have hup : u.target ≤ limited.1 := UserDelay.le_limitFpsChange _ hexcess
  have hstart : min limited.1 u.fpsCap ≤
      (limited.2.accelerateStartup u.target limited.1 u.fpsCap (max delay 10) u.braked).1 :=
    (UserDelay.accelerateStartup_bounds _).1
  refine le_clamp ?_ (Nat.min_le_right _ _)
  omega

/-- The late reply of a braked probe: the target does not fall, but to the cap. -/
theorem le_target_networkDelay_of_braked (hbraked : u.braked = true) :
    min u.target u.fpsCap ≤ (u.networkDelay minFps normalFps bitrateFirst delay).1.target := by
  by_cases hgood : u.replyExcess delay < DELAY_THRESHOLD_150MS
  · exact u.le_target_networkDelay hgood
  · rw [target_networkDelay]
    set proposed := u.propose minFps normalFps bitrateFirst (max delay 10) with hproposed
    have hexcess : DELAY_THRESHOLD_150MS ≤ proposed.2.excess (max delay 10) := by
      rw [hproposed, excess_propose]
      exact Nat.not_lt.mp hgood
    have hkept : (proposed.2.limitFpsChange u.target proposed.1 (max delay 10) bitrateFirst
        u.braked).1 = u.target := (UserDelay.limitFpsChange_le _ hexcess).2 hbraked
    rw [hkept, (UserDelay.accelerateStartup_bounds _).2 (.inr hbraked)]
    exact le_clamp (Nat.min_le_left _ _) (Nat.min_le_right _ _)

/-- What holds of every viewer: its target is not zero, and only one with a target has been braked. -/
structure Sound : Prop where
  pos : MIN_FPS ≤ u.target
  braked : u.braked = true → u.delay.fps.isSome = true

variable {u}

/-- A timeout compares with the target. -/
theorem Sound.target_delayResponseElapsed (h : u.Sound) (elapsed : Nat) :
    ∃ fps, (u.delayResponseElapsed elapsed).target =
      min (clamp (min MIN_AUTO_FPS u.fpsCap) u.fpsCap fps) u.target := by
  refine ⟨_, (target_of_fps (u.delayResponseElapsed elapsed) rfl).trans (congrArg (min _) ?_)⟩
  cases href : u.delay.stallReferenceFps with
  | none =>
    -- the reference of a probe that has just been braked is the target
    cases hfps : u.delay.fps with
    | none => simp [UserDelay.addDelay, UserDelay.onReduction, href, hfps]
    | some fps => simp [UserDelay.addDelay, UserDelay.onReduction, href, hfps, target]
  | some reference =>
    have hbraked : u.braked = true := by
      unfold UserData.braked
      rw [href]
      rfl
    obtain ⟨fps, hfps⟩ := Option.isSome_iff_exists.mp (h.braked hbraked)
    simp [UserDelay.addDelay, href, hfps, target]

/-- A timeout: the target does not rise. -/
theorem Sound.target_delayResponseElapsed_le (h : u.Sound) :
    (u.delayResponseElapsed elapsed).target ≤ u.target := by
  obtain ⟨fps, hfps⟩ := h.target_delayResponseElapsed elapsed
  rw [hfps]
  exact Nat.min_le_right _ _

/-! ## Every viewer -/

theorem sound_networkDelay : (u.networkDelay minFps normalFps bitrateFirst delay).1.Sound := by
  refine ⟨?_, fun _ => rfl⟩
  rw [target_networkDelay]
  exact lo_le_clamp u.min_fps_le_fpsCap

theorem Sound.delayResponseElapsed (h : u.Sound) : (u.delayResponseElapsed elapsed).Sound := by
  refine ⟨?_, fun _ => rfl⟩
  obtain ⟨fps, hfps⟩ := h.target_delayResponseElapsed elapsed
  rw [hfps]
  have hauto : MIN_FPS ≤ min MIN_AUTO_FPS u.fpsCap :=
    Nat.le_min.mpr ⟨by decide, u.min_fps_le_fpsCap⟩
  exact Nat.le_min.mpr ⟨hauto.trans (lo_le_clamp (Nat.min_le_right _ _)), h.pos⟩

theorem fpsCap_networkDelay :
    (u.networkDelay minFps normalFps bitrateFirst delay).1.fpsCap = u.fpsCap := by
  unfold networkDelay
  dsimp only [fpsCap]

theorem fpsCap_delayResponseElapsed : (u.delayResponseElapsed elapsed).fpsCap = u.fpsCap := by
  unfold delayResponseElapsed
  rfl

/-- A viewer that has no target yet starts from one within the cap. -/
theorem target_of_none (h : u.delay.fps = none) : u.target = min INIT_FPS u.fpsCap := by
  unfold target
  rw [h]
  rfl

theorem sound_of_new (hfps : u.delay.fps = none) (hbraked : u.braked = false) : u.Sound := by
  refine ⟨?_, fun h => ?_⟩
  · rw [target_of_none hfps]
    exact Nat.le_min.mpr ⟨by decide, u.min_fps_le_fpsCap⟩
  · rw [hbraked] at h
    cases h

/-- Other settings keep what is kept of the delay. -/
theorem Sound.of_delay {u' : UserData R} (h : u.Sound) (hdelay : u'.delay = u.delay) : u'.Sound := by
  have hbraked : u'.braked = u.braked := by
    unfold UserData.braked
    rw [hdelay]
  cases hfps : u.delay.fps with
  | none =>
    refine sound_of_new (by rw [hdelay, hfps]) ?_
    rw [hbraked]
    by_contra hb
    have := h.braked (by simpa using hb)
    rw [hfps] at this
    cases this
  | some fps =>
    refine ⟨?_, fun _ => by rw [hdelay, hfps]; rfl⟩
    have hpos := h.pos
    rw [target_of_fps u hfps] at hpos
    rwa [target_of_fps u' (by rw [hdelay, hfps])]

end UserData

namespace VideoQoS

variable {R : Type} [RatioNumber R] {qos : VideoQoS R} {id : Int} {u : UserData R}

/-- The controller starts empty. -/
def Initial (qos : VideoQoS R) : Prop :=
  ∃ now first, qos = { adjustRatioInstant := now, firstReplyAdjustsRatio := first }

def step (qos : VideoQoS R) (e : Nat × Event) : Option (VideoQoS R) :=
  some (qos.apply e)

/-- What an operation leaves of a viewer is, but for the count, what was there or what its own operation
made of it. -/
theorem get_apply_cases {e : Nat × Event} {u' : UserData R}
    (hu' : Assoc.get (qos.apply e).users id = some u') :
    (∃ u, Assoc.get qos.users id = some u ∧ u'.forget = u.forget) ∨
      ∃ w, serve qos.fpsLevels qos.canReduceBitrate e.1 e.2 (Assoc.get qos.users id) = some w ∧
        e.2.viewer = some id ∧ u'.forget = w.forget := by
  have hview : (qos.apply e).view id = some u'.forget := by
    unfold view
    rw [hu']
    rfl
  by_cases hown : e.2.viewer = some id
  · rw [qos.view_apply_own id hown] at hview
    obtain ⟨w, hw, hforget⟩ := Option.map_eq_some_iff.mp hview
    exact .inr ⟨w, hw, hown, hforget.symm⟩
  · rw [qos.view_apply_other id hown] at hview
    obtain ⟨u, hu, hforget⟩ := Option.map_eq_some_iff.mp hview
    exact .inl ⟨u, hu, hforget.symm⟩

/-- What a viewer's own operation can make of it: a new viewer, one with another setting, or one with a
new target. -/
theorem serve_cases {levels : Nat × Nat} {canReduce : Bool} {now : Nat} {e : Event} {o : Option (UserData R)}
    {w : UserData R} (h : serve levels canReduce now e o = some w) :
    (w.delay.fps = none ∧ w.braked = false) ∨
      ∃ u, o = some u ∧
        (w.delay = u.delay ∨
          (∃ delay, w = (u.networkDelay levels.1 levels.2 canReduce delay).1) ∨
          ∃ elapsed, w = u.delayResponseElapsed elapsed) := by
  cases e with
  | connectionOpen _ enableAbr =>
    obtain rfl := Option.some.inj h
    exact .inl ⟨rfl, rfl⟩
  | connectionClose _ => cases h
  | customFps _ fps =>
    dsimp only [serve] at h
    split at h
    · obtain ⟨u, hu, rfl⟩ := Option.map_eq_some_iff.mp h
      exact .inr ⟨u, hu, .inl rfl⟩
    · exact .inr ⟨w, h, .inl rfl⟩
  | autoAdjustFps _ fps =>
    dsimp only [serve] at h
    split at h
    · obtain ⟨u, hu, rfl⟩ := Option.map_eq_some_iff.mp h
      exact .inr ⟨u, hu, .inl rfl⟩
    · exact .inr ⟨w, h, .inl rfl⟩
  | imageQuality _ imageQuality time =>
    obtain ⟨u, hu, rfl⟩ := Option.map_eq_some_iff.mp h
    exact .inr ⟨u, hu, .inl rfl⟩
  | record _ b =>
    obtain ⟨u, hu, rfl⟩ := Option.map_eq_some_iff.mp h
    exact .inr ⟨u, hu, .inl rfl⟩
  | networkDelay _ delay =>
    obtain ⟨u, hu, rfl⟩ := Option.map_eq_some_iff.mp h
    exact .inr ⟨u, hu, .inr (.inl ⟨delay, rfl⟩)⟩
  | delayResponseElapsed _ elapsed =>
    dsimp only [serve] at h
    split at h
    · exact .inr ⟨w, h, .inl rfl⟩
    · obtain ⟨u, hu, rfl⟩ := Option.map_eq_some_iff.mp h
      exact .inr ⟨u, hu, .inr (.inr ⟨elapsed, rfl⟩)⟩
  | _ => exact .inr ⟨w, h, .inl rfl⟩

/-! ## Every run -/

/-- The viewers are sound. -/
def AllSound (qos : VideoQoS R) : Prop :=
  ∀ id u, Assoc.get qos.users id = some u → u.Sound

theorem AllSound.apply (h : qos.AllSound) (e : Nat × Event) : (qos.apply e).AllSound := by
  intro id u' hu'
  have hforget : ∀ {u w : UserData R}, u.forget = w.forget → w.Sound → u.Sound := by
    intro u w hsame hw
    have : u.forget.Sound := hsame ▸ ⟨hw.pos, hw.braked⟩
    exact ⟨this.pos, this.braked⟩
  obtain ⟨u, hu, hsame⟩ | ⟨w, hw, -, hsame⟩ := get_apply_cases hu'
  · exact hforget hsame (h id u hu)
  · refine hforget hsame ?_
    obtain ⟨hfps, hbraked⟩ | ⟨u, hu, hdelay | ⟨delay, rfl⟩ | ⟨elapsed, rfl⟩⟩ := serve_cases hw
    · exact UserData.sound_of_new hfps hbraked
    · exact (h id u hu).of_delay hdelay
    · exact UserData.sound_networkDelay
    · exact (h id u hu).delayResponseElapsed

theorem allSound_of_exec {history : List (VideoQoS R × Nat × Event)} (hx : Exec Initial step history qos) :
    qos.AllSound := by
  refine hx.invariant (I := AllSound) ?_ ?_
  · rintro s ⟨now, first, rfl⟩ id u hu
    cases hu
  · intro s e s' hs hstep
    obtain rfl := Option.some.inj hstep
    exact hs.apply e

/-- A step that leaves a viewer with a target has not changed its cap. -/
def KeepsCap (id : Int) (qos : VideoQoS R) (e : Nat × Event) : Prop :=
  ∀ u u', Assoc.get qos.users id = some u → Assoc.get (qos.apply e).users id = some u' →
    u'.delay.fps.isSome = true → u'.fpsCap = u.fpsCap

/-- The viewer's target is within its cap. -/
def Within (id : Int) (qos : VideoQoS R) : Prop :=
  ∀ u, Assoc.get qos.users id = some u → u.target ≤ u.fpsCap

theorem Within.apply {e : Nat × Event} (h : Within id qos) (hsound : qos.AllSound)
    (hcap : KeepsCap id qos e) : Within id (qos.apply e) := by
  intro u' hu'
  cases hfps : u'.delay.fps with
  | none =>
    rw [UserData.target_of_none hfps]
    exact Nat.min_le_right _ _
  | some fps =>
    have hkept : ∀ u, Assoc.get qos.users id = some u → u'.fpsCap = u.fpsCap := by
      intro u hu
      exact hcap u u' hu hu' (by rw [hfps]; rfl)
    -- the count is no part of the target or of the cap
    have hforget : ∀ {w : UserData R}, u'.forget = w.forget → w.target ≤ w.fpsCap → u'.target ≤ u'.fpsCap := by
      intro w hsame hw
      have : u'.forget.target ≤ u'.forget.fpsCap := hsame ▸ hw
      exact this
    obtain ⟨u, hu, hsame⟩ | ⟨w, hw, -, hsame⟩ := get_apply_cases hu'
    · exact hforget hsame (h u hu)
    · obtain ⟨hnew, -⟩ | ⟨u, hu, hdelay | ⟨delay, rfl⟩ | ⟨elapsed, rfl⟩⟩ := serve_cases hw
      · have hnone : u'.forget.delay.fps = none := hsame ▸ hnew
        rw [show u'.forget.delay.fps = u'.delay.fps from rfl, hfps] at hnone
        cases hnone
      · have hsame' : w.forget.delay.fps = some fps := hsame ▸ hfps
        have hold : u.delay.fps = some fps := hdelay ▸ hsame'
        rw [UserData.target_of_fps u' hfps, hkept u hu, ← UserData.target_of_fps u hold]
        exact h u hu
      · refine hforget hsame ?_
        rw [UserData.target_networkDelay, UserData.fpsCap_networkDelay]
        exact clamp_le u.min_fps_le_fpsCap
      · refine hforget hsame ?_
        obtain ⟨level, hlevel⟩ := (hsound id u hu).target_delayResponseElapsed elapsed
        rw [hlevel, UserData.fpsCap_delayResponseElapsed]
        exact (Nat.min_le_left _ _).trans (clamp_le (Nat.min_le_right _ _))

/-- With a fixed cap, the target is within it. -/
theorem within_of_exec {history : List (VideoQoS R × Nat × Event)} (hx : Exec Initial step history qos)
    (hcap : ∀ p ∈ history, KeepsCap id p.1 p.2) : Within id qos := by
  have hboth : qos.AllSound ∧ Within id qos := by
    refine hx.invariant_of (I := fun s => AllSound s ∧ Within id s) (G := KeepsCap id) ?_ ?_ hcap
    · rintro s ⟨now, first, rfl⟩
      refine ⟨fun id u hu => ?_, fun u hu => ?_⟩
      · cases hu
      · cases hu
    · rintro s e s' ⟨hsound, hwithin⟩ hkeeps hstep
      obtain rfl := Option.some.inj hstep
      exact ⟨hsound.apply e, hwithin.apply hsound hkeeps⟩
  exact hboth.2

/-- A viewer's own operation leaves it what it was served, up to the count. -/
theorem get_apply_of_own {e : Nat × Event} {w : UserData R} (hown : e.2.viewer = some id)
    (hw : serve qos.fpsLevels qos.canReduceBitrate e.1 e.2 (Assoc.get qos.users id) = some w) :
    ∃ u', Assoc.get (qos.apply e).users id = some u' ∧ u'.forget = w.forget := by
  have hview := qos.view_apply_own id hown
  rw [hw] at hview
  exact Option.map_eq_some_iff.mp hview

/-- Another viewer's operation leaves it what it was, up to the count. -/
theorem get_apply_of_other {e : Nat × Event} (hother : e.2.viewer ≠ some id)
    (hu : Assoc.get qos.users id = some u) :
    ∃ u', Assoc.get (qos.apply e).users id = some u' ∧ u'.forget = u.forget := by
  have hview := qos.view_apply_other id hother
  unfold view at hview
  rw [hu] at hview
  exact Option.map_eq_some_iff.mp hview

/-- What a reply leaves of its viewer, up to the count. -/
theorem get_apply_own {e : Nat × Event} {w : UserData R} (hown : e.2.viewer = some id)
    (hw : serve qos.fpsLevels qos.canReduceBitrate e.1 e.2 (Assoc.get qos.users id) = some w) :
    ∃ u', Assoc.get (qos.apply e).users id = some u' ∧ u'.target = w.target := by
  obtain ⟨u', hu', hsame⟩ := get_apply_of_own hown hw
  have htarget : u'.forget.target = w.target := hsame ▸ rfl
  exact ⟨u', hu', htarget⟩

/-- Evidence is monotone: in every state reached, a reply that is bad and a timeout do not raise a
viewer's target, a reply that is good does not take it down but to the cap, and the reply of a braked
probe, for a viewer whose cap is fixed, does not take it down at all. -/
theorem evidence_monotone (id : Int) {history : List (VideoQoS R × Nat × Event)}
    (hx : Exec Initial step history qos) (hu : Assoc.get qos.users id = some u) (now : Nat) :
    (∀ delay, ∃ u', Assoc.get (qos.apply (now, .networkDelay id delay)).users id = some u' ∧
      (DELAY_THRESHOLD_150MS ≤ u.replyExcess delay → u'.target ≤ u.target) ∧
      (u.replyExcess delay < DELAY_THRESHOLD_150MS → min u.target u.fpsCap ≤ u'.target) ∧
      (u.braked = true → (∀ p ∈ history, KeepsCap id p.1 p.2) → u.target ≤ u'.target)) ∧
    ∀ elapsed, 2000 < elapsed →
      ∃ u', Assoc.get (qos.apply (now, .delayResponseElapsed id elapsed)).users id = some u' ∧
        u'.target ≤ u.target := by
  have hsound : u.Sound := allSound_of_exec hx id u hu
  refine ⟨fun delay => ?_, fun elapsed helapsed => ?_⟩
  · have hserve : serve qos.fpsLevels qos.canReduceBitrate now (.networkDelay id delay)
        (Assoc.get qos.users id) =
          some (u.networkDelay qos.fpsLevels.1 qos.fpsLevels.2 qos.canReduceBitrate delay).1 := by
      dsimp only [serve]
      rw [hu, Option.map_some]
    obtain ⟨u', hu', htarget⟩ := get_apply_own (e := (now, .networkDelay id delay)) rfl hserve
    refine ⟨u', hu', fun hbad => ?_, fun hgood => ?_, fun hbraked hcap => ?_⟩
    · rw [htarget]
      exact u.target_networkDelay_le hsound.pos hbad
    · rw [htarget]
      exact u.le_target_networkDelay hgood
    · rw [htarget]
      have hwithin : u.target ≤ u.fpsCap := within_of_exec hx hcap u hu
      exact (Nat.le_min.mpr ⟨Nat.le_refl _, hwithin⟩).trans (u.le_target_networkDelay_of_braked hbraked)
  · have hserve : serve qos.fpsLevels qos.canReduceBitrate now (.delayResponseElapsed id elapsed)
        (Assoc.get qos.users id) = some (u.delayResponseElapsed elapsed) := by
      dsimp only [serve]
      rw [hu, if_neg (Nat.not_le.mpr helapsed), Option.map_some]
    obtain ⟨u', hu', htarget⟩ := get_apply_own (e := (now, .delayResponseElapsed id elapsed)) rfl hserve
    refine ⟨u', hu', ?_⟩
    rw [htarget]
    exact hsound.target_delayResponseElapsed_le

/-- A viewer joins and its first probe stays out for three seconds: the late reply is bad, and leaves the
target where the timeout put it. -/
theorem evidence_monotone_braked :
    ∃ (qos : VideoQoS Float32) (u u' : UserData Float32), Reachable Initial step qos ∧
      Assoc.get qos.users 1 = some u ∧ u.braked = true ∧
      DELAY_THRESHOLD_150MS ≤ u.replyExcess 3100 ∧
      Assoc.get (qos.apply (3100, .networkDelay 1 3100)).users 1 = some u' ∧ u'.target = u.target := by
  let start : VideoQoS Float32 := { firstReplyAdjustsRatio := false }
  let joined := start.apply (0, .connectionOpen 1 true)
  let stalled := joined.apply (3000, .delayResponseElapsed 1 3000)
  have hx : Exec Initial step
      [(joined, 3000, .delayResponseElapsed 1 3000), (start, 0, .connectionOpen 1 true)] stalled :=
    .snoc (.snoc (.start ⟨0, false, rfl⟩) rfl) rfl
  obtain ⟨hreply, -⟩ := evidence_monotone 1 hx rfl 3100
  obtain ⟨u', hu', hbad, -, hbraked⟩ := hreply 3100
  refine ⟨stalled, _, u', ⟨_, hx⟩, rfl, rfl, by decide, hu', ?_⟩
  refine Nat.le_antisymm (hbad (by decide)) (hbraked rfl ?_)
  intro p hp u w hu hw hfps
  obtain rfl | hp := List.mem_cons.mp hp
  · obtain rfl := Option.some.inj hu
    obtain rfl := Option.some.inj hw
    rfl
  · obtain rfl := List.mem_singleton.mp hp
    cases hu

end VideoQoS

end FontisRemote.Video
