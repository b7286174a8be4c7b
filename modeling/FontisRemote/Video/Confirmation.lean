import FontisRemote.Video.Evidence

/-!
# No reduction without confirmation

The average keeps a spike for two samples and asks for a lower rate on the good replies after it.
`limit_fps_change` lets none of that through: a good reply is answered by `recover` alone, and a bad one
only once it is the third in a row. Until a reduction happens no level is remembered, so that none can be
restored and fail.
-/

namespace FontisRemote.Video

open FontisRemote.Lib

namespace UserDelay

/-- Nothing has been reduced, and at most so many bad replies stand unanswered. -/
structure Unreduced (d : UserDelay) (bad : Nat) : Prop where
  level : d.fpsBeforeCongestion = none
  restore : d.samplesSinceRestore = none
  stall : d.stallReferenceFps = none
  bad : d.fpsBadSamples ≤ bad

variable {d d' : UserDelay} {currentFps fps cap delay excess bad : Nat} {bitrateFirst braked : Bool}

/-- The counters that a reduction is decided on. -/
def evidence (d : UserDelay) : Option Nat × Option Nat × Option Nat × Nat :=
  (d.fpsBeforeCongestion, d.samplesSinceRestore, d.stallReferenceFps, d.fpsBadSamples)

theorem Unreduced.of_evidence (h : d.Unreduced bad) (hsame : d'.evidence = d.evidence) :
    d'.Unreduced bad := by
  simp only [evidence, Prod.mk.injEq] at hsame
  obtain ⟨hlevel, hrestore, hstall, hbad⟩ := hsame
  exact ⟨hlevel ▸ h.level, hrestore ▸ h.restore, hstall ▸ h.stall, hbad ▸ h.bad⟩

theorem evidence_fps (fps : Option Nat) : evidence { d with fps := fps } = d.evidence :=
  rfl

theorem evidence_candidate (minFps normalFps avgDelay oldAvgDelay : Nat) :
    (d.candidate minFps normalFps fps avgDelay oldAvgDelay).2.evidence = d.evidence := by
  unfold candidate
  dsimp only
  split
  · rfl
  · split
    · rfl
    · split
      · rfl
      · split
        · rfl
        · split
          · rfl
          · split <;> rfl

theorem evidence_countStable (avgDelay : Nat) :
    (d.countStable fps avgDelay).2.evidence = d.evidence := by
  unfold countStable
  dsimp only
  split <;> split <;> rfl

theorem evidence_accelerateStartup :
    (d.accelerateStartup currentFps fps cap delay braked).2.evidence = d.evidence := by
  unfold accelerateStartup
  split
  · rfl
  · split
    · rfl
    · split <;> rfl

theorem restoredRecently_of_none (h : d.samplesSinceRestore = none) : d.restoredRecently = false := by
  unfold restoredRecently
  rw [h]
  rfl

theorem giveUpRestored_of_none (h : d.samplesSinceRestore = none) (failed : Bool) :
    d.giveUpRestored currentFps failed = d := by
  unfold giveUpRestored
  rw [restoredRecently_of_none h]
  rfl

/-- A good reply clears the bad ones, and with no level to return to none is restored. -/
theorem Unreduced.recover (h : d.Unreduced bad) :
    (d.countGood.recover currentFps fps).2.Unreduced 0 := by
  have hlevel : d.countGood.fpsBeforeCongestion = none := h.level
  have hnone : (d.countGood.fpsBeforeCongestion.filter fun level => decide (level > currentFps)) = none := by
    rw [hlevel]
    rfl
  unfold UserDelay.recover
  dsimp only
  rw [hnone]
  dsimp only
  split
  · exact ⟨rfl, h.restore, h.stall, Nat.le_refl 0⟩
  · exact ⟨hlevel, h.restore, h.stall, Nat.le_refl 0⟩

/-- A bad reply that is not the third in a row keeps the rate. -/
theorem Unreduced.limitBad (h : d.Unreduced bad) (hbad : bad < 2) (hexcess : excess < 1000) :
    currentFps ≤ (d.limitBad currentFps fps excess bitrateFirst braked).1 ∧
      (d.limitBad currentFps fps excess bitrateFirst braked).2.Unreduced (bad + 1) := by
  have hrestore : d.countBad.samplesSinceRestore = none := h.restore
  have hcount : d.countBad.fpsBadSamples ≤ bad + 1 :=
    (Nat.min_le_left _ _).trans (Nat.succ_le_succ h.bad)
  have hnext : d.countBad.Unreduced (bad + 1) := ⟨h.level, hrestore, h.stall, hcount⟩
  have hfew : decide (d.countBad.fpsBadSamples < 3) = true := decide_eq_true (by omega)
  unfold UserDelay.limitBad
  dsimp only
  rw [giveUpRestored_of_none hrestore, restoredRecently_of_none hrestore]
  split
  · exact ⟨Nat.le_refl _, hnext⟩
  · have hheld : (!(decide (excess ≥ 600) && false) && decide (excess < 1000) &&
        (decide (d.countBad.fpsBadSamples < 3) ||
          (bitrateFirst && decide (d.countBad.repliesAfterBitrateReduction.getD 0 < 2)))) = true := by
      rw [hfew, decide_eq_true hexcess, Bool.and_false, Bool.true_or]
      rfl
    rw [if_pos hheld]
    exact ⟨Nat.le_refl _, hnext⟩

/-- How many bad replies stand unanswered after one more. -/
def badAfter (bad excess : Nat) : Nat :=
  if excess < DELAY_THRESHOLD_150MS then 0 else bad + 1

theorem Unreduced.limitFpsChange (h : d.Unreduced bad) (hexcess : d.excess delay < 1000)
    (hthree : DELAY_THRESHOLD_150MS ≤ d.excess delay → bad < 2) (currentFps fps : Nat)
    (bitrateFirst braked : Bool) :
    currentFps ≤ (d.limitFpsChange currentFps fps delay bitrateFirst braked).1 ∧
      (d.limitFpsChange currentFps fps delay bitrateFirst braked).2.Unreduced
        (badAfter bad (d.excess delay)) := by
  have hcounted : Unreduced { d with
      samplesSinceRestore := d.samplesSinceRestore.map fun n => min (n + 1) U8_MAX } bad := by
    refine ⟨h.level, ?_, h.stall, h.bad⟩
    dsimp only
    rw [h.restore]
    rfl
  by_cases hgood : d.excess delay < DELAY_THRESHOLD_150MS
  · refine ⟨d.le_limitFpsChange hgood, ?_⟩
    unfold UserDelay.limitFpsChange badAfter
    dsimp only
    rw [if_pos hgood, if_pos hgood]
    exact hcounted.recover
  · unfold UserDelay.limitFpsChange badAfter
    dsimp only
    rw [if_neg hgood, if_neg hgood]
    exact hcounted.limitBad (hthree (Nat.not_lt.mp hgood)) hexcess

end UserDelay

namespace UserData

variable {R : Type} [RatioNumber R] {u w : UserData R} {minFps normalFps delay bad : Nat} {bitrateFirst : Bool}

theorem evidence_propose (h : u.delay.stallReferenceFps = none) :
    (u.propose minFps normalFps bitrateFirst delay).2.evidence = u.delay.evidence := by
  have henter : (u.enter delay).evidence = u.delay.evidence := by
    unfold enter UserDelay.evidence
    rw [h]
    dsimp only
    split <;> rfl
  unfold propose
  dsimp only
  rw [UserDelay.evidence_countStable, UserDelay.evidence_candidate, henter]

/-- A viewer that was never reduced, with a target within its cap. -/
structure Unreduced (u : UserData R) (bad : Nat) : Prop where
  delay : u.delay.Unreduced bad
  within : u.target ≤ u.fpsCap

/-- The count is no part of it. -/
theorem Unreduced.of_forget (h : w.Unreduced bad) (hsame : u.forget = w.forget) : u.Unreduced bad := by
  have hw : w.forget.Unreduced bad :=
    ⟨⟨h.delay.level, h.delay.restore, h.delay.stall, h.delay.bad⟩, h.within⟩
  rw [← hsame] at hw
  exact ⟨⟨hw.delay.level, hw.delay.restore, hw.delay.stall, hw.delay.bad⟩, hw.within⟩

theorem target_of_forget (hsame : u.forget = w.forget) : u.target = w.target := by
  have h : u.forget.target = w.forget.target := by rw [hsame]
  exact h

theorem fpsCap_of_forget (hsame : u.forget = w.forget) : u.fpsCap = w.fpsCap := by
  have h : u.forget.fpsCap = w.forget.fpsCap := by rw [hsame]
  exact h

/-- Settings that leave the cap leave the rest. -/
theorem Unreduced.of_delay (h : u.Unreduced bad) (hdelay : w.delay = u.delay) (hcap : w.fpsCap = u.fpsCap) :
    w.Unreduced bad ∧ w.target = u.target := by
  have htarget : w.target = u.target := by
    unfold target
    rw [hdelay, hcap]
  refine ⟨⟨?_, ?_⟩, htarget⟩
  · rw [hdelay]
    exact h.delay
  · rw [htarget, hcap]
    exact h.within

theorem evidence_networkDelay :
    (u.networkDelay minFps normalFps bitrateFirst delay).1.delay.evidence =
      ((u.propose minFps normalFps bitrateFirst (max delay 10)).2.limitFpsChange u.target
        (u.propose minFps normalFps bitrateFirst (max delay 10)).1 (max delay 10) bitrateFirst
        u.braked).2.evidence := by
  set limited := (u.propose minFps normalFps bitrateFirst (max delay 10)).2.limitFpsChange u.target
    (u.propose minFps normalFps bitrateFirst (max delay 10)).1 (max delay 10) bitrateFirst u.braked
    with hlimited
  unfold networkDelay
  dsimp only
  rw [← hlimited, UserDelay.evidence_fps]
  exact UserDelay.evidence_accelerateStartup

/-- A reply that is not far off, nor the third bad one in a row, does not take the target down. -/
theorem Unreduced.networkDelay (h : u.Unreduced bad) (hexcess : u.replyExcess delay < 1000)
    (hthree : DELAY_THRESHOLD_150MS ≤ u.replyExcess delay → bad < 2) :
    u.target ≤ (u.networkDelay minFps normalFps bitrateFirst delay).1.target ∧
      (u.networkDelay minFps normalFps bitrateFirst delay).1.Unreduced
        (UserDelay.badAfter bad (u.replyExcess delay)) := by
  have hreply : (u.propose minFps normalFps bitrateFirst (max delay 10)).2.excess (max delay 10) =
      u.replyExcess delay := u.excess_propose _
  have hproposed : (u.propose minFps normalFps bitrateFirst (max delay 10)).2.Unreduced bad :=
    h.delay.of_evidence (evidence_propose h.delay.stall)
  rw [← hreply] at hexcess hthree ⊢
  obtain ⟨hup, hnext⟩ := hproposed.limitFpsChange hexcess hthree u.target
    (u.propose minFps normalFps bitrateFirst (max delay 10)).1 bitrateFirst u.braked
  refine ⟨?_, ⟨hnext.of_evidence evidence_networkDelay, ?_⟩⟩
  · rw [target_networkDelay]
    refine le_clamp ?_ h.within
    exact (Nat.le_min.mpr ⟨hup, h.within⟩).trans (UserDelay.accelerateStartup_bounds _).1
  · rw [target_networkDelay, fpsCap_networkDelay]
    exact clamp_le u.min_fps_le_fpsCap

end UserData

namespace VideoQoS

variable {R : Type} [RatioNumber R] {qos : VideoQoS R} {id : Int} {u : UserData R}

/-- A step of a run in which a viewer stays, keeps its cap, has no timeout and no reply that is a second
off. -/
structure Calm (id : Int) (qos : VideoQoS R) (e : Nat × Event) : Prop where
  present : ∀ enableAbr, e.2 ≠ .connectionOpen id enableAbr ∧ e.2 ≠ .connectionClose id
  noTimeout : ∀ elapsed, e.2 = .delayResponseElapsed id elapsed → elapsed ≤ 2000
  mild : ∀ delay u, e.2 = .networkDelay id delay → Assoc.get qos.users id = some u →
    u.replyExcess delay < 1000
  cap : ∀ u u', Assoc.get qos.users id = some u → Assoc.get (qos.apply e).users id = some u' →
    u'.fpsCap = u.fpsCap

/-- Whether a step is a bad reply of the viewer, if it is one of its replies. -/
def badReply (id : Int) (p : VideoQoS R × Nat × Event) : Option Bool :=
  match p.2.2 with
  | .networkDelay i delay =>
    if i = id then
      (Assoc.get p.1.users id).map fun u => decide (DELAY_THRESHOLD_150MS ≤ u.replyExcess delay)
    else none
  | _ => none

/-- The viewer's replies, newest first. -/
def badReplies (id : Int) (run : List (VideoQoS R × Nat × Event)) : List Bool :=
  run.filterMap (badReply id)

/-- How many of the newest replies are bad. -/
def streak (replies : List Bool) : Nat :=
  (replies.takeWhile fun bad => bad).length

theorem streak_lt_two {replies : List Bool} (h : ¬ [true, true, true] <:+: true :: replies) :
    streak replies < 2 := by
  by_contra hlong
  apply h
  obtain _ | ⟨_ | _, _ | ⟨_ | _, rest⟩⟩ := replies
  · exact absurd (by decide) hlong
  · exact absurd (by simp [streak]) hlong
  · exact absurd (by simp [streak]) hlong
  · exact absurd (by simp [streak]) hlong
  · exact absurd (by simp [streak]) hlong
  · exact absurd (by simp [streak]) hlong
  · exact ⟨[], rest, rfl⟩

theorem badReplies_cons_of_none {run : List (VideoQoS R × Nat × Event)} {p : VideoQoS R × Nat × Event}
    (h : badReply id p = none) : badReplies id (p :: run) = badReplies id run := by
  unfold badReplies
  rw [List.filterMap_cons_none h]

/-- A setting of the viewer that leaves the cap. -/
theorem Unreduced.apply_setting {bad : Nat} {e : Nat × Event} {w : UserData R}
    (hu : Assoc.get qos.users id = some u) (h : u.Unreduced bad) (hcalm : Calm id qos e)
    (hown : e.2.viewer = some id)
    (hw : serve qos.fpsLevels qos.canReduceBitrate e.1 e.2 (Assoc.get qos.users id) = some w)
    (hdelay : w.delay = u.delay) :
    ∃ u', Assoc.get (qos.apply e).users id = some u' ∧ u.target ≤ u'.target ∧ u'.Unreduced bad := by
  obtain ⟨u', hu', hsame⟩ := get_apply_of_own hown hw
  have hcap : w.fpsCap = u.fpsCap :=
    (UserData.fpsCap_of_forget hsame).symm.trans (hcalm.cap u u' hu hu')
  obtain ⟨hnext, htarget⟩ := h.of_delay hdelay hcap
  refine ⟨u', hu', ?_, hnext.of_forget hsame⟩
  rw [UserData.target_of_forget hsame, htarget]

/-- What one calm step does to the viewer. -/
theorem Unreduced.apply {run : List (VideoQoS R × Nat × Event)} {e : Nat × Event}
    (hu : Assoc.get qos.users id = some u) (h : u.Unreduced (streak (badReplies id run)))
    (hcalm : Calm id qos e) (hthree : ¬ [true, true, true] <:+: badReplies id ((qos, e) :: run)) :
    ∃ u', Assoc.get (qos.apply e).users id = some u' ∧ u.target ≤ u'.target ∧
      u'.Unreduced (streak (badReplies id ((qos, e) :: run))) := by
  obtain ⟨now, e⟩ := e
  by_cases hown : e.viewer = some id
  · cases e with
    | connectionOpen i enableAbr =>
      obtain rfl := Option.some.inj hown
      exact absurd rfl (hcalm.present enableAbr).1
    | connectionClose i =>
      obtain rfl := Option.some.inj hown
      exact absurd rfl (hcalm.present true).2
    | networkDelay i delay =>
      obtain rfl := Option.some.inj hown
      have hreply : badReplies i ((qos, now, .networkDelay i delay) :: run) =
          decide (DELAY_THRESHOLD_150MS ≤ u.replyExcess delay) :: badReplies i run := by
        refine List.filterMap_cons_some ?_
        dsimp only [badReply]
        rw [if_pos rfl, hu]
        rfl
      have hserve : serve qos.fpsLevels qos.canReduceBitrate now (.networkDelay i delay)
          (Assoc.get qos.users i) =
            some (u.networkDelay qos.fpsLevels.1 qos.fpsLevels.2 qos.canReduceBitrate delay).1 := by
        dsimp only [serve]
        rw [hu, Option.map_some]
      obtain ⟨u', hu', hsame⟩ := get_apply_of_own (e := (now, .networkDelay i delay)) rfl hserve
      rw [hreply] at hthree ⊢
      obtain ⟨hup, hnext⟩ := h.networkDelay (hcalm.mild delay u rfl hu) fun hbad => by
        rw [decide_eq_true hbad] at hthree
        exact streak_lt_two hthree
      refine ⟨u', hu', hup.trans_eq (UserData.target_of_forget hsame).symm, ?_⟩
      have hstreak : streak (decide (DELAY_THRESHOLD_150MS ≤ u.replyExcess delay) :: badReplies i run) =
          UserDelay.badAfter (streak (badReplies i run)) (u.replyExcess delay) := by
        unfold streak UserDelay.badAfter
        by_cases hgood : u.replyExcess delay < DELAY_THRESHOLD_150MS
        · simp [hgood]
        · simp [hgood, Nat.not_lt.mp hgood]
      rw [hstreak]
      exact hnext.of_forget hsame
    | delayResponseElapsed i elapsed =>
      obtain rfl := Option.some.inj hown
      rw [badReplies_cons_of_none rfl]
      refine Unreduced.apply_setting hu h hcalm rfl (w := u) ?_ rfl
      dsimp only [serve]
      rw [if_pos (hcalm.noTimeout elapsed rfl), hu]
    | customFps i fps =>
      obtain rfl := Option.some.inj hown
      rw [badReplies_cons_of_none rfl]
      refine Unreduced.apply_setting hu h hcalm rfl
        (w := if fpsInRange fps then { u with customFps := some fps } else u) ?_ ?_
      · dsimp only [serve]
        rw [hu]
        split <;> rfl
      · split <;> rfl
    | autoAdjustFps i fps =>
      obtain rfl := Option.some.inj hown
      rw [badReplies_cons_of_none rfl]
      refine Unreduced.apply_setting hu h hcalm rfl
        (w := if fpsInRange fps then { u with autoAdjustFps := some fps } else u) ?_ ?_
      · dsimp only [serve]
        rw [hu]
        split <;> rfl
      · split <;> rfl
    | imageQuality i imageQuality time =>
      obtain rfl := Option.some.inj hown
      rw [badReplies_cons_of_none rfl]
      refine Unreduced.apply_setting hu h hcalm rfl
        (w := { u with quality := some (time, convertQuality imageQuality) }) ?_ rfl
      dsimp only [serve]
      rw [hu, Option.map_some]
    | record i v =>
      obtain rfl := Option.some.inj hown
      rw [badReplies_cons_of_none rfl]
      refine Unreduced.apply_setting hu h hcalm rfl (w := { u with record := v }) ?_ rfl
      dsimp only [serve]
      rw [hu, Option.map_some]
    | _ => cases hown
  · obtain ⟨u', hu', hsame⟩ := get_apply_of_other (e := (now, e)) hown hu
    have hnone : badReply id (qos, now, e) = none := by
      cases e with
      | networkDelay i delay =>
        dsimp only [badReply]
        exact if_neg fun hid => hown (congrArg some hid)
      | _ => rfl
    rw [badReplies_cons_of_none hnone]
    exact ⟨u', hu', (UserData.target_of_forget hsame).ge, h.of_forget hsame⟩

/-- In a run of a viewer from when it joined, with a fixed cap, no timeout past two seconds, no reply a
second above the baseline and no three bad replies in a row, no step takes its target down. -/
theorem target_never_falls {joined : VideoQoS R} (hjoined : Assoc.get joined.users id = some u)
    (hnew : u.delay = {}) {run : List (VideoQoS R × Nat × Event)} (hx : Exec (· = joined) step run qos)
    (hcalm : ∀ p ∈ run, Calm id p.1 p.2) (hthree : ¬ [true, true, true] <:+: badReplies id run) :
    ∀ p ∈ run, ∃ w w', Assoc.get p.1.users id = some w ∧
      Assoc.get (p.1.apply p.2).users id = some w' ∧ w.target ≤ w'.target := by
  have hboth : (∃ w, Assoc.get qos.users id = some w ∧ w.Unreduced (streak (badReplies id run))) ∧
      ∀ p ∈ run, ∃ w w', Assoc.get p.1.users id = some w ∧
        Assoc.get (p.1.apply p.2).users id = some w' ∧ w.target ≤ w'.target := by
    induction hx with
    | start hstart =>
      subst hstart
      refine ⟨⟨u, hjoined, ⟨?_, ?_⟩⟩, by simp⟩
      · rw [hnew]
        exact ⟨rfl, rfl, rfl, Nat.le_refl 0⟩
      · rw [UserData.target_of_none (by rw [hnew])]
        exact Nat.min_le_right _ _
    | @snoc run s s' e hx hstep ih =>
      obtain rfl := Option.some.inj hstep
      have hshort : ¬ [true, true, true] <:+: badReplies id run := fun h =>
        hthree (h.trans ((List.suffix_cons _ _).filterMap _).isInfix)
      have hcalm' : ∀ p ∈ run, Calm id p.1 p.2 := fun p hp => hcalm p (List.mem_cons_of_mem _ hp)
      obtain ⟨⟨w, hw, hunreduced⟩, hpast⟩ := ih hcalm' hshort
      obtain ⟨w', hw', hup, hnext⟩ :=
        Unreduced.apply hw hunreduced (hcalm _ (List.mem_cons_self ..)) hthree
      refine ⟨⟨w', hw', hnext⟩, fun p hp => ?_⟩
      obtain rfl | hp := List.mem_cons.mp hp
      · exact ⟨w, w', hw, hw', hup⟩
      · exact hpast p hp
  exact hboth.2

/-- A reply keeps its viewer and its cap. -/
theorem calm_networkDelay {now delay : Nat} {u : UserData R} (hu : Assoc.get qos.users id = some u)
    (hmild : u.replyExcess delay < 1000) : Calm id qos (now, .networkDelay id delay) := by
  refine ⟨fun _ => ⟨nofun, nofun⟩, nofun, fun delay' v he hv => ?_, fun v v' hv hv' => ?_⟩
  · obtain ⟨-, rfl⟩ := Event.networkDelay.inj he
    obtain rfl := Option.some.inj (hu.symm.trans hv)
    exact hmild
  · obtain rfl := Option.some.inj (hu.symm.trans hv)
    have hserve : serve qos.fpsLevels qos.canReduceBitrate now (.networkDelay id delay)
        (Assoc.get qos.users id) =
          some (u.networkDelay qos.fpsLevels.1 qos.fpsLevels.2 qos.canReduceBitrate delay).1 := by
      dsimp only [serve]
      rw [hu, Option.map_some]
    obtain ⟨w, hw, hsame⟩ := get_apply_of_own (e := (now, .networkDelay id delay)) rfl hserve
    obtain rfl := Option.some.inj (hw.symm.trans hv')
    rw [UserData.fpsCap_of_forget hsame, UserData.fpsCap_networkDelay]

/-- A spike between two quick replies. -/
theorem target_never_falls_spike :
    ∃ (joined qos : VideoQoS Float32) (u : UserData Float32) (run : List (VideoQoS Float32 × Nat × Event)),
      Exec (· = joined) step run qos ∧ Assoc.get joined.users 1 = some u ∧
      u.delay = {} ∧ badReplies 1 run = [false, true, false] ∧
      ∀ p ∈ run, ∃ w w', Assoc.get p.1.users 1 = some w ∧
        Assoc.get (p.1.apply p.2).users 1 = some w' ∧ w.target ≤ w'.target := by
  let start : VideoQoS Float32 := { firstReplyAdjustsRatio := false }
  let joined := start.apply (0, .connectionOpen 1 false)
  let first := joined.apply (1000, .networkDelay 1 40)
  let spike := first.apply (2000, .networkDelay 1 200)
  let run : List (VideoQoS Float32 × Nat × Event) :=
    [(spike, 3000, .networkDelay 1 40), (first, 2000, .networkDelay 1 200),
      (joined, 1000, .networkDelay 1 40)]
  have hx : Exec (· = joined) step run (spike.apply (3000, .networkDelay 1 40)) :=
    .snoc (.snoc (.snoc (.start rfl) rfl) rfl) rfl
  have hreplies : badReplies 1 run = [false, true, false] := by decide +kernel
  have hcalm : ∀ (s : VideoQoS Float32) (now delay : Nat),
      ((Assoc.get s.users 1).any fun u => decide (u.replyExcess delay < 1000)) = true →
        Calm 1 s (now, .networkDelay 1 delay) := by
    intro s now delay h
    obtain ⟨u, hu, hmild⟩ := (Option.any_eq_true _ _).mp h
    exact calm_networkDelay hu (of_decide_eq_true hmild)
  refine ⟨joined, _, _, run, hx, rfl, rfl, hreplies, target_never_falls rfl rfl hx ?_ ?_⟩
  · intro p hp
    simp only [run, List.mem_cons, List.not_mem_nil, or_false] at hp
    obtain rfl | rfl | rfl := hp
    · exact hcalm _ _ _ (by decide +kernel)
    · exact hcalm _ _ _ (by decide +kernel)
    · exact hcalm _ _ _ (by decide +kernel)
  · rw [hreplies]
    decide

end VideoQoS

end FontisRemote.Video
