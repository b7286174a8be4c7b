import FontisRemote.Lib.Unwinding
import FontisRemote.Video.Qos

/-!
# Viewers do not see each other

Of what the controller keeps of a viewer, other viewers' operations reach one number only, the count of
replies since the bitrate came down, and that number is read only while the bitrate can still come down.
-/

namespace FontisRemote.Video

open FontisRemote.Lib

/-! ## The count of replies -/

namespace UserDelay

variable (d : UserDelay)

/-- Without the count of replies since the bitrate came down. -/
def forget : UserDelay :=
  { d with repliesAfterBitrateReduction := none }

/-- Forget the count in what a stage of a reply returns. -/
def forgetIn (r : Nat × UserDelay) : Nat × UserDelay :=
  (r.1, r.2.forget)

theorem candidate_forget (minFps normalFps fps avgDelay oldAvgDelay : Nat) :
    d.forget.candidate minFps normalFps fps avgDelay oldAvgDelay =
      forgetIn (d.candidate minFps normalFps fps avgDelay oldAvgDelay) := by
  unfold candidate
  simp only [apply_ite forgetIn]
  rfl

theorem countStable_forget (fps avgDelay : Nat) :
    d.forget.countStable fps avgDelay = forgetIn (d.countStable fps avgDelay) := by
  unfold countStable
  simp only [apply_ite forgetIn]
  rfl

theorem recover_forget (currentFps fps : Nat) :
    d.forget.recover currentFps fps = forgetIn (d.recover currentFps fps) := by
  unfold recover
  dsimp only
  have hlevel : d.forget.fpsBeforeCongestion = d.fpsBeforeCongestion := rfl
  rw [hlevel]
  split
  · rw [apply_ite forgetIn]
    rfl
  · rw [apply_ite forgetIn]
    rfl

theorem giveUpRestored_forget (currentFps : Nat) (failedRestore : Bool) :
    d.forget.giveUpRestored currentFps failedRestore = (d.giveUpRestored currentFps failedRestore).forget := by
  unfold giveUpRestored
  rw [apply_ite forget]
  rfl

/-- The one place that reads the count reads it for the bitrate. -/
theorem limitBad_forget (currentFps fps excess : Nat) (braked : Bool) :
    d.forget.limitBad currentFps fps excess false braked =
      forgetIn (d.limitBad currentFps fps excess false braked) := by
  have hcount : d.forget.countBad = d.countBad.forget := rfl
  have hrecent : d.countBad.forget.restoredRecently = d.countBad.restoredRecently := rfl
  unfold limitBad
  dsimp only
  rw [hcount, hrecent, giveUpRestored_forget]
  simp only [Bool.false_and, Bool.or_false, apply_ite forgetIn]
  rfl

theorem limitFpsChange_forget (currentFps fps delay : Nat) (braked : Bool) :
    d.forget.limitFpsChange currentFps fps delay false braked =
      forgetIn (d.limitFpsChange currentFps fps delay false braked) := by
  have hexcess : d.forget.excess delay = d.excess delay := rfl
  unfold limitFpsChange
  dsimp only
  rw [hexcess, apply_ite forgetIn, ← recover_forget, ← limitBad_forget]
  rfl

theorem accelerateStartup_forget (currentFps fps cap delay : Nat) (braked : Bool) :
    d.forget.accelerateStartup currentFps fps cap delay braked =
      forgetIn (d.accelerateStartup currentFps fps cap delay braked) := by
  have hexcess : d.forget.excess delay = d.excess delay := rfl
  unfold accelerateStartup
  rw [hexcess]
  simp only [apply_ite forgetIn]
  rfl

end UserDelay

namespace UserData

variable {R : Type} [RatioNumber R] (u : UserData R)

def forget : UserData R :=
  { u with delay := u.delay.forget }

theorem propose_forget (minFps normalFps : Nat) (delay : Nat) :
    u.forget.propose minFps normalFps false delay =
      UserDelay.forgetIn (u.propose minFps normalFps false delay) := by
  have henter : u.forget.enter delay = (u.enter delay).forget := by
    have hbraked : u.forget.braked = u.braked := rfl
    unfold enter
    rw [hbraked]
    dsimp only
    split <;> rfl
  have havg : (u.enter delay).forget.avgDelay = (u.enter delay).avgDelay := rfl
  have hold : u.forget.delay.avgDelay = u.delay.avgDelay := rfl
  have htarget : u.forget.target = u.target := rfl
  have hcap : u.forget.fpsCap = u.fpsCap := rfl
  unfold propose
  dsimp only
  rw [henter, havg, hold, htarget, hcap, UserDelay.candidate_forget]
  dsimp only [UserDelay.forgetIn]
  rw [UserDelay.countStable_forget]
  dsimp only [UserDelay.forgetIn]

theorem networkDelay_forget (minFps normalFps delay : Nat) :
    (u.forget.networkDelay minFps normalFps false delay).1 =
      (u.networkDelay minFps normalFps false delay).1.forget := by
  have htarget : u.forget.target = u.target := rfl
  have hbraked : u.forget.braked = u.braked := rfl
  have hcap : u.forget.fpsCap = u.fpsCap := rfl
  unfold networkDelay
  dsimp only
  rw [htarget, hbraked, hcap, propose_forget]
  dsimp only [UserDelay.forgetIn]
  rw [UserDelay.limitFpsChange_forget]
  dsimp only [UserDelay.forgetIn]
  rw [UserDelay.accelerateStartup_forget]
  dsimp only [UserDelay.forgetIn, UserDelay.forget, forget]

theorem delayResponseElapsed_forget (elapsed : Nat) :
    u.forget.delayResponseElapsed elapsed = (u.delayResponseElapsed elapsed).forget := by
  have htarget : u.forget.target = u.target := rfl
  have hcap : u.forget.fpsCap = u.fpsCap := rfl
  unfold delayResponseElapsed
  dsimp only
  rw [htarget, hcap]
  cases href : u.delay.stallReferenceFps with
  | none => simp [forget, UserDelay.forget, UserDelay.addDelay, UserDelay.onReduction, href]
  | some reference => simp [forget, UserDelay.forget, UserDelay.addDelay, href]

end UserData

/-! ## What an operation does to a viewer -/

namespace VideoQoS

variable {R : Type} [RatioNumber R] (qos : VideoQoS R) (v : Int)

/-- What is kept of a viewer, but for the count. -/
def view : Option (UserData R) :=
  (Assoc.get qos.users v).map UserData.forget

/-- What a viewer's own operation makes of it, with the frame rate levels of the latest quality. -/
def serve (levels : Nat × Nat) (canReduceBitrate : Bool) (now : Nat) (e : Event) (u : Option (UserData R)) :
    Option (UserData R) :=
  match e with
  | .connectionOpen _ _ => some { joinedAt := some now }
  | .connectionClose _ => none
  | .customFps _ fps => if fpsInRange fps then u.map fun u => { u with customFps := some fps } else u
  | .autoAdjustFps _ fps =>
    if fpsInRange fps then u.map fun u => { u with autoAdjustFps := some fps } else u
  | .imageQuality _ imageQuality time =>
    u.map fun u => { u with quality := some (time, convertQuality imageQuality) }
  | .record _ v => u.map fun u => { u with record := v }
  | .networkDelay _ delay =>
    u.map fun u => (u.networkDelay levels.1 levels.2 canReduceBitrate delay).1
  | .delayResponseElapsed _ elapsed =>
    if elapsed ≤ 2000 then u else u.map fun u => u.delayResponseElapsed elapsed
  | _ => u

/-- With the count put aside, a viewer by itself is served the same. -/
theorem serve_forget (levels : Nat × Nat) (now : Nat) (e : Event) (u : Option (UserData R)) :
    (serve levels false now e u).map UserData.forget =
      serve levels false now e (u.map UserData.forget) := by
  cases u with
  | none =>
    cases e with
    | connectionOpen id enableAbr => rfl
    | _ => simp only [serve, Option.map_none, ite_self]
  | some u =>
    cases e with
    | networkDelay id delay => exact congrArg some (u.networkDelay_forget _ _ _).symm
    | delayResponseElapsed id elapsed =>
      dsimp only [serve]
      split
      · rfl
      · exact congrArg some (u.delayResponseElapsed_forget elapsed).symm
    | customFps id fps =>
      dsimp only [serve]
      split <;> rfl
    | autoAdjustFps id fps =>
      dsimp only [serve]
      split <;> rfl
    | _ => rfl

/-- The levels of a quality. -/
def fpsLevelsOf (q : Quality R) : Nat × Nat :=
  if BR_BEST ≤ q.ratio then (8, 16)
  else if BR_BALANCED ≤ q.ratio then (10, 20)
  else (12, 24)

theorem fpsLevels_eq {q : Quality R} (h : qos.latestQuality = q) : qos.fpsLevels = fpsLevelsOf q := by
  unfold fpsLevels fpsLevelsOf
  rw [h]

section Frame

theorem view_adjustFps (now : Nat) : (qos.adjustFps now).view v = qos.view v :=
  rfl

theorem forget_noteReduction (lowered : Bool) (u : UserData R) :
    (noteReduction lowered u).forget = u.forget := by
  unfold noteReduction
  split <;> rfl

/-- The bitrate's reductions write the count alone. -/
theorem view_adjustRatio (dynamicScreen : Bool) (now : Nat) :
    (qos.adjustRatio dynamicScreen now).view v = qos.view v := by
  unfold adjustRatio
  split
  · split
    · rfl
    · dsimp only
      split
      · rfl
      · unfold view
        dsimp only [resetSendCounters]
        split
        · rw [Assoc.get_mapValues, Option.map_map]
          congr 1
          funext u
          exact forget_noteReduction _ u
        · rfl
  · rfl

theorem view_afterReply (adjustRatio reduceBitrate : Bool) (now : Nat) :
    (qos.afterReply adjustRatio reduceBitrate now).view v = qos.view v := by
  have hfirst : ∀ (q : VideoQoS R) (b : Bool),
      (if b then q.adjustRatio false now else q).view v = q.view v := by
    intro q b
    split
    · exact q.view_adjustRatio v false now
    · rfl
  unfold afterReply
  dsimp only
  rw [hfirst, hfirst, view_adjustFps]

theorem view_setUser (id : Int) (f : UserData R → UserData R) :
    (qos.setUser id f).view v =
      if v = id then (Assoc.get qos.users v).map fun u => (f u).forget else qos.view v := by
  unfold view setUser
  dsimp only
  rw [Assoc.get_mapValues, Option.map_map]
  split
  · rename_i h
    subst h
    simp [Function.comp_def]
  · simp [Function.comp_def]

theorem view_onConnectionClose (id : Int) (now : Nat) :
    (qos.onConnectionClose id now).view v = if v = id then none else qos.view v := by
  have herase : (Assoc.get (Assoc.erase qos.users id) v).map UserData.forget =
      if v = id then none else qos.view v := by
    rw [Assoc.get_erase, apply_ite (Option.map UserData.forget)]
    rfl
  unfold onConnectionClose
  dsimp only
  split
  · rename_i hempty
    rw [hempty] at herase
    exact herase
  · exact herase

theorem view_userNetworkDelay (id : Int) (delay now : Nat) :
    (qos.userNetworkDelay id delay now).view v =
      if v = id then
        (Assoc.get qos.users v).map fun u =>
          (u.networkDelay qos.fpsLevels.1 qos.fpsLevels.2 qos.canReduceBitrate delay).1.forget
      else qos.view v := by
  unfold userNetworkDelay
  cases hu : Assoc.get qos.users id with
  | none =>
    dsimp only
    rw [view_adjustFps]
    by_cases h : v = id
    · rw [if_pos h, view, h, hu, Option.map_none, Option.map_none]
    · rw [if_neg h]
  | some u =>
    dsimp only
    rw [view_afterReply, view_setUser]
    rfl

theorem view_userDelayResponseElapsed (id : Int) (elapsed now : Nat) :
    (qos.userDelayResponseElapsed id elapsed now).view v =
      if v = id then
        if elapsed ≤ 2000 then qos.view v
        else (Assoc.get qos.users v).map fun u => (u.delayResponseElapsed elapsed).forget
      else qos.view v := by
  unfold userDelayResponseElapsed
  split
  · rename_i hnone
    split
    · rename_i h
      rw [view, h, hnone]
      exact (ite_self _).symm
    · rfl
  · split
    · rw [ite_self]
    · exact qos.view_setUser v id fun u => u.delayResponseElapsed elapsed

theorem view_userImageQuality (id imageQuality time : Int) :
    (qos.userImageQuality id imageQuality time).view v =
      if v = id then
        (Assoc.get qos.users v).map fun u =>
          { u with quality := some (time, convertQuality imageQuality) }.forget
      else qos.view v := by
  unfold userImageQuality
  split
  · rw [← view_setUser]
    rfl
  · rename_i hnone
    by_cases h : v = id
    · subst h
      have hget : Assoc.get qos.users v = none := by simpa using hnone
      rw [if_pos rfl, view, hget]
      rfl
    · rw [if_neg h]

theorem view_updateDisplayData (name : String) (sendCounter now : Nat) :
    (qos.updateDisplayData name sendCounter now).view v = qos.view v := by
  unfold updateDisplayData
  dsimp only
  split
  · split
    · exact view_adjustRatio _ v _ now
    · rfl
  · rfl

theorem view_rehash (ids : List Int) : (qos.rehash ids).view v = qos.view v := by
  unfold rehash
  split
  · rename_i hperm
    unfold view
    dsimp only
    rw [Assoc.get_filterMap]
    split
    · rfl
    · rename_i hmem
      rw [Assoc.get_eq_none fun h => hmem (hperm.mem_iff.mpr h)]
  · rfl

end Frame

/-- A viewer's own operation depends on the others only through the latest quality and through whether
the bitrate can come down. -/
theorem view_apply_own {e : Nat × Event} (h : e.2.viewer = some v) :
    (qos.apply e).view v =
      (serve qos.fpsLevels qos.canReduceBitrate e.1 e.2 (Assoc.get qos.users v)).map UserData.forget := by
  obtain ⟨now, e⟩ := e
  unfold apply
  cases e with
  | connectionOpen id enableAbr =>
    obtain rfl := Option.some.inj h
    unfold view onConnectionOpen
    dsimp only
    rw [Assoc.get_put, if_pos rfl]
    rfl
  | connectionClose id =>
    obtain rfl := Option.some.inj h
    exact (view_onConnectionClose qos id id now).trans (if_pos rfl)
  | customFps id fps =>
    obtain rfl := Option.some.inj h
    dsimp only [serve, userCustomFps]
    split
    · rw [view_setUser, if_pos rfl, Option.map_map]
      rfl
    · rfl
  | autoAdjustFps id fps =>
    obtain rfl := Option.some.inj h
    dsimp only [serve, userAutoAdjustFps]
    split
    · rw [view_setUser, if_pos rfl, Option.map_map]
      rfl
    · rfl
  | imageQuality id imageQuality time =>
    obtain rfl := Option.some.inj h
    dsimp only [serve]
    rw [view_userImageQuality, if_pos rfl, Option.map_map]
    rfl
  | record id b =>
    obtain rfl := Option.some.inj h
    dsimp only [serve, userRecord]
    rw [view_setUser, if_pos rfl, Option.map_map]
    rfl
  | networkDelay id delay =>
    obtain rfl := Option.some.inj h
    dsimp only [serve]
    rw [view_userNetworkDelay, if_pos rfl, Option.map_map]
    rfl
  | delayResponseElapsed id elapsed =>
    obtain rfl := Option.some.inj h
    dsimp only [serve]
    rw [view_userDelayResponseElapsed, if_pos rfl, apply_ite (Option.map UserData.forget),
      Option.map_map]
    rfl
  | _ => cases h

/-- Another viewer's operation changes nothing. -/
theorem view_apply_other {e : Nat × Event} (h : e.2.viewer ≠ some v) :
    (qos.apply e).view v = qos.view v := by
  obtain ⟨now, e⟩ := e
  have hother : ∀ id, e.viewer = some id → v ≠ id := by
    rintro id hid rfl
    exact h hid
  unfold apply
  cases e with
  | connectionOpen id enableAbr =>
    unfold view onConnectionOpen
    dsimp only
    rw [Assoc.get_put, if_neg (hother id rfl)]
  | connectionClose id => exact (view_onConnectionClose qos v id now).trans (if_neg (hother id rfl))
  | customFps id fps =>
    dsimp only [userCustomFps]
    split
    · exact (view_setUser qos v id _).trans (if_neg (hother id rfl))
    · rfl
  | autoAdjustFps id fps =>
    dsimp only [userAutoAdjustFps]
    split
    · exact (view_setUser qos v id _).trans (if_neg (hother id rfl))
    · rfl
  | imageQuality id imageQuality time =>
    exact (view_userImageQuality qos v id imageQuality time).trans (if_neg (hother id rfl))
  | record id b => exact (view_setUser qos v id _).trans (if_neg (hother id rfl))
  | networkDelay id delay =>
    exact (view_userNetworkDelay qos v id delay now).trans (if_neg (hother id rfl))
  | delayResponseElapsed id elapsed =>
    exact (view_userDelayResponseElapsed qos v id elapsed now).trans (if_neg (hother id rfl))
  | updateDisplayData name sendCounter => exact view_updateDisplayData qos v name sendCounter now
  | rehash ids => exact view_rehash qos v ids
  | _ => rfl

/-! ## Two runs -/

/-- The operations of a viewer. -/
def own (e : Nat × Event) : Bool :=
  decide (e.2.viewer = some v)

/-- The target kept of a viewer, if it is there and has one. -/
def targetOf : Option (Option Nat) :=
  (Assoc.get qos.users v).map fun u => u.delay.fps

/-- Two runs with the same operations of a viewer at the same times, and with anything else in between:
while the bitrate cannot come down, and for one latest quality, the viewer's targets after each of its
operations are the same in both. -/
theorem targets_isolated (q : Quality R) {qos₁ qos₂ : VideoQoS R} {es₁ es₂ : List (Nat × Event)}
    (hsame : Assoc.get qos₁.users v = Assoc.get qos₂.users v)
    (hown : es₁.filter (own v) = es₂.filter (own v))
    (h₁ : ∀ qos ∈ states apply qos₁ es₁, qos.canReduceBitrate = false ∧ qos.latestQuality = q)
    (h₂ : ∀ qos ∈ states apply qos₂ es₂, qos.canReduceBitrate = false ∧ qos.latestQuality = q) :
    observations apply (own v) (targetOf · v) qos₁ es₁ =
      observations apply (own v) (targetOf · v) qos₂ es₂ := by
  have hsolo : ∀ {qos : VideoQoS R} {es : List (Nat × Event)},
      (∀ s ∈ states apply qos es, s.canReduceBitrate = false ∧ s.latestQuality = q) →
        observations apply (own v) (targetOf · v) qos es =
          alone (fun u e => serve (fpsLevelsOf q) false e.1 e.2 u) (Option.map fun u => u.delay.fps)
            (qos.view v) (es.filter (own v)) := by
    intro qos es hquiet
    refine observations_eq (view · v) (fun s e he => ?_) (fun s e hs he => ?_) (fun s => ?_) hquiet
    · exact s.view_apply_other v (of_decide_eq_false he)
    · rw [s.view_apply_own v (of_decide_eq_true he), hs.1, s.fpsLevels_eq hs.2]
      exact serve_forget _ _ _ _
    · unfold targetOf view
      rw [Option.map_map]
      rfl
  have hview : qos₁.view v = qos₂.view v := by
    unfold view
    rw [hsame]
  rw [hsolo h₁, hsolo h₂, hown, hview]

/-- A second viewer with a slow line joins, is braked and leaves. -/
theorem targets_isolated_slow :
    observations apply (own 1) (targetOf · 1) ({ firstReplyAdjustsRatio := false } : VideoQoS Float32)
        [(0, .connectionOpen 1 false), (1000, .networkDelay 1 40), (2000, .networkDelay 1 40),
          (5000, .delayResponseElapsed 1 2600), (5100, .networkDelay 1 2700)] =
      observations apply (own 1) (targetOf · 1) ({ firstReplyAdjustsRatio := false } : VideoQoS Float32)
        [(0, .connectionOpen 1 false), (500, .connectionOpen 2 false), (1000, .networkDelay 1 40),
          (1500, .networkDelay 2 900), (1600, .customFps 2 5), (2000, .networkDelay 1 40),
          (4500, .delayResponseElapsed 2 3000), (5000, .delayResponseElapsed 1 2600),
          (5050, .connectionClose 2), (5100, .networkDelay 1 2700)] := by
  refine targets_isolated 1 .balanced rfl rfl ?_ ?_
  · intro qos hqos
    simp only [states, List.mem_cons, List.not_mem_nil, or_false] at hqos
    obtain rfl | rfl | rfl | rfl | rfl | rfl := hqos <;> exact ⟨rfl, rfl⟩
  · intro qos hqos
    simp only [states, List.mem_cons, List.not_mem_nil, or_false] at hqos
    obtain rfl | rfl | rfl | rfl | rfl | rfl | rfl | rfl | rfl | rfl | rfl := hqos <;> exact ⟨rfl, rfl⟩

end VideoQoS

end FontisRemote.Video
