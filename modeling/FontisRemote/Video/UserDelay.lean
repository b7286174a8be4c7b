import Mathlib.Algebra.Order.Ring.Int
import Mathlib.Data.List.Basic
import FontisRemote.Video.Ratio

/-!
# What the controller keeps of one viewer

`UserDelay` and `UserData` of `video_qos.rs`: from the delays of the replies to its probes a viewer gets a
frame rate of its own, its target. A reply first gives a candidate from the average delay, then goes
through `limit_fps_change`, which has the counters of good and bad replies, and `accelerate_startup`, and
is clamped to the viewer's cap. A probe that stays out is braked by the timer.

Numbers are `u32` in the source. The only sum that can leave that range is the one of the delay history,
which comes round as the release build's does.
-/

namespace FontisRemote.Video

def FPS : Nat := 30

def MIN_FPS : Nat := 1

def MAX_FPS : Nat := 120

def INIT_FPS : Nat := 15

def MIN_AUTO_FPS : Nat := 5

def HISTORY_DELAY_LEN : Nat := 2

def DELAY_THRESHOLD_150MS : Nat := 150

def RESTORE_GUARD_SAMPLES : Nat := 5

def U8_MAX : Nat := 255

/-- `fps.clamp(lo, hi)`. -/
def clamp (lo hi n : Nat) : Nat :=
  if n < lo then lo else if hi < n then hi else n

/-! ## The baseline -/

structure RttCalculator where
  baseline : Option Nat := none
  samples : List Nat := []
deriving DecidableEq, Repr

namespace RttCalculator

def WINDOW_SAMPLES : Nat := 20

def MAX_INCREASE_MS : Nat := 50

/-- The baseline of a full window whose floor is no longer rising. -/
def relearn (baseline : Nat) (samples : List Nat) : Nat :=
  let half := WINDOW_SAMPLES / 2
  match (samples.take half).min?, (samples.drop half).min? with
  | some olderMin, some recentMin =>
    if recentMin > olderMin + 10 then baseline
    else
      let rise := min olderMin recentMin - baseline
      if rise > 0 then baseline + clamp 1 MAX_INCREASE_MS (rise / 2) else baseline
  | _, _ => baseline

def update (c : RttCalculator) (delay : Nat) : RttCalculator :=
  let samples := (if c.samples.length ≥ WINDOW_SAMPLES then c.samples.tail else c.samples) ++ [delay]
  let baseline := min (c.baseline.getD delay) delay
  if samples.length < WINDOW_SAMPLES then { baseline := some baseline, samples := samples }
  else { baseline := some (relearn baseline samples), samples := samples }

def getRtt (c : RttCalculator) : Option Nat :=
  c.baseline

end RttCalculator

/-! ## The evidence -/

structure UserDelay where
  stallTicks : Nat := 0
  delayHistory : List Nat := []
  fps : Option Nat := none
  rttCalculator : RttCalculator := {}
  quickIncreaseFpsCount : Nat := 0
  increaseFpsCount : Nat := 0
  consecutiveBadSamples : Nat := 0
  fpsBadSamples : Nat := 0
  goodSamples : Nat := 0
  repliesAfterBitrateReduction : Option Nat := none
  fpsBeforeCongestion : Option Nat := none
  samplesSinceRestore : Option Nat := none
  stallReferenceFps : Option Nat := none
  startupGoodSamples : Nat := 0
deriving DecidableEq, Repr

namespace UserDelay

variable (d : UserDelay)

def addDelay (delay : Nat) : UserDelay :=
  { d with
    delayHistory :=
      (if d.delayHistory.length ≥ HISTORY_DELAY_LEN then d.delayHistory.tail else d.delayHistory) ++
        [delay] }

/-- How far a reply is above the baseline. -/
def excess (delay : Nat) : Nat :=
  delay - d.rttCalculator.getRtt.getD 0

/-- Average delay above the baseline. -/
def avgDelay : Nat :=
  if d.delayHistory = [] then DELAY_THRESHOLD_150MS
  else d.excess (d.delayHistory.sum % 2 ^ 32 / d.delayHistory.length)

/-- The first reduction of an episode remembers the level to return to. -/
def onReduction (currentFps : Nat) : UserDelay :=
  { d with
    startupGoodSamples := U8_MAX
    goodSamples := 0
    fpsBadSamples := 0
    fpsBeforeCongestion := some (d.fpsBeforeCongestion.getD currentFps) }

def recover (currentFps fps : Nat) : Nat × UserDelay :=
  let gradual := currentFps + max (currentFps / 10) 1
  let level := d.fpsBeforeCongestion.filter fun level => decide (level > currentFps)
  match level with
  | some level =>
    if d.goodSamples = 2 ∨ d.goodSamples = 3 then
      (max fps level, { d with fpsBeforeCongestion := none, samplesSinceRestore := some 0 })
    else (gradual, d)
  | none =>
    if d.goodSamples = 3 then
      (max fps (currentFps + max (currentFps / 5) 2), { d with fpsBeforeCongestion := none })
    else (gradual, d)

/-- The counters after a good reply. -/
def countGood : UserDelay :=
  { d with
    consecutiveBadSamples := 0
    fpsBadSamples := 0
    repliesAfterBitrateReduction := none
    goodSamples := min (d.goodSamples + 1) 3 }

/-- The counters after a bad one. -/
def countBad : UserDelay :=
  { d with
    consecutiveBadSamples := min (d.consecutiveBadSamples + 1) 3
    fpsBadSamples := min (d.fpsBadSamples + 1) 3
    repliesAfterBitrateReduction := d.repliesAfterBitrateReduction.map fun n => min (n + 1) 2 }

/-- A level has been restored a short while ago. -/
def restoredRecently : Bool :=
  d.samplesSinceRestore.any fun samples => decide (samples ≤ RESTORE_GUARD_SAMPLES)

/-- A level that congests right after being restored is not the level to return to. -/
def giveUpRestored (currentFps : Nat) (failedRestore : Bool) : UserDelay :=
  if d.restoredRecently && (failedRestore || decide (d.consecutiveBadSamples ≥ 3)) then
    { d with
      fpsBeforeCongestion := some (currentFps - currentFps / 4)
      samplesSinceRestore := none }
  else d

/-- `limit_fps_change` for a reply that is bad; `excess` is its delay above the baseline. -/
def limitBad (currentFps fps excess : Nat) (bitrateFirst braked : Bool) : Nat × UserDelay :=
  let d := d.countBad
  let failedRestore := decide (excess ≥ 600) && d.restoredRecently
  let d := d.giveUpRestored currentFps failedRestore
  -- the timeout brake already reduced for the probe this reply answers
  if fps ≥ currentFps ∨ braked then (currentFps, d)
  else if !failedRestore && decide (excess < 1000) &&
      (decide (d.fpsBadSamples < 3) ||
        (bitrateFirst && decide (d.repliesAfterBitrateReduction.getD 0 < 2))) then
    (currentFps, d)
  else
    let divisor := if excess ≥ 1000 ∨ failedRestore then 2 else 5
    (max fps (currentFps - max (currentFps / divisor) 1), d.onReduction currentFps)

def limitFpsChange (currentFps fps delay : Nat) (bitrateFirst braked : Bool) : Nat × UserDelay :=
  let excess := d.excess delay
  let d := { d with samplesSinceRestore := d.samplesSinceRestore.map fun n => min (n + 1) U8_MAX }
  if excess < DELAY_THRESHOLD_150MS then d.countGood.recover currentFps fps
  else d.limitBad currentFps fps excess bitrateFirst braked

def accelerateStartup (currentFps fps cap delay : Nat) (braked : Bool) : Nat × UserDelay :=
  if d.startupGoodSamples = U8_MAX then (fps, d)
  else if braked ∨ d.excess delay ≥ 50 ∨ currentFps ≥ cap then
    (fps, { d with startupGoodSamples := U8_MAX })
  else if d.startupGoodSamples + 1 < 2 then
    (fps, { d with startupGoodSamples := d.startupGoodSamples + 1 })
  else
    let accelerated := min (max fps (currentFps * 2)) cap
    (accelerated, { d with startupGoodSamples := if accelerated ≥ cap then U8_MAX else 0 })

def needsBitrateReduction : Bool :=
  decide (d.consecutiveBadSamples ≥ 2) || decide (d.stallTicks ≥ 2)

/-- The bitrate step this viewer's own evidence calls for. -/
def ratioReduction {R : Type} [RatioNumber R] : Option R :=
  if d.needsBitrateReduction then
    let excess := d.avgDelay
    let confirmed := decide (d.consecutiveBadSamples ≥ 3)
    some
      (if excess < 200 then 0.95
      else if excess < 300 then 0.9
      else if excess < 500 then if confirmed then 0.7 else 0.85
      else if confirmed then 0.5
      else 0.8)
  else none

/-- `devide_fps`, the only place where a target meets floating point. -/
def devideFps (fps avgDelay : Nat) : Nat :=
  ((UInt32.ofNat fps).toFloat32 /
    ((UInt32.ofNat avgDelay).toFloat32 / (UInt32.ofNat DELAY_THRESHOLD_150MS).toFloat32)).ceil.toUInt32.toNat

/-- The candidate that the average delay gives, before the stable samples are looked at. -/
def candidate (minFps normalFps fps avgDelay oldAvgDelay : Nat) : Nat × UserDelay :=
  let dividendMs := DELAY_THRESHOLD_150MS * minFps
  if avgDelay < 50 then
    let count := d.quickIncreaseFpsCount + 1
    let step := if count ≥ 3 then 5 else if fps < normalFps then 1 else 0
    (max minFps (fps + step), { d with quickIncreaseFpsCount := if count ≥ 3 then 0 else count })
  else if avgDelay < 100 then
    let step := if avgDelay < oldAvgDelay then if fps < normalFps then 1 else 0 else 0
    (max minFps (fps + step), d)
  else if avgDelay < DELAY_THRESHOLD_150MS then (max minFps fps, d)
  else
    let devideFps := devideFps fps avgDelay
    if avgDelay < 200 then (max minFps devideFps, d)
    else if avgDelay < 300 then (min minFps devideFps, d)
    else if avgDelay < 600 then (dividendMs / avgDelay, d)
    else (min (dividendMs / avgDelay) devideFps, d)

/-- The stable samples, and the counter of quick ones. -/
def countStable (fps avgDelay : Nat) : Nat × UserDelay :=
  let count := if avgDelay < DELAY_THRESHOLD_150MS then d.increaseFpsCount + 1 else 0
  let quick := if avgDelay > 50 then 0 else d.quickIncreaseFpsCount
  if count ≥ 3 then (fps + 1, { d with increaseFpsCount := 0, quickIncreaseFpsCount := quick })
  else (fps, { d with increaseFpsCount := count, quickIncreaseFpsCount := quick })

end UserDelay

/-! ## A viewer -/

structure UserData (R : Type) [RatioNumber R] where
  autoAdjustFps : Option Nat := none
  customFps : Option Nat := none
  /-- With its time. -/
  quality : Option (Int × Quality R) := none
  delay : UserDelay := {}
  record : Bool := false
  joinedAt : Option Nat := none

namespace UserData

variable {R : Type} [RatioNumber R] (u : UserData R)

/-- The frame rate this viewer asked for. -/
def fpsCap : Nat :=
  let fps := u.customFps.getD FPS
  let fps :=
    match u.autoAdjustFps with
    | some auto => if fps = 0 ∨ auto < fps then auto else fps
    | none => fps
  clamp MIN_FPS MAX_FPS fps

/-- The viewer's target, or the one it starts from. -/
def target : Nat :=
  u.delay.fps.getD (min INIT_FPS u.fpsCap)

/-- The probe that is out has been braked by a timeout. -/
def braked : Bool :=
  u.delay.stallReferenceFps.isSome

/-- What `user_network_delay` does first with a reply: it closes the probe and enters the delay. -/
def enter (delay : Nat) : UserDelay :=
  let d := { u.delay with stallTicks := 0, stallReferenceFps := none }
  let d := if u.braked then d else { d with rttCalculator := d.rttCalculator.update delay }
  d.addDelay delay

/-- The rate that the average delay speaks for, with its floors. -/
def propose (minFps normalFps : Nat) (bitrateFirst : Bool) (delay : Nat) : Nat × UserDelay :=
  let d := u.enter delay
  let avgDelay := max d.avgDelay 10
  let first := d.candidate minFps normalFps u.target avgDelay u.delay.avgDelay
  let stable := first.2.countStable first.1 avgDelay
  -- while the bitrate can still come down, the frame rate keeps its floor
  let fps := if bitrateFirst then max stable.1 minFps else stable.1
  (max fps (min MIN_AUTO_FPS u.fpsCap), stable.2)

/-- The part of `user_network_delay` that is about its viewer, with `adjust_ratio` and
`reduce_bitrate`. -/
def networkDelay (minFps normalFps : Nat) (bitrateFirst : Bool) (delay : Nat) :
    UserData R × Bool × Bool :=
  let delay := max delay 10
  let proposed := u.propose minFps normalFps bitrateFirst delay
  let limited := proposed.2.limitFpsChange u.target proposed.1 delay bitrateFirst u.braked
  let started := limited.2.accelerateStartup u.target limited.1 u.fpsCap delay u.braked
  let d := started.2
  let reduceBitrate :=
    bitrateFirst && d.needsBitrateReduction && d.repliesAfterBitrateReduction.isNone
  ({ u with delay := { d with fps := some (clamp MIN_FPS u.fpsCap started.1) } },
    u.delay.fps.isNone, reduceBitrate)

/-- `user_delay_response_elapsed` past two seconds. -/
def delayResponseElapsed (elapsed : Nat) : UserData R :=
  let d := { u.delay with stallTicks := min (u.delay.stallTicks + 1) U8_MAX }
  let d := d.addDelay (elapsed % 2 ^ 32)
  let reference := d.stallReferenceFps.getD u.target
  let d :=
    if d.stallReferenceFps.isSome then d
    else { d with stallReferenceFps := some reference }.onReduction reference
  let divisor := 2 ^ min (elapsed / 1000 % 2 ^ 32 - 1) 5
  let cap := u.fpsCap
  let current := d.fps.getD reference
  let fps := min (clamp (min MIN_AUTO_FPS cap) cap (reference / divisor)) current
  { u with delay := { d with fps := some fps } }

end UserData

end FontisRemote.Video
