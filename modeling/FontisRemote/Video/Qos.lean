import Mathlib.Data.List.Perm.Basic
import FontisRemote.Lib.Assoc
import FontisRemote.Lib.Run
import FontisRemote.Video.UserDelay

/-!
# The quality controller

`VideoQoS`: all viewers of all displays share one controller, with one frame rate and one bitrate ratio.
An operation reads the clock once here. The maps are iterated in the order of their lists, and `rehash`
puts them in any other.
-/

namespace FontisRemote.Video

open FontisRemote.Lib

def ADJUST_RATIO_INTERVAL : Nat := 3

def DYNAMIC_SCREEN_THRESHOLD : Nat := 2

structure DisplayData where
  sendCounter : Nat := 0
  supportChangingQuality : Bool := false
deriving DecidableEq, Repr

structure VideoQoS (R : Type) [RatioNumber R] where
  fps : Nat := FPS
  ratio : R := BR_BALANCED
  users : List (Int × UserData R) := []
  displays : List (String × DisplayData) := []
  bitrateStore : Nat := 0
  adjustRatioInstant : Nat := 0
  abrConfig : Bool := true
  /-- Not on Linux. -/
  firstReplyAdjustsRatio : Bool

namespace VideoQoS

variable {R : Type} [RatioNumber R] (qos : VideoQoS R)

/-- Whole seconds since, at a time in milliseconds. -/
def secsSince (now instant : Nat) : Nat :=
  (now - instant) / 1000

def inVbrState : Bool :=
  qos.abrConfig && qos.displays.all fun e => e.2.supportChangingQuality

/-- The latest quality any viewer has set; of several at one time the one that is iterated last. -/
def latestQuality : Quality R :=
  let latest := (qos.users.filterMap fun p => p.2.quality).foldl
    (fun best q =>
      match best with
      | some (b : Int × Quality R) => if b.1 ≤ q.1 then some q else some b
      | none => some q)
    none
  (latest.getD (0, .balanced)).2

def highestFps : Nat :=
  clamp MIN_FPS MAX_FPS ((qos.users.map fun p => p.2.fpsCap).min?.getD FPS)

/-- The ratio for about 1Mbps. -/
def ratio1mbps : Option R :=
  if qos.bitrateStore > 0 then
    some (fmax (qos.ratio * 1000.0 / ofU32 qos.bitrateStore) BR_MIN_HIGH_RESOLUTION)
  else none

/-- The bound of a quality, for about 1Mbps where that is lower. -/
def lower (min : R) : R :=
  match qos.ratio1mbps with
  | some ratio => if ratio < min then ratio else min
  | none => min

/-- Lowest ratio the latest quality allows. -/
def minRatio : R :=
  match qos.latestQuality with
  | .best => fmax (qos.lower (BR_BEST / 2.5)) BR_MIN
  | .balanced => fmax (qos.lower (fmin (BR_BALANCED / 2.0) 0.4)) BR_MIN_HIGH_RESOLUTION
  | .low => BR_MIN_HIGH_RESOLUTION
  | .custom _ => BR_MIN_HIGH_RESOLUTION

/-- The ratio of the latest quality, as the upper bound. -/
def maxRatio : R :=
  qos.latestQuality.ratio * MAX_BR_MULTIPLE

/-- Whether congestion can still be answered with a lower bitrate. -/
def canReduceBitrate : Bool :=
  qos.inVbrState && !qos.displays.isEmpty && decide (qos.minRatio * 1.02 < qos.ratio)

def adjustFps (now : Nat) : VideoQoS R :=
  let fps := (qos.users.map fun p => p.2.delay.fps.getD INIT_FPS).min?.getD INIT_FPS
  let starting := qos.users.any fun p => p.2.joinedAt.any fun joined => decide (secsSince now joined < 1)
  let fps := if starting then min fps INIT_FPS else fps
  { qos with fps := clamp MIN_FPS qos.highestFps fps }

def resetSendCounters : VideoQoS R :=
  { qos with displays := qos.displays.map fun e => (e.1, { e.2 with sendCounter := 0 }) }

/-- A viewer whose evidence called for the reduction starts to count its replies. -/
def noteReduction (lowered : Bool) (u : UserData R) : UserData R :=
  if u.delay.needsBitrateReduction && u.delay.repliesAfterBitrateReduction.isNone then
    { u with delay :=
        { u.delay with repliesAfterBitrateReduction := some (if lowered then 0 else 2) } }
  else u

/-- The most conservative step any viewer asks for. -/
def reduction : Option R :=
  match qos.users.filterMap fun p => p.2.delay.ratioReduction with
  | [] => none
  | first :: rest => some (rest.foldl fmin first)

def maxDelay : Option Nat :=
  (qos.users.map fun p => p.2.delay.avgDelay).max?

/-- The limit on an increase: the ratio for 150kbps more. -/
def limitIncrease (v : R) : R :=
  if qos.bitrateStore > 0 then
    let ratioAdd150kbps := ofU32 (qos.bitrateStore + 150) * qos.ratio / ofU32 qos.bitrateStore
    if ratioAdd150kbps < v ∧ qos.ratio < ratioAdd150kbps ∧ BR_SPEED ≤ qos.ratio then ratioAdd150kbps else v
  else v

/-- The ratio that is asked for. -/
def proposal (maxDelay : Nat) (dynamicScreen : Bool) : R :=
  qos.limitIncrease <|
    match qos.reduction with
    | some factor => qos.ratio * factor
    | none =>
      if dynamicScreen then
        if maxDelay < 50 then qos.ratio * 1.15
        else if maxDelay < 100 then qos.ratio * 1.1
        else qos.ratio * 1.05
      else qos.ratio

def adjustRatio (dynamicScreen : Bool) (now : Nat) : VideoQoS R :=
  if qos.inVbrState then
    match qos.maxDelay with
    | none => qos
    | some maxDelay =>
      if qos.reduction.isNone && decide (maxDelay ≥ DELAY_THRESHOLD_150MS) then qos.resetSendCounters
      else
        let ratio := fclamp qos.minRatio qos.maxRatio (qos.proposal maxDelay dynamicScreen)
        let users :=
          if qos.reduction.isSome then
            Assoc.mapValues (fun _ u => noteReduction (decide (ratio < qos.ratio)) u) qos.users
          else qos.users
        { resetSendCounters { qos with users := users, ratio := ratio } with
          adjustRatioInstant := now }
  else qos

def onConnectionOpen (id : Int) (enableAbr : Bool) (now : Nat) : VideoQoS R :=
  { qos with
    users := Assoc.put qos.users id (some { joinedAt := some now })
    abrConfig := enableAbr }

def onConnectionClose (id : Int) (now : Nat) : VideoQoS R :=
  let users := Assoc.erase qos.users id
  if users = [] then
    { adjustRatioInstant := now, firstReplyAdjustsRatio := qos.firstReplyAdjustsRatio }
  else adjustFps { qos with users := users } now

/-- Change what is kept of a viewer, if there is one. -/
def setUser (id : Int) (f : UserData R → UserData R) : VideoQoS R :=
  { qos with users := Assoc.mapValues (fun i u => if i = id then f u else u) qos.users }

def fpsInRange (fps : Nat) : Bool :=
  decide (MIN_FPS ≤ fps) && decide (fps ≤ MAX_FPS)

def userCustomFps (id : Int) (fps : Nat) : VideoQoS R :=
  if fpsInRange fps then qos.setUser id fun u => { u with customFps := some fps } else qos

def userAutoAdjustFps (id : Int) (fps : Nat) : VideoQoS R :=
  if fpsInRange fps then qos.setUser id fun u => { u with autoAdjustFps := some fps } else qos

/-- `convert_quality`. -/
def convertQuality (q : Int) : Quality R :=
  if q = 3 then .balanced
  else if q = 2 then .low
  else if q = 4 then .best
  else
    let b : R := ofU32 ((q >>> (8 : Nat)) % 4096 * 2).toNat / 100.0
    .custom ⟨fclamp BR_MIN BR_MAX b, b, rfl⟩

def userImageQuality (id : Int) (imageQuality time : Int) : VideoQoS R :=
  if (Assoc.get qos.users id).isSome then
    let qos := qos.setUser id fun u => { u with quality := some (time, convertQuality imageQuality) }
    { qos with ratio := qos.latestQuality.ratio }
  else qos

def userRecord (id : Int) (v : Bool) : VideoQoS R :=
  qos.setUser id fun u => { u with record := v }

/-- `min_fps` and `normal_fps`: for a bad network, a small frame rate means a quick reaction. -/
def fpsLevels : Nat × Nat :=
  let ratio := qos.latestQuality.ratio
  if BR_BEST ≤ ratio then (8, 16)
  else if BR_BALANCED ≤ ratio then (10, 20)
  else (12, 24)

def cooledDown (now : Nat) : Bool :=
  decide (secsSince now qos.adjustRatioInstant ≥ ADJUST_RATIO_INTERVAL)

/-- What is done about the shared rate and ratio after a reply. -/
def afterReply (adjustRatio reduceBitrate : Bool) (now : Nat) : VideoQoS R :=
  let qos := qos.adjustFps now
  let qos :=
    if adjustRatio && qos.firstReplyAdjustsRatio && qos.cooledDown now then
      qos.adjustRatio false now
    else qos
  if reduceBitrate && qos.cooledDown now then qos.adjustRatio false now else qos

/-- What a reply makes of its viewer, with `adjust_ratio` and `reduce_bitrate`. -/
def reply (delay : Nat) (u : UserData R) : UserData R × Bool × Bool :=
  u.networkDelay qos.fpsLevels.1 qos.fpsLevels.2 qos.canReduceBitrate delay

def userNetworkDelay (id : Int) (delay now : Nat) : VideoQoS R :=
  match Assoc.get qos.users id with
  | none => qos.adjustFps now
  | some u =>
    let reply := qos.reply delay
    (qos.setUser id fun u => (reply u).1).afterReply (reply u).2.1 (reply u).2.2 now

def userDelayResponseElapsed (id : Int) (elapsed now : Nat) : VideoQoS R :=
  match Assoc.get qos.users id with
  | none => qos
  | some _ =>
    if elapsed ≤ 2000 then qos
    else (qos.setUser id fun u => u.delayResponseElapsed elapsed).adjustFps now

def updateDisplayData (name : String) (sendCounter now : Nat) : VideoQoS R :=
  let displays := Assoc.mapValues
    (fun n e => if n = name then { e with sendCounter := e.sendCounter + sendCounter } else e)
    qos.displays
  let qos := adjustFps { qos with displays := displays } now
  if qos.inVbrState then
    if qos.cooledDown now then
      let dynamicScreen := qos.displays.any fun d =>
        decide (d.2.sendCounter ≥ ADJUST_RATIO_INTERVAL * DYNAMIC_SCREEN_THRESHOLD)
      qos.adjustRatio dynamicScreen now
    else qos
  else { qos with ratio := qos.latestQuality.ratio }

inductive Event
  | connectionOpen (id : Int) (enableAbr : Bool)
  | connectionClose (id : Int)
  | customFps (id : Int) (fps : Nat)
  | autoAdjustFps (id : Int) (fps : Nat)
  | imageQuality (id : Int) (imageQuality time : Int)
  | record (id : Int) (v : Bool)
  | networkDelay (id : Int) (delay : Nat)
  | delayResponseElapsed (id : Int) (elapsed : Nat)
  | newDisplay (name : String)
  | removeDisplay (name : String)
  | supportChangingQuality (name : String) (support : Bool)
  | updateDisplayData (name : String) (sendCounter : Nat)
  | storeBitrate (bitrate : Nat)
  /-- `ratio()`, which sets a ratio that is out of bounds right. -/
  | readRatio
  /-- The viewers are iterated in another order from now on. -/
  | rehash (ids : List Int)

/-- The viewers in the order of their ids, where these are all of them. -/
def rehash (ids : List Int) : VideoQoS R :=
  if ids.Perm (qos.users.map Prod.fst) then
    { qos with users := ids.filterMap fun id => (Assoc.get qos.users id).map fun u => (id, u) }
  else qos

/-- An operation at a time. -/
def apply (e : Nat × Event) : VideoQoS R :=
  match e.2 with
  | .connectionOpen id enableAbr => qos.onConnectionOpen id enableAbr e.1
  | .connectionClose id => qos.onConnectionClose id e.1
  | .customFps id fps => qos.userCustomFps id fps
  | .autoAdjustFps id fps => qos.userAutoAdjustFps id fps
  | .imageQuality id imageQuality time => qos.userImageQuality id imageQuality time
  | .record id v => qos.userRecord id v
  | .networkDelay id delay => qos.userNetworkDelay id delay e.1
  | .delayResponseElapsed id elapsed => qos.userDelayResponseElapsed id elapsed e.1
  | .newDisplay name => { qos with displays := Assoc.put qos.displays name (some {}) }
  | .removeDisplay name => { qos with displays := Assoc.erase qos.displays name }
  | .supportChangingQuality name support =>
    { qos with
      displays := Assoc.mapValues
        (fun n e => if n = name then { e with supportChangingQuality := support } else e) qos.displays }
  | .updateDisplayData name sendCounter => qos.updateDisplayData name sendCounter e.1
  | .storeBitrate bitrate => { qos with bitrateStore := bitrate }
  | .readRatio =>
    { qos with
      ratio := if qos.ratio < BR_MIN_HIGH_RESOLUTION ∨ BR_MAX < qos.ratio then BR_BALANCED else qos.ratio }
  | .rehash ids => qos.rehash ids

/-- The viewer an operation is about. -/
def Event.viewer : Event → Option Int
  | .connectionOpen id _ => some id
  | .connectionClose id => some id
  | .customFps id _ => some id
  | .autoAdjustFps id _ => some id
  | .imageQuality id _ _ => some id
  | .record id _ => some id
  | .networkDelay id _ => some id
  | .delayResponseElapsed id _ => some id
  | _ => none

end VideoQoS

end FontisRemote.Video
