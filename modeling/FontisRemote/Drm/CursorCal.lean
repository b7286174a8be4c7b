import FontisRemote.Lib.Assoc
import FontisRemote.Lib.Run

/-!
# Calibrating the cursor hotspot

`drm_capturer.rs`: a stream that shows a shape with a guessed hotspot measures the hotspot from where the
peer's pointer was sent and where the cursor plane came to rest, and serves a measurement once a second one
agrees with it. What was confirmed is kept for the shape, with the layout generation it was measured under,
in a cache that all streams share.

A step is one region under the lock of the cache with what the stream does around it. `served` and `measured`
are what happened so far, newest first; `planes` are the positions that a stream's plane was reported at since
the shape came.
-/

namespace FontisRemote.Drm

open FontisRemote.Lib

abbrev Pos := Int32 × Int32
abbrev Hotspot := Int32 × Int32

def HIDDEN_CURSOR_ID : UInt64 := 0xffffffffffffffff
def CURSOR_CAL_STABLE_TICKS : Nat := 3
def CURSOR_CAL_WINDOW_TICKS : Nat := 33
def CURSOR_CAL_TOLERANCE : Int32 := 2
def CURSOR_CAL_MIN_INPUT_AGE_MS : Nat := 150
def CURSOR_CAL_MAX_INPUT_AGE_MS : Nat := 10000
def CURSOR_CAL_CACHE_CAP : Nat := 64
def U32_MAX : Nat := 2 ^ 32 - 1

structure CalContext where
  /-- The output's place in the layout: left, top, width and height. -/
  rect : Int32 × Int32 × Int32 × Int32
  physicalSize : Int32 × Int32
  builtGen : Nat
deriving DecidableEq, Repr

structure PeerAbsSample where
  pos : Pos
  ageMs : Nat
  seq : Nat
  gen : Nat
  mapEpoch : Nat
deriving DecidableEq, Repr

structure CursorCal where
  id : UInt64
  width : UInt32
  height : UInt32
  raw : List UInt8
  ctx : CalContext
  wireHot : Hotspot
  currentHot : Hotspot
  candidate : Option (Hotspot × Nat × Nat) := none
  plane : Option Pos := none
  stableTicks : Nat := 0
  measuredThisPosition : Bool := false
  planes : List Pos := []
deriving DecidableEq, Repr

/-- `(v as f64 * physical as f64 / logical as f64).round() as i32`. -/
def scaleF64 (v physical logical : Int32) : Int32 :=
  (Float.ofInt v.toInt * Float.ofInt physical.toInt / Float.ofInt logical.toInt).round.toInt32

def calibratable (id : UInt64) (hotMeasured : Bool) : Bool :=
  id ≠ HIDDEN_CURSOR_ID && !hotMeasured

def near (a b : Hotspot) : Bool :=
  (a.1 - b.1).abs ≤ CURSOR_CAL_TOLERANCE && (a.2 - b.2).abs ≤ CURSOR_CAL_TOLERANCE

def remixCursorId (wireId : UInt64) (hotx hoty : Int32) : UInt64 :=
  [hotx, hoty].foldl (fun id v => (id ^^^ v.toUInt32.toUInt64) * 1099511628211) (wireId ^^^ 0x9e3779b97f4a7c15)

def usableSample (ctx : CalContext) (sample : Option PeerAbsSample) (drifted : Bool)
    (currentGen mapGen mapEpoch : Nat) : Option (Pos × Nat × Nat) :=
  if drifted || currentGen ≠ ctx.builtGen || mapGen ≠ ctx.builtGen then none
  else
    match sample with
    | none => none
    | some s =>
      if s.gen ≠ ctx.builtGen || s.mapEpoch ≠ mapEpoch then none
      else if ¬ (CURSOR_CAL_MIN_INPUT_AGE_MS ≤ s.ageMs ∧ s.ageMs ≤ CURSOR_CAL_MAX_INPUT_AGE_MS) then none
      else some (s.pos, s.seq, s.mapEpoch)

/-- How the injected point is scaled is a parameter: nothing here depends on its rounding. -/
def measureHotspot (scale : Int32 → Int32 → Int32 → Int32) (ctx : CalContext) (injected plane : Pos)
    (cursorSize : Int32 × Int32) : Option Hotspot :=
  let (ax, ay, aw, ah) := ctx.rect
  let (px, py) := ctx.physicalSize
  let (ix, iy) := injected
  if ix < ax || ax + aw ≤ ix || iy < ay || ay + ah ≤ iy then none
  else
    let h := (scale (ix - ax) px aw - plane.1, scale (iy - ay) py ah - plane.2)
    if h.1 < 0 || h.2 < 0 || cursorSize.1 ≤ h.1 || cursorSize.2 ≤ h.2 then none else some h

namespace CursorCal

variable (c : CursorCal)

def updatePlaneStability (p : Pos) : CursorCal :=
  if c.plane ≠ some p then
    { c with plane := some p, stableTicks := 0, measuredThisPosition := false, planes := p :: c.planes }
  else { c with stableTicks := min (c.stableTicks + 1) U32_MAX, planes := p :: c.planes }

def settledUnmeasured : Bool :=
  !c.measuredThisPosition && CURSOR_CAL_STABLE_TICKS ≤ c.stableTicks && c.stableTicks ≤ CURSOR_CAL_WINDOW_TICKS

def observeMeasurement (m : Hotspot) (seq mapEpoch : Nat) : CursorCal × Option Hotspot :=
  match c.candidate with
  | none => ({ c with candidate := some (m, seq, mapEpoch) }, none)
  | some (k, kseq, kepoch) =>
    if kseq = seq then (c, none)
    else if kepoch = mapEpoch && near k m then ({ c with candidate := none }, some k)
    else ({ c with candidate := some (m, seq, mapEpoch) }, none)

/-- The first position reported last, and how often it was reported again since. -/
def heldFor : List Pos → Nat
  | [] => 0
  | p :: rest => (rest.takeWhile (· == p)).length

end CursorCal

/-! ## The cache -/

/-- A correction for a shape, with its generation. -/
abbrev CalCache := List (UInt64 × Hotspot × Nat)

namespace CalCache

variable (cache : CalCache)

def store (wireId : UInt64) (h : Hotspot) (gen : Nat) : CalCache :=
  if (Assoc.get cache wireId).any fun entry => gen < entry.2 then cache
  else if CURSOR_CAL_CACHE_CAP ≤ cache.length ∧ Assoc.get cache wireId = none then
    let kept : CalCache := cache.filter fun entry => gen < entry.2.2
    if CURSOR_CAL_CACHE_CAP ≤ kept.length then kept else Assoc.put kept wireId (some (h, gen))
  else Assoc.put cache wireId (some (h, gen))

def forget (wireId : UInt64) (gen : Nat) : CalCache :=
  if (Assoc.get cache wireId).any fun entry => entry.2 ≤ gen then Assoc.put cache wireId none else cache

def cached (wireId : UInt64) (gen : Nat) : Option Hotspot :=
  ((Assoc.get cache wireId).filter fun entry => entry.2 == gen).map Prod.fst

end CalCache

/-! ## The streams -/

/-- A correction that is to be stored again, once the cache was found not to hold it. -/
structure Owed where
  id : UInt64
  hot : Hotspot
  gen : Nat
deriving DecidableEq, Repr

/-- A shape as the producer sent it, and the transform it is turned back by. -/
structure Shape where
  id : UInt64
  width : UInt32
  height : UInt32
  hot : Hotspot
  hotMeasured : Bool
  raw : List UInt8
  t : Int
deriving DecidableEq, Repr

/-- `shape` is the one that came last. -/
structure CursorStream where
  ctx : Option CalContext
  display : Int
  cursorEpoch : Nat
  cal : Option CursorCal := none
  owed : Option Owed := none
  shape : Option Shape := none
deriving DecidableEq, Repr

/-- A cursor handed to `deliver_drm_cursor`, with the stream and the shape it shows. -/
structure Served where
  stream : Nat
  shape : Option Shape
  display : Int
  cursorEpoch : Nat
  id : UInt64
  width : UInt32
  height : UInt32
  hot : Hotspot
  hotMeasured : Bool
  raw : List UInt8
  t : Int
deriving DecidableEq, Repr

/-- A measurement, with the stream that took it and how often its position had been reported again. -/
structure Measured where
  stream : Nat
  shape : UInt64
  gen : Nat
  hot : Hotspot
  seq : Nat
  mapEpoch : Nat
  held : Nat
deriving DecidableEq, Repr

structure Calibration where
  cache : CalCache := []
  streams : List CursorStream := []
  served : List Served := []
  measured : List Measured := []
deriving DecidableEq, Repr

/-- What a frame brings, and what is read when it does. -/
structure Frame where
  pos : Option Pos
  sample : Option PeerAbsSample
  drifted : Bool
  currentGen : Nat
  mapGen : Nat
  mapEpoch : Nat
deriving DecidableEq, Repr

namespace Calibration

inductive Event
  | openStream (ctx : Option CalContext) (display : Int) (cursorEpoch : Nat)
  | shape (i : Nat) (shape : Shape)
  /-- A shape that came before the session's transform is known waits, and nothing is measured. -/
  | defer (i : Nat)
  | frame (i : Nat) (frame : Frame)
  /-- The correction found missing from the cache is stored. -/
  | restore (i : Nat)
deriving DecidableEq, Repr

def Event.stream? : Event → Option Nat
  | .openStream _ _ _ => none
  | .shape i _ => some i
  | .defer i => some i
  | .frame i _ => some i
  | .restore i => some i

variable (scale : Int32 → Int32 → Int32 → Int32) (s : Calibration)

def onCursorShape (i : Nat) (st : CursorStream) (shape : Shape) : Calibration :=
  let cal := (st.ctx.filter fun _ => calibratable shape.id shape.hotMeasured).map fun ctx =>
    ({ id := shape.id
       width := shape.width
       height := shape.height
       raw := shape.raw
       ctx := ctx
       wireHot := shape.hot
       currentHot := (s.cache.cached shape.id ctx.builtGen).getD shape.hot } : CursorCal)
  let (pid, hot) :=
    match cal with
    | some c =>
      if c.currentHot ≠ c.wireHot then (remixCursorId shape.id c.currentHot.1 c.currentHot.2, c.currentHot)
      else (shape.id, shape.hot)
    | none => (shape.id, shape.hot)
  { s with
    streams := s.streams.set i { st with cal := cal, shape := some shape }
    served := ⟨i, some shape, st.display, st.cursorEpoch, pid, shape.width, shape.height, hot,
      shape.hotMeasured, shape.raw, shape.t⟩ :: s.served }

/-- The accepted value is served, or the wire's where they are near. -/
def serveConfirmed (i : Nat) (st : CursorStream) (c : CursorCal) (target : Hotspot) (cache : CalCache) :
    Calibration :=
  { s with
    cache := cache
    streams := s.streams.set i { st with cal := some { c with currentHot := target } }
    served := ⟨i, st.shape, st.display, st.cursorEpoch,
      if target = c.wireHot then c.id else remixCursorId c.id target.1 target.2, c.width, c.height, target,
      false, c.raw, 0⟩ :: s.served }

def applyConfirmedHotspot (i : Nat) (st : CursorStream) (c : CursorCal) (accepted : Hotspot) : Calibration :=
  if near accepted c.currentHot then
    if c.currentHot = c.wireHot then
      { s with
        cache := s.cache.forget c.id c.ctx.builtGen
        streams := s.streams.set i { st with cal := some c } }
    else if s.cache.cached c.id c.ctx.builtGen ≠ some c.currentHot then
      { s with
        streams := s.streams.set i { st with
          cal := some c
          owed := some ⟨c.id, c.currentHot, c.ctx.builtGen⟩ } }
    else { s with streams := s.streams.set i { st with cal := some c } }
  else if near accepted c.wireHot then
    s.serveConfirmed i st c c.wireHot (s.cache.forget c.id c.ctx.builtGen)
  else s.serveConfirmed i st c accepted (s.cache.store c.id accepted c.ctx.builtGen)

/-- A measurement was taken. -/
def onMeasurement (i : Nat) (st : CursorStream) (c : CursorCal) (m : Hotspot) (seq mapEpoch : Nat) :
    Calibration :=
  let s := { s with
    measured := ⟨i, c.id, c.ctx.builtGen, m, seq, mapEpoch, CursorCal.heldFor c.planes⟩ :: s.measured }
  match c.observeMeasurement m seq mapEpoch with
  | (c, none) => { s with streams := s.streams.set i { st with cal := some c } }
  | (c, some accepted) => s.applyConfirmedHotspot i st c accepted

def onCursorPlane (i : Nat) (st : CursorStream) (frame : Frame) : Calibration :=
  match st.cal, frame.pos with
  | some c, some p =>
    let c := c.updatePlaneStability p
    if !c.settledUnmeasured then { s with streams := s.streams.set i { st with cal := some c } }
    else
      match usableSample c.ctx frame.sample frame.drifted frame.currentGen frame.mapGen frame.mapEpoch with
      | none => { s with streams := s.streams.set i { st with cal := some c } }
      | some (injected, seq, epoch) =>
        let c := { c with measuredThisPosition := true }
        match measureHotspot scale c.ctx injected p (c.width.toInt32, c.height.toInt32) with
        | none => { s with streams := s.streams.set i { st with cal := some c } }
        | some m => s.onMeasurement i st c m seq epoch
  | _, _ => s

/-- A stream does nothing else while it has a correction to store. -/
def step : Event → Option Calibration
  | .openStream ctx display cursorEpoch =>
    some { s with streams := s.streams ++ [{ ctx := ctx, display := display, cursorEpoch := cursorEpoch }] }
  | .shape i shape =>
    match s.streams[i]? with
    | some st => if st.owed = none then some (s.onCursorShape i st shape) else none
    | none => none
  | .defer i =>
    match s.streams[i]? with
    | some st =>
      if st.owed = none then some { s with streams := s.streams.set i { st with cal := none } } else none
    | none => none
  | .frame i frame =>
    match s.streams[i]? with
    | some st => if st.owed = none then some (s.onCursorPlane scale i st frame) else none
    | none => none
  | .restore i =>
    match s.streams[i]? with
    | some st =>
      match st.owed with
      | some owed =>
        some { s with
          cache := s.cache.store owed.id owed.hot owed.gen
          streams := s.streams.set i { st with owed := none } }
      | none => none
    | none => none

def Init (s : Calibration) : Prop :=
  s = {}

end Calibration

end FontisRemote.Drm
