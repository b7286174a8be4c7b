import FontisRemote.Drm.Geometry
import FontisRemote.Lib.Run
import FontisRemote.Lib.Slots

/-!
# The layout a capturer was built on

A capturer turns its frames by the transform of one Wayland snapshot and keeps it. A rotation changes neither
the mode nor the size of the framebuffer, so nothing in the stream shows it: the layout poll of
`display_service.rs` compares what the compositor says with what the capturers were built on, and raises the
snapshot generation where they differ. A capturer that finds another generation than the one it read rebuilds.

Several parties run at once: capturers being built, session inits, the poll, the compositor. A step is one
operation on an atomic, one critical section, or one query. Of the poll the promotion is kept; the uinput
range it applies afterwards touches nothing here. `primary` of a snapshot is not read.
-/

namespace FontisRemote.Drm

open FontisRemote.Lib

structure DisplayRect where
  name : List Char
  x : Int32
  y : Int32
  w : Int32
  h : Int32
  transform : Int32
deriving DecidableEq, Repr

def orientedPhysical (d : WaylandDisplayInfo) : Int32 × Int32 :=
  if d.transform = 90 ∨ d.transform = 270 then (d.height, d.width) else (d.width, d.height)

def logicalRectsOf (displays : List WaylandDisplayInfo) : List DisplayRect :=
  let single := displays.length == 1
  displays.map fun d =>
    let (w, h) := if single then orientedPhysical d else d.logicalSize.getD (orientedPhysical d)
    { name := d.name, x := d.x, y := d.y, w := w, h := h, transform := d.transform }

theorem logicalRectsOf_eq_nil {displays : List WaylandDisplayInfo} : logicalRectsOf displays = [] ↔ displays = [] := by
  unfold logicalRectsOf
  exact List.map_eq_nil_iff

/-! ## The memory of the poll -/

structure WaylandLayout where
  baseline : List DisplayRect := []
  live : List DisplayRect := []
  /-- What the capturers were built on, as far as the poll knows. -/
  seen : List DisplayRect := []
  /-- A capturer recorded another layout than `seen`, at this generation. -/
  unseenBuild : Option Nat := none
deriving DecidableEq, Repr

namespace WaylandLayout

variable (l : WaylandLayout)

def resetBaseline (baseline : List DisplayRect) : WaylandLayout :=
  { l with
    seen := if l.seen.isEmpty then l.baseline else l.seen
    baseline := baseline
    live := [] }

def edge (live : List DisplayRect) (snapshotMissing : Bool) (generation : Nat) : Bool :=
  if l.unseenBuild = some generation then true
  else if !l.seen.isEmpty then decide (l.seen ≠ live)
  else if l.baseline.isEmpty then snapshotMissing
  else decide (l.baseline ≠ live)

def observe (live : List DisplayRect) : WaylandLayout :=
  { l with live := live, seen := live, unseenBuild := none }

def noteCapturer (builtOn : List DisplayRect) (builtGen : Nat) : WaylandLayout :=
  if builtOn.isEmpty then l
  else if l.seen.isEmpty then { l with seen := builtOn }
  else if l.seen ≠ builtOn then
    { l with unseenBuild := some (l.unseenBuild.elim builtGen fun g => max g builtGen) }
  else l

end WaylandLayout

/-! ## The parties -/

/-- Where `IpcDrmCapturer::new` is, after the handshake. -/
inductive Build
  | waiting
  /-- The generation is read, the snapshot is not. -/
  | snapshotting (gen : Nat)
  | orienting (gen : Nat) (wl : List WaylandDisplayInfo)
  | noting (gen : Nat) (wl : List WaylandDisplayInfo) (transform : Int32)
  | streaming (gen : Nat) (wl : List WaylandDisplayInfo) (transform : Int32)
deriving DecidableEq, Repr

/-- The list of the handshake and the place the wanted connector was found at in it. -/
structure Capturer where
  drm : List DrmDisplayInfo
  wireIdx : Nat
  found : wireIdx < drm.length
  build : Build

/-- `update_uinput_resolution`: the cache is cleared, then asked for the rectangle and for the rectangles. -/
inductive SessionInit
  | clear
  | locate
  | measure
  | apply (layout : List DisplayRect)
  | done
deriving DecidableEq, Repr

/-- `refresh_wayland_uinput_rect_if_changed`, with the rectangles it read. -/
inductive Poll
  | idle
  | compare (live : List DisplayRect)
  | take (live : List DisplayRect) (liveChanged : Bool)
  | owe (live : List DisplayRect) (due : Bool)
  | decide (live : List DisplayRect)
  | clear (live : List DisplayRect)
  | bump (live : List DisplayRect)
  | rebase (live : List DisplayRect)
  | publish (live : List DisplayRect)
deriving DecidableEq, Repr

structure Desktop where
  /-- What an enumeration would return now, `none` where it would fail. -/
  compositor : Option (List WaylandDisplayInfo)
  /-- `DISPLAYS` -/
  cache : Option (List WaylandDisplayInfo) := none
  /-- `SNAPSHOT_GENERATION` -/
  generation : Nat := 0
  layout : WaylandLayout := {}
  /-- `UNROTATED_SNAPSHOT_PENDING` -/
  unrotatedPending : Bool := false
  promotionOwed : Bool := false
  capturers : List Capturer := []
  inits : List SessionInit := []
  poll : Poll := .idle
  /-- How many polls have read a layout. -/
  polled : Nat := 0

inductive Event
  /-- The compositor's layout becomes this one, or it stops answering. -/
  | compositor (answer : Option (List WaylandDisplayInfo))
  /-- A handshake is over: this list, and the connector at this place of it. -/
  | handshake (drm : List DrmDisplayInfo) (wireIdx : Nat)
  | capturer (i : Nat)
  | sessionInit
  /-- The next operation of an init; whether what it asks of others goes well. -/
  | init (k : Nat) (ok : Bool)
  /-- The next operation of the poll; whether DRM is available. -/
  | poll (available : Bool)

namespace Desktop

variable (getOriginalResolution : List Char → Nat → Nat → Int32 × Int32) (s : Desktop)

/-- An enumeration that fails is not cached. -/
def getDisplays : List WaylandDisplayInfo × Desktop :=
  match s.cache with
  | some displays => (displays, s)
  | none =>
    match s.compositor with
    | some displays => (displays, { s with cache := some displays })
    | none => ([], s)

def setCapturer (i : Nat) (c : Capturer) (build : Build) : Desktop :=
  { s with capturers := s.capturers.set i { c with build := build } }

def setInit (k : Nat) (init : SessionInit) : Desktop := { s with inits := s.inits.set k init }

/-- A capturer's next operation. -/
def construct (i : Nat) (c : Capturer) : Option Desktop :=
  match c.build with
  | .waiting => some (s.setCapturer i c (.snapshotting s.generation))
  | .snapshotting gen => some (s.getDisplays.2.setCapturer i c (.orienting gen s.getDisplays.1))
  | .orienting gen wl =>
    let oriented := transformAndOrigin getOriginalResolution c.drm c.wireIdx ⟨0, wl⟩ s.unrotatedPending
    some ({ s with unrotatedPending := oriented.2 }.setCapturer i c (.noting gen wl oriented.1.1))
  | .noting gen wl transform =>
    some ({ s with layout := s.layout.noteCapturer (logicalRectsOf wl) gen }.setCapturer i c
      (.streaming gen wl transform))
  | .streaming _ _ _ => none

/-- An init's next operation. Where the compositor names no output the union of the DRM list is applied, with
no layout to go with it. -/
def setUp (k : Nat) (ok : Bool) : SessionInit → Option Desktop
  | .clear => some ({ s with cache := none }.setInit k .locate)
  | .locate =>
    some (s.getDisplays.2.setInit k
      (if s.getDisplays.1.isEmpty then (if ok then .apply [] else .done) else .measure))
  | .measure => some (s.getDisplays.2.setInit k (.apply (logicalRectsOf s.getDisplays.1)))
  | .apply layout =>
    some ((if ok then { s with layout := s.layout.resetBaseline layout } else s).setInit k .done)
  | .done => none

/-- The poll's next operation. -/
def refresh (available : Bool) : Poll → Desktop
  | .idle =>
    match s.compositor with
    | some displays =>
      if displays.isEmpty then s
      else { s with poll := .compare (logicalRectsOf displays), polled := s.polled + 1 }
    | none => s
  | .compare live =>
    { s with
      layout := s.layout.observe live
      poll := .take live (s.layout.edge live s.cache.isNone s.generation) }
  | .take live liveChanged =>
    { s with unrotatedPending := false, poll := .owe live (liveChanged || s.unrotatedPending) }
  | .owe live due => { s with promotionOwed := s.promotionOwed || due, poll := .decide live }
  | .decide live =>
    if s.promotionOwed && available then { s with promotionOwed := false, poll := .clear live }
    else { s with poll := .idle }
  | .clear live => { s with cache := none, poll := .bump live }
  | .bump live => { s with generation := s.generation + 1, poll := .rebase live }
  | .rebase live => { s with layout := s.layout.resetBaseline live, poll := .publish live }
  | .publish live => { s with layout := { s.layout with live := live }, poll := .idle }

def step : Event → Option Desktop
  | .compositor answer => some { s with compositor := answer }
  | .handshake drm wireIdx =>
    if found : wireIdx < drm.length then
      some { s with capturers := s.capturers ++ [⟨drm, wireIdx, found, .waiting⟩] }
    else none
  | .capturer i => s.capturers[i]?.bind (s.construct getOriginalResolution i)
  | .sessionInit => some { s with inits := s.inits ++ [.clear] }
  | .init k ok => s.inits[k]?.bind (s.setUp k ok)
  | .poll available => some (s.refresh available s.poll)

def Init (s : Desktop) : Prop := ∃ compositor, s = { compositor := compositor }

end Desktop

/-- `IpcDrmCapturer::frame` gives no frame then but an error that makes the video service build a new capturer. -/
def Capturer.rebuilds (c : Capturer) (generation : Nat) : Bool :=
  match c.build with
  | .streaming gen _ _ => gen != generation
  | _ => false

end FontisRemote.Drm
