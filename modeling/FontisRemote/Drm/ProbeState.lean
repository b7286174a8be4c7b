import FontisRemote.Lib.Run

/-!
# The DRM verdict

`DRM_STATE` of `server/drm_capturer.rs` and everyone who writes it. A query of the service takes seconds
and is made without the lock; what it found is stored in a lock region of its own. `DRM_PROBE_IN_FLIGHT`
is held around the queries of `probe_and_publish`, `refresh_unavailable_async` and
`refresh_available_async`; `warm_availability` and `refresh_displays_for_login` query without it. The two
refreshes and the login sample `DRM_STATE_GEN` before their query and store nothing when it has moved.

A step is one lock region, one operation on an atomic, the start of a query or of a thread. Two things
are counted that the code does not: `published`, the verdicts published so far, and with each query how
many they were when it began. Clearing the Wayland display cache after a changed list is left out.
-/

namespace FontisRemote.Drm

/-- Milliseconds. -/
abbrev Instant := Nat

def NEGATIVE_TTL : Nat := 30000
def POSITIVE_TTL : Nat := 15000
def DRM_PROBE_MAX_FAILURES : Nat := 5
def DRM_REFRESH_MAX_FAILURES : Nat := 3

inductive ProbeState (Display : Type)
  | unknown
  | unavailable (since : Instant)
  | available (since : Instant) (list : List Display)
deriving DecidableEq, Repr

inductive Availability
  | available
  | unavailable
  | unsettled
deriving DecidableEq, Repr

inductive RefreshOutcome
  | publish
  | unavailable
  | restamp
  | giveUp
deriving DecidableEq, Repr

def refreshOutcome (probe : Option Nat) (failures : Nat) : RefreshOutcome :=
  match probe with
  | some 0 => .unavailable
  | some _ => .publish
  | none => if failures ≥ DRM_REFRESH_MAX_FAILURES then .giveUp else .restamp

/-- A reading of `DRM_STATE_GEN`, with the number of verdicts published by then. -/
structure Sample where
  gen : Nat
  published : Nat
deriving DecidableEq, Repr

/-- Who makes a query. -/
inductive Query
  | probe
  | refreshUnavailable (sampled : Sample)
  | refreshAvailable (sampled : Sample)
  /-- `warm_availability`, with the rounds it has left. -/
  | warm (left : Nat)
  | login (sampled : Sample)
deriving DecidableEq, Repr

/-- Where a call or a thread is. `positive` tells `refresh_available_async` from
`refresh_unavailable_async`. -/
inductive Task
  /-- `availability`, or `availability_cached`, before its look at the verdict. -/
  | availability (cached : Bool)
  | refreshSwap (positive : Bool)
  | refreshSample (positive : Bool)
  | refreshSpawn (positive : Bool) (sampled : Sample)
  | probeSwap (cached : Bool)
  /-- Someone else is probing: `availability` looks once more. -/
  | rereads
  | probeSpawn
  | begins (q : Query)
  | queries (q : Query) (begun : Sample)
  /-- The guard is dropped next. -/
  | releases (answer : Option Availability)
  | warm (left : Nat)
  | warmLooks (left : Nat)
  | login
  | returned (answer : Option Availability)
deriving DecidableEq, Repr

structure DrmState (Display : Type) where
  state : ProbeState Display := .unknown
  gen : Nat := 0
  inFlight : Bool := false
  probeFailures : Nat := 0
  refreshFailures : Nat := 0
  published : Nat := 0
  tasks : List Task := []
deriving Repr

/-- What a step takes from outside the module: the clock, `is_x11_for_drm`, whether a thread could be
spawned, and what `query_displays` returned (`none` for an error). -/
structure Outside (Display : Type) where
  now : Instant := 0
  x11 : Bool := false
  spawned : Bool := true
  result : Option (List Display) := none

namespace DrmState

variable {Display : Type} (s : DrmState Display)

def publishProbeState (next : ProbeState Display) : DrmState Display :=
  { s with state := next, gen := (s.gen + 1) % 2 ^ 64, published := s.published + 1 }

/-- The lock region of `probe_and_publish`. -/
def probeAndPublish (now : Instant) : Option (List Display) → DrmState Display × Availability
  | some (d :: list) =>
    ({ s with probeFailures := 0 }.publishProbeState (.available now (d :: list)), .available)
  | some [] => (s.publishProbeState (.unavailable now), .unavailable)
  | none =>
    let n := (s.probeFailures + 1) % 2 ^ 32
    let counted := { s with probeFailures := n }
    if n ≥ DRM_PROBE_MAX_FAILURES then (counted.publishProbeState (.unavailable now), .unavailable)
    else (counted, .unsettled)

/-- The lock region of the thread of `refresh_unavailable_async`. -/
def refreshUnavailable (now : Instant) (sampled : Sample) (result : Option (List Display)) :
    DrmState Display :=
  if s.gen ≠ sampled.gen then s
  else
    match result with
    | some (d :: list) =>
      { s with probeFailures := 0 }.publishProbeState (.available now (d :: list))
    | _ => s.publishProbeState (.unavailable now)

/-- The lock region of the thread of `refresh_available_async`. -/
def refreshAvailable (now : Instant) (sampled : Sample) (result : Option (List Display)) :
    DrmState Display :=
  if s.gen ≠ sampled.gen then s
  else
    let failures := if result.isSome then 0 else (s.refreshFailures + 1) % 2 ^ 32
    let counted := { s with refreshFailures := failures }
    match refreshOutcome (result.map List.length) failures with
    | .publish => counted.publishProbeState (.available now (result.getD []))
    | .unavailable => counted.publishProbeState (.unavailable now)
    | .restamp =>
      match s.state with
      | .available _ list => { counted with state := .available now list }
      | _ => counted
    | .giveUp => { counted with refreshFailures := 0 }.publishProbeState .unknown

/-- The second lock region of `refresh_displays_for_login`. -/
def refreshDisplaysForLogin (now : Instant) (sampled : Sample) (list : List Display) :
    DrmState Display :=
  if s.gen ≠ sampled.gen then s
  else
    match s.state with
    | .available _ _ => s.publishProbeState (.available now list)
    | _ => s

def swapAvailableDisplays (now : Instant) (list : List Display) : DrmState Display :=
  match s.state with
  | .available _ _ =>
    if list.isEmpty then s.publishProbeState (.unavailable now)
    else s.publishProbeState (.available now list)
  | _ => s

/-- A query has returned: what its writer makes of it, and where the writer goes. -/
def settle (now : Instant) (result : Option (List Display)) : Query → DrmState Display × Task
  | .probe =>
    let answered := s.probeAndPublish now result
    (answered.1, .releases (some answered.2))
  | .refreshUnavailable sampled => (s.refreshUnavailable now sampled result, .releases none)
  | .refreshAvailable sampled => (s.refreshAvailable now sampled result, .releases none)
  | .warm left =>
    match result with
    | some (d :: list) => (s.publishProbeState (.available now (d :: list)), .returned none)
    | _ => (s, .warm left)
  | .login sampled =>
    match result with
    | some (d :: list) => (s.refreshDisplaysForLogin now sampled (d :: list), .returned none)
    | _ => (s, .returned none)

/-- What `availability` and `availability_cached` do about the verdict they see. -/
def looks (cached : Bool) (now : Instant) : Task :=
  match s.state with
  | .available since _ =>
    if now - since ≥ POSITIVE_TTL then .refreshSwap true else .returned (some .available)
  | .unavailable since =>
    if now - since ≥ NEGATIVE_TTL then .refreshSwap false else .returned (some .unavailable)
  | .unknown => .probeSwap cached

def answer : Availability :=
  match s.state with
  | .available _ _ => .available
  | .unavailable _ => .unavailable
  | .unknown => .unsettled

/-- The verdict is still one that the refresh is for. -/
def due (positive : Bool) (now : Instant) : Bool :=
  match s.state with
  | .available _ _ => positive
  | .unavailable since => !positive && decide (now - since ≥ NEGATIVE_TTL)
  | .unknown => false

def isAvailable : Bool :=
  match s.state with
  | .available _ _ => true
  | _ => false

def sample : Sample :=
  ⟨s.gen, s.published⟩

def moved (i : Nat) (t : Task) : DrmState Display :=
  { s with tasks := s.tasks.set i t }

/-- A thread is started by the task at a place, which goes on with `t`. -/
def spawns (i : Nat) (t : Task) (q : Query) : DrmState Display :=
  { s with tasks := s.tasks.set i t ++ [.begins q] }

/-- What was seen before a refresh was tried is what is answered. -/
def seen (positive : Bool) : Option Availability :=
  some (if positive then .available else .unavailable)

/-- A task's next step. -/
def work (i : Nat) (o : Outside Display) : Task → Option (DrmState Display)
  | .availability cached => some (s.moved i (s.looks cached o.now))
  | .refreshSwap positive =>
    some ({ s with inFlight := true }.moved i
      (if s.inFlight then .returned (seen positive) else .refreshSample positive))
  | .refreshSample positive =>
    some (s.moved i
      (if s.due positive o.now then .refreshSpawn positive s.sample else .releases (seen positive)))
  | .refreshSpawn positive sampled =>
    if o.spawned then
      some (s.spawns i (.returned (seen positive))
        (if positive then .refreshAvailable sampled else .refreshUnavailable sampled))
    else some (s.moved i (.releases (seen positive)))
  | .probeSwap cached =>
    some ({ s with inFlight := true }.moved i
      (if s.inFlight then if cached then .returned (some .unsettled) else .rereads
      else if cached then .probeSpawn else .begins .probe))
  | .rereads => some (s.moved i (.returned (some s.answer)))
  | .probeSpawn =>
    if o.spawned then some (s.spawns i (.returned (some .unsettled)) .probe)
    else some (s.moved i (.releases (some .unsettled)))
  | .begins q => some (s.moved i (.queries q s.sample))
  | .queries q _ =>
    let settled := s.settle o.now o.result q
    some (settled.1.moved i settled.2)
  | .releases answer => some ({ s with inFlight := false }.moved i (.returned answer))
  | .warm 0 => some (s.moved i (.returned none))
  | .warm (left + 1) => some (s.moved i (if o.x11 then .warm left else .warmLooks left))
  | .warmLooks left => some (s.moved i (if s.isAvailable then .returned none else .begins (.warm left)))
  | .login => some (s.moved i (if s.isAvailable then .begins (.login s.sample) else .returned none))
  | .returned _ => none

inductive Call
  | availability
  | availabilityCached
  | warmAvailability
  | refreshDisplaysForLogin
deriving DecidableEq, Repr

def Call.enter : Call → Task
  | .availability => .availability false
  | .availabilityCached => .availability true
  | .warmAvailability => .warm 10
  | .refreshDisplaysForLogin => .login

inductive Event (Display : Type)
  | calls (call : Call)
  | runs (i : Nat) (o : Outside Display)
  /-- A stream was told that the displays have changed. -/
  | hotplug (now : Instant) (list : List Display)

def step : Event Display → Option (DrmState Display)
  | .calls call => some { s with tasks := s.tasks ++ [call.enter] }
  | .runs i o => s.tasks[i]?.bind (s.work i o)
  | .hotplug now list => some (s.swapAvailableDisplays now list)

def Init (s : DrmState Display) : Prop :=
  s = {}

end DrmState

end FontisRemote.Drm
