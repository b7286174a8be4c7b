import FontisRemote.Lib.Assoc
import FontisRemote.Lib.Run

/-!
# A service and its subscribers

`ServiceTmpl` of `src/server/service.rs`, one atomic step for each time its lock is taken. The
connections subscribe and unsubscribe; the service's own thread sends messages to its subscribers and,
where the service needs it, runs the snapshot callback for those that are new. What the callback sends
goes to the new ones under a lock of its own each time, and they become subscribers when its
`ServiceSwap` is dropped.
-/

namespace FontisRemote.Services

open FontisRemote.Lib

abbrev ConnId := Int

/-- What a service keeps of a connection. `since` and `late` are for the proofs: how many snapshots had
ended when it subscribed, and whether it did so in the middle of one. -/
structure Subscriber (M : Type) where
  id : ConnId
  /-- What `send` was called with. -/
  inbox : List M := []
  since : Nat := 0
  late : Bool := false
deriving DecidableEq

namespace Subscriber

variable {M : Type} (sub : Subscriber M)

def send (msg : M) : Subscriber M := { sub with inbox := sub.inbox ++ [msg] }

@[simp] theorem send_id (msg : M) : (sub.send msg).id = sub.id := rfl

@[simp] theorem send_since (msg : M) : (sub.send msg).since = sub.since := rfl

@[simp] theorem send_late (msg : M) : (sub.send msg).late = sub.late := rfl

@[simp] theorem send_inbox (msg : M) : (sub.send msg).inbox = sub.inbox ++ [msg] := rfl

end Subscriber

/-- A service, what its thread is doing with a snapshot, and the snapshots that have ended: what each
sent, and whether the callback succeeded. -/
structure ServiceTmpl (M : Type) where
  subscribes : List (ConnId × Subscriber M) := []
  newSubscribes : List (ConnId × Subscriber M) := []
  needSnapshot : Bool
  swap : Option (List M) := none
  runs : List (List M × Bool) := []
deriving DecidableEq

namespace ServiceTmpl

variable {M : Type} (s : ServiceTmpl M)

/-! ## What the connections call -/

def inSubscribes (id : ConnId) : Bool := (Assoc.get s.subscribes id).isSome

def inNewSubscribes (id : ConnId) : Bool := (Assoc.get s.newSubscribes id).isSome

/-- A connection as it is stored. -/
def subscriber (id : ConnId) : Subscriber M where
  id := id
  since := s.runs.length
  late := s.swap.any (· ≠ [])

def onSubscribe (id : ConnId) : ServiceTmpl M :=
  if s.inSubscribes id then s
  else if s.needSnapshot then
    { s with newSubscribes := Assoc.put s.newSubscribes id (some (s.subscriber id)) }
  else { s with subscribes := Assoc.put s.subscribes id (some (s.subscriber id)) }

def onUnsubscribe (id : ConnId) : ServiceTmpl M :=
  if s.inSubscribes id then { s with subscribes := Assoc.erase s.subscribes id }
  else { s with newSubscribes := Assoc.erase s.newSubscribes id }

/-! ## What the service calls -/

/-- Send to the subscribers that are picked. -/
def sendWhere (p : ConnId → Subscriber M → Bool) (msg : M) : ServiceTmpl M :=
  { s with subscribes := Assoc.mapValues (fun id sub => if p id sub then sub.send msg else sub) s.subscribes }

def sendShared (msg : M) : ServiceTmpl M := s.sendWhere (fun _ _ => true) msg

def send (msg : M) : ServiceTmpl M := s.sendShared msg

/-- Send a frame, and say which connections it was sent to. -/
def sendVideoFrameShared (msg : M) : ServiceTmpl M × List ConnId :=
  (s.sendWhere (fun _ _ => true) msg, s.subscribes.map (·.2.id))

def sendTo (msg : M) (id : ConnId) : ServiceTmpl M := s.sendWhere (fun sid _ => sid == id) msg

def sendToOthers (msg : M) (id : ConnId) : ServiceTmpl M := s.sendWhere (fun sid _ => sid != id) msg

def sendWithout (msg : M) (id : ConnId) : ServiceTmpl M := s.sendWhere (fun _ sub => sub.id != id) msg

def sendNewSubscribes (msg : M) : ServiceTmpl M :=
  { s with newSubscribes := Assoc.mapValues (fun _ sub => sub.send msg) s.newSubscribes }

/-- The new subscribers become subscribers, each under its id. -/
def swapNewSubscribes : ServiceTmpl M :=
  { s with
    subscribes := s.newSubscribes.foldr (fun p acc => Assoc.put acc p.2.id (some p.2)) s.subscribes
    newSubscribes := [] }

/-- The check in `snapshot`: the callback runs where there is a new subscriber. -/
def snapshot : ServiceTmpl M := if 0 < s.newSubscribes.length then { s with swap := some [] } else s

/-- `ServiceSwap::send`, in a callback that has sent `sent`. -/
def swapSend (sent : List M) (msg : M) : ServiceTmpl M :=
  { s.sendNewSubscribes msg with swap := some (sent ++ [msg]) }

/-- The callback returns and its `ServiceSwap` is dropped. -/
def swapDrop (sent : List M) (ok : Bool) : ServiceTmpl M :=
  { s.swapNewSubscribes with swap := none, runs := s.runs ++ [(sent, ok)] }

/-! ## Steps -/

/-- A step of the service's own thread, or of another that sends through it. -/
inductive ThreadEvent (M : Type)
  | snapshot
  | swapSend (msg : M)
  | swapDrop (ok : Bool)
  | send (msg : M)
  | sendVideoFrame (msg : M)
  | sendTo (msg : M) (id : ConnId)
  | sendToOthers (msg : M) (id : ConnId)
  | sendWithout (msg : M) (id : ConnId)
deriving DecidableEq

def thread : ThreadEvent M → Option (ServiceTmpl M)
  | .snapshot => if s.swap = none then some s.snapshot else none
  | .swapSend msg => s.swap.map fun sent => s.swapSend sent msg
  | .swapDrop ok => s.swap.map fun sent => s.swapDrop sent ok
  | .send msg => some (s.send msg)
  | .sendVideoFrame msg => some (s.sendVideoFrameShared msg).1
  | .sendTo msg id => some (s.sendTo msg id)
  | .sendToOthers msg id => some (s.sendToOthers msg id)
  | .sendWithout msg id => some (s.sendWithout msg id)

/-- What the lock is taken for. -/
inductive Event (M : Type)
  | onSubscribe (id : ConnId)
  | onUnsubscribe (id : ConnId)
  | thread (e : ThreadEvent M)
deriving DecidableEq

def step : Event M → Option (ServiceTmpl M)
  | .onSubscribe id => some (s.onSubscribe id)
  | .onUnsubscribe id => some (s.onUnsubscribe id)
  | .thread e => s.thread e

/-- `ServiceTmpl::new`. -/
def new (M : Type) (needSnapshot : Bool) : ServiceTmpl M where
  needSnapshot := needSnapshot

variable {s} {s' : ServiceTmpl M}

/-- What a step of the service's thread can be. -/
theorem thread_cases {e : ThreadEvent M} (h : s.thread e = some s') :
    (∃ p msg, s' = s.sendWhere p msg) ∨ (s.swap = none ∧ s' = s.snapshot) ∨
      (∃ sent msg, s.swap = some sent ∧ s' = s.swapSend sent msg) ∨
      (∃ sent ok, e = .swapDrop ok ∧ s.swap = some sent ∧ s' = s.swapDrop sent ok) := by
  cases e with
  | snapshot =>
    simp only [thread] at h
    split_ifs at h with hswap
    cases h
    exact .inr (.inl ⟨hswap, rfl⟩)
  | swapSend msg =>
    obtain ⟨sent, hsent, rfl⟩ := Option.map_eq_some_iff.1 h
    exact .inr (.inr (.inl ⟨sent, msg, hsent, rfl⟩))
  | swapDrop ok =>
    obtain ⟨sent, hsent, rfl⟩ := Option.map_eq_some_iff.1 h
    exact .inr (.inr (.inr ⟨sent, ok, rfl, hsent, rfl⟩))
  | send msg | sendVideoFrame msg =>
    cases h
    exact .inl ⟨_, _, rfl⟩
  | sendTo msg id | sendToOthers msg id | sendWithout msg id =>
    cases h
    exact .inl ⟨_, _, rfl⟩

theorem snapshot_eq (s : ServiceTmpl M) : ∃ swap, s.snapshot = { s with swap := swap } ∧
    (swap = some [] ∨ swap = s.swap) := by
  unfold snapshot
  split_ifs
  · exact ⟨some [], rfl, .inl rfl⟩
  · exact ⟨s.swap, rfl, .inr rfl⟩

/-! ## The two maps -/

/-- Each new subscriber is stored under its id, there are none where no snapshot is needed, and no
connection is in both maps. -/
structure Ok (s : ServiceTmpl M) : Prop where
  keyed : ∀ p ∈ s.newSubscribes, p.2.id = p.1
  direct : s.needSnapshot = false → s.newSubscribes = []
  apart : ∀ id, s.inSubscribes id = true → s.inNewSubscribes id = false

/-- In one of the maps. -/
def subed (s : ServiceTmpl M) (id : ConnId) : Bool := s.inSubscribes id || s.inNewSubscribes id

theorem Ok.new (needSnapshot : Bool) : Ok (new M needSnapshot) := ⟨nofun, fun _ => rfl, nofun⟩

section Calls

theorem inSubscribes_put {id j : ConnId} {sub : Subscriber M} :
    ({ s with subscribes := Assoc.put s.subscribes id (some sub) } : ServiceTmpl M).inSubscribes j
      = (decide (j = id) || s.inSubscribes j) := by
  by_cases hj : j = id <;> simp [inSubscribes, Assoc.get_put, hj]

theorem inNewSubscribes_put {id j : ConnId} {sub : Subscriber M} :
    ({ s with newSubscribes := Assoc.put s.newSubscribes id (some sub) } : ServiceTmpl M).inNewSubscribes j
      = (decide (j = id) || s.inNewSubscribes j) := by
  by_cases hj : j = id <;> simp [inNewSubscribes, Assoc.get_put, hj]

theorem inSubscribes_erase {id j : ConnId} :
    ({ s with subscribes := Assoc.erase s.subscribes id } : ServiceTmpl M).inSubscribes j
      = (decide (j ≠ id) && s.inSubscribes j) := by
  by_cases hj : j = id <;> simp [inSubscribes, Assoc.get_erase, hj]

theorem inNewSubscribes_erase {id j : ConnId} :
    ({ s with newSubscribes := Assoc.erase s.newSubscribes id } : ServiceTmpl M).inNewSubscribes j
      = (decide (j ≠ id) && s.inNewSubscribes j) := by
  by_cases hj : j = id <;> simp [inNewSubscribes, Assoc.get_erase, hj]

theorem Ok.onSubscribe (hs : Ok s) (id : ConnId) : Ok (s.onSubscribe id) := by
  unfold ServiceTmpl.onSubscribe
  split_ifs with hin hneed
  · exact hs
  · refine ⟨fun p hp => ?_, fun hno => ?_, fun j hj => ?_⟩
    · rcases Assoc.mem_put hp with rfl | hp
      · rfl
      · exact hs.keyed p hp
    · rw [hneed] at hno
      cases hno
    · have hne : j ≠ id := fun heq => hin (heq ▸ hj)
      rw [inNewSubscribes_put, decide_eq_false hne, Bool.false_or]
      exact hs.apart j hj
  · have hnone : s.newSubscribes = [] := hs.direct (by simpa using hneed)
    refine ⟨hs.keyed, hs.direct, fun j _ => ?_⟩
    simp [inNewSubscribes, hnone]

theorem Ok.onUnsubscribe (hs : Ok s) (id : ConnId) : Ok (s.onUnsubscribe id) := by
  unfold ServiceTmpl.onUnsubscribe
  split_ifs with hin
  · refine ⟨hs.keyed, hs.direct, fun j hj => ?_⟩
    rw [inSubscribes_erase, Bool.and_eq_true] at hj
    exact hs.apart j hj.2
  · refine ⟨fun p hp => hs.keyed p (List.mem_filter.1 hp).1, fun hno => ?_, fun j hj => ?_⟩
    · show Assoc.erase s.newSubscribes id = []
      rw [hs.direct hno]
      rfl
    · rw [inNewSubscribes_erase, hs.apart j hj, Bool.and_false]

/-- Subscribing makes a connection subscribed, whatever it was before. -/
theorem subed_onSubscribe (id j : ConnId) : (s.onSubscribe id).subed j = (decide (j = id) || s.subed j) := by
  unfold onSubscribe
  split_ifs with hin hneed
  · by_cases hj : j = id
    · subst hj
      simp [subed, hin]
    · simp [hj]
  · show (s.inSubscribes j || _) = _
    rw [inNewSubscribes_put, subed, Bool.or_left_comm]
  · show (_ || s.inNewSubscribes j) = _
    rw [inSubscribes_put, subed, Bool.or_assoc]

/-- Unsubscribing makes a connection not subscribed: it was in one map at most. -/
theorem subed_onUnsubscribe (hs : Ok s) (id j : ConnId) :
    (s.onUnsubscribe id).subed j = (decide (j ≠ id) && s.subed j) := by
  unfold onUnsubscribe
  split_ifs with hin
  · show (_ || s.inNewSubscribes j) = _
    rw [inSubscribes_erase]
    by_cases hj : j = id
    · subst hj
      simp [hs.apart j hin]
    · simp [hj, subed]
  · show (s.inSubscribes j || _) = _
    rw [inNewSubscribes_erase]
    by_cases hj : j = id
    · subst hj
      simp [hin]
    · simp [hj, subed]

end Calls

section Thread

variable (p : ConnId → Subscriber M → Bool) (sent : List M) (msg : M) (ok : Bool) (id : ConnId)

theorem get_sendWhere : Assoc.get (s.sendWhere p msg).subscribes id
    = (Assoc.get s.subscribes id).map fun sub => if p id sub then sub.send msg else sub := by
  rw [sendWhere, Assoc.get_mapValues]

theorem get_swapSend : Assoc.get (s.swapSend sent msg).newSubscribes id
    = (Assoc.get s.newSubscribes id).map (·.send msg) := by
  rw [swapSend, sendNewSubscribes, Assoc.get_mapValues]

theorem get_swapDrop (hs : Ok s) : Assoc.get (s.swapDrop sent ok).subscribes id
    = (Assoc.get s.newSubscribes id).or (Assoc.get s.subscribes id) :=
  Assoc.get_foldr_put hs.keyed s.subscribes id

theorem inSubscribes_sendWhere : (s.sendWhere p msg).inSubscribes id = s.inSubscribes id := by
  rw [inSubscribes, get_sendWhere, Option.isSome_map, inSubscribes]

theorem inNewSubscribes_swapSend : (s.swapSend sent msg).inNewSubscribes id = s.inNewSubscribes id := by
  rw [inNewSubscribes, get_swapSend, Option.isSome_map, inNewSubscribes]

theorem inSubscribes_swapDrop (hs : Ok s) :
    (s.swapDrop sent ok).inSubscribes id = (s.inNewSubscribes id || s.inSubscribes id) := by
  rw [inSubscribes, get_swapDrop sent ok id hs, Option.isSome_or, inSubscribes, inNewSubscribes]

theorem Ok.thread {e : ThreadEvent M} (hs : Ok s) (h : s.thread e = some s') : Ok s' := by
  obtain ⟨p, msg, rfl⟩ | ⟨-, rfl⟩ | ⟨sent, msg, -, rfl⟩ | ⟨sent, ok, -, -, rfl⟩ := thread_cases h
  · refine ⟨hs.keyed, hs.direct, fun id hid => hs.apart id ?_⟩
    rwa [inSubscribes_sendWhere] at hid
  · obtain ⟨swap, heq, -⟩ := snapshot_eq s
    rw [heq]
    exact ⟨hs.keyed, hs.direct, hs.apart⟩
  · refine ⟨fun q hq => ?_, fun hno => ?_, fun id hid => ?_⟩
    · obtain ⟨p, hp, rfl⟩ := List.mem_map.1 hq
      exact hs.keyed p hp
    · rw [swapSend, sendNewSubscribes, hs.direct hno]
      rfl
    · rw [inNewSubscribes_swapSend]
      exact hs.apart id hid
  · exact ⟨nofun, fun _ => rfl, fun _ _ => rfl⟩

/-- The service's thread changes who is subscribed for nobody. -/
theorem subed_thread {e : ThreadEvent M} (hs : Ok s) (h : s.thread e = some s') (id : ConnId) :
    s'.subed id = s.subed id := by
  obtain ⟨p, msg, rfl⟩ | ⟨-, rfl⟩ | ⟨sent, msg, -, rfl⟩ | ⟨sent, ok, -, -, rfl⟩ := thread_cases h
  · rw [subed, inSubscribes_sendWhere]
    rfl
  · obtain ⟨swap, heq, -⟩ := snapshot_eq s
    rw [heq]
    rfl
  · rw [subed, inNewSubscribes_swapSend]
    rfl
  · show (_ || false) = _
    rw [inSubscribes_swapDrop sent ok id hs, Bool.or_false, Bool.or_comm]
    rfl

/-- Until a snapshot ends nobody comes into the first map through the service's thread. -/
theorem inSubscribes_thread {e : ThreadEvent M} (hs : Ok s) (h : s.thread e = some s') {id : ConnId}
    (hno : s.inSubscribes id = false) (hnew : ∀ ok, e = .swapDrop ok → s.inNewSubscribes id = false) :
    s'.inSubscribes id = false := by
  obtain ⟨p, msg, rfl⟩ | ⟨-, rfl⟩ | ⟨sent, msg, -, rfl⟩ | ⟨sent, ok, he, -, rfl⟩ := thread_cases h
  · rwa [inSubscribes_sendWhere]
  · obtain ⟨swap, heq, -⟩ := snapshot_eq s
    rw [heq]
    exact hno
  · exact hno
  · rw [inSubscribes_swapDrop sent ok id hs, hnew ok he, hno]
    rfl

end Thread

end ServiceTmpl

end FontisRemote.Services
