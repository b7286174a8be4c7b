import FontisRemote.Lib.Assoc
import FontisRemote.Lib.Run
import FontisRemote.Lib.Slots
import Mathlib.Data.List.Perm.Subperm

/-!
# Answerers of offers

`spawn_webrtc_answerer` of `rendezvous_mediator.rs`: an offer takes one of a few slots, builds a connection for it, or
finds the one that a repeated offer built, and routes the candidates of its session to that connection until it is
connected or given up. Offers, candidates and endings come in any order. The session key is the fingerprint of the
offerer, so a retry comes under the key of the attempt before it and takes its route.

A step is a region of code under the lock of `WEBRTC_ICE_TXS`, one atomic operation, or one call that waits. The task
that drains a channel ends when the last sender is gone, so that a route always has its receiver.
-/

namespace FontisRemote.WebRtc.Trickle

open FontisRemote.Lib

def MAX_PENDING_REMOTE_ICE : Nat := 64
def ICE_DEDUP_WINDOW : Nat := 256
def MAX_WEBRTC_ANSWERERS : Nat := 16

/-- A sender, by the number of its channel, and the digests of what was queued last. -/
structure IceRoute where
  tx : Nat
  recent : List UInt64
deriving DecidableEq, Repr

/-- The channel of the candidates of one connection. -/
structure Channel where
  queue : List String := []
  /-- What its task has taken, oldest first. -/
  delivered : List String := []
deriving DecidableEq, Repr

/-- Everything that was ever queued. -/
def Channel.accepted (c : Channel) : List String := c.delivered ++ c.queue

/-- `IceRoute::queue`, with the channel; `false` where the candidate is dropped. -/
def IceRoute.enqueue (digest : String → UInt64) (route : IceRoute) (channel : Channel) (candidate : String) :
    Bool × IceRoute × Channel :=
  if route.recent.contains (digest candidate) then (true, route, channel)
  else if MAX_PENDING_REMOTE_ICE ≤ channel.queue.length then (false, route, channel)
  else
    let recent := if ICE_DEDUP_WINDOW ≤ route.recent.length then route.recent.drop 1 else route.recent
    (true, { route with recent := recent ++ [digest candidate] },
      { channel with queue := channel.queue ++ [candidate] })

/-- How far an answerer has come. -/
inductive Phase
  /-- `WebRTCStream::new` -/
  | building
  /-- It has the receiver of its connection's candidates and waits for the lock. -/
  | inserting (channel : Nat)
  | waiting (channel : Nat)
  /-- `wait_connected` has returned; it waits for the lock. -/
  | leaving (channel : Nat) (connected : Bool)
  /-- Its slot is dropped, or goes with the teardown. -/
  | evicted (connected : Bool)
  | ended
deriving DecidableEq, Repr

/-- The channel that it may have a route to. -/
def Phase.routed : Phase → Option Nat
  | .waiting channel | .leaving channel _ => some channel
  | _ => none

def Phase.channel : Phase → Option Nat
  | .inserting channel | .waiting channel | .leaving channel _ => some channel
  | _ => none

def Phase.holdsSlot : Phase → Bool
  | .ended => false
  | _ => true

structure Answerer where
  key : String
  phase : Phase
deriving DecidableEq, Repr

structure Mediator where
  /-- `WEBRTC_ANSWERERS` -/
  slots : Nat := 0
  answerers : List Answerer := []
  channels : List Channel := []
  /-- `WEBRTC_ICE_TXS` -/
  routes : List (String × IceRoute) := []
  /-- The streams whose `take_local_ice_rx` has been called. -/
  taken : List Nat := []
  /-- The routes there have been, the newest first, which no code reads. -/
  inserted : List (String × Nat) := []
deriving DecidableEq

inductive Event
  | offer (key : String)
  /-- What `WebRTCStream::new` returns to an answerer: a stream, by its number, or an error. -/
  | built (i : Nat) (stream : Option Nat)
  | insert (i : Nat)
  | candidate (key : String) (candidate : String)
  | receive (channel : Nat)
  | waited (i : Nat) (connected : Bool)
  | evict (i : Nat)
  | release (i : Nat)
deriving DecidableEq

namespace Mediator

variable (digest : String → UInt64) (s : Mediator)

def setPhase (i : Nat) (a : Answerer) (phase : Phase) : Mediator :=
  { s with answerers := s.answerers.set i { a with phase } }

/-- The end of an answerer gives its slot back. -/
def finish (i : Nat) (a : Answerer) : Mediator := { s.setPhase i a .ended with slots := s.slots - 1 }

/-- `WEBRTC_ICE_TXS.get_mut(&ice.session_key).map(|route| route.queue(ice.candidate))` -/
def route (key candidate : String) : Mediator :=
  match Assoc.get s.routes key with
  | none => s
  | some route =>
    let (_, route', channel) := route.enqueue digest (s.channels.getD route.tx {}) candidate
    { s with routes := Assoc.put s.routes key (some route'), channels := s.channels.set route.tx channel }

/-- The eviction of an answerer's own route. -/
def evict (key : String) (channel : Nat) : Mediator :=
  match Assoc.get s.routes key with
  | some route => if route.tx = channel then { s with routes := Assoc.put s.routes key none } else s
  | none => s

def step : Event → Option Mediator
  | .offer key =>
    if s.slots < MAX_WEBRTC_ANSWERERS then
      some { s with slots := s.slots + 1, answerers := s.answerers ++ [⟨key, .building⟩] }
    else some s
  | .built i stream =>
    match s.answerers[i]? with
    | some a@⟨_, .building⟩ =>
      match stream with
      | none => some (s.finish i a)
      | some stream =>
        if s.taken.contains stream then some (s.finish i a)
        else
          some { s.setPhase i a (.inserting s.channels.length) with
            taken := stream :: s.taken
            channels := s.channels ++ [{}] }
    | _ => none
  | .insert i =>
    match s.answerers[i]? with
    | some a@⟨key, .inserting channel⟩ =>
      some { s.setPhase i a (.waiting channel) with
        routes := Assoc.put s.routes key (some ⟨channel, []⟩)
        inserted := (key, channel) :: s.inserted }
    | _ => none
  | .candidate key candidate => some (s.route digest key candidate)
  | .receive channel =>
    match s.channels[channel]? with
    | some ⟨candidate :: queue, delivered⟩ =>
      some { s with channels := s.channels.set channel ⟨queue, delivered ++ [candidate]⟩ }
    | _ => none
  | .waited i connected =>
    match s.answerers[i]? with
    | some a@⟨_, .waiting channel⟩ => some (s.setPhase i a (.leaving channel connected))
    | _ => none
  | .evict i =>
    match s.answerers[i]? with
    | some a@⟨key, .leaving channel connected⟩ => some ((s.evict key channel).setPhase i a (.evicted connected))
    | _ => none
  | .release i =>
    match s.answerers[i]? with
    | some a@⟨_, .evicted _⟩ => some (s.finish i a)
    | _ => none

/-! ## Who has which channel -/

def ChannelAt (i channel : Nat) : Prop := ∃ a, s.answerers[i]? = some a ∧ a.phase.channel = some channel

def RoutedAt (i : Nat) (key : String) (channel : Nat) : Prop :=
  ∃ a, s.answerers[i]? = some a ∧ a.key = key ∧ a.phase.routed = some channel

/-- The last route that was put in under a key. -/
def newest (key : String) : Option Nat := Assoc.get s.inserted key

variable {s} {digest} {i j channel : Nat} {a : Answerer} {key : String} {phase : Phase}

theorem routed_channel (h : phase.routed = some channel) : phase.channel = some channel := by
  cases phase <;> first | exact h | cases h

theorem RoutedAt.channelAt (h : s.RoutedAt i key channel) : s.ChannelAt i channel := by
  obtain ⟨a, ha, -, hrouted⟩ := h
  exact ⟨a, ha, routed_channel hrouted⟩

theorem channelAt_setPhase (hi : s.answerers[i]? = some a) :
    (s.setPhase i a phase).ChannelAt j channel ↔
      if j = i then phase.channel = some channel else s.ChannelAt j channel := by
  unfold ChannelAt setPhase
  by_cases hj : j = i
  · subst hj
    rw [if_pos rfl, List.getElem?_set_self (List.getElem?_eq_some_iff.1 hi).1]
    simp
  · rw [if_neg hj, List.getElem?_set_ne (Ne.symm hj)]

theorem routedAt_setPhase (hi : s.answerers[i]? = some a) :
    (s.setPhase i a phase).RoutedAt j key channel ↔
      if j = i then a.key = key ∧ phase.routed = some channel else s.RoutedAt j key channel := by
  unfold RoutedAt setPhase
  by_cases hj : j = i
  · subst hj
    rw [if_pos rfl, List.getElem?_set_self (List.getElem?_eq_some_iff.1 hi).1]
    simp
  · rw [if_neg hj, List.getElem?_set_ne (Ne.symm hj)]

/-- What holds between any two steps. -/
structure Inv (s : Mediator) : Prop where
  slots : s.slots = s.answerers.countP fun a => a.phase.holdsSlot
  bound : s.slots ≤ MAX_WEBRTC_ANSWERERS
  lt : ∀ i channel, s.ChannelAt i channel → channel < s.channels.length
  one : ∀ i j channel, s.ChannelAt i channel → s.ChannelAt j channel → i = j
  known : ∀ q ∈ s.inserted, q.2 < s.channels.length
  nodup : (s.inserted.map Prod.snd).Nodup
  own : ∀ i key channel, s.RoutedAt i key channel → (key, channel) ∈ s.inserted
  pending : ∀ (i : Nat) (a : Answerer) channel, s.answerers[i]? = some a → a.phase = .inserting channel →
    channel ∉ s.inserted.map Prod.snd
  keys : (s.routes.map Prod.fst).Nodup
  route : ∀ key channel, (Assoc.get s.routes key).map IceRoute.tx = some channel ↔
    s.newest key = some channel ∧ ∃ i, s.RoutedAt i key channel

/-! ## One step -/

theorem Inv.slots_setPhase (h : s.Inv) (hi : s.answerers[i]? = some a) {n : Nat}
    (hslots : n + a.phase.holdsSlot.toNat = s.slots + phase.holdsSlot.toNat) :
    n = (s.setPhase i a phase).answerers.countP fun a => a.phase.holdsSlot := by
  have hcount : (s.setPhase i a phase).answerers.countP (fun a => a.phase.holdsSlot) + a.phase.holdsSlot.toNat =
      s.answerers.countP (fun a => a.phase.holdsSlot) + phase.holdsSlot.toNat :=
    countP_set_add (b := ({ a with phase } : Answerer)) (fun a => a.phase.holdsSlot) hi
  have hs := h.slots
  omega

/-- An answerer that goes on, or ends, with the routes it had. -/
theorem Inv.setPhase (h : s.Inv) (hi : s.answerers[i]? = some a) {n : Nat}
    (hslots : n + a.phase.holdsSlot.toNat = s.slots + phase.holdsSlot.toNat) (hn : n ≤ s.slots)
    (hchannel : ∀ channel, phase.channel = some channel → a.phase.channel = some channel)
    (hrouted : phase.routed = a.phase.routed) (hinserting : ∀ channel, phase ≠ .inserting channel) :
    ({ s.setPhase i a phase with slots := n } : Mediator).Inv := by
  have hat : ∀ j channel, (s.setPhase i a phase).ChannelAt j channel → s.ChannelAt j channel := by
    intro j channel hj
    rw [channelAt_setPhase hi] at hj
    split at hj
    · next heq =>
      subst heq
      exact ⟨a, hi, hchannel channel hj⟩
    · exact hj
  have hr : ∀ j key channel, (s.setPhase i a phase).RoutedAt j key channel ↔ s.RoutedAt j key channel := by
    intro j key channel
    rw [routedAt_setPhase hi]
    split
    · next heq =>
      subst heq
      rw [hrouted]
      exact ⟨fun hj => ⟨a, hi, hj⟩, fun ⟨b, hb, hj⟩ => Option.some.inj (hi.symm.trans hb) ▸ hj⟩
    · rfl
  refine ⟨h.slots_setPhase hi hslots, hn.trans h.bound, fun j channel hj => h.lt j channel (hat j channel hj),
    fun j k channel hj hk => h.one j k channel (hat j channel hj) (hat k channel hk), h.known, h.nodup,
    fun j key channel hj => h.own j key channel ((hr j key channel).1 hj), ?_, h.keys, fun key channel => ?_⟩
  · intro j b channel hj hb
    rcases getElem?_set_eq_some hj with ⟨-, rfl⟩ | ⟨-, hj⟩
    · exact absurd hb (hinserting channel)
    · exact h.pending j b channel hj hb
  · refine (h.route key channel).trans (and_congr_right fun _ => exists_congr fun j => (hr j key channel).symm)

theorem Inv.finish (h : s.Inv) (hi : s.answerers[i]? = some a) (hholds : a.phase.holdsSlot = true)
    (hrouted : a.phase.routed = none) : (s.finish i a).Inv := by
  have hpos : 0 < s.slots := by
    rw [h.slots]
    exact List.countP_pos_iff.2 ⟨a, List.mem_of_getElem? hi, hholds⟩
  refine h.setPhase hi ?_ (Nat.sub_le _ _) (fun _ hc => by cases hc) hrouted.symm (fun _ hc => by cases hc)
  rw [hholds]
  simp only [Phase.holdsSlot, Bool.toNat_true, Bool.toNat_false]
  omega

theorem Inv.offer (h : s.Inv) (hfree : s.slots < MAX_WEBRTC_ANSWERERS) :
    ({ s with slots := s.slots + 1, answerers := s.answerers ++ [⟨key, .building⟩] } : Mediator).Inv := by
  have hat : ∀ j channel, (∃ b, (s.answerers ++ [⟨key, .building⟩])[j]? = some b ∧ b.phase.channel = some channel) →
      s.ChannelAt j channel := by
    rintro j channel ⟨b, hb, hc⟩
    rcases getElem?_append_singleton hb with hb | ⟨-, rfl⟩
    · exact ⟨b, hb, hc⟩
    · cases hc
  have hold : ∀ j b, s.answerers[j]? = some b → (s.answerers ++ [⟨key, .building⟩])[j]? = some b := fun j b hb => by
    rw [List.getElem?_append_left (List.getElem?_eq_some_iff.1 hb).1, hb]
  have hr : ∀ j k channel, (∃ b, (s.answerers ++ [⟨key, .building⟩])[j]? = some b ∧ b.key = k ∧
      b.phase.routed = some channel) ↔ s.RoutedAt j k channel := by
    intro j k channel
    constructor
    · rintro ⟨b, hb, hk, hc⟩
      rcases getElem?_append_singleton hb with hb | ⟨-, rfl⟩
      · exact ⟨b, hb, hk, hc⟩
      · cases hc
    · rintro ⟨b, hb, hk, hc⟩
      exact ⟨b, hold j b hb, hk, hc⟩
  refine ⟨?_, hfree, fun j channel hj => h.lt j channel (hat j channel hj), fun j k channel hj hk =>
    h.one j k channel (hat j channel hj) (hat k channel hk), h.known, h.nodup, fun j k channel hj =>
    h.own j k channel ((hr j k channel).1 hj), ?_, h.keys, fun k channel => ?_⟩
  · simp only [List.countP_append, ← h.slots]
    rfl
  · intro j b channel hj hb
    rcases getElem?_append_singleton hj with hj | ⟨-, rfl⟩
    · exact h.pending j b channel hj hb
    · cases hb
  · exact (h.route k channel).trans (and_congr_right fun _ => exists_congr fun j => (hr j k channel).symm)

theorem Inv.built (h : s.Inv) (hi : s.answerers[i]? = some a) (hphase : a.phase = .building) {taken : List Nat} :
    ({ s.setPhase i a (.inserting s.channels.length) with taken, channels := s.channels ++ [{}] } : Mediator).Inv := by
  have hat : ∀ j channel, (s.setPhase i a (.inserting s.channels.length)).ChannelAt j channel →
      j = i ∧ channel = s.channels.length ∨ j ≠ i ∧ s.ChannelAt j channel := by
    intro j channel hj
    rw [channelAt_setPhase hi] at hj
    split at hj
    · next heq => exact .inl ⟨heq, (Option.some.inj hj).symm⟩
    · next hne => exact .inr ⟨hne, hj⟩
  have hr : ∀ j key channel, (s.setPhase i a (.inserting s.channels.length)).RoutedAt j key channel ↔
      s.RoutedAt j key channel := by
    intro j key channel
    rw [routedAt_setPhase hi]
    split
    · next heq =>
      subst heq
      constructor
      · rintro ⟨-, hc⟩
        cases hc
      · rintro ⟨b, hb, -, hc⟩
        obtain rfl := Option.some.inj (hi.symm.trans hb)
        rw [hphase] at hc
        cases hc
    · rfl
  have hlength : (s.channels ++ [({} : Channel)]).length = s.channels.length + 1 := List.length_append
  refine ⟨h.slots_setPhase hi (by rw [hphase]; rfl), h.bound, fun j channel hj => ?_, fun j k channel hj hk => ?_,
    fun q hq => ?_, h.nodup, fun j key channel hj => h.own j key channel ((hr j key channel).1 hj),
    fun j b channel hj hb => ?_, h.keys, fun key channel => ?_⟩
  · rw [hlength]
    rcases hat j channel hj with ⟨-, rfl⟩ | ⟨-, hold⟩
    · exact Nat.lt_succ_self _
    · exact Nat.lt_succ_of_lt (h.lt j channel hold)
  · rcases hat j channel hj with ⟨rfl, rfl⟩ | ⟨-, holdj⟩ <;> rcases hat k _ hk with ⟨rfl, hc⟩ | ⟨-, holdk⟩
    · rfl
    · exact absurd (h.lt k _ holdk) (Nat.lt_irrefl _)
    · exact absurd (hc ▸ h.lt j channel holdj) (Nat.lt_irrefl _)
    · exact h.one j k channel holdj holdk
  · rw [hlength]
    exact Nat.lt_succ_of_lt (h.known q hq)
  · rcases getElem?_set_eq_some hj with ⟨-, rfl⟩ | ⟨-, hj⟩
    · obtain rfl := Phase.inserting.inj hb
      intro hmem
      obtain ⟨q, hq, heq⟩ := List.mem_map.1 hmem
      exact absurd (heq ▸ h.known q hq) (Nat.lt_irrefl _)
    · exact h.pending j b channel hj hb
  · exact (h.route key channel).trans (and_congr_right fun _ => exists_congr fun j => (hr j key channel).symm)

theorem Inv.insert (h : s.Inv) (hi : s.answerers[i]? = some a) (hphase : a.phase = .inserting channel) :
    ({ s.setPhase i a (.waiting channel) with
      routes := Assoc.put s.routes a.key (some ⟨channel, []⟩)
      inserted := (a.key, channel) :: s.inserted } : Mediator).Inv := by
  have hown : s.ChannelAt i channel := ⟨a, hi, by rw [hphase]; rfl⟩
  have hat : ∀ j c, (s.setPhase i a (.waiting channel)).ChannelAt j c → s.ChannelAt j c := by
    intro j c hj
    rw [channelAt_setPhase hi] at hj
    split at hj
    · next heq =>
      obtain rfl : channel = c := Option.some.inj hj
      exact heq ▸ hown
    · exact hj
  have hr : ∀ j key c, (s.setPhase i a (.waiting channel)).RoutedAt j key c ↔
      j = i ∧ a.key = key ∧ channel = c ∨ s.RoutedAt j key c := by
    intro j key c
    rw [routedAt_setPhase hi]
    split
    · next heq =>
      subst heq
      constructor
      · rintro ⟨hkey, hc⟩
        exact .inl ⟨rfl, hkey, Option.some.inj hc⟩
      · rintro (⟨-, hkey, rfl⟩ | ⟨b, hb, -, hc⟩)
        · exact ⟨hkey, rfl⟩
        · obtain rfl := Option.some.inj (hi.symm.trans hb)
          rw [hphase] at hc
          cases hc
    · next hne => exact ⟨.inr, fun hj => hj.resolve_left fun hj => hne hj.1⟩
  refine ⟨h.slots_setPhase hi (by rw [hphase]; rfl), h.bound, fun j c hj => h.lt j c (hat j c hj), fun j k c hj hk =>
    h.one j k c (hat j c hj) (hat k c hk), List.forall_mem_cons.2 ⟨h.lt i channel hown, h.known⟩,
    List.nodup_cons.2 ⟨h.pending i a channel hi hphase, h.nodup⟩, fun j key c hj => ?_, fun j b c hj hb => ?_,
    Assoc.nodup_put h.keys a.key (some ⟨channel, []⟩), fun key c => ?_⟩
  · rcases (hr j key c).1 hj with ⟨-, rfl, rfl⟩ | hj
    · exact List.mem_cons_self
    · exact List.mem_cons_of_mem _ (h.own j key c hj)
  · rcases getElem?_set_eq_some hj with ⟨-, rfl⟩ | ⟨hne, hj⟩
    · cases hb
    · rw [List.map_cons, List.mem_cons, not_or]
      refine ⟨fun heq => hne (h.one j i channel ⟨b, hj, ?_⟩ hown), h.pending j b c hj hb⟩
      rw [hb]
      exact congrArg some heq
  · rw [Assoc.get_put]
    have hnewest : newest { s with inserted := (a.key, channel) :: s.inserted } key =
        if a.key = key then some channel else s.newest key := rfl
    change _ ↔ newest { s with inserted := (a.key, channel) :: s.inserted } key = some c ∧
      ∃ j, (s.setPhase i a (.waiting channel)).RoutedAt j key c
    rw [hnewest]
    by_cases hkey : a.key = key
    · subst hkey
      rw [if_pos rfl, if_pos rfl, Option.map_some]
      exact ⟨fun heq => ⟨heq, i, (hr i a.key c).2 (.inl ⟨rfl, rfl, Option.some.inj heq⟩)⟩, fun heq => heq.1⟩
    · rw [if_neg (Ne.symm hkey), if_neg hkey, h.route]
      refine and_congr_right fun _ => exists_congr fun j => ?_
      exact ⟨fun hj => (hr j key c).2 (.inr hj), fun hj => ((hr j key c).1 hj).resolve_left fun hj => hkey hj.2.1⟩

/-- A step that changes no more than what routes remember and channels hold. -/
theorem Inv.congr (h : s.Inv) {routes : List (String × IceRoute)} {channels : List Channel}
    (hchannels : channels.length = s.channels.length) (hkeys : (routes.map Prod.fst).Nodup)
    (hroutes : ∀ key, (Assoc.get routes key).map IceRoute.tx = (Assoc.get s.routes key).map IceRoute.tx) :
    ({ s with routes, channels } : Mediator).Inv where
  slots := h.slots
  bound := h.bound
  lt i channel hi := hchannels.symm ▸ h.lt i channel hi
  one := h.one
  known q hq := hchannels.symm ▸ h.known q hq
  nodup := h.nodup
  own := h.own
  pending := h.pending
  keys := hkeys
  route key channel := hroutes key ▸ h.route key channel

theorem enqueue_tx (route : IceRoute) (c : Channel) (candidate : String) :
    (route.enqueue digest c candidate).2.1.tx = route.tx := by
  unfold IceRoute.enqueue
  split
  · rfl
  · split <;> rfl

theorem Inv.candidate (h : s.Inv) (candidate : String) : (s.route digest key candidate).Inv := by
  unfold Mediator.route
  split
  · exact h
  · next route hroute =>
    refine h.congr List.length_set (Assoc.nodup_put h.keys ..) fun k => ?_
    rw [Assoc.get_put]
    split
    · next heq =>
      rw [heq, hroute]
      exact congrArg some (enqueue_tx ..)
    · rfl

/-- An answerer takes no other's route away, and its own goes with it. -/
theorem Inv.evict (h : s.Inv) {connected : Bool} (hi : s.answerers[i]? = some a)
    (hphase : a.phase = .leaving channel connected) :
    ((s.evict a.key channel).setPhase i a (.evicted connected)).Inv := by
  have hown : s.RoutedAt i a.key channel := ⟨a, hi, rfl, by rw [hphase]; rfl⟩
  have hr : ∀ j key c, (s.setPhase i a (.evicted connected)).RoutedAt j key c ↔ j ≠ i ∧ s.RoutedAt j key c := by
    intro j key c
    rw [routedAt_setPhase hi]
    split
    · next heq =>
      refine ⟨fun hj => ?_, fun hj => absurd heq hj.1⟩
      obtain ⟨-, hphase⟩ := hj
      cases hphase
    · next hne => exact ⟨fun hj => ⟨hne, hj⟩, And.right⟩
  have hat : ∀ j c, (s.setPhase i a (.evicted connected)).ChannelAt j c → s.ChannelAt j c := by
    intro j c hj
    rw [channelAt_setPhase hi] at hj
    split at hj
    · cases hj
    · exact hj
  -- The route of the answerer is there exactly if no later one has replaced it.
  have hget : ∀ key c, ((Assoc.get (s.evict a.key channel).routes key).map IceRoute.tx = some c ↔
      (Assoc.get s.routes key).map IceRoute.tx = some c ∧ ¬(key = a.key ∧ c = channel)) := by
    intro key c
    unfold Mediator.evict
    split
    · next route hroute =>
      split
      · next htx =>
        rw [Assoc.get_put]
        split
        · next hkey =>
          rw [hkey, hroute, Option.map_none, Option.map_some, htx]
          refine ⟨fun hc => ?_, fun hc => absurd ⟨rfl, (Option.some.inj hc.1).symm⟩ hc.2⟩
          cases hc
        · next hkey => exact ⟨fun hc => ⟨hc, fun heq => hkey heq.1⟩, And.left⟩
      · next htx =>
        refine ⟨fun hc => ⟨hc, ?_⟩, And.left⟩
        rintro ⟨rfl, rfl⟩
        rw [hroute] at hc
        exact htx (Option.some.inj hc)
    · next hroute =>
      refine ⟨fun hc => ⟨hc, ?_⟩, And.left⟩
      rintro ⟨rfl, -⟩
      rw [hroute] at hc
      cases hc
  have hfields : (s.evict a.key channel).setPhase i a (.evicted connected) =
      { s.setPhase i a (.evicted connected) with routes := (s.evict a.key channel).routes } := by
    unfold Mediator.evict Mediator.setPhase
    split
    · split <;> rfl
    · rfl
  have hkeys : ((s.evict a.key channel).routes.map Prod.fst).Nodup := by
    unfold Mediator.evict
    split
    · split
      · exact Assoc.nodup_put h.keys a.key none
      · exact h.keys
    · exact h.keys
  rw [hfields]
  refine ⟨h.slots_setPhase hi (by rw [hphase]; rfl), h.bound, fun j c hj => h.lt j c (hat j c hj), fun j k c hj hk =>
    h.one j k c (hat j c hj) (hat k c hk), h.known, h.nodup, fun j key c hj => h.own j key c ((hr j key c).1 hj).2,
    fun j b c hj hb => ?_, hkeys, fun key c => ?_⟩
  · rcases getElem?_set_eq_some hj with ⟨-, rfl⟩ | ⟨-, hj⟩
    · cases hb
    · exact h.pending j b c hj hb
  · refine (hget key c).trans ?_
    rw [h.route, and_assoc]
    refine and_congr_right fun _ => ?_
    constructor
    · rintro ⟨⟨j, hj⟩, hother⟩
      refine ⟨j, (hr j key c).2 ⟨?_, hj⟩⟩
      rintro rfl
      obtain ⟨b, hb, hkey, hc⟩ := hj
      obtain rfl := Option.some.inj (hi.symm.trans hb)
      rw [hphase] at hc
      exact hother ⟨hkey.symm, (Option.some.inj hc).symm⟩
    · rintro ⟨j, hj⟩
      obtain ⟨hne, hold⟩ := (hr j key c).1 hj
      refine ⟨⟨j, hold⟩, ?_⟩
      rintro ⟨-, rfl⟩
      exact hne (h.one j i c hold.channelAt hown.channelAt)

theorem Inv.step {s' : Mediator} {e : Event} (h : s.Inv) (hstep : s.step digest e = some s') : s'.Inv := by
  cases e with
  | offer key =>
    unfold Mediator.step at hstep
    dsimp only at hstep
    split at hstep
    · next hfree => exact Option.some.inj hstep ▸ h.offer hfree
    · exact Option.some.inj hstep ▸ h
  | built i stream =>
    unfold Mediator.step at hstep
    dsimp only at hstep
    split at hstep
    · next a key hi =>
      cases stream with
      | none => exact Option.some.inj hstep ▸ h.finish hi rfl rfl
      | some stream =>
        dsimp only at hstep
        split at hstep
        · exact Option.some.inj hstep ▸ h.finish hi rfl rfl
        · exact Option.some.inj hstep ▸ h.built hi rfl
    · cases hstep
  | insert i =>
    unfold Mediator.step at hstep
    dsimp only at hstep
    split at hstep
    · next a key channel hi => exact Option.some.inj hstep ▸ h.insert hi rfl
    · cases hstep
  | candidate key candidate => exact Option.some.inj hstep ▸ h.candidate candidate
  | receive channel =>
    unfold Mediator.step at hstep
    dsimp only at hstep
    split at hstep
    · exact Option.some.inj hstep ▸ h.congr List.length_set h.keys fun _ => rfl
    · cases hstep
  | waited i connected =>
    unfold Mediator.step at hstep
    dsimp only at hstep
    split at hstep
    · next a key channel hi =>
      exact Option.some.inj hstep ▸ h.setPhase hi rfl le_rfl (fun _ hc => hc) rfl (fun _ hc => by cases hc)
    · cases hstep
  | evict i =>
    unfold Mediator.step at hstep
    dsimp only at hstep
    split at hstep
    · next a key channel connected hi => exact Option.some.inj hstep ▸ h.evict hi rfl
    · cases hstep
  | release i =>
    unfold Mediator.step at hstep
    dsimp only at hstep
    split at hstep
    · next a key connected hi => exact Option.some.inj hstep ▸ h.finish hi rfl rfl
    · cases hstep

/-! ## Every run -/

theorem Inv.init : ({} : Mediator).Inv where
  slots := rfl
  bound := Nat.zero_le _
  lt i channel h := by obtain ⟨a, ha, -⟩ := h; cases ha
  one i j channel h := by obtain ⟨a, ha, -⟩ := h; cases ha
  known q hq := by cases hq
  nodup := List.nodup_nil
  own i key channel h := by obtain ⟨a, ha, -⟩ := h; cases ha
  pending i a channel ha := by cases ha
  keys := List.nodup_nil
  route key channel := by
    constructor
    · intro h
      cases h
    · rintro ⟨h, -⟩
      cases h

theorem inv_of_reachable (h : Reachable (· = {}) (fun s : Mediator => s.step digest) s) : s.Inv := by
  obtain ⟨history, hrun⟩ := h
  refine hrun.invariant ?_ fun _ _ _ hi hstep => hi.step hstep
  rintro s rfl
  exact Inv.init

/-- A route is of an answerer with a slot, and no two are of one. -/
theorem Inv.routes_le (h : s.Inv) : s.routes.length ≤ s.slots := by
  have hsub : s.routes.map Prod.fst ⊆ (s.answerers.filter fun a => a.phase.holdsSlot).map Answerer.key := by
    intro key hkey
    obtain ⟨⟨_, route⟩, hmem, rfl⟩ := List.mem_map.1 hkey
    have hget := Assoc.get_of_mem h.keys hmem
    obtain ⟨-, i, a, ha, hname, hrouted⟩ := (h.route _ route.tx).1 (by rw [hget]; rfl)
    refine List.mem_map.2 ⟨a, List.mem_filter.2 ⟨List.mem_of_getElem? ha, ?_⟩, hname⟩
    cases hphase : a.phase with
    | ended =>
      rw [hphase] at hrouted
      cases hrouted
    | _ => rfl
  calc s.routes.length = (s.routes.map Prod.fst).length := (List.length_map ..).symm
    _ ≤ ((s.answerers.filter fun a => a.phase.holdsSlot).map Answerer.key).length :=
        (List.subperm_of_subset h.keys hsub).length_le
    _ = s.slots := by rw [List.length_map, ← List.countP_eq_length_filter, h.slots]

end Mediator

/-- In every state reached, the slots taken are those of answerers that have not ended, at most sixteen, and there are no
more routes than slots. A route leads to a channel exactly if that is the last one put in under its key and its answerer
has not come to its eviction: an answerer that leaves takes no route but its own, and leaves none behind. -/
theorem routes_of_answerers {digest : String → UInt64} {s : Mediator}
    (h : Reachable (· = {}) (fun s : Mediator => s.step digest) s) :
    s.slots = s.answerers.countP (fun a => a.phase.holdsSlot) ∧ s.slots ≤ MAX_WEBRTC_ANSWERERS ∧
    s.routes.length ≤ s.slots ∧
    ∀ key channel, (Assoc.get s.routes key).map IceRoute.tx = some channel ↔
      s.newest key = some channel ∧ ∃ i, s.RoutedAt i key channel := by
  have hinv := Mediator.inv_of_reachable h
  exact ⟨hinv.slots, hinv.bound, hinv.routes_le, hinv.route⟩

/-- A retry comes under the key of an attempt that fails: its route stays. -/
theorem routes_of_answerers_retry :
    ∃ s : Mediator, Reachable (· = {}) (fun s : Mediator => s.step fun _ => 0) s ∧
      s.answerers = [⟨"fp", .evicted false⟩, ⟨"fp", .waiting 1⟩] ∧ s.slots = 2 ∧
      (Assoc.get s.routes "fp").map IceRoute.tx = some 1 := by
  obtain ⟨⟨history, s⟩, hr⟩ : ∃ r, trace (fun s : Mediator => s.step fun _ => 0) {}
      [.offer "fp", .built 0 (some 7), .insert 0, .offer "fp", .built 1 (some 8), .insert 1, .waited 0 false,
        .evict 0] = some r := ⟨_, rfl⟩
  have hstart : Exec (· = ({} : Mediator)) (fun s : Mediator => s.step fun _ => 0) [] {} := .start rfl
  have hs : Reachable (· = {}) (fun s : Mediator => s.step fun _ => 0) s := ⟨_, hstart.trace hr⟩
  obtain ⟨-, rfl⟩ := Prod.mk.inj (Option.some.inj hr)
  exact ⟨_, hs, rfl, rfl, ((routes_of_answerers hs).2.2.2 "fp" 1).2 ⟨rfl, 1, ⟨"fp", .waiting 1⟩, rfl, rfl, rfl⟩⟩

end FontisRemote.WebRtc.Trickle
