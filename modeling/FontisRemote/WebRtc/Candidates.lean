import FontisRemote.Lib.Spaced
import FontisRemote.WebRtc.Answerers

/-!
# Candidates of a session

The controller sends a candidate, and sends it again in case it was lost. What comes under a key is queued for the
answerer that waits under it, unless it is among the last that were queued for it or the queue is full. The memory is of
what was queued only, so that a candidate refused for want of room is taken when it is sent again.
-/

namespace FontisRemote.WebRtc.Trickle

open FontisRemote.Lib

/-- A channel takes what is not among the last that it took, if there is room. -/
def Channel.Takes (digest : String → UInt64) (c : Channel) (candidate : String) : Prop :=
  digest candidate ∉ (c.accepted.map digest).rtake ICE_DEDUP_WINDOW ∧ c.queue.length < MAX_PENDING_REMOTE_ICE

namespace Mediator

variable {digest : String → UInt64} {s s' : Mediator} {i channel : Nat} {a : Answerer} {key : String} {c : Channel}

/-- A channel has one route. -/
theorem Inv.route_inj (h : s.Inv) {k : String} {route route' : IceRoute} (hroute : Assoc.get s.routes key = some route)
    (hroute' : Assoc.get s.routes k = some route') (htx : route.tx = route'.tx) : key = k := by
  obtain ⟨-, i, hi⟩ := (h.route key route.tx).1 (by rw [hroute]; rfl)
  obtain ⟨-, j, hj⟩ := (h.route k route.tx).1 (by rw [hroute', htx]; rfl)
  have hfst := List.inj_on_of_nodup_map h.nodup (h.own i key _ hi) (h.own j k _ hj) rfl
  exact congrArg Prod.fst hfst

/-- What channels hold, and what their routes remember of it. -/
structure Queued (digest : String → UInt64) (s : Mediator) : Prop where
  room : ∀ (channel : Nat) (c : Channel), s.channels[channel]? = some c → c.queue.length ≤ MAX_PENDING_REMOTE_ICE
  spaced : ∀ (channel : Nat) (c : Channel), s.channels[channel]? = some c → Spaced ICE_DEDUP_WINDOW (c.accepted.map digest)
  recent : ∀ key route, Assoc.get s.routes key = some route → ∀ c : Channel, s.channels[route.tx]? = some c →
    route.recent = (c.accepted.map digest).rtake ICE_DEDUP_WINDOW
  unused : ∀ (channel : Nat) (c : Channel), s.channels[channel]? = some c → channel ∉ s.inserted.map Prod.snd → c.accepted = []

/-- `queue`, for a route that remembers what it should. -/
theorem enqueue_spec {route : IceRoute} (candidate : String)
    (hrecent : route.recent = (c.accepted.map digest).rtake ICE_DEDUP_WINDOW)
    (hspaced : Spaced ICE_DEDUP_WINDOW (c.accepted.map digest)) (hroom : c.queue.length ≤ MAX_PENDING_REMOTE_ICE) :
    (route.enqueue digest c candidate).2.2.delivered = c.delivered ∧
    (c.Takes digest candidate → (route.enqueue digest c candidate).2.2.accepted = c.accepted ++ [candidate]) ∧
    (¬c.Takes digest candidate → (route.enqueue digest c candidate).2.2.accepted = c.accepted) ∧
    (route.enqueue digest c candidate).2.1.recent =
      ((route.enqueue digest c candidate).2.2.accepted.map digest).rtake ICE_DEDUP_WINDOW ∧
    Spaced ICE_DEDUP_WINDOW ((route.enqueue digest c candidate).2.2.accepted.map digest) ∧
    (route.enqueue digest c candidate).2.2.queue.length ≤ MAX_PENDING_REMOTE_ICE := by
  unfold IceRoute.enqueue
  split
  · next hmem =>
    rw [hrecent, List.contains_iff_mem] at hmem
    exact ⟨rfl, fun h => absurd hmem h.1, fun _ => rfl, hrecent, hspaced, hroom⟩
  · next hmem =>
    rw [hrecent, List.contains_iff_mem] at hmem
    split
    · next hfull => exact ⟨rfl, fun h => absurd h.2 (Nat.not_lt.2 hfull), fun _ => rfl, hrecent, hspaced, hroom⟩
    · next hfull =>
      have haccepted : Channel.accepted { c with queue := c.queue ++ [candidate] } = c.accepted ++ [candidate] :=
        (List.append_assoc ..).symm
      dsimp only
      rw [haccepted, List.map_append, hrecent]
      refine ⟨rfl, fun _ => rfl, fun h => absurd ⟨hmem, Nat.not_le.1 hfull⟩ h, ?_, hspaced.append_singleton hmem, ?_⟩
      · exact (rtake_append_singleton (by decide) _ _).symm
      · rw [List.length_append, List.length_singleton]
        omega

theorem Inv.tx_lt (h : s.Inv) {route : IceRoute} (hroute : Assoc.get s.routes key = some route) :
    route.tx < s.channels.length := by
  obtain ⟨-, i, hi⟩ := (h.route key route.tx).1 (by rw [hroute]; rfl)
  exact h.known _ (h.own i key _ hi)

theorem route_eq {route : IceRoute} (candidate : String) (hroute : Assoc.get s.routes key = some route)
    (hc : s.channels[route.tx]? = some c) :
    s.route digest key candidate =
      { s with
        routes := Assoc.put s.routes key (some (route.enqueue digest c candidate).2.1)
        channels := s.channels.set route.tx (route.enqueue digest c candidate).2.2 } := by
  have hget : s.channels.getD route.tx {} = c := by rw [List.getD_eq_getElem?_getD, hc, Option.getD_some]
  unfold Mediator.route
  rw [hroute]
  dsimp only
  rw [hget]

/-! ## One step -/

/-- A step that puts no route in and leaves the channels. -/
theorem Queued.mono (h : s.Queued digest) (hchannels : s'.channels = s.channels) (hinserted : s'.inserted = s.inserted)
    (hroutes : ∀ key route, Assoc.get s'.routes key = some route → Assoc.get s.routes key = some route) :
    s'.Queued digest where
  room channel c hc := h.room channel c (hchannels ▸ hc)
  spaced channel c hc := h.spaced channel c (hchannels ▸ hc)
  recent key route hroute c hc := h.recent key route (hroutes key route hroute) c (hchannels ▸ hc)
  unused channel c hc hnew := h.unused channel c (hchannels ▸ hc) (hinserted ▸ hnew)

theorem Queued.built (h : s.Queued digest) (hinv : s.Inv) (hchannels : s'.channels = s.channels ++ [({} : Channel)])
    (hinserted : s'.inserted = s.inserted) (hroutes : s'.routes = s.routes) : s'.Queued digest := by
  have hold : ∀ (channel : Nat) (c : Channel), s'.channels[channel]? = some c → s.channels[channel]? = some c ∨ c = {} := by
    intro channel c hc
    rw [hchannels] at hc
    exact (getElem?_append_singleton hc).imp_right And.right
  refine ⟨fun channel c hc => ?_, fun channel c hc => ?_, fun key route hroute c hc => ?_, fun channel c hc hnew => ?_⟩
  · rcases hold channel c hc with hc | rfl
    · exact h.room channel c hc
    · exact Nat.zero_le _
  · rcases hold channel c hc with hc | rfl
    · exact h.spaced channel c hc
    · exact .nil
  · rw [hroutes] at hroute
    rw [hchannels, List.getElem?_append_left (hinv.tx_lt hroute)] at hc
    exact h.recent key route hroute c hc
  · rcases hold channel c hc with hc | rfl
    · exact h.unused channel c hc (hinserted ▸ hnew)
    · rfl

theorem Queued.insert (h : s.Queued digest) (hnew : channel ∉ s.inserted.map Prod.snd)
    (hchannels : s'.channels = s.channels) (hinserted : s'.inserted = (key, channel) :: s.inserted)
    (hroutes : s'.routes = Assoc.put s.routes key (some ⟨channel, []⟩)) : s'.Queued digest := by
  refine ⟨fun channel c hc => h.room channel c (hchannels ▸ hc), fun channel c hc => h.spaced channel c (hchannels ▸ hc),
    fun k route hroute c hc => ?_, fun k c hc hk => ?_⟩
  · rw [hroutes, Assoc.get_put] at hroute
    rw [hchannels] at hc
    split at hroute
    · obtain rfl := Option.some.inj hroute
      rw [h.unused channel c hc hnew, List.map_nil, List.rtake_nil]
    · exact h.recent k route hroute c hc
  · rw [hinserted, List.map_cons, List.mem_cons, not_or] at hk
    exact h.unused k c (hchannels ▸ hc) hk.2

theorem Queued.candidate (h : s.Queued digest) (hinv : s.Inv) (candidate : String) :
    (s.route digest key candidate).Queued digest := by
  cases hroute : Assoc.get s.routes key with
  | none =>
    have heq : s.route digest key candidate = s := by
      unfold Mediator.route
      rw [hroute]
    exact heq.symm ▸ h
  | some route =>
    obtain ⟨c, hc⟩ : ∃ c, s.channels[route.tx]? = some c := ⟨_, List.getElem?_eq_getElem (hinv.tx_lt hroute)⟩
    rw [route_eq candidate hroute hc]
    obtain ⟨-, -, -, hrecent, hspaced, hroom⟩ := enqueue_spec candidate (h.recent key route hroute c hc)
      (h.spaced _ c hc) (h.room _ c hc)
    refine ⟨fun channel d hd => ?_, fun channel d hd => ?_, fun k r hr d hd => ?_, fun channel d hd hnew => ?_⟩
    · rcases getElem?_set_eq_some hd with ⟨-, rfl⟩ | ⟨-, hd⟩
      · exact hroom
      · exact h.room channel d hd
    · rcases getElem?_set_eq_some hd with ⟨-, rfl⟩ | ⟨-, hd⟩
      · exact hspaced
      · exact h.spaced channel d hd
    · dsimp only at hr hd
      rw [Assoc.get_put] at hr
      split at hr
      · obtain rfl := Option.some.inj hr
        rw [enqueue_tx, List.getElem?_set_self (hinv.tx_lt hroute)] at hd
        obtain rfl := Option.some.inj hd
        exact hrecent
      · next hk =>
        have hne : route.tx ≠ r.tx := fun htx => hk (hinv.route_inj hroute hr htx).symm
        rw [List.getElem?_set_ne hne] at hd
        exact h.recent k r hr d hd
    · rcases getElem?_set_eq_some hd with ⟨rfl, -⟩ | ⟨-, hd⟩
      · obtain ⟨-, i, hi⟩ := (hinv.route key route.tx).1 (by rw [hroute]; rfl)
        exact absurd (List.mem_map.2 ⟨_, hinv.own i key _ hi, rfl⟩) hnew
      · exact h.unused channel d hd hnew

/-- What is taken from the queue stays in the order it came in. -/
theorem Queued.receive (h : s.Queued digest) {candidate : String} {queue delivered : List String}
    (hc : s.channels[channel]? = some ⟨candidate :: queue, delivered⟩) :
    ({ s with channels := s.channels.set channel ⟨queue, delivered ++ [candidate]⟩ } : Mediator).Queued digest := by
  have haccepted : Channel.accepted ⟨queue, delivered ++ [candidate]⟩ = Channel.accepted ⟨candidate :: queue, delivered⟩ :=
    List.append_assoc ..
  refine ⟨fun k d hd => ?_, fun k d hd => ?_, fun k r hr d hd => ?_, fun k d hd hnew => ?_⟩
  · rcases getElem?_set_eq_some hd with ⟨-, rfl⟩ | ⟨-, hd⟩
    · exact Nat.le_of_succ_le (h.room channel _ hc)
    · exact h.room k d hd
  · rcases getElem?_set_eq_some hd with ⟨-, rfl⟩ | ⟨-, hd⟩
    · rw [haccepted]
      exact h.spaced channel _ hc
    · exact h.spaced k d hd
  · rcases getElem?_set_eq_some hd with ⟨htx, rfl⟩ | ⟨-, hd⟩
    · rw [haccepted]
      exact h.recent k r hr _ (htx ▸ hc)
    · exact h.recent k r hr d hd
  · rcases getElem?_set_eq_some hd with ⟨rfl, rfl⟩ | ⟨-, hd⟩
    · rw [haccepted]
      exact h.unused _ _ hc hnew
    · exact h.unused k d hd hnew

theorem Queued.evict (h : s.Queued digest) : (s.evict key channel).Queued digest := by
  refine h.mono ?_ ?_ fun k r hr => ?_
  · unfold Mediator.evict
    split
    · split <;> rfl
    · rfl
  · unfold Mediator.evict
    split
    · split <;> rfl
    · rfl
  · unfold Mediator.evict at hr
    split at hr
    · split at hr
      · dsimp only at hr
        rw [Assoc.get_put] at hr
        split at hr
        · cases hr
        · exact hr
      · exact hr
    · exact hr

theorem Queued.step {e : Event} (h : s.Queued digest) (hinv : s.Inv) (hstep : s.step digest e = some s') :
    s'.Queued digest := by
  have hsame : ∀ t : Mediator, t.channels = s.channels → t.inserted = s.inserted → t.routes = s.routes → t.Queued digest :=
    fun t hchannels hinserted hroutes => h.mono hchannels hinserted fun key route hroute => hroutes ▸ hroute
  cases e with
  | offer key =>
    unfold Mediator.step at hstep
    dsimp only at hstep
    split at hstep
    · exact Option.some.inj hstep ▸ hsame _ rfl rfl rfl
    · exact Option.some.inj hstep ▸ h
  | built i stream =>
    unfold Mediator.step at hstep
    dsimp only at hstep
    split at hstep
    · cases stream with
      | none => exact Option.some.inj hstep ▸ hsame _ rfl rfl rfl
      | some stream =>
        dsimp only at hstep
        split at hstep
        · exact Option.some.inj hstep ▸ hsame _ rfl rfl rfl
        · exact Option.some.inj hstep ▸ h.built hinv rfl rfl rfl
    · cases hstep
  | insert i =>
    unfold Mediator.step at hstep
    dsimp only at hstep
    split at hstep
    · next a key channel hi => exact Option.some.inj hstep ▸ h.insert (hinv.pending i _ channel hi rfl) rfl rfl rfl
    · cases hstep
  | candidate key candidate => exact Option.some.inj hstep ▸ h.candidate hinv candidate
  | receive channel =>
    unfold Mediator.step at hstep
    dsimp only at hstep
    split at hstep
    · next candidate queue delivered hc => exact Option.some.inj hstep ▸ h.receive hc
    · cases hstep
  | waited i connected =>
    unfold Mediator.step at hstep
    dsimp only at hstep
    split at hstep
    · exact Option.some.inj hstep ▸ hsame _ rfl rfl rfl
    · cases hstep
  | evict i =>
    unfold Mediator.step at hstep
    dsimp only at hstep
    split at hstep
    · next a key channel connected hi =>
      have hevict : (s.evict key channel).Queued digest := h.evict
      exact Option.some.inj hstep ▸ hevict.mono rfl rfl fun _ _ hroute => hroute
    · cases hstep
  | release i =>
    unfold Mediator.step at hstep
    dsimp only at hstep
    split at hstep
    · exact Option.some.inj hstep ▸ hsame _ rfl rfl rfl
    · cases hstep

/-! ## What a channel takes -/

/-- The channel of the answerer that came last under a key and has not come to its eviction. -/
def Live (s : Mediator) (key : String) (channel : Nat) : Prop :=
  s.newest key = some channel ∧ ∃ i, s.RoutedAt i key channel

/-- What a step makes of a channel: it takes the candidate that comes for it, if it takes that one, and nothing else. -/
structure Grows (digest : String → UInt64) (s : Mediator) (e : Event) (channel : Nat) (c c' : Channel) : Prop where
  delivered : c.delivered <+: c'.delivered
  takes : ∀ key candidate, e = .candidate key candidate → s.Live key channel → c.Takes digest candidate →
    c'.accepted = c.accepted ++ [candidate]
  keeps : (∀ key candidate, e = .candidate key candidate → s.Live key channel → ¬c.Takes digest candidate) →
    c'.accepted = c.accepted

theorem Grows.same {e : Event} (h : ∀ key candidate, e ≠ .candidate key candidate) : Grows digest s e channel c c where
  delivered := List.prefix_refl _
  takes key candidate he := absurd he (h key candidate)
  keeps _ := rfl

theorem Grows.accepted {e : Event} {c' : Channel} (h : Grows digest s e channel c c') : c.accepted <+: c'.accepted := by
  by_cases htakes : ∃ key candidate, e = .candidate key candidate ∧ s.Live key channel ∧ c.Takes digest candidate
  · obtain ⟨key, candidate, he, hlive, htakes⟩ := htakes
    exact ⟨[candidate], (h.takes key candidate he hlive htakes).symm⟩
  · have hkeeps := h.keeps fun key candidate he hlive hc => htakes ⟨key, candidate, he, hlive, hc⟩
    exact hkeeps ▸ List.prefix_refl _

theorem Queued.grows_candidate (h : s.Queued digest) (hinv : s.Inv) (candidate : String)
    (hc : s.channels[channel]? = some c) :
    ∃ c', (s.route digest key candidate).channels[channel]? = some c' ∧
      Grows digest s (.candidate key candidate) channel c c' := by
  have hroute : ∀ k, s.Live k channel ↔ (Assoc.get s.routes k).map IceRoute.tx = some channel := fun k =>
    (hinv.route k channel).symm
  have hstays : ¬s.Live key channel → Grows digest s (.candidate key candidate) channel c c := by
    intro hother
    refine ⟨List.prefix_refl _, fun k candidate' he hlive => ?_, fun _ => rfl⟩
    obtain ⟨rfl, rfl⟩ := Event.candidate.inj he
    exact absurd hlive hother
  cases hget : Assoc.get s.routes key with
  | none =>
    have heq : s.route digest key candidate = s := by
      unfold Mediator.route
      rw [hget]
    refine ⟨c, heq.symm ▸ hc, hstays fun hlive => ?_⟩
    rw [hroute, hget] at hlive
    cases hlive
  | some route =>
    obtain ⟨d, htx⟩ : ∃ d, s.channels[route.tx]? = some d := ⟨_, List.getElem?_eq_getElem (hinv.tx_lt hget)⟩
    rw [route_eq candidate hget htx]
    by_cases heq : route.tx = channel
    · subst heq
      obtain rfl := Option.some.inj (htx.symm.trans hc)
      obtain ⟨hdelivered, htakes, hkeeps, -⟩ := enqueue_spec candidate (h.recent key route hget d hc)
        (h.spaced _ d hc) (h.room _ d hc)
      refine ⟨_, List.getElem?_set_self (hinv.tx_lt hget), hdelivered ▸ List.prefix_refl _,
        fun k candidate' he _ => ?_, fun hno => hkeeps (hno key candidate rfl ?_)⟩
      · obtain ⟨-, rfl⟩ := Event.candidate.inj he
        exact htakes
      · rw [hroute, hget]
        rfl
    · refine ⟨c, (List.getElem?_set_ne heq).trans hc, hstays fun hlive => ?_⟩
      rw [hroute, hget] at hlive
      exact heq (Option.some.inj hlive)

theorem Queued.grows {e : Event} (h : s.Queued digest) (hinv : s.Inv) (hstep : s.step digest e = some s')
    (hc : s.channels[channel]? = some c) : ∃ c', s'.channels[channel]? = some c' ∧ Grows digest s e channel c c' := by
  cases e with
  | offer key =>
    refine ⟨c, ?_, .same (by simp)⟩
    unfold Mediator.step at hstep
    dsimp only at hstep
    split at hstep <;> exact Option.some.inj hstep ▸ hc
  | built i stream =>
    refine ⟨c, ?_, .same (by simp)⟩
    unfold Mediator.step at hstep
    dsimp only at hstep
    split at hstep
    · cases stream with
      | none => exact Option.some.inj hstep ▸ hc
      | some stream =>
        dsimp only at hstep
        split at hstep
        · exact Option.some.inj hstep ▸ hc
        · obtain rfl := Option.some.inj hstep
          exact (List.getElem?_append_left (List.getElem?_eq_some_iff.1 hc).1).trans hc
    · cases hstep
  | insert i =>
    refine ⟨c, ?_, .same (by simp)⟩
    unfold Mediator.step at hstep
    dsimp only at hstep
    split at hstep
    · exact Option.some.inj hstep ▸ hc
    · cases hstep
  | candidate key candidate =>
    obtain rfl := Option.some.inj hstep
    exact h.grows_candidate hinv candidate hc
  | receive k =>
    unfold Mediator.step at hstep
    dsimp only at hstep
    split at hstep
    · next candidate queue delivered hk =>
      obtain rfl := Option.some.inj hstep
      by_cases heq : k = channel
      · subst heq
        obtain rfl := Option.some.inj (hk.symm.trans hc)
        refine ⟨_, List.getElem?_set_self (List.getElem?_eq_some_iff.1 hc).1, ⟨[candidate], rfl⟩, by simp, fun _ => ?_⟩
        exact List.append_assoc ..
      · exact ⟨c, (List.getElem?_set_ne heq).trans hc, .same (by simp)⟩
    · cases hstep
  | waited i connected =>
    refine ⟨c, ?_, .same (by simp)⟩
    unfold Mediator.step at hstep
    dsimp only at hstep
    split at hstep
    · exact Option.some.inj hstep ▸ hc
    · cases hstep
  | evict i =>
    refine ⟨c, ?_, .same (by simp)⟩
    unfold Mediator.step at hstep
    dsimp only at hstep
    split at hstep
    · next a key channel connected hi =>
      obtain rfl := Option.some.inj hstep
      have hchannels : (s.evict key channel).channels = s.channels := by
        unfold Mediator.evict
        split
        · split <;> rfl
        · rfl
      exact (congrArg (·[_]?) hchannels).trans hc
    · cases hstep
  | release i =>
    refine ⟨c, ?_, .same (by simp)⟩
    unfold Mediator.step at hstep
    dsimp only at hstep
    split at hstep
    · exact Option.some.inj hstep ▸ hc
    · cases hstep

/-! ## Every run -/

theorem Queued.init : ({} : Mediator).Queued digest where
  room channel c hc := by cases hc
  spaced channel c hc := by cases hc
  recent key route hroute := by cases hroute
  unused channel c hc := by cases hc

theorem queued_of_reachable (h : Reachable (· = {}) (fun s : Mediator => s.step digest) s) : s.Inv ∧ s.Queued digest := by
  obtain ⟨history, hrun⟩ := h
  refine hrun.invariant (I := fun s => s.Inv ∧ s.Queued digest) ?_ fun _ _ _ hi hstep =>
    ⟨hi.1.step hstep, hi.2.step hi.1 hstep⟩
  rintro s rfl
  exact ⟨.init, .init⟩

end Mediator

/-- In every state reached no channel has more than 64 candidates waiting, and what it ever took has no two of one digest
within 256 of each other. A candidate is taken exactly if it comes under the key whose last answerer has the channel and
waits, is not among the last 256 taken and finds room; what is taken stays, in order, whatever steps follow. -/
theorem candidates_taken {digest : String → UInt64} {s : Mediator}
    (h : Reachable (· = {}) (fun s : Mediator => s.step digest) s) {channel : Nat} {c : Channel}
    (hc : s.channels[channel]? = some c) :
    c.queue.length ≤ MAX_PENDING_REMOTE_ICE ∧ Spaced ICE_DEDUP_WINDOW (c.accepted.map digest) ∧
    (∀ e s', s.step digest e = some s' →
      ∃ c', s'.channels[channel]? = some c' ∧ Mediator.Grows digest s e channel c c') ∧
    ∀ history s', Exec (· = s) (fun s : Mediator => s.step digest) history s' →
      ∃ c', s'.channels[channel]? = some c' ∧ c.accepted <+: c'.accepted ∧ c.delivered <+: c'.delivered := by
  obtain ⟨hinv, hqueued⟩ := Mediator.queued_of_reachable h
  refine ⟨hqueued.room channel c hc, hqueued.spaced channel c hc, fun e s' hstep => hqueued.grows hinv hstep hc,
    fun history s' hrun => ?_⟩
  suffices hall : (s'.Inv ∧ s'.Queued digest) ∧
      ∃ c', s'.channels[channel]? = some c' ∧ c.accepted <+: c'.accepted ∧ c.delivered <+: c'.delivered from hall.2
  refine hrun.invariant (I := fun t => (t.Inv ∧ t.Queued digest) ∧
    ∃ c', t.channels[channel]? = some c' ∧ c.accepted <+: c'.accepted ∧ c.delivered <+: c'.delivered) ?_ ?_
  · rintro t rfl
    exact ⟨⟨hinv, hqueued⟩, c, hc, List.prefix_refl _, List.prefix_refl _⟩
  · rintro t e t' ⟨⟨hi, hq⟩, d, hd, haccepted, hdelivered⟩ hstep
    obtain ⟨d', hd', hgrows⟩ := hq.grows hi hstep hd
    exact ⟨⟨hi.step hstep, hq.step hi hstep⟩, d', hd', haccepted.trans hgrows.accepted,
      hdelivered.trans hgrows.delivered⟩

/-- Two candidates came, the first one was taken from the queue and came again. -/
def exampleMediator : Mediator where
  slots := 1
  answerers := [⟨"fp", .waiting 0⟩]
  channels := [⟨["bb"], ["a"]⟩]
  routes := [("fp", ⟨0, [1, 2]⟩)]
  taken := [7]
  inserted := [("fp", 0)]

theorem exampleMediator_reachable :
    Reachable (· = {}) (fun s : Mediator => s.step fun text => text.length.toUInt64) exampleMediator := by
  obtain ⟨history, hr⟩ : ∃ history, trace (fun s : Mediator => s.step fun text => text.length.toUInt64) {}
      [.offer "fp", .built 0 (some 7), .insert 0, .candidate "fp" "a", .receive 0, .candidate "fp" "bb",
        .candidate "fp" "a"] = some (history, exampleMediator) := ⟨_, rfl⟩
  have hstart : Exec (· = ({} : Mediator)) (fun s : Mediator => s.step fun text => text.length.toUInt64) [] {} :=
    .start rfl
  exact ⟨_, hstart.trace hr⟩

/-- A third one is taken. -/
theorem candidates_taken_third :
    ∃ s' c', exampleMediator.step (fun text => text.length.toUInt64) (.candidate "fp" "ccc") = some s' ∧
      s'.channels[0]? = some c' ∧ c'.accepted = ["a", "bb", "ccc"] := by
  have hlive : exampleMediator.Live "fp" 0 := ⟨rfl, 0, ⟨"fp", .waiting 0⟩, rfl, rfl, rfl⟩
  obtain ⟨-, -, hgrows, -⟩ := candidates_taken exampleMediator_reachable (show exampleMediator.channels[0]? = some _ from rfl)
  obtain ⟨c', hc', hgrows⟩ := hgrows (.candidate "fp" "ccc") _ rfl
  exact ⟨_, c', rfl, hc', hgrows.takes "fp" "ccc" rfl hlive ⟨by decide, by decide⟩⟩

end FontisRemote.WebRtc.Trickle
