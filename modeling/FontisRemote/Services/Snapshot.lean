import FontisRemote.Services.Service

/-!
# The snapshot comes first

A connection that subscribes to a service with snapshots becomes a subscriber, and is sent what the
service sends, only when a run of the snapshot callback has ended. What it has been sent then is what
that run sent, unless it subscribed after the run's first message (`Subscriber.late`).
-/

namespace FontisRemote.Services

open FontisRemote.Lib

namespace ServiceTmpl

variable {M : Type} {s s' : ServiceTmpl M}

/-- A service with snapshots, as it is created. -/
def Init (s : ServiceTmpl M) : Prop := s = new M true

/-- What `send`, `send_shared` and `send_video_frame` do with a message. -/
def Event.live? : Event M → Option M
  | .thread (.send msg) | .thread (.sendVideoFrame msg) => some msg
  | _ => none

/-- A run of the callback that ended after the connection subscribed, all of whose messages it was sent
before anything else. -/
def Snapshotted (runs : List (List M × Bool)) (sub : Subscriber M) : Prop :=
  ∃ k sent ok, sub.since ≤ k ∧ runs[k]? = some (sent, ok) ∧ sent <+: sub.inbox

/-- New subscribers have been sent what the run under way has sent, and nothing where there is none. -/
structure Served (s : ServiceTmpl M) : Prop where
  ok : s.Ok
  need : s.needSnapshot = true
  fresh : ∀ id sub, Assoc.get s.newSubscribes id = some sub → sub.since ≤ s.runs.length ∧
    (sub.late = false → sub.inbox = s.swap.getD [])
  served : ∀ id sub, Assoc.get s.subscribes id = some sub → sub.late = false → Snapshotted s.runs sub

theorem Snapshotted.send {runs : List (List M × Bool)} {sub : Subscriber M} (h : Snapshotted runs sub) (msg : M) :
    Snapshotted runs (sub.send msg) := by
  obtain ⟨k, sent, ok, hk, hrun, hpre⟩ := h
  exact ⟨k, sent, ok, hk, hrun, hpre.trans (List.prefix_append _ _)⟩

theorem Snapshotted.append {runs : List (List M × Bool)} {sub : Subscriber M} (h : Snapshotted runs sub)
    (more : List (List M × Bool)) : Snapshotted (runs ++ more) sub := by
  obtain ⟨k, sent, ok, hk, hrun, hpre⟩ := h
  obtain ⟨hlt, -⟩ := List.getElem?_eq_some_iff.1 hrun
  exact ⟨k, sent, ok, hk, (List.getElem?_append_left hlt).trans hrun, hpre⟩

theorem Served.onSubscribe (h : Served s) (id : ConnId) : Served (s.onSubscribe id) := by
  have hok := h.ok.onSubscribe id
  unfold ServiceTmpl.onSubscribe at hok ⊢
  split_ifs at hok ⊢ with hin hneed
  · exact h
  · refine ⟨hok, h.need, fun j sub hsub => ?_, h.served⟩
    rw [Assoc.get_put] at hsub
    split_ifs at hsub with hj
    · cases hsub
      refine ⟨le_refl _, fun hlate => ?_⟩
      -- it is not late, so the run under way has not sent anything
      cases hswap : s.swap with
      | none => rfl
      | some sent =>
        simp only [subscriber, hswap, Option.any_some, decide_eq_false_iff_not, not_not] at hlate
        rw [hlate]
        rfl
    · exact h.fresh j sub hsub
  · exact absurd h.need hneed

theorem Served.onUnsubscribe (h : Served s) (id : ConnId) : Served (s.onUnsubscribe id) := by
  have hok := h.ok.onUnsubscribe id
  unfold ServiceTmpl.onUnsubscribe at hok ⊢
  split_ifs at hok ⊢ with hin
  · refine ⟨hok, h.need, h.fresh, fun j sub hsub => ?_⟩
    rw [Assoc.get_erase] at hsub
    split_ifs at hsub with hj
    exact h.served j sub hsub
  · refine ⟨hok, h.need, fun j sub hsub => ?_, h.served⟩
    rw [Assoc.get_erase] at hsub
    split_ifs at hsub with hj
    exact h.fresh j sub hsub

theorem Served.sendWhere {p : ConnId → Subscriber M → Bool} {msg : M} (h : Served s)
    (hok : (s.sendWhere p msg).Ok) : Served (s.sendWhere p msg) := by
  refine ⟨hok, h.need, h.fresh, fun id sub hsub => ?_⟩
  rw [get_sendWhere] at hsub
  obtain ⟨old, hold, rfl⟩ := Option.map_eq_some_iff.1 hsub
  split_ifs
  · intro hlate
    exact (h.served id old hold hlate).send msg
  · exact h.served id old hold

theorem Served.thread {e : ThreadEvent M} (h : Served s) (hs : s.thread e = some s') : Served s' := by
  have hok := h.ok.thread hs
  obtain ⟨p, msg, rfl⟩ | ⟨hnone, rfl⟩ | ⟨sent, msg, hswap, rfl⟩ | ⟨sent, ok, -, hswap, rfl⟩ := thread_cases hs
  · exact h.sendWhere hok
  · obtain ⟨swap, heq, hswap⟩ := snapshot_eq s
    rw [heq] at hok ⊢
    refine ⟨hok, h.need, fun id sub hsub => ⟨(h.fresh id sub hsub).1, fun hlate => ?_⟩, h.served⟩
    have hinbox := (h.fresh id sub hsub).2 hlate
    rw [hnone] at hinbox
    rcases hswap with rfl | rfl
    · exact hinbox
    · rw [hnone]
      exact hinbox
  · refine ⟨hok, h.need, fun id sub hsub => ?_, h.served⟩
    rw [get_swapSend] at hsub
    obtain ⟨old, hold, rfl⟩ := Option.map_eq_some_iff.1 hsub
    obtain ⟨hsince, hinbox⟩ := h.fresh id old hold
    refine ⟨hsince, fun hlate => ?_⟩
    have hinbox := hinbox hlate
    rw [hswap] at hinbox
    show old.inbox ++ [msg] = sent ++ [msg]
    rw [hinbox]
    rfl
  · refine ⟨hok, h.need, nofun, fun id sub hsub hlate => ?_⟩
    rw [get_swapDrop sent ok id h.ok] at hsub
    show Snapshotted (s.runs ++ [(sent, ok)]) sub
    rcases Option.or_eq_some_iff.1 hsub with hnew | ⟨-, hold⟩
    · obtain ⟨hsince, hinbox⟩ := h.fresh id sub hnew
      have hinbox := hinbox hlate
      rw [hswap] at hinbox
      refine ⟨s.runs.length, sent, ok, hsince, ?_, ?_⟩
      · rw [List.getElem?_append_right (le_refl _), Nat.sub_self]
        rfl
      · rw [hinbox]
        exact List.prefix_rfl
    · exact (h.served id sub hold hlate).append _

theorem Served.step {e : Event M} (h : Served s) (hs : s.step e = some s') : Served s' := by
  cases e with
  | onSubscribe id =>
    cases hs
    exact h.onSubscribe id
  | onUnsubscribe id =>
    cases hs
    exact h.onUnsubscribe id
  | thread e => exact h.thread hs

theorem exec_served {h : List (ServiceTmpl M × Event M)} (hx : Exec Init step h s) : Served s := by
  refine hx.invariant ?_ fun s e s' hi hs => hi.step hs
  rintro s rfl
  exact ⟨.new true, rfl, nofun, nofun⟩

/-- In every run, at every message that the service sends to its subscribers: each of them is sent it,
and each that did not subscribe in the middle of a snapshot has been sent all that one run of the
callback sent, from when it subscribed. -/
theorem snapshot_before_live {h : List (ServiceTmpl M × Event M)} {e : Event M} {msg : M}
    (hx : Exec Init step h s) (hs : s.step e = some s') (hlive : e.live? = some msg) {id : ConnId}
    {sub : Subscriber M} (hsub : Assoc.get s.subscribes id = some sub) :
    Assoc.get s'.subscribes id = some (sub.send msg) ∧ (sub.late = false → Snapshotted s.runs sub) := by
  refine ⟨?_, (exec_served hx).served id sub hsub⟩
  have heq : s' = s.sendWhere (fun _ _ => true) msg := by
    cases e with
    | onSubscribe id => cases hlive
    | onUnsubscribe id => cases hlive
    | thread e =>
      cases e <;> cases hlive <;> cases hs <;> rfl
  rw [heq, get_sendWhere, hsub]
  rfl

section Examples

/-- A connection that was sent the snapshot, before the first message to the subscribers. -/
def joined : ServiceTmpl Nat where
  needSnapshot := true
  subscribes := [(1, ⟨1, [10], 0, false⟩)]
  runs := [([10], true)]

theorem exec_of_runs {es : List (Event M)} (h : Lib.runs step (new M true) es = some s) : ∃ h', Exec Init step h' s :=
  (Exec.start (show Init (new M true) from rfl)).append h

theorem exec_joined : ∃ h, Exec Init step h joined :=
  exec_of_runs (show Lib.runs step _
    [.onSubscribe 1, .thread .snapshot, .thread (.swapSend 10), .thread (.swapDrop true)] = _ from rfl)

theorem snapshot_before_live_first : ∃ s' : ServiceTmpl Nat,
    joined.step (.thread (.send 20)) = some s' ∧
      Assoc.get s'.subscribes 1 = some ⟨1, [10, 20], 0, false⟩ ∧
      Snapshotted joined.runs ⟨1, [10], 0, false⟩ := by
  obtain ⟨h, hx⟩ := exec_joined
  have hfirst := snapshot_before_live hx (e := .thread (.send 20)) rfl rfl (show Assoc.get _ 1 = _ from rfl)
  exact ⟨_, rfl, hfirst.1, hfirst.2 rfl⟩

/-- All of the messages of a run that succeeded, from when the connection subscribed. -/
def SnapshottedComplete (runs : List (List M × Bool)) (sub : Subscriber M) : Prop :=
  ∃ k sent, sub.since ≤ k ∧ runs[k]? = some (sent, true) ∧ sent <+: sub.inbox

/-- The second of two connections became a subscriber through a callback that gave up, as that of the
displays does when there is one already. -/
def gaveUp : ServiceTmpl Nat where
  needSnapshot := true
  subscribes := [(2, ⟨2, [], 1, false⟩), (1, ⟨1, [], 0, false⟩)]
  runs := [([], true), ([], false)]

/-- The second of two connections subscribed after the only message of the snapshot. -/
def cameLate : ServiceTmpl Nat where
  needSnapshot := true
  subscribes := [(2, ⟨2, [], 0, true⟩), (1, ⟨1, [10], 0, false⟩)]
  runs := [([10], true)]

/-- A subscriber is sent a message without all that a successful run of the callback sent: after a
callback that gave up, and when it subscribed in the middle of one. -/
theorem live_without_snapshot :
    ((∃ h, Exec Init step h gaveUp) ∧ (∃ s', gaveUp.step (.thread (.send 20)) = some s' ∧
        Assoc.get s'.subscribes 2 = some ⟨2, [20], 1, false⟩) ∧
        ¬ SnapshottedComplete gaveUp.runs ⟨2, [], 1, false⟩) ∧
      (∃ h, Exec Init step h cameLate) ∧ (∃ s', cameLate.step (.thread (.send 20)) = some s' ∧
        Assoc.get s'.subscribes 2 = some ⟨2, [20], 0, true⟩) ∧
        ¬ SnapshottedComplete cameLate.runs ⟨2, [], 0, true⟩ := by
  have hgaveUp : Lib.runs step (new Nat true) [.onSubscribe 1, .thread .snapshot, .thread (.swapDrop true),
      .onSubscribe 2, .thread .snapshot, .thread (.swapDrop false)] = some gaveUp := rfl
  have hcameLate : Lib.runs step (new Nat true) [.onSubscribe 1, .thread .snapshot, .thread (.swapSend 10),
      .onSubscribe 2, .thread (.swapDrop true)] = some cameLate := rfl
  refine ⟨⟨exec_of_runs hgaveUp, ⟨_, rfl, rfl⟩, ?_⟩, exec_of_runs hcameLate, ⟨_, rfl, rfl⟩, ?_⟩
  · rintro ⟨k, sent, hk, hrun, -⟩
    match k, hk, hrun with
    | 1, _, hrun => cases hrun
    | k + 2, _, hrun => cases hrun
  · rintro ⟨k, sent, -, hrun, hpre⟩
    match k, hrun with
    | 0, hrun =>
      cases hrun
      cases List.prefix_nil.1 hpre
    | k + 1, hrun => cases hrun

end Examples

end ServiceTmpl

end FontisRemote.Services
