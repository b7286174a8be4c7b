import FontisRemote.Services.Service
import FontisRemote.Video.Source

/-!
# Subscribing through the server

The calls on `Server` that subscribe and unsubscribe a connection hold the server's lock to their end,
so there is one at a time; the threads of the services run in between, and take only the lock of their
service. `Server::subscribe` asks `is_subed` first, which takes that lock once for each of the two maps.
-/

namespace FontisRemote.Services

open FontisRemote.Lib
open FontisRemote.Video (VideoSource getServiceName isVideoServiceName)

/-- A call on the server. -/
inductive Call
  | subscribe (name : String) (conn : ConnId) (sub : Bool)
  | addMonitorConnection (conn : ConnId) (noperms : List String) (displayIdx : Nat)
  | removeConnection (conn : ConnId)
deriving DecidableEq

def Call.conn : Call → ConnId
  | .subscribe _ conn _ | .addMonitorConnection conn _ _ | .removeConnection conn => conn

/-- How far a call has come: `is_subed` has looked at none or one of the maps, or its answer calls for
a change; or some services are left. -/
inductive Progress
  | isSubedFirst
  | isSubedSecond
  | change
  | each (left : List String)
deriving DecidableEq

/-- The services, the call that holds the lock, and what was last asked for with `subscribe`, for the
connections that no later call was made for. -/
structure Server (M : Type) where
  services : List (String × ServiceTmpl M)
  call : Option (Call × Progress) := none
  asked : String → ConnId → Option Bool := fun _ _ => none

namespace Server

variable {M : Type} (s : Server M)

/-- The services that `add_monitor_connection` subscribes to. -/
def monitored (noperms : List String) (displayIdx : Nat) (name : String) : Bool :=
  !(isVideoServiceName name && name ≠ getServiceName .monitor displayIdx) && !noperms.contains name

/-- A call takes the lock. -/
def begin (call : Call) : Server M :=
  { s with
    call := some (call, match call with
      | .subscribe .. => .isSubedFirst
      | .addMonitorConnection .. | .removeConnection .. => .each (s.services.map (·.1)))
    asked := fun name conn => if conn = call.conn then none else s.asked name conn }

def setService (name : String) (svc : ServiceTmpl M) : Server M :=
  { s with services := Assoc.put s.services name (some svc) }

/-- The call returns. -/
def release : Server M := { s with call := none }

/-- `subscribe` returns: that is how things stand for the connection until the next call for it. -/
def settle (name : String) (conn : ConnId) (sub : Bool) : Server M :=
  { s.release with asked := fun name' conn' => if name' = name ∧ conn' = conn then some sub else s.asked name' conn' }

/-- What `is_subed` answered. -/
def answered (name : String) (conn : ConnId) (sub isSubed : Bool) : Server M :=
  if isSubed = sub then s.settle name conn sub
  else { s with call := some (.subscribe name conn sub, .change) }

/-- The next lock region of the call. -/
def advance : Option (Server M) :=
  match s.call with
  | none => none
  | some (.subscribe name conn sub, pc) =>
    match Assoc.get s.services name with
    | none => some s.release
    | some svc =>
      match pc with
      | .isSubedFirst =>
        if svc.inSubscribes conn then some (s.answered name conn sub true)
        else some { s with call := some (.subscribe name conn sub, .isSubedSecond) }
      | .isSubedSecond => some (s.answered name conn sub (svc.inNewSubscribes conn))
      | .change =>
        some ((s.setService name (if sub then svc.onSubscribe conn else svc.onUnsubscribe conn)).settle name conn sub)
      | .each _ => none
  | some (.addMonitorConnection conn noperms displayIdx, .each (name :: left)) =>
    let s' := { s with call := some (.addMonitorConnection conn noperms displayIdx, .each left) }
    match Assoc.get s.services name with
    | none => some s'
    | some svc => some (if monitored noperms displayIdx name then s'.setService name (svc.onSubscribe conn) else s')
  | some (.removeConnection conn, .each (name :: left)) =>
    let s' := { s with call := some (.removeConnection conn, .each left) }
    match Assoc.get s.services name with
    | none => some s'
    | some svc => some (s'.setService name (svc.onUnsubscribe conn))
  | some (_, .each []) => some s.release
  | some _ => none

inductive Event (M : Type)
  | call (call : Call)
  | advance
  | thread (name : String) (e : ServiceTmpl.ThreadEvent M)
deriving DecidableEq

def step : Event M → Option (Server M)
  | .call call => if s.call = none then some (s.begin call) else none
  | .advance => s.advance
  | .thread name e => (Assoc.get s.services name).bind fun svc => (svc.thread e).map (s.setService name)

/-- New services, and no call yet. -/
def Init (s : Server M) : Prop :=
  s.call = none ∧ (s.asked = fun _ _ => none) ∧
    ∀ name svc, Assoc.get s.services name = some svc → ∃ needSnapshot, svc = .new M needSnapshot

variable {s} {s' : Server M}

/-- What the next lock region of a call can be. -/
theorem advance_cases (h : s.advance = some s') :
    (∃ call pc, s.call = some (call, pc) ∧ s' = s.release) ∨
    (∃ name conn sub svc, s.call = some (.subscribe name conn sub, .isSubedFirst) ∧
      Assoc.get s.services name = some svc ∧
      (svc.inSubscribes conn = true ∧ s' = s.answered name conn sub true ∨
        svc.inSubscribes conn = false ∧ s' = { s with call := some (.subscribe name conn sub, .isSubedSecond) })) ∨
    (∃ name conn sub svc, s.call = some (.subscribe name conn sub, .isSubedSecond) ∧
      Assoc.get s.services name = some svc ∧ s' = s.answered name conn sub (svc.inNewSubscribes conn)) ∨
    (∃ name conn sub svc, s.call = some (.subscribe name conn sub, .change) ∧
      Assoc.get s.services name = some svc ∧
      s' = (s.setService name (if sub then svc.onSubscribe conn else svc.onUnsubscribe conn)).settle name conn sub) ∨
    (∃ call name left, s.call = some (call, .each (name :: left)) ∧
      (s' = { s with call := some (call, .each left) } ∨
        ∃ svc svc', Assoc.get s.services name = some svc ∧
          (svc' = svc.onSubscribe call.conn ∨ svc' = svc.onUnsubscribe call.conn) ∧
          s' = ({ s with call := some (call, .each left) } : Server M).setService name svc')) := by
  unfold advance at h
  split at h
  · cases h
  · next name conn sub pc hcall =>
    split at h
    · cases h
      exact .inl ⟨_, _, hcall, rfl⟩
    · next svc hsvc =>
      split at h
      · split_ifs at h with hin
        · cases h
          exact .inr (.inl ⟨name, conn, sub, svc, hcall, hsvc, .inl ⟨hin, rfl⟩⟩)
        · cases h
          exact .inr (.inl ⟨name, conn, sub, svc, hcall, hsvc, .inr ⟨by simpa using hin, rfl⟩⟩)
      · cases h
        exact .inr (.inr (.inl ⟨name, conn, sub, svc, hcall, hsvc, rfl⟩))
      · cases h
        exact .inr (.inr (.inr (.inl ⟨name, conn, sub, svc, hcall, hsvc, rfl⟩)))
      · cases h
  · next conn noperms displayIdx name left hcall =>
    refine .inr (.inr (.inr (.inr ⟨_, name, left, hcall, ?_⟩)))
    dsimp only at h
    split at h
    · cases h
      exact .inl rfl
    · next svc hsvc =>
      cases h
      split_ifs
      · exact .inr ⟨svc, _, hsvc, .inl rfl, rfl⟩
      · exact .inl rfl
  · next conn name left hcall =>
    refine .inr (.inr (.inr (.inr ⟨_, name, left, hcall, ?_⟩)))
    dsimp only at h
    split at h
    · cases h
      exact .inl rfl
    · next svc hsvc =>
      cases h
      exact .inr ⟨svc, _, hsvc, .inr rfl, rfl⟩
  · next call hcall =>
    cases h
    exact .inl ⟨_, _, hcall, rfl⟩
  · cases h

/-! ## What was asked for is how things stand -/

/-- The snapshot of a service ends, and makes a subscriber of a connection, between the two looks that
`subscribe` takes to find out whether there is anything to revoke. -/
def MissesSwap (s : Server M) (e : Event M) : Prop :=
  ∃ name conn svc ok, s.call = some (.subscribe name conn false, .isSubedSecond) ∧
    e = .thread name (.swapDrop ok) ∧ Assoc.get s.services name = some svc ∧ svc.inNewSubscribes conn = true

structure Inv (s : Server M) : Prop where
  ok : ∀ name svc, Assoc.get s.services name = some svc → svc.Ok
  asked : ∀ name conn sub, s.asked name conn = some sub →
    ∃ svc, Assoc.get s.services name = some svc ∧ svc.subed conn = sub
  calling : ∀ call pc, s.call = some (call, pc) → ∀ name, s.asked name call.conn = none
  reading : ∀ name conn svc, s.call = some (.subscribe name conn false, .isSubedSecond) →
    Assoc.get s.services name = some svc → svc.inSubscribes conn = false

theorem get_setService (name name' : String) (svc : ServiceTmpl M) :
    Assoc.get (s.setService name svc).services name' = if name' = name then some svc else Assoc.get s.services name' := by
  rw [setService, Assoc.get_put]

/-- A service changes, and not for this connection. -/
theorem Inv.asked_setService (h : Inv s) {name : String} {svc svc' : ServiceTmpl M} {j : ConnId}
    (hsvc : Assoc.get s.services name = some svc) (hsame : svc'.subed j = svc.subed j)
    {name' : String} {sub : Bool} (hasked : s.asked name' j = some sub) :
    ∃ t, Assoc.get (s.setService name svc').services name' = some t ∧ t.subed j = sub := by
  obtain ⟨t, ht, hsub⟩ := h.asked name' j sub hasked
  rw [get_setService]
  split_ifs with hname
  · subst hname
    rw [hsvc] at ht
    cases ht
    exact ⟨svc', rfl, hsame.trans hsub⟩
  · exact ⟨t, ht, hsub⟩

theorem Inv.ok_setService (h : Inv s) {name : String} {svc' : ServiceTmpl M} (hok : svc'.Ok) {name' : String}
    {t : ServiceTmpl M} (ht : Assoc.get (s.setService name svc').services name' = some t) : t.Ok := by
  rw [get_setService] at ht
  split_ifs at ht with hname
  · cases ht
    exact hok
  · exact h.ok name' t ht

theorem Inv.begin (h : Inv s) (call : Call) : Inv (s.begin call) := by
  refine ⟨h.ok, fun name conn sub hasked => ?_, fun call' pc hcall name => ?_, fun name conn svc hcall => ?_⟩
  · unfold Server.begin at hasked
    dsimp only at hasked
    split_ifs at hasked
    exact h.asked name conn sub hasked
  · unfold Server.begin at hcall ⊢
    dsimp only at hcall ⊢
    obtain ⟨rfl, -⟩ := Prod.mk.inj (Option.some.inj hcall)
    exact if_pos rfl
  · obtain ⟨rfl, hpc⟩ := Prod.mk.inj (Option.some.inj hcall)
    cases hpc

theorem Inv.thread {name : String} {e : ServiceTmpl.ThreadEvent M} (h : Inv s)
    (hmiss : ¬ MissesSwap s (.thread name e)) (hs : s.step (.thread name e) = some s') : Inv s' := by
  obtain ⟨svc, hsvc, hs⟩ := Option.bind_eq_some_iff.1 hs
  obtain ⟨svc', hthread, rfl⟩ := Option.map_eq_some_iff.1 hs
  have hok := h.ok name svc hsvc
  refine ⟨fun name' t ht => h.ok_setService (hok.thread hthread) ht, fun name' conn sub hasked => ?_, h.calling, ?_⟩
  · exact h.asked_setService hsvc (ServiceTmpl.subed_thread hok hthread conn) hasked
  · intro name' conn t hcall ht
    rw [get_setService] at ht
    split_ifs at ht with hname
    · subst hname
      cases ht
      refine ServiceTmpl.inSubscribes_thread hok hthread (h.reading name' conn svc hcall hsvc) fun ok he => ?_
      by_contra hnew
      exact hmiss ⟨name', conn, svc, ok, hcall, by rw [he], hsvc, by simpa using hnew⟩
    · exact h.reading name' conn t hcall ht

theorem Inv.release (h : Inv s) : Inv s.release :=
  ⟨h.ok, h.asked, nofun, nofun⟩

/-- A call for a connection settles how it stands. -/
theorem Inv.settle {name : String} {conn : ConnId} {sub : Bool}
    (hok : ∀ name svc, Assoc.get s.services name = some svc → svc.Ok)
    (hasked : ∀ name' conn' sub', conn' ≠ conn → s.asked name' conn' = some sub' →
      ∃ svc, Assoc.get s.services name' = some svc ∧ svc.subed conn' = sub')
    (hnone : ∀ name', s.asked name' conn = none)
    (hsub : ∃ svc, Assoc.get s.services name = some svc ∧ svc.subed conn = sub) : Inv (s.settle name conn sub) := by
  refine ⟨hok, fun name' conn' sub' h => ?_, nofun, nofun⟩
  unfold Server.settle at h
  dsimp only at h
  split_ifs at h with heq
  · obtain ⟨rfl, rfl⟩ := heq
    cases h
    exact hsub
  · refine hasked name' conn' sub' (fun hconn => ?_) h
    subst hconn
    rw [hnone] at h
    cases h

/-- The answer of `is_subed` is right where nothing has to be done. -/
theorem Inv.answered (h : Inv s) {name : String} {conn : ConnId} {sub isSubed : Bool} {pc : Progress}
    {svc : ServiceTmpl M} (hcall : s.call = some (.subscribe name conn sub, pc))
    (hsvc : Assoc.get s.services name = some svc) (hanswer : isSubed = sub → svc.subed conn = sub) :
    Inv (s.answered name conn sub isSubed) := by
  have hnone := h.calling _ _ hcall
  unfold Server.answered
  split_ifs with heq
  · exact .settle h.ok (fun name' conn' sub' _ => h.asked name' conn' sub') hnone ⟨svc, hsvc, hanswer heq⟩
  · refine ⟨h.ok, h.asked, fun call' pc' hcall' => ?_, fun name' conn' t hcall' => ?_⟩
    · obtain ⟨rfl, -⟩ := Prod.mk.inj (Option.some.inj hcall')
      exact hnone
    · cases hcall'

theorem Inv.advance (h : Inv s) (hs : s.advance = some s') : Inv s' := by
  obtain ⟨call, pc, -, rfl⟩ | ⟨name, conn, sub, svc, hcall, hsvc, ⟨hin, rfl⟩ | ⟨hin, rfl⟩⟩ |
    ⟨name, conn, sub, svc, hcall, hsvc, rfl⟩ | ⟨name, conn, sub, svc, hcall, hsvc, rfl⟩ |
    ⟨call, name, left, hcall, rfl | ⟨svc, svc', hsvc, hsvc', rfl⟩⟩ := advance_cases hs
  · exact h.release
  · refine h.answered hcall hsvc fun hsub => ?_
    rw [← hsub, ServiceTmpl.subed, hin]
    rfl
  · refine ⟨h.ok, h.asked, fun call' pc' hcall' => ?_, fun name' conn' t hcall' ht => ?_⟩
    · obtain ⟨rfl, -⟩ := Prod.mk.inj (Option.some.inj hcall')
      exact h.calling _ _ hcall
    · cases hcall'
      rw [hsvc] at ht
      cases ht
      exact hin
  · refine h.answered hcall hsvc fun hsub => ?_
    rw [ServiceTmpl.subed, hsub]
    cases sub with
    | true => exact Bool.or_true _
    | false => rw [h.reading name conn svc hcall hsvc, Bool.or_false]
  · have hok := h.ok name svc hsvc
    have hnone := h.calling _ _ hcall
    have hok' : (if sub then svc.onSubscribe conn else svc.onUnsubscribe conn).Ok := by
      split_ifs
      · exact hok.onSubscribe conn
      · exact hok.onUnsubscribe conn
    have hsubed : ∀ j, (if sub then svc.onSubscribe conn else svc.onUnsubscribe conn).subed j
        = if j = conn then sub else svc.subed j := by
      intro j
      cases sub with
      | true =>
        rw [if_pos rfl, ServiceTmpl.subed_onSubscribe]
        by_cases hj : j = conn <;> simp [hj]
      | false =>
        rw [if_neg (by decide), ServiceTmpl.subed_onUnsubscribe hok]
        by_cases hj : j = conn <;> simp [hj]
    refine .settle (fun name' t ht => h.ok_setService hok' ht) (fun name' conn' sub' hne hasked => ?_) hnone ?_
    · refine h.asked_setService hsvc ?_ hasked
      rw [hsubed, if_neg hne]
    · refine ⟨_, by rw [get_setService, if_pos rfl], ?_⟩
      rw [hsubed, if_pos rfl]
  · refine ⟨h.ok, h.asked, fun call' pc' hcall' => ?_, fun name' conn' t hcall' => ?_⟩
    · obtain ⟨rfl, -⟩ := Prod.mk.inj (Option.some.inj hcall')
      exact h.calling _ _ hcall
    · obtain ⟨-, hpc⟩ := Prod.mk.inj (Option.some.inj hcall')
      cases hpc
  · have hok := h.ok name svc hsvc
    have hnone := h.calling _ _ hcall
    have hok' : svc'.Ok := by
      rcases hsvc' with rfl | rfl
      · exact hok.onSubscribe _
      · exact hok.onUnsubscribe _
    have hothers : ∀ j ≠ call.conn, svc'.subed j = svc.subed j := by
      intro j hj
      rcases hsvc' with rfl | rfl
      · simp [ServiceTmpl.subed_onSubscribe, hj]
      · simp [ServiceTmpl.subed_onUnsubscribe hok, hj]
    refine ⟨fun name' t ht => h.ok_setService hok' ht, fun name' conn' sub' hasked => ?_,
      fun call' pc' hcall' => ?_, fun name' conn' t hcall' => ?_⟩
    · refine h.asked_setService hsvc (hothers conn' fun hconn => ?_) hasked
      subst hconn
      have hnone' : s.asked name' call.conn = some sub' := hasked
      rw [hnone] at hnone'
      cases hnone'
    · obtain ⟨rfl, -⟩ := Prod.mk.inj (Option.some.inj hcall')
      exact hnone
    · obtain ⟨-, hpc⟩ := Prod.mk.inj (Option.some.inj hcall')
      cases hpc

theorem Inv.step {e : Event M} (h : Inv s) (hmiss : ¬ MissesSwap s e) (hs : s.step e = some s') : Inv s' := by
  cases e with
  | call call =>
    unfold Server.step at hs
    split_ifs at hs
    cases hs
    exact h.begin call
  | advance => exact h.advance hs
  | thread name e => exact h.thread hmiss hs

theorem Inv.init (h : Init s) : Inv s := by
  obtain ⟨hcall, hasked, hnew⟩ := h
  refine ⟨fun name svc hsvc => ?_, fun name conn sub hsub => ?_, fun call pc hc => ?_, fun name conn svc hc => ?_⟩
  · obtain ⟨needSnapshot, rfl⟩ := hnew name svc hsvc
    exact .new needSnapshot
  · rw [hasked] at hsub
    cases hsub
  · rw [hcall] at hc
    cases hc
  · rw [hcall] at hc
    cases hc

/-- In every run in which no snapshot ends between the two looks of a revocation for a connection that
it makes a subscriber: no connection is in both maps of a service, and after `subscribe` has returned a
connection is in one of them, or in none, as was asked for, until the next call for it. -/
theorem subscriptions_kept {h : List (Server M × Event M)} (hx : Exec Init step h s)
    (hmiss : ∀ p ∈ h, ¬ MissesSwap p.1 p.2) :
    (∀ name svc, Assoc.get s.services name = some svc → ∀ conn,
        ¬ (svc.inSubscribes conn = true ∧ svc.inNewSubscribes conn = true)) ∧
      ∀ name conn sub, s.asked name conn = some sub →
        ∃ svc, Assoc.get s.services name = some svc ∧
          ((svc.inSubscribes conn = true ∨ svc.inNewSubscribes conn = true) ↔ sub = true) := by
  have hinv : Inv s := hx.invariant_of (G := fun s e => ¬ MissesSwap s e) (fun s hi => .init hi)
    (fun s e s' hi hG hs => hi.step hG hs) hmiss
  refine ⟨fun name svc hsvc conn hboth => ?_, fun name conn sub hasked => ?_⟩
  · rw [(hinv.ok name svc hsvc).apart conn hboth.1] at hboth
    cases hboth.2
  · obtain ⟨svc, hsvc, hsub⟩ := hinv.asked name conn sub hasked
    exact ⟨svc, hsvc, by rw [← hsub, ServiceTmpl.subed, Bool.or_eq_true]⟩

section Examples

/-- A server with the audio service. -/
def withAudio : Server Nat where
  services := [("audio", .new Nat true)]

theorem withAudio_init : Init withAudio := by
  refine ⟨rfl, rfl, fun name svc hsvc => ?_⟩
  simp only [withAudio, Assoc.get] at hsvc
  split_ifs at hsvc
  cases hsvc
  exact ⟨true, rfl⟩

/-- Two connections subscribe, the second while the thread ends a snapshot that the first is in, and the
first then revokes its subscription. -/
theorem subscriptions_kept_revoked : ∃ h s, Exec Init (@step Nat) h s ∧ s.asked "audio" 1 = some false ∧
    s.asked "audio" 2 = some true ∧
    (∃ svc, Assoc.get s.services "audio" = some svc ∧
      ((svc.inSubscribes 1 = true ∨ svc.inNewSubscribes 1 = true) ↔ false = true)) ∧
    ∃ svc, Assoc.get s.services "audio" = some svc ∧
      ((svc.inSubscribes 2 = true ∨ svc.inNewSubscribes 2 = true) ↔ true = true) := by
  have hstart : Exec Init step [] withAudio := .start withAudio_init
  have hfirst := (((hstart.snoc (e := .call (.subscribe "audio" 1 true)) rfl).snoc (e := .advance) rfl).snoc
    (e := .advance) rfl).snoc (e := .advance) rfl
  have hbegun := ((hfirst.snoc (e := .thread "audio" .snapshot) rfl).snoc
    (e := .thread "audio" (.swapSend 7)) rfl).snoc (e := .call (.subscribe "audio" 2 true)) rfl
  have hsecond := (((hbegun.snoc (e := .advance) rfl).snoc (e := .thread "audio" (.swapDrop true)) rfl).snoc
    (e := .advance) rfl).snoc (e := .advance) rfl
  have hx := ((hsecond.snoc (e := .call (.subscribe "audio" 1 false)) rfl).snoc (e := .advance) rfl).snoc
    (e := .advance) rfl
  have hkept := (subscriptions_kept hx ?_).2
  · exact ⟨_, _, hx, rfl, rfl, hkept "audio" 1 false rfl, hkept "audio" 2 true rfl⟩
  · rintro p hp ⟨name, conn, svc, ok, hcall, he, -⟩
    simp only [List.mem_cons, List.not_mem_nil, or_false] at hp
    rcases hp with rfl | rfl | rfl | rfl | rfl | rfl | rfl | rfl | rfl | rfl | rfl | rfl | rfl | rfl
    case inr.inr.inr.inr.inr.inl => cases hcall
    all_goals cases he

/-- A connection is sent the snapshot of the audio service and revokes its subscription meanwhile: it is
not in the first map yet when that is looked at and not in the second any more, so nothing is done. -/
theorem revocation_missed : ∃ h s, Exec Init (@step Nat) h s ∧ s.call = none ∧
    s.asked "audio" 1 = some false ∧ ∃ svc, Assoc.get s.services "audio" = some svc ∧ svc.inSubscribes 1 = true := by
  have hstart : Exec Init step [] withAudio := .start withAudio_init
  obtain ⟨h, hx⟩ := hstart.append (show Lib.runs step withAudio
    [.call (.subscribe "audio" 1 true), .advance, .advance, .advance, .thread "audio" .snapshot,
      .call (.subscribe "audio" 1 false), .advance, .thread "audio" (.swapDrop true), .advance] = some _ from rfl)
  exact ⟨h, _, hx, rfl, rfl, _, rfl, rfl⟩

end Examples

end Server

end FontisRemote.Services
