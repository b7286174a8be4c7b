import FontisRemote.Lib.Run
import FontisRemote.Lib.Slots

/-!
# Refreshing the display cache

`schedule_drm_cache_refresh` of `ipc/drm.rs`. A call sets `PENDING` and then tries to take `RUNNING`; who
gets it starts a worker, anyone else leaves the refresh to the worker that is there. A worker clears
`PENDING`, enumerates the displays and stores them, and goes on while `PENDING` is set. Between giving
`RUNNING` back and ending it looks at `PENDING` once more.

A step is one operation on an atomic, one enumeration, or the comparison under the lock of the cache.
Calls are numbered as they set `PENDING`. An enumeration carries how many calls had done so when it
started, and `refreshes` keeps that number of each enumeration that was stored.
-/

namespace FontisRemote.Drm

open FontisRemote.Lib

inductive CallPc
  /-- `PENDING` is set. -/
  | swap
  /-- It has taken `RUNNING`. -/
  | spawn
  | returned
deriving DecidableEq, Repr

structure Call where
  /-- How many calls had set `PENDING` when this one had. -/
  ticket : Nat
  pc : CallPc
deriving DecidableEq, Repr

inductive WorkerPc (Displays : Type)
  | clear
  | enumerate (since : Nat)
  | compare (since : Nat) (fresh : Displays)
  | bump (changed : Bool)
  | check
  | release
  | recheck
  | retake
  | ended
deriving DecidableEq, Repr

structure CacheRefresh (Displays : Type) where
  running : Bool := false
  pending : Bool := false
  calls : List Call := []
  workers : List (WorkerPc Displays) := []
  cache : Displays
  generation : Nat := 0
  announced : Nat := 0
  refreshes : List Nat := []

namespace CacheRefresh

variable {Displays : Type} [DecidableEq Displays] (s : CacheRefresh Displays)

def setCall (i : Nat) (call : Call) : CacheRefresh Displays :=
  { s with calls := s.calls.set i call }

def setWorker (j : Nat) (pc : WorkerPc Displays) : CacheRefresh Displays :=
  { s with workers := s.workers.set j pc }

inductive Event (Displays : Type)
  | announce
  | call (i : Nat)
  /-- The next operation of a worker; an enumeration returns these displays. -/
  | worker (j : Nat) (fresh : Displays)

/-- A worker's next operation. -/
def work (j : Nat) (fresh : Displays) : WorkerPc Displays → Option (CacheRefresh Displays)
  | .clear => some ({ s with pending := false }.setWorker j (.enumerate s.announced))
  | .enumerate since => some (s.setWorker j (.compare since fresh))
  | .compare since fresh =>
    some ({ s with
        cache := if s.cache ≠ fresh then fresh else s.cache
        refreshes := since :: s.refreshes }.setWorker j (.bump (decide (s.cache ≠ fresh))))
  | .bump changed =>
    some ({ s with generation := if changed then s.generation + 1 else s.generation }.setWorker j .check)
  | .check => some (s.setWorker j (if s.pending then .clear else .release))
  | .release => some ({ s with running := false }.setWorker j .recheck)
  | .recheck => some (s.setWorker j (if s.pending then .retake else .ended))
  | .retake => some ({ s with running := true }.setWorker j (if s.running then .ended else .clear))
  | .ended => none

def step : Event Displays → Option (CacheRefresh Displays)
  | .announce =>
    some { s with
      pending := true
      announced := s.announced + 1
      calls := s.calls ++ [⟨s.announced + 1, .swap⟩] }
  | .call i =>
    match s.calls[i]? with
    | some ⟨ticket, .swap⟩ =>
      some ({ s with running := true }.setCall i ⟨ticket, if s.running then .returned else .spawn⟩)
    | some ⟨ticket, .spawn⟩ =>
      some ({ s with workers := s.workers ++ [WorkerPc.clear] }.setCall i ⟨ticket, .returned⟩)
    | _ => none
  | .worker j fresh => s.workers[j]?.bind (s.work j fresh)

def Init (s : CacheRefresh Displays) : Prop :=
  ∃ cache generation, s = { cache := cache, generation := generation }

end CacheRefresh

/-! ## Who owns `RUNNING` -/

def CallPc.owns : CallPc → Bool
  | .spawn => true
  | _ => false

namespace WorkerPc

variable {Displays : Type}

def owns : WorkerPc Displays → Bool
  | .clear => true
  | .enumerate _ => true
  | .compare _ _ => true
  | .bump _ => true
  | .check => true
  | .release => true
  | _ => false

/-- Between clearing `PENDING` and giving `RUNNING` back. -/
def refreshing : WorkerPc Displays → Bool
  | .clear => false
  | pc => pc.owns

/-- It will look at `PENDING` or at `RUNNING` before it ends. -/
def lingers : WorkerPc Displays → Bool
  | .recheck => true
  | .retake => true
  | _ => false

/-- An enumeration that this many calls came before, not stored yet. -/
def covers (ticket : Nat) : WorkerPc Displays → Bool
  | .enumerate since => decide (ticket ≤ since)
  | .compare since _ => decide (ticket ≤ since)
  | _ => false

end WorkerPc

namespace CacheRefresh

variable {Displays : Type} [DecidableEq Displays] {s s' : CacheRefresh Displays}

/-- An enumeration that started after the call was stored. -/
def Served (s : CacheRefresh Displays) (call : Call) : Prop :=
  ∃ since ∈ s.refreshes, call.ticket ≤ since

/-- The call has been served, an enumeration that serves it is under way, or `PENDING` is set and, once
the call has left it to another, there is one who will see it. -/
def Kept (s : CacheRefresh Displays) (call : Call) : Prop :=
  s.Served call ∨
    (∃ w ∈ s.workers, w.covers call.ticket = true) ∨
    (s.pending = true ∧
      (call.pc = .swap ∨ s.running = true ∨ ∃ w ∈ s.workers, w.lingers = true))

structure Inv (s : CacheRefresh Displays) : Prop where
  owner : s.calls.countP (fun call => call.pc.owns) + s.workers.countP WorkerPc.owns = s.running.toNat
  ticket : ∀ call ∈ s.calls, call.ticket ≤ s.announced
  kept : ∀ call ∈ s.calls, s.Kept call

section Places

variable {j : Nat} {old new : WorkerPc Displays} {P : WorkerPc Displays → Bool}

omit [DecidableEq Displays]

theorem mem_setWorker (hj : s.workers[j]? = some old) : new ∈ (s.setWorker j new).workers := by
  obtain ⟨hlt, -⟩ := List.getElem?_eq_some_iff.mp hj
  exact List.mem_iff_getElem?.mpr ⟨j, List.getElem?_set_self hlt⟩

/-- A worker of a kind is still there where the one that moved was not of it, or still is. -/
theorem exists_setWorker (hj : s.workers[j]? = some old) (hkind : P old = true → P new = true)
    (h : ∃ w ∈ s.workers, P w = true) : ∃ w ∈ (s.setWorker j new).workers, P w = true := by
  obtain ⟨w, hw, hP⟩ := h
  by_cases hsame : w = old
  · exact ⟨new, mem_setWorker hj, hkind (hsame ▸ hP)⟩
  · exact ⟨w, mem_set_of_ne hj hw hsame, hP⟩

/-- A worker moves on and neither drops an enumeration nor stops lingering. -/
theorem Kept.move {call : Call} (h : s.Kept call) (hj : s.workers[j]? = some old)
    (hcovers : ∀ ticket, old.covers ticket = true → new.covers ticket = true)
    (hlingers : old.lingers = true → new.lingers = true) : (s.setWorker j new).Kept call := by
  obtain hserved | hcovered | ⟨hpending, hseen⟩ := h
  · exact .inl hserved
  · exact .inr (.inl (exists_setWorker hj (hcovers _) hcovered))
  · refine .inr (.inr ⟨hpending, hseen.imp_right fun h => h.imp_right fun h => ?_⟩)
    exact exists_setWorker hj hlingers h

end Places

theorem Kept.work {call : Call} {j : Nat} {pc : WorkerPc Displays} {fresh : Displays} (h : s.Kept call)
    (hticket : call.ticket ≤ s.announced) (hj : s.workers[j]? = some pc)
    (hwork : s.work j fresh pc = some s') : s'.Kept call := by
  cases pc with
  | clear =>
    obtain rfl := Option.some.inj hwork
    exact .inr (.inl ⟨_, mem_setWorker hj, decide_eq_true hticket⟩)
  | enumerate since =>
    obtain rfl := Option.some.inj hwork
    exact h.move hj (fun _ h => h) fun h => nomatch h
  | compare since fresh =>
    obtain rfl := Option.some.inj hwork
    obtain ⟨r, hr, hle⟩ | ⟨w, hw, hcovers⟩ | ⟨hpending, hseen⟩ := h
    · exact .inl ⟨r, List.mem_cons_of_mem _ hr, hle⟩
    · by_cases hsame : w = .compare since fresh
      · subst hsame
        exact .inl ⟨since, List.mem_cons_self .., of_decide_eq_true hcovers⟩
      · exact .inr (.inl ⟨w, mem_set_of_ne hj hw hsame, hcovers⟩)
    · refine .inr (.inr ⟨hpending, hseen.imp_right fun h => h.imp_right fun h => ?_⟩)
      exact exists_setWorker hj (fun h => nomatch h) h
  | bump changed =>
    obtain rfl := Option.some.inj hwork
    exact h.move hj (fun _ h => nomatch h) fun h => nomatch h
  | check =>
    obtain rfl := Option.some.inj hwork
    exact h.move hj (fun _ h => nomatch h) fun h => nomatch h
  | release =>
    obtain rfl := Option.some.inj hwork
    obtain hserved | hcovers | ⟨hpending, -⟩ := h
    · exact .inl hserved
    · exact .inr (.inl (exists_setWorker hj (fun h => nomatch h) hcovers))
    · -- whoever gives `RUNNING` back looks at `PENDING` again
      exact .inr (.inr ⟨hpending, .inr (.inr ⟨_, mem_setWorker hj, rfl⟩)⟩)
  | recheck =>
    obtain rfl := Option.some.inj hwork
    obtain hserved | hcovers | ⟨hpending, -⟩ := h
    · exact .inl hserved
    · exact .inr (.inl (exists_setWorker hj (fun h => nomatch h) hcovers))
    · refine .inr (.inr ⟨hpending, .inr (.inr ⟨_, mem_setWorker hj, ?_⟩)⟩)
      rw [hpending]
      rfl
  | retake =>
    obtain rfl := Option.some.inj hwork
    obtain hserved | hcovers | ⟨hpending, -⟩ := h
    · exact .inl hserved
    · exact .inr (.inl (exists_setWorker hj (fun h => nomatch h) hcovers))
    · exact .inr (.inr ⟨hpending, .inr (.inl rfl)⟩)
  | ended => cases hwork

omit [DecidableEq Displays] in
theorem Inv.running_of_worker (h : s.Inv) {w : WorkerPc Displays} (hw : w ∈ s.workers)
    (howns : w.owns = true) : s.running = true := by
  have hpos : 0 < s.workers.countP WorkerPc.owns := List.countP_pos_iff.mpr ⟨w, hw, howns⟩
  have howner := h.owner
  cases hrunning : s.running with
  | true => rfl
  | false =>
    rw [hrunning, Bool.toNat_false] at howner
    omega

/-- A worker's operation hands `RUNNING` on as the flag says. -/
theorem Inv.owner_work (h : s.Inv) {j : Nat} {pc : WorkerPc Displays} {fresh : Displays}
    (hj : s.workers[j]? = some pc) (hwork : s.work j fresh pc = some s') :
    s'.workers.countP WorkerPc.owns + s.running.toNat =
      s.workers.countP WorkerPc.owns + s'.running.toNat := by
  have hmoved : ∀ new : WorkerPc Displays, (s.workers.set j new).countP WorkerPc.owns + pc.owns.toNat =
      s.workers.countP WorkerPc.owns + new.owns.toNat := fun new => countP_set_add _ hj
  have hmem : pc ∈ s.workers := List.mem_of_getElem? hj
  cases pc with
  | check =>
    obtain rfl := Option.some.inj hwork
    have hset := hmoved (if s.pending then .clear else .release)
    have hboth : (if s.pending then WorkerPc.clear else WorkerPc.release : WorkerPc Displays).owns = true := by
      split <;> rfl
    rw [hboth] at hset
    exact congrArg (· + s.running.toNat) (Nat.add_right_cancel hset)
  | release =>
    obtain rfl := Option.some.inj hwork
    rw [h.running_of_worker hmem rfl]
    exact hmoved .recheck
  | recheck =>
    obtain rfl := Option.some.inj hwork
    have hset := hmoved (if s.pending then .retake else .ended)
    have hboth : (if s.pending then WorkerPc.retake else WorkerPc.ended : WorkerPc Displays).owns = false := by
      split <;> rfl
    rw [hboth] at hset
    exact congrArg (· + s.running.toNat) (Nat.add_right_cancel hset)
  | retake =>
    obtain rfl := Option.some.inj hwork
    cases hrunning : s.running with
    | true => exact congrArg (· + 1) (Nat.add_right_cancel (hmoved .ended))
    | false => exact hmoved .clear
  | ended => cases hwork
  | clear =>
    obtain rfl := Option.some.inj hwork
    exact congrArg (· + s.running.toNat) (Nat.add_right_cancel (hmoved (.enumerate s.announced)))
  | enumerate since =>
    obtain rfl := Option.some.inj hwork
    exact congrArg (· + s.running.toNat) (Nat.add_right_cancel (hmoved (.compare since fresh)))
  | compare since fresh =>
    obtain rfl := Option.some.inj hwork
    exact congrArg (· + s.running.toNat)
      (Nat.add_right_cancel (hmoved (.bump (decide (s.cache ≠ fresh)))))
  | bump changed =>
    obtain rfl := Option.some.inj hwork
    exact congrArg (· + s.running.toNat) (Nat.add_right_cancel (hmoved .check))

theorem work_frame {j : Nat} {pc : WorkerPc Displays} {fresh : Displays}
    (hwork : s.work j fresh pc = some s') : s'.calls = s.calls ∧ s'.announced = s.announced := by
  cases pc with
  | ended => cases hwork
  | _ =>
    obtain rfl := Option.some.inj hwork
    exact ⟨rfl, rfl⟩

theorem Inv.work (h : s.Inv) {j : Nat} {pc : WorkerPc Displays} {fresh : Displays}
    (hj : s.workers[j]? = some pc) (hwork : s.work j fresh pc = some s') : s'.Inv := by
  obtain ⟨hcalls, hannounced⟩ := work_frame hwork
  refine ⟨?_, fun call hcall => ?_, fun call hcall => ?_⟩
  · have howner := h.owner
    have hmoved := h.owner_work hj hwork
    rw [hcalls]
    omega
  · rw [hannounced]
    exact h.ticket call (hcalls ▸ hcall)
  · have hcall' : call ∈ s.calls := hcalls ▸ hcall
    exact (h.kept call hcall').work (h.ticket call hcall') hj hwork

omit [DecidableEq Displays] in
theorem Inv.announce (h : s.Inv) :
    Inv { s with
      pending := true
      announced := s.announced + 1
      calls := s.calls ++ [⟨s.announced + 1, .swap⟩] } := by
  refine ⟨?_, fun call hcall => ?_, fun call hcall => ?_⟩
  · have howner := h.owner
    dsimp only
    rw [List.countP_append, List.countP_singleton]
    simpa [CallPc.owns] using howner
  · obtain hcall | hcall := List.mem_append.mp hcall
    · exact Nat.le_succ_of_le (h.ticket call hcall)
    · obtain rfl := List.mem_singleton.mp hcall
      exact Nat.le_refl _
  · obtain hcall | hcall := List.mem_append.mp hcall
    · obtain hserved | hcovers | ⟨-, hseen⟩ := h.kept call hcall
      · exact .inl hserved
      · exact .inr (.inl hcovers)
      · exact .inr (.inr ⟨rfl, hseen⟩)
    · obtain rfl := List.mem_singleton.mp hcall
      exact .inr (.inr ⟨rfl, .inl rfl⟩)

omit [DecidableEq Displays] in
/-- A call that found `RUNNING` set, or took it. -/
theorem Inv.swapped (h : s.Inv) {i ticket : Nat} (hi : s.calls[i]? = some ⟨ticket, .swap⟩) :
    ({ s with running := true }.setCall i ⟨ticket, if s.running then .returned else .spawn⟩ :
      CacheRefresh Displays).Inv := by
  have hmem : (⟨ticket, .swap⟩ : Call) ∈ s.calls := List.mem_of_getElem? hi
  refine ⟨?_, fun call hcall => ?_, fun call hcall => ?_⟩
  · have howner := h.owner
    have hmoved : ∀ pc : CallPc, (s.calls.set i ⟨ticket, pc⟩).countP (fun call => call.pc.owns) + 0 =
        s.calls.countP (fun call => call.pc.owns) + pc.owns.toNat :=
      fun pc => countP_set_add (fun call : Call => call.pc.owns) hi
    dsimp only [setCall]
    cases hrunning : s.running with
    | true =>
      have hset : _ + 0 = _ + 0 := hmoved .returned
      have hone : _ + _ = 1 := hrunning ▸ howner
      rw [if_pos rfl, Bool.toNat_true]
      omega
    | false =>
      have hset : _ + 0 = _ + 1 := hmoved .spawn
      have hnone : _ + _ = 0 := hrunning ▸ howner
      rw [if_neg Bool.false_ne_true, Bool.toNat_true]
      omega
  · obtain hcall | rfl := List.mem_or_eq_of_mem_set hcall
    · exact h.ticket call hcall
    · exact h.ticket ⟨ticket, .swap⟩ hmem
  · obtain hcall | rfl := List.mem_or_eq_of_mem_set hcall
    · obtain hserved | hcovers | ⟨hpending, -⟩ := h.kept call hcall
      · exact .inl hserved
      · exact .inr (.inl hcovers)
      · exact .inr (.inr ⟨hpending, .inr (.inl rfl)⟩)
    · obtain hserved | hcovers | ⟨hpending, -⟩ := h.kept _ hmem
      · exact .inl hserved
      · exact .inr (.inl hcovers)
      · exact .inr (.inr ⟨hpending, .inr (.inl rfl)⟩)

omit [DecidableEq Displays] in
theorem Inv.spawned (h : s.Inv) {i ticket : Nat} (hi : s.calls[i]? = some ⟨ticket, .spawn⟩) :
    ({ s with workers := s.workers ++ [WorkerPc.clear] }.setCall i ⟨ticket, .returned⟩ :
      CacheRefresh Displays).Inv := by
  have hmem : (⟨ticket, .spawn⟩ : Call) ∈ s.calls := List.mem_of_getElem? hi
  have hrunning : s.running = true := by
    have hpos : 0 < s.calls.countP fun call => call.pc.owns := List.countP_pos_iff.mpr ⟨_, hmem, rfl⟩
    have howner := h.owner
    cases hrunning : s.running with
    | true => rfl
    | false =>
      rw [hrunning, Bool.toNat_false] at howner
      omega
  have hkept : ∀ call ∈ s.calls, ∀ pc, ({ s with workers := s.workers ++ [WorkerPc.clear] }.setCall i
      ⟨ticket, .returned⟩ : CacheRefresh Displays).Kept ⟨call.ticket, pc⟩ := by
    intro call hcall pc
    obtain hserved | ⟨w, hw, hcovers⟩ | ⟨hpending, -⟩ := h.kept call hcall
    · exact .inl hserved
    · exact .inr (.inl ⟨w, List.mem_append_left _ hw, hcovers⟩)
    · exact .inr (.inr ⟨hpending, .inr (.inl hrunning)⟩)
  refine ⟨?_, fun call hcall => ?_, fun call hcall => ?_⟩
  · have howner := h.owner
    have hset : (s.calls.set i ⟨ticket, .returned⟩).countP (fun call => call.pc.owns) + 1 =
        s.calls.countP (fun call => call.pc.owns) + 0 :=
      countP_set_add (fun call : Call => call.pc.owns) hi
    have hnew : (s.workers ++ [WorkerPc.clear]).countP WorkerPc.owns =
        s.workers.countP WorkerPc.owns + 1 := by
      rw [List.countP_append]
      rfl
    dsimp only [setCall]
    rw [hnew]
    omega
  · obtain hcall | rfl := List.mem_or_eq_of_mem_set hcall
    · exact h.ticket call hcall
    · exact h.ticket ⟨ticket, .spawn⟩ hmem
  · obtain hcall | rfl := List.mem_or_eq_of_mem_set hcall
    · exact hkept call hcall call.pc
    · exact hkept _ hmem .returned

theorem Inv.step (h : s.Inv) {e : Event Displays} (hstep : s.step e = some s') : s'.Inv := by
  cases e with
  | announce =>
    obtain rfl := Option.some.inj hstep
    exact h.announce
  | call i =>
    unfold CacheRefresh.step at hstep
    dsimp only at hstep
    split at hstep
    · rename_i ticket hi
      obtain rfl := Option.some.inj hstep
      exact h.swapped hi
    · rename_i ticket hi
      obtain rfl := Option.some.inj hstep
      exact h.spawned hi
    · cases hstep
  | worker j fresh =>
    obtain ⟨pc, hj, hwork⟩ := Option.bind_eq_some_iff.mp hstep
    exact h.work hj hwork

theorem inv_of_exec {history : List (CacheRefresh Displays × Event Displays)}
    (hx : Exec Init step history s) : s.Inv := by
  refine hx.invariant (I := Inv) ?_ fun _ _ _ h hstep => h.step hstep
  rintro s ⟨cache, generation, rfl⟩
  refine ⟨rfl, fun call hcall => ?_, fun call hcall => ?_⟩
  · cases hcall
  · cases hcall

/-- One worker at most is between clearing `PENDING` and giving `RUNNING` back, and once `RUNNING` is
free and every worker has ended, each call that has returned was followed by an enumeration that was
stored. -/
theorem refresh_single_flight {history : List (CacheRefresh Displays × Event Displays)}
    (hx : Exec Init step history s) :
    s.workers.countP WorkerPc.refreshing ≤ 1 ∧
      (s.running = false → (∀ w ∈ s.workers, w = .ended) →
        ∀ call ∈ s.calls, call.pc = .returned → ∃ since ∈ s.refreshes, call.ticket ≤ since) := by
  have h := inv_of_exec hx
  refine ⟨?_, fun hfree hended call hcall hreturned => ?_⟩
  · have howns : s.workers.countP WorkerPc.refreshing ≤ s.workers.countP WorkerPc.owns := by
      refine List.countP_mono_left fun w _ hw => ?_
      cases w with
      | clear => cases hw
      | _ => exact hw
    have howner := h.owner
    have hone : s.running.toNat ≤ 1 := Bool.toNat_le _
    omega
  · obtain hserved | ⟨w, hw, hcovers⟩ | ⟨-, hswap | hrunning | ⟨w, hw, hlingers⟩⟩ := h.kept call hcall
    · exact hserved
    · rw [hended w hw] at hcovers
      cases hcovers
    · rw [hreturned] at hswap
      cases hswap
    · rw [hfree] at hrunning
      cases hrunning
    · rw [hended w hw] at hlingers
      cases hlingers

/-- A second call comes just after the worker has found `PENDING` clear: the worker, which gives `RUNNING`
back, sees it and enumerates again. -/
def lateCall : List (Event Nat) :=
  [.announce, .call 0, .call 0, .worker 0 0, .worker 0 5, .worker 0 0, .worker 0 0, .worker 0 0,
    .announce, .call 1, .worker 0 0, .worker 0 0, .worker 0 0,
    .worker 0 0, .worker 0 6, .worker 0 0, .worker 0 0, .worker 0 0, .worker 0 0, .worker 0 0]

theorem lateCall_runs : (trace step ({ cache := 0 } : CacheRefresh Nat) lateCall).isSome = true := by
  decide

theorem refresh_single_flight_late :
    ∃ s : CacheRefresh Nat, Reachable Init step s ∧ s.cache = 6 ∧
      ∀ call ∈ s.calls, ∃ since ∈ s.refreshes, call.ticket ≤ since := by
  have hstart : Exec Init step [] ({ cache := 0 } : CacheRefresh Nat) := .start ⟨0, 0, rfl⟩
  have hrun := hstart.trace (Option.some_get lateCall_runs).symm
  have hreturned : ∀ call ∈ ((trace step ({ cache := 0 } : CacheRefresh Nat) lateCall).get
      lateCall_runs).2.calls, call.pc = .returned := by decide
  refine ⟨_, ⟨_, hrun⟩, by decide, fun call hcall => ?_⟩
  exact (refresh_single_flight hrun).2 (by decide) (by decide) call hcall (hreturned call hcall)

end CacheRefresh

end FontisRemote.Drm
