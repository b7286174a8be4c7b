import Mathlib.Algebra.Order.Ring.Int
import Mathlib.Data.List.Basic
import Mathlib.Tactic.IntervalCases

/-!
# Back-off after failed OS logins

`src/server/login_failure_check.rs`. The state is put right whenever it is looked at: the count goes after
two hours without a failure (`reset_totals_on_idle`), the back-off when it is over (`normalize_backoff`).
`denied_iff` says what this comes to, by the calls that were made alone.

Milliseconds and counts are integers; an `i64` operation that could overflow is `none` when it does.
-/

namespace FontisRemote.Login.Backoff

def totalIdleResetMs : Int := 120 * 60 * 1000
def baseSeconds : Int := 15
def maxSeconds : Int := 30 * 60

inductive FailureScope where
  | default
  | terminalOsLogin
  deriving DecidableEq, Repr

inductive AlarmAuditType where
  | terminalOsLoginBackoff
  deriving DecidableEq, Repr

structure Decision where
  allowed : Bool
  loginError : Option String
  audit : Option AlarmAuditType
  deriving DecidableEq, Repr

/-- `OsCredentialFailureState`. -/
structure FailureState where
  totalFailures : Int
  backoffUntilMs : Option Int
  lastFailureMs : Option Int
  deriving DecidableEq, Repr

def FailureState.default : FailureState := ⟨0, none, none⟩

/-- An `i64`, if it is one. -/
def i64 (x : Int) : Option Int := if -2 ^ 63 ≤ x ∧ x < 2 ^ 63 then some x else none

/-- `i64::saturating_sub` -/
def saturatingSub (a b : Int) : Int := max (-2 ^ 63) (min (a - b) (2 ^ 63 - 1))

/-- `saturating_add(1)` of an `i32`. -/
def saturatingSucc (n : Int) : Int := min (n + 1) (2 ^ 31 - 1)

def isOsCredentialScope (scope : FailureScope) : Bool := decide (scope = .terminalOsLogin)

def backoffAuditTypeForScope : FailureScope → Option AlarmAuditType
  | .terminalOsLogin => some .terminalOsLoginBackoff
  | .default => none

/-- `os_credential_login_backoff_seconds` -/
def backoffSeconds (totalFailures : Int) : Option Int :=
  if totalFailures ≤ 2 then some 0
  else do
    let exp := min (totalFailures - 3) 7
    let shifted ← i64 (2 ^ exp.toNat)
    let seconds ← i64 (baseSeconds * shifted)
    some (min seconds maxSeconds)

def normalizeBackoff (state : FailureState) (nowMs : Int) : FailureState :=
  match state.backoffUntilMs with
  | some untilMs => if untilMs ≤ nowMs then { state with backoffUntilMs := none } else state
  | none => state

def resetTotalsOnIdle (state : FailureState) (nowMs : Int) : FailureState :=
  match state.lastFailureMs with
  | some lastMs => if totalIdleResetMs ≤ saturatingSub nowMs lastMs then ⟨0, none, none⟩ else state
  | none => state

def allowDecision : Decision := ⟨true, none, none⟩

def blockDecision (loginError : String) (alarmType : Option AlarmAuditType) : Decision :=
  ⟨false, some loginError, alarmType⟩

/-- `evaluate_os_credential_policy`: the decision and the state behind the lock. -/
def evaluate (scope : FailureScope) (state : FailureState) (nowMs : Int) : Option (Decision × FailureState) :=
  if !isOsCredentialScope scope then some (allowDecision, state)
  else
    let state := normalizeBackoff (resetTotalsOnIdle state nowMs) nowMs
    match state.backoffUntilMs with
    | some untilMs => do
      let remainingMs := max (← i64 (untilMs - nowMs)) 0
      let remainingSeconds := max ((← i64 (remainingMs + 999)) / 1000) 1
      let secondsLabel := if remainingSeconds = 1 then "second" else "seconds"
      some (blockDecision ("Please try again in " ++ toString remainingSeconds ++ " " ++ secondsLabel ++ ".")
        (backoffAuditTypeForScope scope), state)
    | none => some (allowDecision, state)

/-- `record_os_credential_failure`; `nowMs` is the time it takes from the clock. -/
def record (scope : FailureScope) (state : FailureState) (nowMs : Int) : Option FailureState :=
  if !isOsCredentialScope scope then some state
  else
    let state := normalizeBackoff (resetTotalsOnIdle state nowMs) nowMs
    let state := { state with
      totalFailures := saturatingSucc state.totalFailures, lastFailureMs := some nowMs }
    (backoffSeconds state.totalFailures).bind fun seconds =>
      if 0 < seconds then
        (i64 (seconds * 1000)).bind fun ms => (i64 (nowMs + ms)).map fun untilMs =>
          { state with backoffUntilMs := some untilMs }
      else some state

/-! ## The calls that were made -/

inductive Call where
  | failure (nowMs : Int)
  | evaluation (nowMs : Int)
  deriving DecidableEq, Repr

namespace Call

def time : Call → Int
  | failure nowMs => nowMs
  | evaluation nowMs => nowMs

def isFailure : Call → Bool
  | failure _ => true
  | evaluation _ => false

def perform (state : FailureState) : Call → Option FailureState
  | failure nowMs => record .terminalOsLogin state nowMs
  | evaluation nowMs => (evaluate .terminalOsLogin state nowMs).map Prod.snd

end Call

/-- The state after some calls, the last one first. -/
def stateAfter : List Call → Option FailureState
  | [] => some .default
  | call :: calls => (stateAfter calls).bind call.perform

/-- When the last failure was. -/
def lastFailure (calls : List Call) : Option Int := (calls.find? Call.isFailure).map Call.time

/-- Two hours or more since the last failure. -/
def idle (calls : List Call) (nowMs : Int) : Bool :=
  (lastFailure calls).any fun lastMs => decide (totalIdleResetMs ≤ nowMs - lastMs)

/-- The failures since a call came two hours or more after the last failure before it. -/
def streak : List Call → Nat
  | [] => 0
  | call :: calls =>
    (if idle calls call.time then 0 else streak calls) + (if call.isFailure then 1 else 0)

def cooldownSeconds (n : Nat) : Int := min (15 * 2 ^ min (n - 3) 7) 1800

/-- A failure, and the next call two hours or more after it. -/
def gapAfter (calls : List Call) (nowMs : Int) : Bool :=
  calls.head?.any fun call => call.isFailure && decide (totalIdleResetMs ≤ nowMs - call.time)

/-- The failures since such a gap. -/
def streakSinceGap : List Call → Nat
  | [] => 0
  | call :: calls =>
    (if gapAfter calls call.time then 0 else streakSinceGap calls) + (if call.isFailure then 1 else 0)

/-- So many failures are denied for now. -/
def Denied (n : Nat) (calls : List Call) (nowMs : Int) : Prop :=
  3 ≤ n ∧ ∃ lastMs, lastFailure calls = some lastMs ∧ nowMs < lastMs + cooldownSeconds n * 1000

/-- The clock is never behind what it was, and half an hour before the end of `i64` at the latest. -/
def Clocked (times : List Int) : Prop :=
  times.Pairwise (fun later earlier => earlier ≤ later) ∧
    ∀ t ∈ times, -2 ^ 63 ≤ t ∧ t + maxSeconds * 1000 < 2 ^ 63

instance (times : List Int) : Decidable (Clocked times) := inferInstanceAs (Decidable (_ ∧ _))

/-! ## What the state says -/

/-- The state with a count of failures and a last failure behind it, at a time. -/
structure Shows (n : Nat) (lastMs : Option Int) (nowMs : Int) (state : FailureState) : Prop where
  total : state.totalFailures = min (n : Int) (2 ^ 31 - 1)
  last : state.lastFailureMs = lastMs ∨ state.lastFailureMs = none ∧ n = 0
  during : ∀ untilMs : Int, state.backoffUntilMs = some untilMs →
    3 ≤ n ∧ ∃ l : Int, lastMs = some l ∧ untilMs = l + cooldownSeconds n * 1000
  lapsed : state.backoffUntilMs = none → 3 ≤ n →
    ∀ l : Int, lastMs = some l → l + cooldownSeconds n * 1000 ≤ nowMs

section States

variable {n : Nat} {lastMs : Option Int} {thenMs nowMs : Int} {state : FailureState} {calls : List Call}

theorem cooldownSeconds_le (n : Nat) : cooldownSeconds n ≤ 1800 := min_le_right _ _

theorem cooldownSeconds_pos (n : Nat) : 0 < cooldownSeconds n := by
  refine lt_min ?_ (by decide)
  exact Int.mul_pos (by decide) (Int.pow_pos (by decide))

/-- A count in an `i32` is as good as the count for the back-off. -/
theorem backoffSeconds_eq (n : Nat) :
    backoffSeconds (min (n : Int) (2 ^ 31 - 1)) = some (if n ≤ 2 then 0 else cooldownSeconds n) := by
  unfold backoffSeconds
  by_cases hn : n ≤ 2
  · rw [if_pos (by omega), if_pos hn]
  · have hexp : (min (min (n : Int) (2 ^ 31 - 1) - 3) 7).toNat = min (n - 3) 7 := by omega
    have hlt : min (n - 3) 7 < 8 := by omega
    rw [if_neg (by omega), if_neg hn]
    dsimp only
    rw [hexp]
    unfold cooldownSeconds
    generalize min (n - 3) 7 = e at hlt
    interval_cases e <;> rfl

theorem resetTotalsOnIdle_eq {l : Int} (hlast : state.lastFailureMs = some l) (hl : l ≤ nowMs) :
    resetTotalsOnIdle state nowMs = if totalIdleResetMs ≤ nowMs - l then ⟨0, none, none⟩ else state := by
  have hsub : totalIdleResetMs ≤ saturatingSub nowMs l ↔ totalIdleResetMs ≤ nowMs - l := by
    unfold saturatingSub totalIdleResetMs
    omega
  rw [resetTotalsOnIdle, hlast]
  simp only [hsub]

/-- The count after the reset that is due. -/
def restreak (n : Nat) (lastMs : Option Int) (nowMs : Int) : Nat :=
  if lastMs.any fun l => decide (totalIdleResetMs ≤ nowMs - l) then 0 else n

/-- The reset that is due is made, and shows what the calls say. -/
theorem Shows.reset (h : Shows n lastMs thenMs state) (hnow : thenMs ≤ nowMs)
    (hlast : ∀ l : Int, lastMs = some l → l ≤ nowMs) :
    Shows (restreak n lastMs nowMs) lastMs nowMs (resetTotalsOnIdle state nowMs) := by
  have hover : state.backoffUntilMs = none → 3 ≤ n →
      ∀ l : Int, lastMs = some l → l + cooldownSeconds n * 1000 ≤ nowMs := fun hb hn l hl =>
    Int.le_trans (h.lapsed hb hn l hl) hnow
  obtain hsame | ⟨hnone, hzero⟩ := h.last
  · cases lastMs with
    | none =>
      have hstate : resetTotalsOnIdle state nowMs = state := by rw [resetTotalsOnIdle, hsame]
      rw [hstate]
      exact ⟨h.total, h.last, h.during, hover⟩
    | some l =>
      rw [resetTotalsOnIdle_eq hsame (hlast l rfl)]
      unfold restreak
      by_cases hidle : totalIdleResetMs ≤ nowMs - l
      · simp only [Option.any_some, hidle, decide_true, if_true]
        exact ⟨rfl, .inr ⟨rfl, rfl⟩, fun _ hu => absurd hu (by simp), fun _ hn => absurd hn (by decide)⟩
      · simp only [Option.any_some, hidle, decide_false, if_false, Bool.false_eq_true]
        exact ⟨h.total, h.last, h.during, hover⟩
  · have hstate : resetTotalsOnIdle state nowMs = state := by rw [resetTotalsOnIdle, hnone]
    have hre : restreak n lastMs nowMs = n := by
      unfold restreak
      split
      · exact hzero.symm
      · rfl
    rw [hstate, hre]
    exact ⟨h.total, h.last, h.during, hover⟩

/-- A back-off that is still there has not come to its end. -/
theorem Shows.normalize (h : Shows n lastMs nowMs state) :
    Shows n lastMs nowMs (normalizeBackoff state nowMs) ∧
      ∀ untilMs : Int, (normalizeBackoff state nowMs).backoffUntilMs = some untilMs → nowMs < untilMs := by
  unfold normalizeBackoff
  split
  · rename_i untilMs huntil
    obtain ⟨hn, l, hl, rfl⟩ := h.during untilMs huntil
    split
    · rename_i hpast
      refine ⟨⟨h.total, h.last, fun _ hu => absurd hu (by simp), fun _ _ l' hl' => ?_⟩,
        fun _ hu => absurd hu (by simp)⟩
      rw [← Option.some.inj (hl.symm.trans hl')]
      exact hpast
    · rename_i hahead
      refine ⟨h, fun u hu => ?_⟩
      rw [← Option.some.inj (huntil.symm.trans hu)]
      omega
  · rename_i hnone
    exact ⟨h, fun u hu => absurd (hnone.symm.trans hu) (by simp)⟩

end States

/-! ## Every sequence of calls -/

section Calls

variable {calls : List Call} {nowMs : Int} {state : FailureState}

/-- The state shows what the calls so far say. -/
def Shown (calls : List Call) (thenMs : Int) (state : FailureState) : Prop :=
  Shows (streak calls) (lastFailure calls) thenMs state

theorem lastFailure_le (h : ∀ call ∈ calls, call.time ≤ nowMs) :
    ∀ l : Int, lastFailure calls = some l → l ≤ nowMs := by
  intro l hl
  obtain ⟨call, hcall, rfl⟩ := Option.map_eq_some_iff.1 hl
  exact h call (List.mem_of_find?_eq_some hcall)

/-- The state as each of the operations puts it right first. -/
theorem Shown.right {thenMs : Int} (h : Shown calls thenMs state) (hnow : thenMs ≤ nowMs)
    (hcalls : ∀ call ∈ calls, call.time ≤ nowMs) :
    Shows (restreak (streak calls) (lastFailure calls) nowMs) (lastFailure calls) nowMs
        (normalizeBackoff (resetTotalsOnIdle state nowMs) nowMs) ∧
      ∀ untilMs : Int, (normalizeBackoff (resetTotalsOnIdle state nowMs) nowMs).backoffUntilMs =
        some untilMs → nowMs < untilMs :=
  (Shows.reset h hnow (lastFailure_le hcalls)).normalize

theorem i64_of_mem {x : Int} (h : -2 ^ 63 ≤ x) (h' : x < 2 ^ 63) : i64 x = some x := if_pos ⟨h, h'⟩

/-- A failure is counted, and from the third on starts a back-off. -/
theorem Shown.record {thenMs : Int} (h : Shown calls thenMs state) (hnow : thenMs ≤ nowMs)
    (hcalls : ∀ call ∈ calls, call.time ≤ nowMs) (hlow : -2 ^ 63 ≤ nowMs)
    (hhigh : nowMs + maxSeconds * 1000 < 2 ^ 63) :
    ∃ state', Backoff.record .terminalOsLogin state nowMs = some state' ∧
      Shown (.failure nowMs :: calls) nowMs state' := by
  obtain ⟨hright, hahead⟩ := h.right hnow hcalls
  have hstreak : streak (.failure nowMs :: calls) =
      restreak (streak calls) (lastFailure calls) nowMs + 1 := rfl
  unfold Shown
  rw [hstreak]
  unfold Backoff.record
  rw [if_neg (by decide)]
  dsimp only
  generalize restreak (streak calls) (lastFailure calls) nowMs = n at hright
  generalize normalizeBackoff (resetTotalsOnIdle state nowMs) nowMs = s at hright hahead
  have htotal : saturatingSucc s.totalFailures = min ((n + 1 : Nat) : Int) (2 ^ 31 - 1) := by
    rw [saturatingSucc, hright.total]
    omega
  have hle := cooldownSeconds_le (n + 1)
  have hpos := cooldownSeconds_pos (n + 1)
  have hmax : maxSeconds = 1800 := rfl
  rw [htotal, backoffSeconds_eq, Option.bind_some]
  by_cases hfew : n + 1 ≤ 2
  · rw [if_pos hfew, if_neg (by decide)]
    refine ⟨_, rfl, rfl, .inl rfl, fun u hu => ?_, fun _ hn => absurd hn (by omega)⟩
    exact absurd (hright.during u hu).1 (by omega)
  · rw [if_neg hfew, if_pos hpos, i64_of_mem (by omega) (by omega), Option.bind_some,
      i64_of_mem (by omega) (by omega), Option.map_some]
    refine ⟨_, rfl, rfl, .inl rfl, fun u hu => ?_, fun hnone => absurd hnone (by simp)⟩
    exact ⟨by omega, nowMs, rfl, (Option.some.inj hu).symm⟩

/-- An evaluation denies while the back-off of the streak runs, and changes nothing that is shown. -/
theorem Shown.evaluate {thenMs : Int} (h : Shown calls thenMs state) (hnow : thenMs ≤ nowMs)
    (hcalls : ∀ call ∈ calls, call.time ≤ nowMs) :
    ∃ decision state', Backoff.evaluate .terminalOsLogin state nowMs = some (decision, state') ∧
      Shown (.evaluation nowMs :: calls) nowMs state' ∧
      (decision.allowed = false ↔ Denied (streak calls) calls nowMs) := by
  obtain ⟨hright, hahead⟩ := h.right hnow hcalls
  have hstreak : streak (.evaluation nowMs :: calls) =
      restreak (streak calls) (lastFailure calls) nowMs := rfl
  have hidle : restreak (streak calls) (lastFailure calls) nowMs = streak calls ∨
      restreak (streak calls) (lastFailure calls) nowMs = 0 ∧
        ∀ l : Int, lastFailure calls = some l → l + cooldownSeconds (streak calls) * 1000 ≤ nowMs := by
    unfold restreak
    split
    · rename_i hany
      refine .inr ⟨rfl, fun l hl => ?_⟩
      rw [hl] at hany
      have hgap : totalIdleResetMs ≤ nowMs - l := by simpa using hany
      have hle := cooldownSeconds_le (streak calls)
      have hreset : totalIdleResetMs = 7200000 := rfl
      omega
    · exact .inl rfl
  unfold Shown
  rw [hstreak]
  unfold Backoff.evaluate
  rw [if_neg (by decide)]
  dsimp only
  generalize restreak (streak calls) (lastFailure calls) nowMs = n at hright hidle
  generalize normalizeBackoff (resetTotalsOnIdle state nowMs) nowMs = s at hright hahead
  cases huntil : s.backoffUntilMs with
  | none =>
    refine ⟨_, _, rfl, hright, fun hf => absurd hf (by decide), ?_⟩
    rintro ⟨hthree, l, hl, hlt⟩
    obtain rfl | ⟨-, hpast⟩ := hidle
    · exact absurd (hright.lapsed huntil hthree l hl) (by omega)
    · exact absurd (hpast l hl) (by omega)
  | some untilMs =>
    obtain ⟨hthree, l, hl, rfl⟩ := hright.during untilMs huntil
    have hlt := hahead _ huntil
    have hlast := lastFailure_le hcalls l hl
    have hle := cooldownSeconds_le n
    simp only [i64_of_mem (show -2 ^ 63 ≤ l + cooldownSeconds n * 1000 - nowMs by omega) (by omega),
      Option.bind_eq_bind, Option.bind_some,
      i64_of_mem (show -2 ^ 63 ≤ max (l + cooldownSeconds n * 1000 - nowMs) 0 + 999 by omega) (by omega)]
    refine ⟨_, _, rfl, hright, fun _ => ?_, fun _ => rfl⟩
    obtain rfl | ⟨rfl, -⟩ := hidle
    · exact ⟨hthree, l, hl, hlt⟩
    · exact absurd hthree (by decide)

theorem Clocked.tail {t : Int} {times : List Int} (h : Clocked (t :: times)) : Clocked times :=
  ⟨(List.pairwise_cons.1 h.1).2, fun u hu => h.2 u (List.mem_cons_of_mem t hu)⟩

theorem Clocked.le {t : Int} (h : Clocked (t :: calls.map Call.time)) : ∀ call ∈ calls, call.time ≤ t :=
  fun _ hcall => (List.pairwise_cons.1 h.1).1 _ (List.mem_map_of_mem hcall)

theorem shown_default (thenMs : Int) : Shown [] thenMs .default where
  total := rfl
  last := .inl rfl
  during _ hu := absurd hu (by simp [FailureState.default])
  lapsed _ hn := absurd hn (by decide)

theorem Shows.mono {n : Nat} {lastMs : Option Int} {thenMs : Int} (h : Shows n lastMs thenMs state)
    (hnow : thenMs ≤ nowMs) : Shows n lastMs nowMs state :=
  ⟨h.total, h.last, h.during, fun hb hn l hl => Int.le_trans (h.lapsed hb hn l hl) hnow⟩

/-- No operation of any sequence of calls overflows, and the state shows what the calls say. -/
theorem stateAfter_shown (h : Clocked (calls.map Call.time)) :
    ∃ state, stateAfter calls = some state ∧ ∀ t : Int, (∀ call ∈ calls, call.time ≤ t) →
      Shown calls t state := by
  induction calls with
  | nil => exact ⟨_, rfl, fun t _ => shown_default t⟩
  | cons call calls ih =>
    obtain ⟨state, hstate, hshown⟩ := ih h.tail
    obtain ⟨hlow, hhigh⟩ := h.2 call.time (List.mem_cons_self ..)
    have hcalls : ∀ c ∈ calls, c.time ≤ call.time := Clocked.le h
    obtain ⟨state', hperform, hshown'⟩ : ∃ state', call.perform state = some state' ∧
        Shown (call :: calls) call.time state' := by
      cases call with
      | failure nowMs => exact (hshown nowMs hcalls).record (Int.le_refl _) hcalls hlow hhigh
      | evaluation nowMs =>
        obtain ⟨d, state', he, hs, -⟩ := (hshown nowMs hcalls).evaluate (Int.le_refl _) hcalls
        exact ⟨state', by rw [Call.perform, he]; rfl, hs⟩
    refine ⟨state', ?_, fun t ht => hshown'.mono (ht call (List.mem_cons_self ..))⟩
    rw [stateAfter, hstate]
    exact hperform

/-- After any calls at times that do not go back, nothing has overflowed, and an evaluation denies exactly
while the cooldown of the current streak runs. -/
theorem denied_iff (calls : List Call) (nowMs : Int) (h : Clocked (nowMs :: calls.map Call.time)) :
    ∃ state decision state', stateAfter calls = some state ∧
      Backoff.evaluate .terminalOsLogin state nowMs = some (decision, state') ∧
      (decision.allowed = false ↔ Denied (streak calls) calls nowMs) := by
  obtain ⟨state, hstate, hshown⟩ := stateAfter_shown h.tail
  obtain ⟨decision, state', he, -, hiff⟩ := (hshown nowMs h.le).evaluate (Int.le_refl _) h.le
  exact ⟨state, decision, state', hstate, he, hiff⟩

/-- Three failures, and an evaluation a second later. -/
theorem denied_iff_third :
    ∃ state decision state', stateAfter [.failure 5000, .failure 5000, .failure 4000] = some state ∧
      Backoff.evaluate .terminalOsLogin state 6000 = some (decision, state') ∧
      (decision.allowed = false ↔ Denied 3 [.failure 5000, .failure 5000, .failure 4000] 6000) :=
  denied_iff [.failure 5000, .failure 5000, .failure 4000] 6000 (by decide)

/-- Three failures at 0, an evaluation after 100 minutes and a failure after 130: no call followed a failure
after two hours, but the streak begins again, and the evaluation a second later allows. -/
theorem evaluation_breaks_no_idleness :
    ¬ ∀ (calls : List Call) (nowMs : Int), Clocked (nowMs :: calls.map Call.time) →
      ∃ state decision state', stateAfter calls = some state ∧
        Backoff.evaluate .terminalOsLogin state nowMs = some (decision, state') ∧
        (decision.allowed = false ↔ Denied (streakSinceGap calls) calls nowMs) := by
  intro h
  obtain ⟨state, decision, state', hstate, he, hiff⟩ :=
    h [.failure 7800000, .evaluation 6000000, .failure 0, .failure 0, .failure 0] 7801000 (by decide)
  have hcode : (stateAfter [.failure 7800000, .evaluation 6000000, .failure 0, .failure 0, .failure 0]).map
      (fun s => (Backoff.evaluate .terminalOsLogin s 7801000).map fun r => r.1.allowed) =
        some (some true) := by decide
  rw [hstate, Option.map_some, he] at hcode
  have hallowed : decision.allowed = true := Option.some.inj (Option.some.inj hcode)
  have hdenied : decision.allowed = false :=
    hiff.2 ⟨by decide, 7800000, rfl, by decide⟩
  rw [hallowed] at hdenied
  cases hdenied

end Calls

end FontisRemote.Login.Backoff
