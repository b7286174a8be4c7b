import FontisRemote.Lib.Run
import FontisRemote.Login.Failures

/-!
# Guessing passwords and codes

Login attempts over any number of connections, each cut into the critical sections it takes:
`check_failure`, the verification, `update_failure`, and for a password the two calls of
`check_update_temporary_password`. Attempts of all addresses interleave in any way, every
verification may come out in any way, and the temporary password may be replaced at any moment.
-/

namespace FontisRemote.Login

open FontisRemote.Lib

/-- The counters of passwords and of second factors. -/
inductive Bucket where
  | password
  | twoFactor
  deriving DecidableEq, Repr

/-- How a verification came out: the temporary password, the permanent or preset one, the code of the
second factor, nothing, or a code that could not be checked. -/
inductive Verdict where
  | temporary
  | permanent
  | code
  | wrong
  | unchecked
  deriving DecidableEq, Repr

/-- Which critical section an attempt has behind it. -/
inductive Progress where
  /-- Past `check_failure`. -/
  | checked
  /-- The temporary password matched, to be noted by `check_update_temporary_password(true)`. -/
  | matchedTemporary
  /-- Verified, before `update_failure(.., true, ..)`. -/
  | verified
  /-- Wrong, before `update_failure(.., false, ..)`. -/
  | failed
  /-- A wrong password, counted, before `check_update_temporary_password(false)`. -/
  | counted
  deriving DecidableEq, Repr

namespace Progress

/-- Between `check_failure` and `update_failure`. -/
def beforeUpdate : Progress → Bool
  | .counted => false
  | _ => true

def isFailed : Progress → Bool
  | .failed => true
  | _ => false

end Progress

structure Attempt where
  bucket : Bucket
  ip : Address
  failure : FailureEntry
  time : Int
  progress : Progress
  deriving DecidableEq, Repr

/-- `TEMPORARY_PASSWORD_FAILURES`. -/
structure TemporaryFailures where
  password : String
  failures : Nat
  deriving DecidableEq, Repr

def maxConsecutiveFailures : Nat := 10

/-- `check_update_temporary_password`: the temporary password afterwards (`fresh` if it is replaced)
and the state. -/
def checkUpdateTemporaryPassword (temporaryEnabled : Bool) (current : String) (state : TemporaryFailures)
    (success : Bool) (fresh : String) : String × TemporaryFailures :=
  if !temporaryEnabled then (current, state)
  else if current = "" then (current, state)
  else
    let state := if state.password ≠ current then ⟨current, 0⟩ else state
    if success then (current, { state with failures := 0 })
    else
      let state := { state with failures := state.failures + 1 }
      if state.failures < maxConsecutiveFailures then (current, state)
      else (fresh, ⟨fresh, 0⟩)

structure Guessing where
  failures : Bucket → FailureMap
  temporary : String
  tracked : TemporaryFailures
  attempts : List Attempt

inductive GuessEvent where
  | check (bucket : Bucket) (ip : Address) (time : Int)
  | verify (i : Nat) (v : Verdict)
  /-- The next critical section of an attempt past its verification. -/
  | settle (i : Nat) (fresh : String)
  | rotate (value : String)
  deriving DecidableEq, Repr

/-- What a verdict makes of an attempt: its progress, or none if it ends here. -/
def Verdict.progress (temporaryEnabled : Bool) : Bucket → Verdict → Option (Option Progress)
  | .password, .temporary => if temporaryEnabled then some (some .matchedTemporary) else none
  | .password, .permanent => some (some .verified)
  | .password, .wrong => some (some .failed)
  | .twoFactor, .code => some (some .verified)
  | .twoFactor, .wrong => some (some .failed)
  | .twoFactor, .unchecked => some none
  | _, _ => none

namespace Guessing

/-- Leave an attempt at a new progress, or drop it. -/
def put (s : Guessing) (i : Nat) (a : Attempt) : Option Progress → Guessing
  | some p => { s with attempts := s.attempts.set i { a with progress := p } }
  | none => { s with attempts := s.attempts.eraseIdx i }

/-- `update_failure` of an attempt. -/
def updateFailure (s : Guessing) (a : Attempt) (remove : Bool) : Guessing :=
  { s with
    failures := Function.update s.failures a.bucket
      (Login.updateFailure (s.failures a.bucket) a.ip a.failure a.time remove) }

/-- `check_update_temporary_password` of an attempt. -/
def updateTemporary (s : Guessing) (temporaryEnabled success : Bool) (fresh : String) : Guessing :=
  let r := checkUpdateTemporaryPassword temporaryEnabled s.temporary s.tracked success fresh
  { s with temporary := r.1, tracked := r.2 }

def step (temporaryEnabled : Bool) (s : Guessing) : GuessEvent → Option Guessing
  | .check bucket ip time =>
    let c := checkFailure (s.failures bucket) ip time
    match c.refusal with
    | some _ => some s
    | none => some { s with attempts := s.attempts ++ [⟨bucket, ip, c.failure, c.time, .checked⟩] }
  | .verify i v =>
    match s.attempts[i]? with
    | none => none
    | some a =>
      match a.progress, v.progress temporaryEnabled a.bucket with
      | .checked, some p => some (s.put i a p)
      | _, _ => none
  | .settle i fresh =>
    match s.attempts[i]? with
    | none => none
    | some a =>
      match a.progress with
      | .checked => none
      | .matchedTemporary =>
        some ((s.updateTemporary temporaryEnabled true fresh).put i a (some .verified))
      | .verified => some ((s.updateFailure a true).put i a none)
      | .failed =>
        match a.bucket with
        | .password => some ((s.updateFailure a false).put i a (some .counted))
        | .twoFactor => some ((s.updateFailure a false).put i a none)
      | .counted => some ((s.updateTemporary temporaryEnabled false fresh).put i a none)
  | .rotate value => some { s with temporary := value }

def Init (s : Guessing) : Prop :=
  s.failures = (fun _ => .empty) ∧ s.tracked = ⟨"", 0⟩ ∧ s.attempts = []

end Guessing

/-! ## Counting -/

section Count

variable {l : List Attempt} {i : Nat} {a : Attempt}

/-- Replacing or dropping one attempt changes a count by that one. -/
theorem countP_at (h : l[i]? = some a) (p : Attempt → Bool) :
    ∃ n, l.countP p = n + (if p a then 1 else 0) ∧
      (∀ b, (l.set i b).countP p = n + (if p b then 1 else 0)) ∧ (l.eraseIdx i).countP p = n := by
  induction l generalizing i with
  | nil => cases h
  | cons x l ih =>
    cases i with
    | zero =>
      simp only [List.getElem?_cons_zero, Option.some.injEq] at h
      subst h
      refine ⟨l.countP p, by rw [List.countP_cons], fun b => ?_, rfl⟩
      rw [List.set_cons_zero, List.countP_cons]
    | succ i =>
      simp only [List.getElem?_cons_succ] at h
      obtain ⟨n, h1, h2, h3⟩ := ih h
      refine ⟨n + (if p x then 1 else 0), ?_, fun b => ?_, ?_⟩
      · rw [List.countP_cons, h1]
        omega
      · rw [List.set_cons_succ, List.countP_cons, h2 b]
        omega
      · rw [List.eraseIdx_cons_succ, List.countP_cons, h3]

end Count

namespace Guessing

@[simp] theorem put_failures (s : Guessing) (i : Nat) (a : Attempt) (o : Option Progress) :
    (s.put i a o).failures = s.failures := by cases o <;> rfl

@[simp] theorem put_temporary (s : Guessing) (i : Nat) (a : Attempt) (o : Option Progress) :
    (s.put i a o).temporary = s.temporary := by cases o <;> rfl

@[simp] theorem put_tracked (s : Guessing) (i : Nat) (a : Attempt) (o : Option Progress) :
    (s.put i a o).tracked = s.tracked := by cases o <;> rfl

/-- How many attempts of a kind there are once one of them has moved on. -/
theorem countP_put {s : Guessing} {i : Nat} {a : Attempt} (h : s.attempts[i]? = some a)
    (p : Attempt → Bool) :
    ∃ n, s.attempts.countP p = n + (if p a then 1 else 0) ∧
      ∀ (s' : Guessing) (o : Option Progress), s'.attempts = s.attempts →
        (s'.put i a o).attempts.countP p =
          n + o.elim 0 fun q => if p { a with progress := q } then 1 else 0 := by
  obtain ⟨n, h1, h2, h3⟩ := countP_at h p
  refine ⟨n, h1, fun s' o hs' => ?_⟩
  cases o with
  | none =>
    simp only [put, hs', Option.elim_none, Nat.add_zero]
    exact h3
  | some q =>
    simp only [put, hs', Option.elim_some]
    exact h2 _

/-- One step, by its cause. -/
inductive Took (enabled : Bool) (s : Guessing) : GuessEvent → Guessing → Prop
  | refused {b : Bucket} {ip : Address} {time : Int} : Took enabled s (.check b ip time) s
  | admitted {b : Bucket} {ip : Address} {time : Int} {c : Checked} :
      checkFailure (s.failures b) ip time = c → c.refusal = none →
      Took enabled s (.check b ip time)
        { s with attempts := s.attempts ++ [⟨b, ip, c.failure, c.time, .checked⟩] }
  | verified {i : Nat} {a : Attempt} {v : Verdict} {o : Option Progress} :
      s.attempts[i]? = some a → a.progress = .checked → v.progress enabled a.bucket = some o →
      Took enabled s (.verify i v) (s.put i a o)
  | noted {i : Nat} {a : Attempt} {fresh : String} : s.attempts[i]? = some a →
      a.progress = .matchedTemporary →
      Took enabled s (.settle i fresh) ((s.updateTemporary enabled true fresh).put i a (some .verified))
  | cleared {i : Nat} {a : Attempt} {fresh : String} : s.attempts[i]? = some a →
      a.progress = .verified →
      Took enabled s (.settle i fresh) ((s.updateFailure a true).put i a none)
  | bumped {i : Nat} {a : Attempt} {fresh : String} {o : Option Progress} : s.attempts[i]? = some a →
      a.progress = .failed → o = (match a.bucket with
        | .password => some .counted
        | .twoFactor => none) →
      Took enabled s (.settle i fresh) ((s.updateFailure a false).put i a o)
  | tallied {i : Nat} {a : Attempt} {fresh : String} : s.attempts[i]? = some a →
      a.progress = .counted →
      Took enabled s (.settle i fresh) ((s.updateTemporary enabled false fresh).put i a none)
  | rotated {value : String} : Took enabled s (.rotate value) { s with temporary := value }

theorem took_of_step {enabled : Bool} {s s' : Guessing} {e : GuessEvent}
    (h : s.step enabled e = some s') : Took enabled s e s' := by
  cases e with
  | check b ip time =>
    simp only [step] at h
    split at h
    · cases h
      exact .refused
    · next hr =>
      cases h
      exact .admitted rfl hr
  | verify i v =>
    simp only [step] at h
    split at h
    · cases h
    next a ha =>
    split at h
    · next hp ho =>
      cases h
      exact .verified ha hp ho
    · cases h
  | settle i fresh =>
    simp only [step] at h
    split at h
    · cases h
    next a ha =>
    split at h
    · cases h
    · next hp =>
      cases h
      exact .noted ha hp
    · next hp =>
      cases h
      exact .cleared ha hp
    · next hp =>
      split at h
      · next hb =>
        cases h
        exact .bumped ha hp (by rw [hb])
      · next hb =>
        cases h
        exact .bumped ha hp (by rw [hb])
    · next hp =>
      cases h
      exact .tallied ha hp
  | rotate value =>
    cases h
    exact .rotated

/-! ## The address counters -/

section Address

variable (b : Bucket) (k : FailureKey)

/-- The attempt counts under the key. -/
def under (a : Attempt) : Bool := a.bucket = b && decide (k ∈ failureKeys a.ip)

/-- The attempts under a key at the progress asked for. -/
def among (f : Progress → Bool) (s : Guessing) : Nat :=
  s.attempts.countP fun a => under b k a && f a.progress

/-- The attempts under a key between check and update. -/
def inFlight (s : Guessing) : Nat := among b k Progress.beforeUpdate s

/-- The wrong guesses under a key that are not counted yet. -/
def uncounted (s : Guessing) : Nat := among b k Progress.isFailed s

/-- The counter of a key. -/
def total (s : Guessing) : Nat := ((s.failures b).read k).total

/-- The attempt an event is about counts under the key and stands at `p`. -/
def concerns (p : Progress) (s : Guessing) (i : Nat) : Bool :=
  match s.attempts[i]? with
  | some a => under b k a && decide (a.progress = p)
  | none => false

/-- The event is a wrong verification under the key. -/
def guessesWrong (p : Guessing × GuessEvent) : Bool :=
  match p.2 with
  | .verify i .wrong => concerns b k .checked p.1 i
  | _ => false

/-- The event is the update of a successful attempt under the key. -/
def settlesSuccess (p : Guessing × GuessEvent) : Bool :=
  match p.2 with
  | .settle i _ => concerns b k .verified p.1 i
  | _ => false

variable {b k} {enabled : Bool} {s s' : Guessing} {e : GuessEvent} {i : Nat} {a : Attempt}

theorem under_iff : under b k a = true ↔ a.bucket = b ∧ k ∈ failureKeys a.ip := by
  simp [under]

/-- What a bump by an attempt does to the counter of the key. -/
theorem total_bump (s : Guessing) (a : Attempt) :
    total b k (s.updateFailure a false) = total b k s + (under b k a).toNat := by
  unfold total updateFailure under
  by_cases hb : a.bucket = b
  · subst hb
    simp only [Function.update_self, updateFailure_bump]
    by_cases hk : k ∈ failureKeys a.ip
    · simp [hk, bumpFailureEntry_total]
    · simp [hk]
  · have hb' : b ≠ a.bucket := fun h => hb h.symm
    simp [Function.update_of_ne hb', hb]

/-- What a removal does to it. -/
theorem total_remove (s : Guessing) (a : Attempt) :
    total b k (s.updateFailure a true) =
      if under b k a = true ∧ a.failure.minute ≠ 0 then 0 else total b k s := by
  simp only [under_iff]
  unfold total updateFailure
  by_cases hb : a.bucket = b
  · subst hb
    simp only [Function.update_self, updateFailure_remove, true_and]
    by_cases hk : k ∈ failureKeys a.ip
    · by_cases hm : a.failure.minute = 0
      · simp [hm]
      · simp [hk, hm, FailureEntry.zero]
    · simp [hk]
  · have hb' : b ≠ a.bucket := fun h => hb h.symm
    simp [Function.update_of_ne hb', hb]

/-- How the attempts under a key change when one moves on. -/
theorem among_put (f : Progress → Bool) (ha : s.attempts[i]? = some a) :
    ∃ n, among b k f s = n + (under b k a && f a.progress).toNat ∧
      ∀ (s₁ : Guessing) (o : Option Progress), s₁.attempts = s.attempts →
        among b k f (s₁.put i a o) = n + o.elim 0 fun q => (under b k a && f q).toNat := by
  obtain ⟨n, h1, h2⟩ := countP_put ha fun a => under b k a && f a.progress
  refine ⟨n, ?_, fun s₁ o hs₁ => ?_⟩
  · unfold among
    rw [h1]
    cases under b k a && f a.progress <;> rfl
  · unfold among
    rw [h2 s₁ o hs₁]
    cases o with
    | none => rfl
    | some q =>
      have hu : under b k { a with progress := q } = under b k a := rfl
      simp only [Option.elim_some, hu]
      cases under b k a && f q <;> rfl

/-- A step adds to counter and attempts in flight together only when a check passes. -/
theorem Took.total_inFlight (h : Took enabled s e s') :
    total b k s' + inFlight b k s' ≤ total b k s + inFlight b k s ∨
      (total b k s' = total b k s ∧ total b k s ≤ keyLimit k) := by
  unfold inFlight
  cases h with
  | refused => exact Or.inl (le_refl _)
  | admitted hc hr =>
    rename_i b' ip time c
    by_cases hm : b' = b ∧ k ∈ failureKeys ip
    · obtain ⟨rfl, hk⟩ := hm
      subst hc
      exact Or.inr ⟨rfl, checkFailure_pass hr k hk⟩
    · refine Or.inl ?_
      have hnot : under b k ⟨b', ip, c.failure, c.time, .checked⟩ = false := by
        rw [Bool.eq_false_iff, Ne, under_iff]
        exact hm
      simp [among, total, hnot]
  | verified ha hp ho =>
    rename_i i a v o
    obtain ⟨n, h1, h2⟩ := among_put (b := b) (k := k) Progress.beforeUpdate ha
    have h3 := h2 s o rfl
    refine Or.inl ?_
    simp only [total, put_failures]
    rw [hp] at h1
    cases o with
    | none =>
      simp only [Option.elim_none] at h3
      omega
    | some q =>
      simp only [Progress.beforeUpdate, Bool.and_true] at h1
      simp only [Option.elim_some] at h3
      have hle : (under b k a && q.beforeUpdate).toNat ≤ (under b k a).toNat := by
        cases under b k a <;> cases q.beforeUpdate <;> decide
      omega
  | noted ha hp =>
    rename_i i a fresh
    obtain ⟨n, h1, h2⟩ := among_put (b := b) (k := k) Progress.beforeUpdate ha
    have h3 := h2 (s.updateTemporary enabled true fresh) (some .verified) rfl
    refine Or.inl ?_
    simp only [hp, Progress.beforeUpdate, Bool.and_true, Option.elim_some] at h1 h3
    simp only [total, put_failures, updateTemporary] at *
    omega
  | cleared ha hp =>
    rename_i i a fresh
    obtain ⟨n, h1, h2⟩ := among_put (b := b) (k := k) Progress.beforeUpdate ha
    have h3 := h2 (s.updateFailure a true) none rfl
    have h5 : total b k (s.updateFailure a true) ≤ total b k s := by
      rw [total_remove]
      split <;> omega
    refine Or.inl ?_
    simp only [total, put_failures, Option.elim_none] at *
    omega
  | bumped ha hp ho =>
    rename_i i a fresh o
    obtain ⟨n, h1, h2⟩ := among_put (b := b) (k := k) Progress.beforeUpdate ha
    have h3 := h2 (s.updateFailure a false) o rfl
    have h4 := total_bump (b := b) (k := k) s a
    have h5 : (o.elim 0 fun q => (under b k a && q.beforeUpdate).toNat) = 0 := by
      subst ho
      cases a.bucket <;> simp [Progress.beforeUpdate]
    simp only [hp, Progress.beforeUpdate, Bool.and_true] at h1
    refine Or.inl ?_
    simp only [total, put_failures] at *
    omega
  | tallied ha hp =>
    rename_i i a fresh
    obtain ⟨n, h1, h2⟩ := among_put (b := b) (k := k) Progress.beforeUpdate ha
    have h3 := h2 (s.updateTemporary enabled false fresh) none rfl
    refine Or.inl ?_
    simp only [total, put_failures, updateTemporary, Option.elim_none] at *
    omega
  | rotated => exact Or.inl (le_refl _)

theorem guessesWrong_verify (ha : s.attempts[i]? = some a) (hp : a.progress = .checked)
    {v : Verdict} :
    guessesWrong b k (s, .verify i v) = (decide (v = .wrong) && under b k a) := by
  cases v <;> simp [guessesWrong, concerns, ha, hp]

theorem Verdict.progress_failed {v : Verdict} {b : Bucket} {o : Option Progress}
    (h : v.progress enabled b = some o) : o = some .failed ↔ v = .wrong := by
  cases v <;> cases b <;> simp [Verdict.progress] at h <;> try subst h
  all_goals simp_all
  obtain ⟨-, rfl⟩ := h
  simp

/-- Wrong guesses end up in the counter: what a step guesses wrong is counted or still to be, unless
the step is the update of a success. -/
theorem Took.total_uncounted (h : Took enabled s e s') (hs : settlesSuccess b k (s, e) = false) :
    total b k s + uncounted b k s + (guessesWrong b k (s, e)).toNat ≤
      total b k s' + uncounted b k s' := by
  unfold uncounted
  cases h with
  | refused => simp [guessesWrong]
  | admitted hc hr => simp [guessesWrong, among, total, Progress.isFailed]
  | verified ha hp ho =>
    rename_i i a v o
    obtain ⟨n, h1, h2⟩ := among_put (b := b) (k := k) Progress.isFailed ha
    have h3 := h2 s o rfl
    have hwrong := Verdict.progress_failed ho
    rw [hp] at h1
    rw [guessesWrong_verify ha hp, h1, h3]
    simp only [total, put_failures]
    cases o with
    | none =>
      have hv : v ≠ .wrong := fun h => by simp [h] at hwrong
      simp [hv, Progress.isFailed]
    | some q =>
      by_cases hv : v = .wrong
      · have hq : q = .failed := by simpa [hv] using hwrong
        simp only [hv, hq, Progress.isFailed, Bool.and_true, Bool.and_false, Bool.toNat_false,
          decide_true, Bool.true_and, Option.elim_some]
        omega
      · simp [hv, Progress.isFailed]
  | noted ha hp =>
    rename_i i a fresh
    obtain ⟨n, h1, h2⟩ := among_put (b := b) (k := k) Progress.isFailed ha
    have h3 := h2 (s.updateTemporary enabled true fresh) (some .verified) rfl
    simp only [hp, Progress.isFailed, Bool.and_false, Bool.toNat_false, Option.elim_some] at h1 h3
    simp only [total, put_failures, updateTemporary, guessesWrong, Bool.toNat_false] at *
    omega
  | cleared ha hp =>
    rename_i i a fresh
    obtain ⟨n, h1, h2⟩ := among_put (b := b) (k := k) Progress.isFailed ha
    have h3 := h2 (s.updateFailure a true) none rfl
    have hu : under b k a = false := by
      simpa [settlesSuccess, concerns, ha, hp] using hs
    have h4 := total_remove (b := b) (k := k) s a
    simp only [hp, Progress.isFailed, Bool.and_false, Bool.toNat_false, Option.elim_none] at h1 h3
    simp only [hu, Bool.false_eq_true, false_and, if_false] at h4
    simp only [total, put_failures, guessesWrong, Bool.toNat_false] at *
    omega
  | bumped ha hp ho =>
    rename_i i a fresh o
    obtain ⟨n, h1, h2⟩ := among_put (b := b) (k := k) Progress.isFailed ha
    have h3 := h2 (s.updateFailure a false) o rfl
    have h4 := total_bump (b := b) (k := k) s a
    simp only [hp, Progress.isFailed, Bool.and_true] at h1
    simp only [total, put_failures, guessesWrong, Bool.toNat_false] at *
    omega
  | tallied ha hp =>
    rename_i i a fresh
    obtain ⟨n, h1, h2⟩ := among_put (b := b) (k := k) Progress.isFailed ha
    have h3 := h2 (s.updateTemporary enabled false fresh) none rfl
    simp only [hp, Progress.isFailed, Bool.and_false, Bool.toNat_false, Option.elim_none] at h1 h3
    simp only [total, put_failures, updateTemporary, guessesWrong, Bool.toNat_false] at *
    omega
  | rotated => simp [guessesWrong, among, total]

end Address

end Guessing

end FontisRemote.Login
