import FontisRemote.Login.Guessing

/-!
# How often a password can be guessed

The limits over whole runs. A key's counter and the attempts in flight under it never exceed the
limit of the key by more than the attempts that may be in flight at once, because a check adds an
attempt only while the counter is within the limit and everything later only moves attempts into the
counter. Wrong guesses go the same way into the counter, so that they are bounded with it until the
update of a success clears it.

The bound is between *updates* of successes. Between successful verifications it can be exceeded: a
success whose update comes late clears failures counted after its verification (`Late` below).
-/

namespace FontisRemote.Login

open FontisRemote.Lib

namespace Guessing

/-! ## The address counters over a run -/

section Address

variable {b : Bucket} {k : FailureKey} {enabled : Bool} {s s' : Guessing} {e : GuessEvent}
  {h : List (Guessing × GuessEvent)}

theorem total_init (hi : Init s) : total b k s = 0 := by
  simp [total, hi.1, FailureMap.read, FailureMap.empty, FailureEntry.zero]

/-- The counter of a key and the attempts in flight under it. -/
theorem total_inFlight_le {n : Nat} (hx : Exec Init (step enabled) h s)
    (hn : ∀ p ∈ h, inFlight b k p.1 ≤ n) (hs : inFlight b k s ≤ n) :
    total b k s + inFlight b k s ≤ keyLimit k + n := by
  induction hx with
  | start hi =>
    rw [total_init hi]
    omega
  | snoc hx hstep ih =>
    have hprev := ih (fun p hp => hn p (List.mem_cons_of_mem _ hp)) (hn _ (List.mem_cons_self ..))
    rcases (took_of_step hstep).total_inFlight (b := b) (k := k) with hle | ⟨heq, hlim⟩
    · omega
    · omega

theorem uncounted_le_inFlight (s : Guessing) : uncounted b k s ≤ inFlight b k s := by
  apply List.countP_mono_left
  intro a _ ha
  rw [Bool.and_eq_true] at ha ⊢
  refine ⟨ha.1, ?_⟩
  cases hp : a.progress <;> simp_all [Progress.isFailed, Progress.beforeUpdate]

/-- The wrong guesses of a stretch without the update of a success are counted or still to be. -/
theorem wrong_le_total_uncounted {newer older : List (Guessing × GuessEvent)}
    (hx : Exec Init (step enabled) (newer ++ older) s)
    (hno : ∀ p ∈ newer, settlesSuccess b k p = false) :
    newer.countP (guessesWrong b k) ≤ total b k s + uncounted b k s := by
  induction newer generalizing s with
  | nil => simp
  | cons p newer ih =>
    cases hx with
    | snoc hx hstep =>
      have hprev := ih hx fun q hq => hno q (List.mem_cons_of_mem _ hq)
      have hnow := (took_of_step hstep).total_uncounted (hno _ (List.mem_cons_self ..))
      rw [List.countP_cons]
      have hone : ∀ c : Bool, (if c = true then 1 else 0) = c.toNat := by decide
      rw [hone]
      omega

/-- The limit of a key over every stretch without the update of a success. -/
theorem wrong_le_limit {newer older : List (Guessing × GuessEvent)} {n : Nat}
    (hx : Exec Init (step enabled) (newer ++ older) s)
    (hn : ∀ p ∈ newer ++ older, inFlight b k p.1 ≤ n) (hs : inFlight b k s ≤ n)
    (hno : ∀ p ∈ newer, settlesSuccess b k p = false) :
    newer.countP (guessesWrong b k) ≤ keyLimit k + n := by
  have h1 := wrong_le_total_uncounted hx hno
  have h2 := total_inFlight_le hx hn hs
  have h3 := uncounted_le_inFlight (b := b) (k := k) s
  omega

variable (b k)

/-- The event is the update of a wrong attempt under the key. -/
def countsFailure (p : Guessing × GuessEvent) : Bool :=
  match p.2 with
  | .settle i _ => concerns b k .failed p.1 i
  | _ => false

/-- The event is the update of a success under the key whose check saw a failure. -/
def clearsFailures (p : Guessing × GuessEvent) : Bool :=
  match p.2 with
  | .settle i _ =>
    concerns b k .verified p.1 i && (p.1.attempts[i]?.any fun a => a.failure.minute ≠ 0)
  | _ => false

variable {b k}

/-- A step changes a counter by exactly what it says it does. -/
theorem Took.total_eq (h : Took enabled s e s') :
    total b k s' = if clearsFailures b k (s, e) then 0
      else total b k s + (countsFailure b k (s, e)).toNat := by
  cases h with
  | refused => simp [clearsFailures, countsFailure]
  | admitted hc hr => simp [clearsFailures, countsFailure, total]
  | verified ha hp ho => simp [clearsFailures, countsFailure, total]
  | noted ha hp => simp [clearsFailures, countsFailure, total, concerns, ha, hp, updateTemporary]
  | cleared ha hp =>
    rename_i i a fresh
    have h1 := total_remove (b := b) (k := k) s a
    simp only [total, put_failures] at h1 ⊢
    rw [h1]
    by_cases hu : under b k a = true
    · simp [clearsFailures, countsFailure, concerns, ha, hp, hu]
    · simp [clearsFailures, countsFailure, concerns, ha, hp, hu]
  | bumped ha hp ho =>
    rename_i i a fresh o
    have h1 := total_bump (b := b) (k := k) s a
    simp only [total, put_failures] at h1 ⊢
    rw [h1]
    simp [clearsFailures, countsFailure, concerns, ha, hp]
  | tallied ha hp => simp [clearsFailures, countsFailure, total, concerns, ha, hp, updateTemporary]
  | rotated => simp [clearsFailures, countsFailure, total]

/-- No failure is lost: the counter is the number of failures counted since it was last cleared. -/
theorem total_eq_counted (hx : Exec Init (step enabled) h s) :
    total b k s =
      (h.takeWhile fun p => !clearsFailures b k p).countP (countsFailure b k) := by
  induction hx with
  | start hi => simp [total_init hi]
  | snoc hx hstep ih =>
    rename_i h₀ t t' d
    rw [(took_of_step hstep).total_eq]
    by_cases hc : clearsFailures b k (t, d) = true
    · simp [hc]
    · simp only [hc, Bool.false_eq_true, if_false, List.takeWhile_cons, Bool.not_false, if_true,
        List.countP_cons, ih]
      cases countsFailure b k (t, d) <;> rfl

theorem Took.inMinute_le (h : Took enabled s e s')
    (hi : ((s.failures b).read k).inMinute ≤ ((s.failures b).read k).total) :
    ((s'.failures b).read k).inMinute ≤ ((s'.failures b).read k).total := by
  have key : ∀ (a : Attempt) (remove : Bool),
      (((s.updateFailure a remove).failures b).read k).inMinute ≤
        (((s.updateFailure a remove).failures b).read k).total := by
    intro a remove
    unfold updateFailure
    by_cases hb : a.bucket = b
    · subst hb
      simp only [Function.update_self]
      cases remove with
      | true =>
        rw [updateFailure_remove]
        split
        · exact le_refl _
        · exact hi
      | false =>
        rw [updateFailure_bump]
        split
        · exact bumpFailureEntry_inMinute _ hi
        · exact hi
    · have hb' : b ≠ a.bucket := fun h => hb h.symm
      simpa only [Function.update_of_ne hb'] using hi
  cases h with
  | refused => exact hi
  | admitted hc hr => exact hi
  | verified ha hp ho => simpa using hi
  | noted ha hp => simpa [updateTemporary] using hi
  | cleared ha hp => simpa using key _ true
  | bumped ha hp ho => simpa using key _ false
  | tallied ha hp => simpa [updateTemporary] using hi
  | rotated => exact hi

/-- The failures of a minute are among all of them. -/
theorem inMinute_le_total (hx : Exec Init (step enabled) h s) :
    ((s.failures b).read k).inMinute ≤ ((s.failures b).read k).total := by
  refine hx.invariant (I := fun s =>
    ((s.failures b).read k).inMinute ≤ ((s.failures b).read k).total) ?_ ?_
  · intro s hi
    rw [hi.1]
    exact le_refl _
  · intro s e s' hi hstep
    exact (took_of_step hstep).inMinute_le hi

end Address

/-! ## The temporary password over a run -/

section Temporary

/-- A wrong password, not yet counted against the temporary one. -/
def isPending (a : Attempt) : Bool :=
  a.bucket = .password && (a.progress = .failed || a.progress = .counted)

def pending (s : Guessing) : Nat := s.attempts.countP isPending

/-- The event is a wrong verification of a password, from whichever address. -/
def guessesPassword (p : Guessing × GuessEvent) : Bool :=
  match p.2 with
  | .verify i .wrong => p.1.attempts[i]?.any fun a => a.bucket = .password
  | _ => false

/-- The event is `check_update_temporary_password` of an attempt at `q`. -/
def reports (q : Progress) (p : Guessing × GuessEvent) : Bool :=
  match p.2 with
  | .settle i _ => p.1.attempts[i]?.any fun a => a.progress = q
  | _ => false

/-- The failures counted against the value in use. -/
def counted (s : Guessing) : Nat := if s.tracked.password = s.temporary then s.tracked.failures else 0

/-- The event draws a new temporary password. -/
def draws (p : Guessing × GuessEvent) : Bool :=
  match p.2 with
  | .rotate _ => true
  | _ => reports .counted p && decide (maxConsecutiveFailures ≤ counted p.1 + 1)

variable {s s' : Guessing} {e : GuessEvent} {h : List (Guessing × GuessEvent)}

theorem updateTemporary_success (s : Guessing) (fresh : String) :
    (s.updateTemporary true true fresh).temporary = s.temporary ∧
      (s.updateTemporary true true fresh).tracked.failures ≤ s.tracked.failures := by
  unfold updateTemporary checkUpdateTemporaryPassword
  by_cases hv : s.temporary = ""
  · simp [hv]
  · simp [hv]

theorem updateTemporary_failure (s : Guessing) (fresh : String) (hv : s.temporary ≠ "")
    (hd : counted s + 1 < maxConsecutiveFailures) :
    (s.updateTemporary true false fresh).temporary = s.temporary ∧
      (s.updateTemporary true false fresh).tracked = ⟨s.temporary, counted s + 1⟩ := by
  unfold counted at hd ⊢
  unfold updateTemporary checkUpdateTemporaryPassword
  by_cases ht : s.tracked.password = s.temporary
  · simp only [ht, if_true] at hd
    simp [hv, ht, hd]
  · simp only [ht, if_false] at hd
    simp [hv, ht, hd]

theorem updateTemporary_empty (s : Guessing) (success : Bool) (fresh : String)
    (hv : s.temporary = "") : (s.updateTemporary true success fresh).temporary = s.temporary := by
  simp [updateTemporary, checkUpdateTemporaryPassword, hv]

/-- The counter of the temporary password stays below the number that has it replaced. -/
theorem updateTemporary_below (s : Guessing) (enabled success : Bool) (fresh : String)
    (hb : s.tracked.failures < maxConsecutiveFailures) :
    (s.updateTemporary enabled success fresh).tracked.failures < maxConsecutiveFailures := by
  unfold updateTemporary checkUpdateTemporaryPassword
  cases enabled with
  | false => exact hb
  | true =>
    by_cases hv : s.temporary = ""
    · simpa [hv] using hb
    · cases success with
      | true => simp [hv, maxConsecutiveFailures]
      | false =>
        simp only [hv, Bool.not_true, Bool.false_eq_true, if_false]
        generalize (if s.tracked.password ≠ s.temporary then ⟨s.temporary, 0⟩ else s.tracked :
          TemporaryFailures) = t
        by_cases hlt : t.failures + 1 < maxConsecutiveFailures
        · rw [if_pos hlt]
          exact hlt
        · rw [if_neg hlt]
          exact Nat.zero_lt_succ _

theorem tracked_below {enabled : Bool} (hx : Exec Init (step enabled) h s) :
    s.tracked.failures < maxConsecutiveFailures := by
  refine hx.invariant (I := fun s => s.tracked.failures < maxConsecutiveFailures) ?_ ?_
  · intro s hi
    rw [hi.2.1]
    decide
  · intro s e s' hi hstep
    cases took_of_step hstep with
    | refused => exact hi
    | admitted hc hr => exact hi
    | verified ha hp ho => simpa using hi
    | noted ha hp => simpa using updateTemporary_below s enabled true _ hi
    | cleared ha hp => simpa [updateFailure] using hi
    | bumped ha hp ho => simpa [updateFailure] using hi
    | tallied ha hp => simpa using updateTemporary_below s enabled false _ hi
    | rotated => exact hi

/-- How the pending attempts change when one moves on. -/
theorem pending_put {i : Nat} {a : Attempt} (ha : s.attempts[i]? = some a) :
    ∃ n, pending s = n + (isPending a).toNat ∧
      ∀ (s₁ : Guessing) (o : Option Progress), s₁.attempts = s.attempts →
        pending (s₁.put i a o) =
          n + o.elim 0 fun q => (isPending { a with progress := q }).toNat := by
  obtain ⟨n, h1, h2⟩ := countP_put ha isPending
  refine ⟨n, ?_, fun s₁ o hs₁ => ?_⟩
  · unfold pending
    rw [h1]
    cases isPending a <;> rfl
  · unfold pending
    rw [h2 s₁ o hs₁]
    cases o with
    | none => rfl
    | some q =>
      simp only [Option.elim_some]
      cases isPending { a with progress := q } <;> rfl

/-- Every wrong password is pending until it is counted against the temporary one. -/
theorem Took.pending_le {enabled : Bool} (h : Took enabled s e s') :
    pending s + (guessesPassword (s, e)).toNat ≤
      pending s' + (reports .counted (s, e)).toNat := by
  cases h with
  | refused => simp [guessesPassword]
  | admitted hc hr => simp [guessesPassword, pending, isPending]
  | verified ha hp ho =>
    rename_i i a v o
    obtain ⟨n, h1, h2⟩ := pending_put ha
    have h3 := h2 s o rfl
    have h4 : isPending a = false := by simp [isPending, hp]
    rw [h1, h3, h4]
    by_cases hv : v = .wrong
    · subst hv
      cases hb : a.bucket with
      | password =>
        have ho' : o = some .failed := by simpa [hb, Verdict.progress] using ho.symm
        subst ho'
        simp [guessesPassword, ha, hb, isPending]
      | twoFactor =>
        simp [guessesPassword, ha, hb]
        omega
    · have h5 : guessesPassword (s, .verify i v) = false := by
        cases v <;> simp [guessesPassword] at hv ⊢
      rw [h5]
      simp
      omega
  | noted ha hp =>
    rename_i i a fresh
    obtain ⟨n, h1, h2⟩ := pending_put ha
    have h3 := h2 (s.updateTemporary enabled true fresh) (some .verified) rfl
    have h4 : isPending a = false := by simp [isPending, hp]
    rw [h1, h3, h4]
    simp [guessesPassword]
    omega
  | cleared ha hp =>
    rename_i i a fresh
    obtain ⟨n, h1, h2⟩ := pending_put ha
    have h3 := h2 (s.updateFailure a true) none rfl
    have h4 : isPending a = false := by simp [isPending, hp]
    rw [h1, h3, h4]
    simp [guessesPassword]
  | bumped ha hp ho =>
    rename_i i a fresh o
    obtain ⟨n, h1, h2⟩ := pending_put ha
    have h3 := h2 (s.updateFailure a false) o rfl
    rw [h1, h3]
    cases hb : a.bucket with
    | password =>
      simp only [hb] at ho
      subst ho
      simp [guessesPassword, isPending, hb, hp]
    | twoFactor =>
      simp only [guessesPassword, isPending, hb]
      simp
      omega
  | tallied ha hp =>
    rename_i i a fresh
    obtain ⟨n, h1, h2⟩ := pending_put ha
    have h3 := h2 (s.updateTemporary enabled false fresh) none rfl
    have h4 : reports .counted (s, .settle i fresh) = true := by simp [reports, ha, hp]
    have h5 : (isPending a).toNat ≤ 1 := Bool.toNat_le _
    rw [h1, h3, h4]
    simp [guessesPassword]
    omega
  | rotated => simp [guessesPassword, pending]

/-- A step that draws no new value keeps the value, and counts one more failure against it exactly
when it reports one. -/
theorem Took.counted_eq (h : Took true s e s') (hd : draws (s, e) = false) :
    s'.temporary = s.temporary ∧
      (s.temporary ≠ "" → reports .matchedTemporary (s, e) = false →
        counted s' = counted s + (reports .counted (s, e)).toNat) := by
  cases h with
  | refused => simp [reports]
  | admitted hc hr => simp [reports, counted]
  | verified ha hp ho => simp [reports, counted]
  | noted ha hp =>
    rename_i i a fresh
    refine ⟨by simpa using (updateTemporary_success s fresh).1, fun _ hn => ?_⟩
    simp [reports, ha, hp] at hn
  | cleared ha hp => simp [reports, counted, ha, hp, updateFailure]
  | bumped ha hp ho => simp [reports, counted, ha, hp, updateFailure]
  | tallied ha hp =>
    rename_i i a fresh
    by_cases hv : s.temporary = ""
    · refine ⟨by simpa using updateTemporary_empty s false fresh hv, fun h => absurd hv h⟩
    · have hlt : counted s + 1 < maxConsecutiveFailures := by
        simpa [draws, reports, ha, hp] using hd
      obtain ⟨h1, h2⟩ := updateTemporary_failure s fresh hv hlt
      refine ⟨by simpa using h1, fun _ _ => ?_⟩
      unfold counted
      simp [h1, h2, reports, ha, hp, counted]
  | rotated => simp [draws] at hd

/-- The wrong passwords of a stretch that neither draws a new value nor notes a match of it are
counted against it or pending. -/
theorem wrong_le_counted_pending {newer older : List (Guessing × GuessEvent)}
    (hx : Exec Init (step true) (newer ++ older) s) (hv : s.temporary ≠ "")
    (hd : ∀ p ∈ newer, draws p = false)
    (hm : ∀ p ∈ newer, reports .matchedTemporary p = false) :
    newer.countP guessesPassword ≤ counted s + pending s := by
  induction newer generalizing s with
  | nil => simp
  | cons p newer ih =>
    cases hx with
    | snoc hx hstep =>
      have htook := took_of_step hstep
      obtain ⟨heq, hc⟩ := htook.counted_eq (hd _ (List.mem_cons_self ..))
      have hv' := heq ▸ hv
      have hprev := ih hx hv' (fun q hq => hd q (List.mem_cons_of_mem _ hq))
        fun q hq => hm q (List.mem_cons_of_mem _ hq)
      have hnow := hc hv' (hm _ (List.mem_cons_self ..))
      have hpend := htook.pending_le
      have hone : ∀ c : Bool, (if c = true then 1 else 0) = c.toNat := by decide
      rw [List.countP_cons, hone]
      omega

/-- How often a temporary password can be guessed at. -/
theorem wrong_le_temporary {newer older : List (Guessing × GuessEvent)} {n : Nat}
    (hx : Exec Init (step true) (newer ++ older) s) (hv : s.temporary ≠ "")
    (hd : ∀ p ∈ newer, draws p = false)
    (hm : ∀ p ∈ newer, reports .matchedTemporary p = false) (hn : s.attempts.length ≤ n) :
    newer.countP guessesPassword ≤ 9 + n := by
  have h1 := wrong_le_counted_pending hx hv hd hm
  have h2 := tracked_below hx
  have h3 : pending s ≤ s.attempts.length := List.countP_le_length
  have h4 : counted s ≤ s.tracked.failures := by
    unfold counted
    split <;> omega
  unfold maxConsecutiveFailures at h2
  omega

end Temporary

/-! ## The limits -/

/-- Guesses are limited under every interleaving. A run ends with any stretch `newer`, so that the
bounds hold for every stretch of every run:
 - with at most `n` attempts under a key in flight at once, at most `keyLimit k + n` wrong guesses
   are verified under it between updates of successes, and neither counter of it exceeds that;
 - the counter of a key is exactly the number of failures since it was last cleared;
 - with `n` attempts unfinished at the end, at most `9 + n` wrong passwords are verified while a
   temporary password stays in use and no match of it is noted, and its own counter stays below 10. -/
theorem guesses_limited {enabled : Bool} {h : List (Guessing × GuessEvent)} {s : Guessing}
    (hx : Exec Init (step enabled) h s) :
    (∀ (b : Bucket) (k : FailureKey) (n : Nat), (∀ p ∈ h, inFlight b k p.1 ≤ n) →
      inFlight b k s ≤ n →
      (∀ newer older, h = newer ++ older → (∀ p ∈ newer, settlesSuccess b k p = false) →
        newer.countP (guessesWrong b k) ≤ keyLimit k + n) ∧
      ((s.failures b).read k).total ≤ keyLimit k + n ∧
      ((s.failures b).read k).inMinute ≤ keyLimit k + n) ∧
    (∀ (b : Bucket) (k : FailureKey), ((s.failures b).read k).total =
      (h.takeWhile fun p => !clearsFailures b k p).countP (countsFailure b k)) ∧
    (enabled = true → s.temporary ≠ "" → ∀ newer older, h = newer ++ older →
      (∀ p ∈ newer, draws p = false) → (∀ p ∈ newer, reports .matchedTemporary p = false) →
      newer.countP guessesPassword ≤ 9 + s.attempts.length) ∧
    s.tracked.failures < maxConsecutiveFailures := by
  refine ⟨fun b k n hn hs => ?_, fun b k => total_eq_counted hx, ?_, tracked_below hx⟩
  · have htotal : ((s.failures b).read k).total ≤ keyLimit k + n := by
      have := total_inFlight_le hx hn hs
      simp only [total] at this
      omega
    refine ⟨?_, htotal, le_trans (inMinute_le_total hx) htotal⟩
    rintro newer older rfl hno
    exact wrong_le_limit hx hn hs hno
  · rintro rfl hv newer older rfl hd hm
    exact wrong_le_temporary hx hv hd hm (le_refl _)

/-! ### A success that is updated late -/

section Late

variable (b : Bucket) (k : FailureKey)

/-- The event is a successful verification under the key. -/
def guessesRight (p : Guessing × GuessEvent) : Bool :=
  match p.2 with
  | .verify i .temporary => concerns b k .checked p.1 i
  | .verify i .permanent => concerns b k .checked p.1 i
  | .verify i .code => concerns b k .checked p.1 i
  | _ => false

variable {b k} {h : List (Guessing × GuessEvent)} {s : Guessing} {a : BitVec 32}

/-- The entry of an IPv4 address for passwords. -/
def entryOf (s : Guessing) (a : BitVec 32) : FailureEntry :=
  (s.failures .password).read (.ip (.v4 a))

def Open (s : Guessing) (a : BitVec 32) (time : Int) : Prop :=
  (entryOf s a).total ≤ 30 ∧ (entryOf s a).minute ≠ time

theorem checkFailure_open {time : Int} (ho : Open s a time) :
    checkFailure (s.failures .password) (.v4 a) time = ⟨entryOf s a, time, none⟩ := by
  obtain ⟨h1, h2⟩ := ho
  have h3 : ¬ 30 < (entryOf s a).total := by omega
  have h4 : time ≠ (entryOf s a).minute := fun h => h2 h.symm
  unfold entryOf at h3 h4
  simp [checkFailure, getIpv6Prefixes, checkFailureDirect, entryOf, h3, h4]

/-- A check passes and adds its attempt at the end. -/
theorem step_check {time : Int} (ho : Open s a time) :
    s.step false (.check .password (.v4 a) time) = some { s with
      attempts := s.attempts ++ [⟨.password, .v4 a, entryOf s a, time, .checked⟩] } := by
  simp [step, checkFailure_open ho]

/-- The state with one more attempt at the end. -/
def withLast (s : Guessing) (x : Attempt) : Guessing := { s with attempts := s.attempts ++ [x] }

@[simp] theorem withLast_get (s : Guessing) (x : Attempt) :
    (s.withLast x).attempts[s.attempts.length]? = some x := by
  simp [withLast]

theorem withLast_put (s : Guessing) (x : Attempt) (o : Option Progress) :
    (s.withLast x).put s.attempts.length x o =
      o.elim s fun q => s.withLast { x with progress := q } := by
  cases o <;> simp [withLast, put, List.eraseIdx_append_of_length_le]

theorem inFlight_withLast (s : Guessing) (x : Attempt) :
    inFlight b k (s.withLast x) ≤ inFlight b k s + 1 := by
  simp only [inFlight, among, withLast, List.countP_append, List.countP_singleton]
  split <;> omega

/-- One wrong guess from an address, check to count, with whatever else is in flight. -/
theorem guess_once (hx : Exec Init (step false) h s) {time : Int} (ho : Open s a time) :
    ∃ h' s', Exec Init (step false) (h' ++ h) s' ∧ s'.attempts = s.attempts ∧
      entryOf s' a = ⟨time, 1, (entryOf s a).total + 1⟩ ∧
      h'.countP (guessesWrong .password (.ip (.v4 a))) = 1 ∧
      (∀ p ∈ h', guessesRight .password (.ip (.v4 a)) p = false) ∧
      ∀ p ∈ h', inFlight .password (.ip (.v4 a)) p.1 ≤
        inFlight .password (.ip (.v4 a)) s + 1 := by
  let x : Progress → Attempt := fun q => ⟨.password, .v4 a, entryOf s a, time, q⟩
  let s₁ := s.withLast (x .checked)
  let s₂ := s.withLast (x .failed)
  let s₃ := (s.updateFailure (x .failed) false).withLast (x .counted)
  let s₄ := s.updateFailure (x .failed) false
  have hkey : under .password (.ip (.v4 a)) (x .checked) = true := by
    simp [under, x, failureKeys, getIpv6Prefixes]
  have h1 : s.step false (.check .password (.v4 a) time) = some s₁ := step_check ho
  have h2 : s₁.step false (.verify s.attempts.length .wrong) = some s₂ := by
    have hput := withLast_put s (x .checked) (some .failed)
    simp only [step, s₁, withLast_get]
    exact congrArg some hput
  have h3 : s₂.step false (.settle s.attempts.length "") = some s₃ := by
    have hput := withLast_put (s.updateFailure (x .failed) false) (x .failed) (some .counted)
    simp only [step, s₂, withLast_get]
    exact congrArg some hput
  have h4 : s₃.step false (.settle s.attempts.length "") = some s₄ := by
    have hput := withLast_put (s.updateFailure (x .failed) false) (x .counted) none
    have hget := withLast_get (s.updateFailure (x .failed) false) (x .counted)
    simp only [step, s₃]
    rw [show s.attempts.length = (s.updateFailure (x .failed) false).attempts.length from rfl, hget]
    exact congrArg some hput
  refine ⟨[(s₃, .settle s.attempts.length ""), (s₂, .settle s.attempts.length ""),
    (s₁, .verify s.attempts.length .wrong), (s, .check .password (.v4 a) time)], s₄,
    (((hx.snoc h1).snoc h2).snoc h3).snoc h4, rfl, ?_, ?_, ?_, ?_⟩
  · have hbump := updateFailure_bump (s.failures .password) (.v4 a) (entryOf s a) time (.ip (.v4 a))
    simp only [failureKeys, getIpv6Prefixes, List.mem_singleton, if_true] at hbump
    have hread : entryOf s₄ a = bumpFailureEntry (entryOf s a) time := by
      simp only [entryOf, s₄, updateFailure, x, Function.update_self]
      exact hbump
    rw [hread, bumpFailureEntry, if_neg ho.2]
  · simp [guessesWrong, concerns, s₁, hkey, x]
  · simp [guessesRight]
  · have hle : inFlight .password (.ip (.v4 a)) (s.updateFailure (x .failed) false) =
      inFlight .password (.ip (.v4 a)) s := rfl
    simp only [List.mem_cons, List.not_mem_nil, or_false, forall_eq_or_imp, forall_eq]
    refine ⟨hle ▸ inFlight_withLast _ _, inFlight_withLast _ _, inFlight_withLast _ _,
      Nat.le_succ _⟩

/-- Wrong guesses one after the other. -/
theorem guess_burst (n : Nat) (hx : Exec Init (step false) h s)
    (hn : (entryOf s a).total + n ≤ 31) :
    ∃ h' s', Exec Init (step false) (h' ++ h) s' ∧ s'.attempts = s.attempts ∧
      (entryOf s' a).total = (entryOf s a).total + n ∧
      h'.countP (guessesWrong .password (.ip (.v4 a))) = n ∧
      (∀ p ∈ h', guessesRight .password (.ip (.v4 a)) p = false) ∧
      ∀ p ∈ h', inFlight .password (.ip (.v4 a)) p.1 ≤
        inFlight .password (.ip (.v4 a)) s + 1 := by
  induction n with
  | zero => exact ⟨[], s, hx, rfl, rfl, rfl, by simp, by simp⟩
  | succ n ih =>
    obtain ⟨h₁, s₁, hx₁, ha₁, ht₁, hc₁, hr₁, hf₁⟩ := ih (by omega)
    have ho : Open s₁ a ((entryOf s₁ a).minute + 1) := ⟨by omega, by omega⟩
    obtain ⟨h₂, s₂, hx₂, ha₂, ht₂, hc₂, hr₂, hf₂⟩ := guess_once hx₁ ho
    have hflight : inFlight .password (.ip (.v4 a)) s₁ = inFlight .password (.ip (.v4 a)) s := by
      simp only [inFlight, among, ha₁]
    refine ⟨h₂ ++ h₁, s₂, ?_, ha₂.trans ha₁, ?_, ?_, ?_, ?_⟩
    · rw [List.append_assoc]
      exact hx₂
    · rw [ht₂]
      simp only
      omega
    · rw [List.countP_append, hc₁, hc₂]
      omega
    · intro p hp
      rcases List.mem_append.1 hp with hp | hp
      · exact hr₂ p hp
      · exact hr₁ p hp
    · intro p hp
      rcases List.mem_append.1 hp with hp | hp
      · exact hflight ▸ hf₂ p hp
      · exact hf₁ p hp

/-- An address checks and verifies a right password. -/
theorem guess_right (hx : Exec Init (step false) h s) {time : Int} (ho : Open s a time) :
    let s₁ := s.withLast ⟨.password, .v4 a, entryOf s a, time, .checked⟩
    Exec Init (step false) ((s₁, .verify s.attempts.length .permanent) ::
      (s, .check .password (.v4 a) time) :: h)
      (s.withLast ⟨.password, .v4 a, entryOf s a, time, .verified⟩) ∧
    guessesRight .password (.ip (.v4 a)) (s₁, .verify s.attempts.length .permanent) = true := by
  intro s₁
  have hkey : under .password (.ip (.v4 a)) ⟨.password, .v4 a, entryOf s a, time, .checked⟩ = true := by
    simp [under, failureKeys, getIpv6Prefixes]
  have h1 : s.step false (.check .password (.v4 a) time) = some s₁ := step_check ho
  refine ⟨(hx.snoc h1).snoc ?_, ?_⟩
  · have hput := withLast_put s ⟨.password, .v4 a, entryOf s a, time, .checked⟩ (some .verified)
    simp only [step, s₁, withLast_get]
    exact congrArg some hput
  · simp [guessesRight, concerns, s₁, hkey]

/-- The update of a success that saw a failure clears whatever was counted in the meantime. -/
theorem settle_right (hx : Exec Init (step false) h s) {failure : FailureEntry} {time : Int}
    (hs : s.attempts = [⟨.password, .v4 a, failure, time, .verified⟩]) (hf : failure.minute ≠ 0) :
    ∃ s', Exec Init (step false) ((s, .settle 0 "") :: h) s' ∧ s'.attempts = [] ∧
      entryOf s' a = .zero := by
  have hstep : s.step false (.settle 0 "") = some
      ((s.updateFailure ⟨.password, .v4 a, failure, time, .verified⟩ true).put 0
        ⟨.password, .v4 a, failure, time, .verified⟩ none) := by
    simp [step, hs]
  refine ⟨_, hx.snoc hstep, ?_, ?_⟩
  · simp [put, updateFailure, hs]
  · simp only [entryOf, put_failures, updateFailure, Function.update_self, updateFailure_remove]
    simp [hf, failureKeys, getIpv6Prefixes]

/-- Before anything has happened, with no temporary password. -/
def start : Guessing := ⟨fun _ => .empty, "", ⟨"", 0⟩, []⟩

theorem init_start : Init start := ⟨rfl, rfl, rfl⟩

theorem inFlight_le_length (s : Guessing) : inFlight b k s ≤ s.attempts.length :=
  List.countP_le_length

/-- Sixty wrong guesses between two successes of one address, never more than two attempts in
flight: the first success is updated in the middle. -/
theorem late_run (a : BitVec 32) :
    ∃ h s last between first older, Exec Init (step false) h s ∧ h = last :: between ++ first :: older ∧
      guessesRight .password (.ip (.v4 a)) last = true ∧
      guessesRight .password (.ip (.v4 a)) first = true ∧
      (∀ p ∈ between, guessesRight .password (.ip (.v4 a)) p = false) ∧
      between.countP (guessesWrong .password (.ip (.v4 a))) = 60 ∧
      (∀ p ∈ h, inFlight .password (.ip (.v4 a)) p.1 ≤ 2) ∧
      inFlight .password (.ip (.v4 a)) s ≤ 2 := by
  have hopen : Open start a 1 := ⟨Nat.zero_le _, Int.zero_ne_one⟩
  obtain ⟨h₁, s₁, hx₁, ha₁, ht₁, -, -, hf₁⟩ := guess_once (.start init_start) hopen
  replace ht₁ : entryOf s₁ a = ⟨1, 1, 1⟩ := ht₁
  have ho₁ : Open s₁ a 2 := by
    rw [Open, ht₁]
    decide
  obtain ⟨hx₂, hr₂⟩ := guess_right hx₁ ho₁
  set x : Progress → Attempt := fun q => ⟨.password, .v4 a, entryOf s₁ a, 2, q⟩
  have ha₂ : (s₁.withLast (x .verified)).attempts = [x .verified] := by simp [withLast, ha₁, start]
  have he₂ : entryOf (s₁.withLast (x .verified)) a = entryOf s₁ a := rfl
  have htot₁ : (entryOf s₁ a).total = 1 := by
    rw [ht₁]
  obtain ⟨h₃, s₃, hx₃, ha₃, ht₃, hc₃, hr₃, hf₃⟩ :=
    guess_burst 30 hx₂ (by rw [he₂, htot₁])
  obtain ⟨s₄, hx₄, ha₄, ht₄⟩ := settle_right hx₃ (ha₃.trans ha₂) (by rw [ht₁]; decide)
  obtain ⟨h₅, s₅, hx₅, ha₅, ht₅, hc₅, hr₅, hf₅⟩ := guess_burst 30 hx₄ (by rw [ht₄]; decide)
  have ho₅ : Open s₅ a ((entryOf s₅ a).minute + 1) := by
    refine ⟨?_, by omega⟩
    rw [ht₅, ht₄]
    decide
  obtain ⟨hx₆, hr₆⟩ := guess_right hx₅ ho₅
  have hl₁ : s₁.attempts.length = 0 := by simp [ha₁, start]
  have hl₅ : s₅.attempts.length = 0 := by simp [ha₅, ha₄]
  have hone : ∀ (s : Guessing) (y : Attempt), s.attempts.length = 0 →
      inFlight .password (.ip (.v4 a)) (s.withLast y) ≤ 1 := by
    intro s y hl
    refine le_trans (inFlight_le_length _) ?_
    simp [withLast, hl]
  refine ⟨_, _, _, (s₅, .check .password (.v4 a) ((entryOf s₅ a).minute + 1)) ::
    (h₅ ++ (s₃, .settle 0 "") :: h₃), (s₁.withLast (x .checked), .verify s₁.attempts.length .permanent),
    (s₁, .check .password (.v4 a) 2) :: (h₁ ++ []), hx₆, ?_, hr₆, hr₂, ?_, ?_, ?_, ?_⟩
  · simp only [List.cons_append, List.append_assoc]
    rfl
  · intro p hp
    simp only [List.mem_cons, List.mem_append] at hp
    rcases hp with rfl | hp | rfl | hp
    · rfl
    · exact hr₅ p hp
    · rfl
    · exact hr₃ p hp
  · simp [List.countP_append, hc₃, hc₅, guessesWrong]
  · have hfl : ∀ t : Guessing, t.attempts.length ≤ 2 →
        inFlight .password (.ip (.v4 a)) t ≤ 2 := fun t ht => le_trans (inFlight_le_length _) ht
    intro p hp
    simp only [List.mem_cons, List.mem_append, List.append_nil] at hp
    rcases hp with rfl | rfl | hp | rfl | hp | rfl | rfl | hp
    · exact le_trans (hone _ _ hl₅) (by decide)
    · exact hfl _ (by simp [hl₅])
    · refine le_trans (hf₅ p hp) ?_
      have := inFlight_le_length (b := .password) (k := .ip (.v4 a)) s₄
      simp only [ha₄, List.length_nil] at this
      omega
    · refine hfl _ ?_
      rw [ha₃.trans ha₂]
      exact Nat.le_succ 1
    · exact le_trans (hf₃ p hp) (Nat.succ_le_succ (hone s₁ (x .verified) hl₁))
    · exact le_trans (hone _ _ hl₁) (by decide)
    · exact hfl _ (by simp [hl₁])
    · refine le_trans (hf₁ p hp) ?_
      exact Nat.succ_le_succ (Nat.zero_le 1)
  · exact le_trans (hone _ _ hl₅) (by decide)

end Late

/-! ### Many addresses of one network -/

section Flood

/-- The addresses of `::/64`, one attempt each. -/
def floodAddress (i : Nat) : Address := .v6 (BitVec.ofNat 128 i)

/-- The first and the last of the 64 know the password. -/
def floodVerdict (i : Nat) : Verdict := if i = 0 ∨ i = 63 then .permanent else .wrong

def floodProgress (i : Nat) : Progress := if i = 0 ∨ i = 63 then .verified else .failed

def floodAttempt (v i : Nat) : Attempt :=
  ⟨.password, floodAddress i, .zero, 1, if i < v then floodProgress i else .checked⟩

/-- The first `c` have checked and the first `v` of them are verified. -/
def flood (c v : Nat) : Guessing :=
  ⟨fun _ => .empty, "", ⟨"", 0⟩, (List.range c).map (floodAttempt v)⟩

theorem flood_check (c : Nat) :
    (flood c 0).step false (.check .password (floodAddress c) 1) = some (flood (c + 1) 0) := by
  have hpass : checkFailure .empty (floodAddress c) 1 = ⟨.zero, 1, none⟩ := rfl
  simp [step, flood, hpass, List.range_succ, floodAttempt]

theorem flood_verify {v : Nat} (hv : v < 64) :
    (flood 64 v).step false (.verify v (floodVerdict v)) = some (flood 64 (v + 1)) := by
  have hget : (flood 64 v).attempts[v]? = some (floodAttempt v v) := by
    simp [flood, hv]
  have hprog : (floodVerdict v).progress false .password = some (some (floodProgress v)) := by
    unfold floodVerdict floodProgress
    split <;> rfl
  have hset : ((List.range 64).map (floodAttempt v)).set v
      { floodAttempt v v with progress := floodProgress v } =
        (List.range 64).map (floodAttempt (v + 1)) := by
    apply List.ext_getElem?
    intro i
    by_cases hi : i < 64
    · by_cases hiv : i = v
      · subst hiv
        simp [hi, floodAttempt]
      · have hlt : i < v ↔ i < v + 1 := by omega
        rw [List.getElem?_set_ne (Ne.symm hiv)]
        simp only [List.getElem?_map, List.getElem?_range hi, Option.map_some, floodAttempt, hlt]
    · simp [hi]
  simp only [step, hget]
  simp only [floodAttempt, lt_self_iff_false, if_false, hprog]
  exact congrArg (fun l => some (Guessing.mk (fun _ => .empty) "" ⟨"", 0⟩ l)) hset

theorem floodAddress_inj {i j : Nat} (hi : i < 64) (hj : j < 64)
    (h : floodAddress i = floodAddress j) : i = j := by
  simp only [floodAddress, Address.v6.injEq] at h
  have := congrArg BitVec.toNat h
  simp only [BitVec.toNat_ofNat] at this
  omega

/-- No address has more than one attempt. -/
theorem flood_inFlight {c : Nat} (hc : c ≤ 64) (v : Nat) (ip : Address) :
    inFlight .password (.ip ip) (flood c v) ≤ 1 := by
  have hmono : inFlight .password (.ip ip) (flood c v) ≤
      ((List.range c).map floodAddress).countP (fun x => x = ip) := by
    simp only [inFlight, among, flood, List.countP_map]
    apply List.countP_mono_left
    intro i _ hi
    have hkeys : FailureKey.ip ip ∈ failureKeys (floodAddress i) := by
      simp only [Function.comp_apply, Bool.and_eq_true] at hi
      exact (under_iff.1 hi.1).2
    have hip : ip = floodAddress i := by
      simpa only [failureKeys, floodAddress, getIpv6Prefixes, List.mem_cons, FailureKey.ip.injEq,
        reduceCtorEq, List.not_mem_nil, or_false] using hkeys
    simp [hip]
  have hnodup : ((List.range c).map floodAddress).Nodup := by
    refine (List.nodup_range).map_on ?_
    intro i hi j hj hij
    exact floodAddress_inj (by simp at hi; omega) (by simp at hj; omega) hij
  refine le_trans hmono ?_
  have hcount := List.nodup_iff_count_le_one.1 hnodup ip
  simpa [List.count, BEq.beq] using hcount

/-- The checks, newest first. -/
def floodChecks (c : Nat) : List (Guessing × GuessEvent) :=
  (List.range c).reverse.map fun i => (flood i 0, .check .password (floodAddress i) 1)

/-- The verifications, newest first. -/
def floodVerifies (v : Nat) : List (Guessing × GuessEvent) :=
  (List.range v).reverse.map fun i => (flood 64 i, .verify i (floodVerdict i))

theorem exec_flood {v : Nat} (hv : v ≤ 64) :
    Exec Init (step false) (floodVerifies v ++ floodChecks 64) (flood 64 v) := by
  have hchecks : ∀ c, Exec Init (step false) (floodChecks c) (flood c 0) := by
    intro c
    induction c with
    | zero => exact .start ⟨rfl, rfl, rfl⟩
    | succ c ih =>
      have := ih.snoc (flood_check c)
      simpa [floodChecks, List.range_succ] using this
  induction v with
  | zero => exact hchecks 64
  | succ v ih =>
    have := (ih (by omega)).snoc (flood_verify hv)
    simpa [floodVerifies, List.range_succ] using this

/-- The wrong guesses between the two right ones. -/
def floodBetween : List (Guessing × GuessEvent) :=
  (List.range 62).reverse.map fun i => (flood 64 (i + 1), .verify (i + 1) .wrong)

theorem floodVerifies_split :
    floodVerifies 64 = (flood 64 63, .verify 63 .permanent) :: floodBetween ++
      [(flood 64 0, .verify 0 .permanent)] := rfl

end Flood

/-! ### A match that is noted late -/

section Noted

/-- The event is a match of the temporary password. -/
def matchesTemporary (p : Guessing × GuessEvent) : Bool :=
  match p.2 with
  | .verify i .temporary => p.1.attempts[i]?.any fun a => a.bucket = .password
  | _ => false

/-- Wrong guesses from addresses of their own, the attempt being the `i`-th in flight. -/
def guessesFrom (i : Nat) (addresses : List Nat) : List GuessEvent :=
  addresses.flatMap fun a =>
    [.check .password (.v4 (BitVec.ofNat 32 a)) 1, .verify i .wrong, .settle i "", .settle i ""]

/-- A match is verified and noted only after nine wrong guesses; nine more and another match follow. -/
def notedLate : List GuessEvent :=
  guessesFrom 1 (List.range' 1 9) ++ [.settle 0 "", .settle 0 ""] ++
    guessesFrom 0 (List.range' 10 9) ++ [.check .password (.v4 0) 2]

/-- Before the first match. -/
def beforeMatch : Guessing :=
  ⟨fun _ => .empty, "473911", ⟨"", 0⟩, [⟨.password, .v4 0, .zero, 1, .checked⟩]⟩

/-- After it. -/
def afterMatch : Guessing :=
  ⟨fun _ => .empty, "473911", ⟨"", 0⟩, [⟨.password, .v4 0, .zero, 1, .matchedTemporary⟩]⟩

/-- What happens after it. -/
def lateNote : List (Guessing × GuessEvent) × Guessing :=
  (trace (step true) afterMatch notedLate).getD ([], afterMatch)

theorem trace_lateNote : trace (step true) afterMatch notedLate = some lateNote := by
  have hsome : (trace (step true) afterMatch notedLate).isSome = true := by decide +kernel
  obtain ⟨r, hr⟩ := Option.isSome_iff_exists.1 hsome
  rw [lateNote, hr]
  rfl

end Noted

/-- The limits fail between successful *verifications*: one address gets sixty wrong guesses in with
two attempts in flight, a /64 gets 62 in with one attempt of each address in flight, and a temporary
password is guessed at 18 times between two matches with two attempts in flight. -/
theorem exceeded_between_verifications :
    (¬ ∀ (h : List (Guessing × GuessEvent)) (s : Guessing) (a : BitVec 32) (n : Nat),
      Exec Init (step false) h s → (∀ p ∈ h, inFlight .password (.ip (.v4 a)) p.1 ≤ n) →
      inFlight .password (.ip (.v4 a)) s ≤ n →
      ∀ last between first older, h = last :: between ++ first :: older →
        guessesRight .password (.ip (.v4 a)) last = true →
        guessesRight .password (.ip (.v4 a)) first = true →
        (∀ p ∈ between, guessesRight .password (.ip (.v4 a)) p = false) →
        between.countP (guessesWrong .password (.ip (.v4 a))) ≤ 30 + n) ∧
    (¬ ∀ (h : List (Guessing × GuessEvent)) (s : Guessing) (m : BitVec 128) (n : Nat),
      Exec Init (step false) h s → (∀ p ∈ h, ∀ ip, inFlight .password (.ip ip) p.1 ≤ n) →
      (∀ ip, inFlight .password (.ip ip) s ≤ n) →
      ∀ last between first older, h = last :: between ++ first :: older →
        guessesRight .password (.net 64 m) last = true →
        guessesRight .password (.net 64 m) first = true →
        (∀ p ∈ between, guessesRight .password (.net 64 m) p = false) →
        between.countP (guessesWrong .password (.net 64 m)) ≤ 60 + n) ∧
    (¬ ∀ (h : List (Guessing × GuessEvent)) (s : Guessing) (n : Nat),
      Exec Init (step true) h s → (∀ p ∈ h, p.1.attempts.length ≤ n) → s.attempts.length ≤ n →
      ∀ last between first older, h = last :: between ++ first :: older →
        matchesTemporary last = true → matchesTemporary first = true →
        (∀ p ∈ between, matchesTemporary p = false ∧ draws p = false) →
        between.countP guessesPassword ≤ 9 + n) := by
  refine ⟨?_, ?_, ?_⟩
  · intro hall
    obtain ⟨h, s, last, between, first, older, hx, hh, hl, hf, hb, hc, hn, hs⟩ := late_run 0
    have := hall h s 0 2 hx hn hs last between first older hh hl hf hb
    omega
  · intro hall
    have hn : ∀ p ∈ floodVerifies 64 ++ floodChecks 64, ∀ ip,
        inFlight .password (.ip ip) p.1 ≤ 1 := by
      intro p hp ip
      simp only [floodVerifies, floodChecks, List.mem_append, List.mem_map, List.mem_reverse,
        List.mem_range] at hp
      rcases hp with ⟨i, _, rfl⟩ | ⟨i, hi, rfl⟩
      · exact flood_inFlight (le_refl _) _ _
      · exact flood_inFlight (le_of_lt hi) _ _
    have hright : ∀ p ∈ floodBetween, guessesRight .password (.net 64 0) p = false := by
      intro p hp
      obtain ⟨i, -, rfl⟩ := List.mem_map.1 hp
      rfl
    have hcount : floodBetween.countP (guessesWrong .password (.net 64 0)) = 62 := by decide +kernel
    have hsplit : floodVerifies 64 ++ floodChecks 64 =
        (flood 64 63, .verify 63 .permanent) :: floodBetween ++
          (flood 64 0, .verify 0 .permanent) :: floodChecks 64 := by
      rw [floodVerifies_split]
      simp
    have := hall _ _ 0 1 (exec_flood (le_refl 64)) hn (flood_inFlight (le_refl _) _) _ _ _ _ hsplit
      (by decide +kernel) (by decide +kernel) hright
    omega
  · intro hall
    have hx₁ : Exec Init (step true) [({ beforeMatch with attempts := [] }, .check .password (.v4 0) 1)]
        beforeMatch := (Exec.start ⟨rfl, rfl, rfl⟩).snoc rfl
    have hmatch : beforeMatch.step true (.verify 0 .temporary) = some afterMatch := rfl
    have hx₂ := (hx₁.snoc hmatch).trace trace_lateNote
    have hlast : matchesTemporary (lateNote.2, .verify 0 .temporary) = true := by decide +kernel
    have hlen : ∀ p ∈ lateNote.1, p.1.attempts.length ≤ 2 := by decide +kernel
    have hstep : (lateNote.2.step true (.verify 0 .temporary)).isSome = true := by decide +kernel
    have hend : lateNote.2.attempts.length ≤ 2 := by decide +kernel
    have hno : ∀ p ∈ lateNote.1, matchesTemporary p = false ∧ draws p = false := by decide +kernel
    have hcount : lateNote.1.countP guessesPassword = 18 := by decide +kernel
    obtain ⟨t, ht⟩ := Option.isSome_iff_exists.1 hstep
    have htl : t.attempts.length ≤ 2 := by
      have : ((lateNote.2.step true (.verify 0 .temporary)).elim 0 fun t => t.attempts.length) ≤ 2 := by
        decide +kernel
      simpa [ht] using this
    generalize lateNote = r at *
    have := hall _ t 2 (hx₂.snoc ht) ?_ htl (r.2, .verify 0 .temporary) r.1 _ _ rfl hlast
      (by decide +kernel) hno
    · omega
    · intro p hp
      simp only [List.mem_cons, List.mem_append, List.not_mem_nil, or_false] at hp
      rcases hp with rfl | hp | rfl | rfl
      · exact hend
      · exact hlen p hp
      · decide
      · decide

/-- One wrong guess at a time lets 31 through. -/
theorem guesses_limited_first_guess :
    ∃ h s, Exec Init (step false) h s ∧ h.countP (guessesWrong .password (.ip (.v4 0))) = 31 ∧
      ∀ newer older, h = newer ++ older →
        (∀ p ∈ newer, settlesSuccess .password (.ip (.v4 0)) p = false) →
        newer.countP (guessesWrong .password (.ip (.v4 0))) ≤ 31 := by
  obtain ⟨h, s, hx, ha, -, hc, -, hn⟩ := guess_burst (a := 0) 31 (.start init_start) (le_refl _)
  rw [List.append_nil] at hx
  have hs : inFlight .password (.ip (.v4 0)) s = 0 := by
    simp [inFlight, among, ha, start]
  refine ⟨h, s, hx, hc, ?_⟩
  exact ((guesses_limited hx).1 .password (.ip (.v4 0)) 1 hn (by omega)).1

end Guessing

end FontisRemote.Login
