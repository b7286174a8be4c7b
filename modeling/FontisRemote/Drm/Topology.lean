import FontisRemote.Drm.ProbeState
import FontisRemote.Lib.Slots

/-!
# The verdict that is held is the newest

`DRM_STATE_GEN` counts the verdicts published, modulo 2^64, so a sample of it tells whether one was
published since, as long as fewer than 2^64 were. `Inv` keeps this, with what every task has sampled, and
that `DRM_PROBE_IN_FLIGHT` has one holder exactly when it is set.

`probe_and_publish` and `warm_availability` do not look at the generation. `Current` is the condition on a
step that leaves their omission without effect.
-/

namespace FontisRemote.Drm

open FontisRemote.Lib

/-- The sample was read when this many verdicts had been published, or before. -/
structure Sample.Dated (sampled : Sample) (published : Nat) : Prop where
  gen : sampled.gen = sampled.published % 2 ^ 64
  le : sampled.published ≤ published

theorem Sample.Dated.mono {sampled : Sample} {m n : Nat} (h : sampled.Dated m) (hle : m ≤ n) :
    sampled.Dated n :=
  ⟨h.gen, Nat.le_trans h.le hle⟩

/-- An unchanged generation tells that no verdict was published since it was sampled. -/
theorem Sample.Dated.published_eq {sampled : Sample} {n gen : Nat} (h : sampled.Dated n)
    (hgen : gen = n % 2 ^ 64) (hsame : gen = sampled.gen) (hbound : n < sampled.published + 2 ^ 64) :
    n = sampled.published := by
  have hdate := h.gen
  have hle := h.le
  omega

namespace Query

/-- It is made holding `DRM_PROBE_IN_FLIGHT`. -/
def guarded : Query → Bool
  | .probe => true
  | .refreshUnavailable _ => true
  | .refreshAvailable _ => true
  | .warm _ => false
  | .login _ => false

/-- What the writer compares the generation with, where it does. -/
def sampled : Query → Option Sample
  | .probe => none
  | .refreshUnavailable sampled => some sampled
  | .refreshAvailable sampled => some sampled
  | .warm _ => none
  | .login sampled => some sampled

/-- A writer that does not look at the generation has a verdict to publish. -/
def concludes {Display : Type} (probeFailures : Nat) (result : Option (List Display)) : Query → Bool
  | .probe => result.isSome || decide ((probeFailures + 1) % 2 ^ 32 ≥ DRM_PROBE_MAX_FAILURES)
  | .warm _ => result.any fun list => !list.isEmpty
  | _ => false

def Dated (q : Query) (n : Nat) : Prop :=
  ∀ sampled, q.sampled = some sampled → sampled.Dated n

theorem Dated.mono {q : Query} {m n : Nat} (h : q.Dated m) (hle : m ≤ n) : q.Dated n :=
  fun sampled hs => (h sampled hs).mono hle

end Query

namespace Task

/-- It has taken `DRM_PROBE_IN_FLIGHT` and not dropped the guard. -/
def holds : Task → Bool
  | .refreshSample _ => true
  | .refreshSpawn _ _ => true
  | .probeSpawn => true
  | .begins q => q.guarded
  | .queries q _ => q.guarded
  | .releases _ => true
  | _ => false

/-- A query made under the guard is running. -/
def inGuardedQuery : Task → Bool
  | .queries q _ => q.guarded
  | _ => false

theorem holds_of_inGuardedQuery {t : Task} (h : t.inGuardedQuery = true) : t.holds = true := by
  cases t with
  | queries q begun => exact h
  | _ => cases h

/-- Its samples were read when this many verdicts had been published, or before. -/
def Dated : Task → Nat → Prop
  | .refreshSpawn _ sampled, n => sampled.Dated n
  | .begins q, n => q.Dated n
  | .queries q begun, n => q.Dated begun.published ∧ begun.Dated n
  | _, _ => True

theorem Dated.mono {t : Task} {m n : Nat} (h : t.Dated m) (hle : m ≤ n) : t.Dated n := by
  cases t with
  | refreshSpawn positive sampled => exact Sample.Dated.mono h hle
  | begins q => exact Query.Dated.mono h hle
  | queries q begun => exact ⟨h.1, h.2.mono hle⟩
  | _ => trivial

end Task

namespace DrmState

variable {Display : Type} {s s' : DrmState Display}

structure Inv (s : DrmState Display) : Prop where
  owner : s.tasks.countP Task.holds = s.inFlight.toNat
  gen : s.gen = s.published % 2 ^ 64
  dated : ∀ t ∈ s.tasks, t.Dated s.published

/-! ## What a lock region may do to the generation -/

/-- Nothing was published, or one verdict was. -/
structure Publishes (s s' : DrmState Display) : Prop where
  tasks : s'.tasks = s.tasks
  inFlight : s'.inFlight = s.inFlight
  counted : s'.published = s.published ∧ s'.gen = s.gen ∨
    s'.published = s.published + 1 ∧ s'.gen = (s.gen + 1) % 2 ^ 64

theorem Publishes.silent {t : DrmState Display} (htasks : t.tasks = s.tasks)
    (hflag : t.inFlight = s.inFlight) (hpub : t.published = s.published) (hgen : t.gen = s.gen) :
    s.Publishes t :=
  ⟨htasks, hflag, .inl ⟨hpub, hgen⟩⟩

theorem Publishes.refl : s.Publishes s :=
  .silent rfl rfl rfl rfl

theorem Publishes.once (next : ProbeState Display) : s.Publishes (s.publishProbeState next) :=
  ⟨rfl, rfl, .inr ⟨rfl, rfl⟩⟩

theorem Publishes.le (h : s.Publishes s') : s.published ≤ s'.published := by
  obtain ⟨heq, -⟩ | ⟨heq, -⟩ := h.counted
  · omega
  · omega

/-- The generation follows the number of verdicts. -/
theorem Publishes.gen_eq (h : s.Publishes s') (hgen : s.gen = s.published % 2 ^ 64) :
    s'.gen = s'.published % 2 ^ 64 := by
  obtain ⟨hpub, heq⟩ | ⟨hpub, heq⟩ := h.counted
  · rw [heq, hpub]
    exact hgen
  · rw [heq, hpub, hgen]
    omega

theorem publishes_probeAndPublish (now : Instant) (result : Option (List Display)) :
    s.Publishes (s.probeAndPublish now result).1 := by
  cases result with
  | none =>
    unfold probeAndPublish
    dsimp only
    split
    · exact ⟨rfl, rfl, .inr ⟨rfl, rfl⟩⟩
    · exact .silent rfl rfl rfl rfl
  | some list =>
    cases list with
    | nil => exact .once _
    | cons d list => exact ⟨rfl, rfl, .inr ⟨rfl, rfl⟩⟩

theorem publishes_refreshUnavailable (now : Instant) (sampled : Sample)
    (result : Option (List Display)) : s.Publishes (s.refreshUnavailable now sampled result) := by
  unfold refreshUnavailable
  split
  · exact .refl
  · split
    · exact ⟨rfl, rfl, .inr ⟨rfl, rfl⟩⟩
    · exact .once _

theorem publishes_refreshAvailable (now : Instant) (sampled : Sample)
    (result : Option (List Display)) : s.Publishes (s.refreshAvailable now sampled result) := by
  unfold refreshAvailable
  split
  · exact .refl
  · dsimp only
    split
    · exact ⟨rfl, rfl, .inr ⟨rfl, rfl⟩⟩
    · exact ⟨rfl, rfl, .inr ⟨rfl, rfl⟩⟩
    · split
      · exact .silent rfl rfl rfl rfl
      · exact .silent rfl rfl rfl rfl
    · exact ⟨rfl, rfl, .inr ⟨rfl, rfl⟩⟩

theorem publishes_refreshDisplaysForLogin (now : Instant) (sampled : Sample) (list : List Display) :
    s.Publishes (s.refreshDisplaysForLogin now sampled list) := by
  unfold refreshDisplaysForLogin
  split
  · exact .refl
  · split
    · exact .once _
    · exact .refl

theorem publishes_swapAvailableDisplays (now : Instant) (list : List Display) :
    s.Publishes (s.swapAvailableDisplays now list) := by
  unfold swapAvailableDisplays
  split
  · split
    · exact .once _
    · exact .once _
  · exact .refl

theorem publishes_settle (now : Instant) (result : Option (List Display)) (q : Query) :
    s.Publishes (s.settle now result q).1 := by
  cases q with
  | probe => exact publishes_probeAndPublish now result
  | refreshUnavailable sampled => exact publishes_refreshUnavailable now sampled result
  | refreshAvailable sampled => exact publishes_refreshAvailable now sampled result
  | warm left =>
    unfold settle
    dsimp only
    split
    · exact .once _
    · exact .refl
  | login sampled =>
    unfold settle
    dsimp only
    split
    · exact publishes_refreshDisplaysForLogin now sampled _
    · exact .refl

/-- A writer that has settled keeps the guard it had, to drop it next, and no sample. -/
theorem settle_task (now : Instant) (result : Option (List Display)) (q : Query) :
    (s.settle now result q).2.holds = q.guarded ∧ ∀ n, (s.settle now result q).2.Dated n := by
  cases q with
  | probe => exact ⟨rfl, fun _ => trivial⟩
  | refreshUnavailable sampled => exact ⟨rfl, fun _ => trivial⟩
  | refreshAvailable sampled => exact ⟨rfl, fun _ => trivial⟩
  | warm left =>
    unfold settle
    dsimp only
    split
    · exact ⟨rfl, fun _ => trivial⟩
    · exact ⟨rfl, fun _ => trivial⟩
  | login sampled =>
    unfold settle
    dsimp only
    split
    · exact ⟨rfl, fun _ => trivial⟩
    · exact ⟨rfl, fun _ => trivial⟩

/-! ## One step of a task -/

/-- What a step of the task `t` at a place does: it goes on as `t'` and may start a thread; the guard is
handed on as the flag says; what it samples is dated. -/
structure Worked (s : DrmState Display) (i : Nat) (t : Task) (s' : DrmState Display) : Prop where
  gen : s'.gen = s'.published % 2 ^ 64
  le : s.published ≤ s'.published
  tasks : ∃ t' threads, s'.tasks = s.tasks.set i t' ++ threads ∧
    t'.holds.toNat + threads.countP Task.holds + s.inFlight.toNat = t.holds.toNat + s'.inFlight.toNat ∧
    t'.Dated s'.published ∧ ∀ x ∈ threads, x.Dated s'.published

/-- A task goes on without touching the verdict. -/
theorem Worked.move {i : Nat} {t t' : Task} {flag : Bool} (hgen : s.gen = s.published % 2 ^ 64)
    (hguard : t'.holds.toNat + s.inFlight.toNat = t.holds.toNat + flag.toNat)
    (hdated : t'.Dated s.published) : s.Worked i t ({ s with inFlight := flag }.moved i t') where
  gen := hgen
  le := Nat.le_refl _
  tasks := by
    refine ⟨t', [], (List.append_nil _).symm, ?_, hdated, fun x hx => ?_⟩
    · rw [List.countP_nil, Nat.add_zero]
      exact hguard
    · cases hx

/-- A guard is passed to a thread. -/
theorem Worked.spawn {i : Nat} {t t' : Task} {q : Query} (hgen : s.gen = s.published % 2 ^ 64)
    (hguard : t'.holds.toNat + q.guarded.toNat = t.holds.toNat) (ht' : t'.Dated s.published)
    (hq : q.Dated s.published) : s.Worked i t (s.spawns i t' q) where
  gen := hgen
  le := Nat.le_refl _
  tasks := by
    refine ⟨t', [.begins q], rfl, ?_, ht', fun x hx => ?_⟩
    · have hone : [Task.begins q].countP Task.holds = q.guarded.toNat := by
        rw [List.countP_singleton]
        cases hq : q.guarded <;> simp [Task.holds, hq]
      change t'.holds.toNat + _ + s.inFlight.toNat = t.holds.toNat + s.inFlight.toNat
      rw [hone]
      omega
    · obtain rfl := List.mem_singleton.mp hx
      exact hq

theorem dated_sample (hgen : s.gen = s.published % 2 ^ 64) : s.sample.Dated s.published :=
  ⟨hgen, Nat.le_refl _⟩

theorem holds_looks (cached : Bool) (now : Instant) :
    (s.looks cached now).holds = false ∧ ∀ n, (s.looks cached now).Dated n := by
  unfold looks
  split
  · split <;> exact ⟨rfl, fun _ => trivial⟩
  · split <;> exact ⟨rfl, fun _ => trivial⟩
  · exact ⟨rfl, fun _ => trivial⟩

theorem worked_of_work {i : Nat} {t : Task} {o : Outside Display} (hgen : s.gen = s.published % 2 ^ 64)
    (hdated : t.Dated s.published) (hflag : t.holds = true → s.inFlight = true)
    (hwork : s.work i o t = some s') : s.Worked i t s' := by
  cases t with
  | availability cached =>
    obtain rfl := Option.some.inj hwork
    obtain ⟨hholds, hlooks⟩ := s.holds_looks cached o.now
    refine .move hgen ?_ (hlooks _)
    rw [hholds]
    rfl
  | refreshSwap positive =>
    obtain rfl := Option.some.inj hwork
    cases hset : s.inFlight with
    | true =>
      refine .move hgen ?_ trivial
      rw [hset]
      rfl
    | false =>
      refine .move hgen ?_ trivial
      rw [hset]
      rfl
  | refreshSample positive =>
    obtain rfl := Option.some.inj hwork
    cases s.due positive o.now with
    | true => exact .move hgen rfl (dated_sample hgen)
    | false => exact .move hgen rfl trivial
  | refreshSpawn positive sampled =>
    unfold work at hwork
    dsimp only at hwork
    split at hwork
    · obtain rfl := Option.some.inj hwork
      have hq : ∀ x, some sampled = some x → x.Dated s.published := by
        rintro x ⟨⟩
        exact hdated
      cases positive with
      | true => exact .spawn hgen rfl trivial hq
      | false => exact .spawn hgen rfl trivial hq
    · obtain rfl := Option.some.inj hwork
      exact .move hgen rfl trivial
  | probeSwap cached =>
    obtain rfl := Option.some.inj hwork
    have hnone : Query.probe.Dated s.published := fun _ h => nomatch h
    cases hset : s.inFlight with
    | true =>
      cases cached with
      | true => refine .move hgen ?_ trivial; rw [hset]; rfl
      | false => refine .move hgen ?_ trivial; rw [hset]; rfl
    | false =>
      cases cached with
      | true => refine .move hgen ?_ trivial; rw [hset]; rfl
      | false => refine .move hgen ?_ hnone; rw [hset]; rfl
  | rereads =>
    obtain rfl := Option.some.inj hwork
    exact .move hgen rfl trivial
  | probeSpawn =>
    unfold work at hwork
    dsimp only at hwork
    split at hwork
    · obtain rfl := Option.some.inj hwork
      exact .spawn hgen rfl trivial fun _ h => nomatch h
    · obtain rfl := Option.some.inj hwork
      exact .move hgen rfl trivial
  | begins q =>
    obtain rfl := Option.some.inj hwork
    exact .move hgen rfl ⟨hdated, dated_sample hgen⟩
  | queries q begun =>
    obtain rfl := Option.some.inj hwork
    have hpub := s.publishes_settle o.now o.result q
    obtain ⟨hholds, hsettled⟩ := s.settle_task o.now o.result q
    refine ⟨hpub.gen_eq hgen, hpub.le, _, [], ?_, ?_, hsettled _, fun x hx => nomatch hx⟩
    · rw [List.append_nil, ← hpub.tasks]
      rfl
    · rw [List.countP_nil, Nat.add_zero, hholds]
      exact congrArg (q.guarded.toNat + ·) (congrArg Bool.toNat hpub.inFlight).symm
  | releases answer =>
    obtain rfl := Option.some.inj hwork
    refine .move hgen ?_ trivial
    rw [hflag rfl]
    rfl
  | warm left =>
    cases left with
    | zero =>
      obtain rfl := Option.some.inj hwork
      exact .move hgen rfl trivial
    | succ left =>
      obtain rfl := Option.some.inj hwork
      cases o.x11 with
      | true => exact .move hgen rfl trivial
      | false => exact .move hgen rfl trivial
  | warmLooks left =>
    obtain rfl := Option.some.inj hwork
    cases s.isAvailable with
    | true => exact .move hgen rfl trivial
    | false =>
      have hnone : (Query.warm left).Dated s.published := fun _ h => nomatch h
      exact .move hgen rfl hnone
  | login =>
    obtain rfl := Option.some.inj hwork
    cases s.isAvailable with
    | true =>
      refine .move hgen rfl ?_
      rintro x ⟨⟩
      exact dated_sample hgen
    | false => exact .move hgen rfl trivial
  | returned answer => cases hwork

theorem Inv.flag_of_holds (h : s.Inv) {t : Task} (ht : t ∈ s.tasks) (hholds : t.holds = true) :
    s.inFlight = true := by
  have hpos : 0 < s.tasks.countP Task.holds := List.countP_pos_iff.mpr ⟨t, ht, hholds⟩
  have howner := h.owner
  cases hflag : s.inFlight with
  | true => rfl
  | false =>
    rw [hflag, Bool.toNat_false] at howner
    omega

theorem Inv.worked (h : s.Inv) {i : Nat} {t : Task} (ht : s.tasks[i]? = some t)
    (hw : s.Worked i t s') : s'.Inv := by
  obtain ⟨t', threads, htasks, hguard, ht', hthreads⟩ := hw.tasks
  refine ⟨?_, hw.gen, fun x hx => ?_⟩
  · have hset : (s.tasks.set i t').countP Task.holds + t.holds.toNat =
        s.tasks.countP Task.holds + t'.holds.toNat := countP_set_add Task.holds ht
    have howner := h.owner
    rw [htasks, List.countP_append]
    omega
  · rw [htasks] at hx
    obtain hx | hx := List.mem_append.mp hx
    · obtain hx | rfl := List.mem_or_eq_of_mem_set hx
      · exact (h.dated x hx).mono hw.le
      · exact ht'
    · exact hthreads x hx

theorem Inv.step (h : s.Inv) {e : Event Display} (hstep : s.step e = some s') : s'.Inv := by
  cases e with
  | calls call =>
    obtain rfl := Option.some.inj hstep
    refine ⟨?_, h.gen, fun t ht => ?_⟩
    · have hfree : call.enter.holds = false := by cases call <;> rfl
      dsimp only
      rw [List.countP_append, List.countP_singleton, hfree]
      exact h.owner
    · obtain ht | ht := List.mem_append.mp ht
      · exact h.dated t ht
      · obtain rfl := List.mem_singleton.mp ht
        cases call <;> trivial
  | runs i o =>
    obtain ⟨t, ht, hwork⟩ := Option.bind_eq_some_iff.mp hstep
    have hmem : t ∈ s.tasks := List.mem_of_getElem? ht
    exact h.worked ht (worked_of_work h.gen (h.dated t hmem) (h.flag_of_holds hmem) hwork)
  | hotplug now list =>
    obtain rfl := Option.some.inj hstep
    have hpub := s.publishes_swapAvailableDisplays now list
    refine ⟨?_, hpub.gen_eq h.gen, fun t ht => ?_⟩
    · rw [hpub.tasks, hpub.inFlight]
      exact h.owner
    · rw [hpub.tasks] at ht
      exact (h.dated t ht).mono hpub.le

theorem inv_of_exec {history : List (DrmState Display × Event Display)}
    (hx : Exec Init DrmState.step history s) : s.Inv := by
  refine hx.invariant (I := Inv) ?_ fun _ _ _ h hstep => h.step hstep
  rintro s rfl
  exact ⟨rfl, rfl, fun t ht => nomatch ht⟩

/-! ## What a query replaces -/

/-- The verdict that is held was published after a query began whose outcome takes its place. -/
def Stale (s : DrmState Display) : Event Display → Prop
  | .runs i o => ∃ q begun, s.tasks[i]? = some (.queries q begun) ∧ s.state ≠ .unknown ∧
      begun.published < s.published ∧ (s.settle o.now o.result q).1.published ≠ s.published
  | _ => False

/-- A verdict is held and a query has returned. Where its writer looks at the generation, fewer than
2^64 verdicts were published since it sampled it; where it does not, the generation is what it was when
the query began, and has not come round. -/
def Current (s : DrmState Display) : Event Display → Prop
  | .runs i o => ∀ q begun, s.tasks[i]? = some (.queries q begun) → s.state ≠ .unknown →
      (∀ sampled, q.sampled = some sampled → s.published < sampled.published + 2 ^ 64) ∧
      (q.concludes s.probeFailures o.result = true →
        s.gen = begun.gen ∧ s.published < begun.published + 2 ^ 64)
  | _ => True

/-- A writer that looks at the generation stores nothing when it has moved. -/
theorem settle_of_moved {q : Query} {sampled : Sample} (hq : q.sampled = some sampled)
    (hmoved : s.gen ≠ sampled.gen) (now : Instant) (result : Option (List Display)) :
    (s.settle now result q).1 = s := by
  cases q with
  | probe => cases hq
  | warm left => cases hq
  | refreshUnavailable x =>
    cases hq
    exact if_pos hmoved
  | refreshAvailable x =>
    cases hq
    exact if_pos hmoved
  | login x =>
    cases hq
    unfold settle
    dsimp only
    split
    · exact if_pos hmoved
    · rfl

/-- A writer that does not look at the generation publishes where it has a verdict, and only there. -/
theorem settle_published_of_not_concludes {q : Query} (hq : q.sampled = none) {now : Instant}
    {result : Option (List Display)} (h : q.concludes s.probeFailures result = false) :
    (s.settle now result q).1.published = s.published := by
  cases q with
  | refreshUnavailable sampled => cases hq
  | refreshAvailable sampled => cases hq
  | login sampled => cases hq
  | probe =>
    cases result with
    | some list => cases h
    | none =>
      have hfew : ¬ (s.probeFailures + 1) % 2 ^ 32 ≥ DRM_PROBE_MAX_FAILURES := of_decide_eq_false h
      unfold settle probeAndPublish
      dsimp only
      rw [if_neg hfew]
  | warm left =>
    cases result with
    | none => rfl
    | some list =>
      cases list with
      | nil => rfl
      | cons d list => cases h

theorem Inv.not_stale (h : s.Inv) {e : Event Display} (hcurrent : s.Current e) : ¬ s.Stale e := by
  cases e with
  | calls call => exact id
  | hotplug now list => exact id
  | runs i o =>
    rintro ⟨q, begun, hi, hheld, hlt, hreplaced⟩
    obtain ⟨hbound, hsame⟩ := hcurrent q begun hi hheld
    obtain ⟨hq, hbegun⟩ : q.Dated begun.published ∧ begun.Dated s.published :=
      h.dated _ (List.mem_of_getElem? hi)
    cases hsampled : q.sampled with
    | some sampled =>
      have hdated := hq sampled hsampled
      by_cases hgen : s.gen = sampled.gen
      · have heq := (hdated.mono hbegun.le).published_eq h.gen hgen (hbound sampled hsampled)
        have hle := hdated.le
        omega
      · exact hreplaced (congrArg published (settle_of_moved hsampled hgen o.now o.result))
    | none =>
      cases hconcludes : q.concludes s.probeFailures o.result with
      | false => exact hreplaced (settle_published_of_not_concludes hsampled hconcludes)
      | true =>
        obtain ⟨hgen, hfew⟩ := hsame hconcludes
        have heq := hbegun.published_eq h.gen hgen hfew
        omega

/-- In every run, a step that is `Current` does not put the outcome of an older query in the place of
the verdict that is held, and one query at most is running under `DRM_PROBE_IN_FLIGHT`. -/
theorem verdict_newest {history : List (DrmState Display × Event Display)}
    (hx : Exec Init DrmState.step history s) :
    (∀ p ∈ history, p.1.Current p.2 → ¬ p.1.Stale p.2) ∧ s.tasks.countP Task.inGuardedQuery ≤ 1 := by
  constructor
  · intro p hp hcurrent
    obtain ⟨older, hpast, -⟩ := hx.mem hp
    exact (inv_of_exec hpast).not_stale hcurrent
  · have hle : s.tasks.countP Task.inGuardedQuery ≤ s.tasks.countP Task.holds :=
      List.countP_mono_left fun t _ ht => Task.holds_of_inGuardedQuery ht
    have howner := (inv_of_exec hx).owner
    have hone : s.inFlight.toNat ≤ 1 := Bool.toNat_le _
    omega

/-- `availability` has probed, and a login asks for the displays again. -/
def loginRefresh : List (Event String) :=
  [.calls .availability, .runs 0 {}, .runs 0 {}, .runs 0 {},
    .runs 0 { now := 5, result := some ["DP-1"] }, .runs 0 {},
    .calls .refreshDisplaysForLogin, .runs 1 { now := 6 }, .runs 1 { now := 6 }]

/-- What the login's query returns. -/
def plugged : Event String :=
  .runs 1 { now := 9, result := some ["DP-1", "HDMI-1"] }

theorem loginRefresh_runs :
    (trace DrmState.step ({} : DrmState String) loginRefresh).isSome = true := by
  decide

theorem verdict_newest_login :
    ∃ t s : DrmState String, Reachable Init DrmState.step t ∧ t.step plugged = some s ∧
      s.state = .available 9 ["DP-1", "HDMI-1"] ∧ ¬ t.Stale plugged := by
  have hstart : Exec Init DrmState.step [] ({} : DrmState String) := .start rfl
  have hrun := hstart.trace (Option.some_get loginRefresh_runs).symm
  have hnext := hrun.snoc (e := plugged) (Option.some_get (by decide)).symm
  refine ⟨_, _, ⟨_, hrun⟩, (Option.some_get (by decide)).symm, by decide, ?_⟩
  refine (verdict_newest hnext).1 _ (List.mem_cons_self ..) ?_
  intro q begun hi _
  have hlogin : Task.queries (.login ⟨1, 1⟩) ⟨1, 1⟩ = .queries q begun := by
    refine Option.some.inj (Eq.trans ?_ hi)
    decide
  cases hlogin
  refine ⟨?_, fun h => nomatch h⟩
  rintro sampled ⟨⟩
  decide

/-- `warm_availability` has begun its query; `availability` probes meanwhile, and a second display is
plugged in. -/
def overlapped : List (Event String) :=
  [.calls .warmAvailability, .runs 0 {}, .runs 0 {}, .runs 0 {},
    .calls .availability, .runs 1 {}, .runs 1 {}, .runs 1 {},
    .runs 1 { now := 5, result := some ["DP-1"] }, .hotplug 7 ["DP-1", "HDMI-1"]]

theorem overlapped_runs :
    (trace DrmState.step ({} : DrmState String) overlapped).isSome = true := by
  decide

/-- The list that `warm_availability` then stores is older than the one it replaces. -/
theorem warmed_over_hotplug :
    ¬ ∀ (history : List (DrmState String × Event String)) (s : DrmState String),
      Exec Init DrmState.step history s →
        (∀ p ∈ history, ¬ p.1.Stale p.2) ∧ s.tasks.countP Task.inGuardedQuery ≤ 1 := by
  intro h
  have hstart : Exec Init DrmState.step [] ({} : DrmState String) := .start rfl
  have hrun := hstart.trace (Option.some_get overlapped_runs).symm
  have hlate := hrun.snoc (e := .runs 0 { now := 9, result := some ["DP-1"] })
    (Option.some_get (by decide)).symm
  refine (h _ _ hlate).1 _ (List.mem_cons_self ..) ?_
  exact ⟨.warm 9, ⟨0, 0⟩, by decide, by decide, by decide, by decide⟩

end DrmState

end FontisRemote.Drm
