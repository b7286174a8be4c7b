import FontisRemote.Lib.Assoc
import FontisRemote.Lib.Run
import FontisRemote.Lib.Slots

/-!
# Handing a peer connection to its callers

`WebRTCStream::new` of `hbb_common`: a call finds a peer connection in `SESSIONS` or builds one, takes a
claim on it under the lock of `SESSIONS`, and hands it to its caller, or drops the claim where the
caller has gone away. The last claim that is dropped on a connection nobody took schedules a task that
closes it, unless there is a claim again when the task comes to look.

A step is a region of code under the lock of `SESSIONS`, or one atomic operation.
-/

namespace FontisRemote.WebRtc

open FontisRemote.Lib

/-- A peer connection, with its `HandoffState`. -/
structure Pc where
  relayOnly : Bool
  disconnected : Bool := false
  /-- `state_notify` is `Closed`. -/
  closed : Bool := false
  pending : Nat := 0
  adopted : Bool := false
  closing : Bool := false
  /-- The claims there have been. -/
  claims : Nat := 0
  /-- `close_if_abandoned` has called `close` on it. -/
  abandoned : Bool := false
deriving DecidableEq, Repr

def Pc.isReusableFor (pc : Pc) (forceRelay : Bool) : Bool :=
  pc.relayOnly == forceRelay && !pc.closing && !pc.disconnected && !pc.closed

/-- How far a call of `new` has come, with the connection it has a claim on, or had. -/
inductive Phase
  | looking
  | building
  | holding (p : Nat)
  /-- `into_inner` has stored `adopted`. -/
  | adopting (p : Nat)
  /-- The caller has the stream. -/
  | handed (p : Nat)
  /-- The claim is dropped; whether it was the last. -/
  | dropping (p : Nat) (last : Bool)
  | over
deriving DecidableEq, Repr

def Phase.holds (p : Nat) : Phase → Bool
  | .holding q | .adopting q => q == p
  | _ => false

def Phase.took (p : Nat) : Phase → Bool
  | .adopting q | .handed q => q == p
  | _ => false

structure Caller where
  forceRelay : Bool
  phase : Phase
deriving DecidableEq, Repr

/-- A task of `close_if_abandoned`. -/
inductive Task
  | scheduled (p : Nat)
  | committed (p : Nat)
  | done
deriving DecidableEq, Repr

structure Sessions where
  sessions : List (String × Nat) := []
  pcs : List Pc := []
  callers : List Caller := []
  tasks : List Task := []
deriving DecidableEq

namespace Sessions

variable (s : Sessions)

def setPhase (i : Nat) (c : Caller) (phase : Phase) : Sessions :=
  { s with callers := s.callers.set i { c with phase := phase } }

def modifyPc (p : Nat) (f : Pc → Pc) : Sessions := { s with pcs := s.pcs.modify p f }

def setTask (j : Nat) (task : Task) : Sessions := { s with tasks := s.tasks.set j task }

/-- The entry under a key, where it can be handed to this caller. -/
def reusable (key : String) (forceRelay : Bool) : Option Nat :=
  (Assoc.get s.sessions key).filter fun p => (s.pcs[p]?).any (·.isReusableFor forceRelay)

/-- `NewStreamHandoff::claim`. -/
def claim (i : Nat) (c : Caller) (p : Nat) : Sessions :=
  (s.modifyPc p fun pc => { pc with pending := pc.pending + 1, claims := pc.claims + 1 }).setPhase i c (.holding p)

/-- A connection that has just been built. -/
def build (forceRelay : Bool) : Sessions := { s with pcs := s.pcs ++ [{ relayOnly := forceRelay }] }

/-- The end of `new_inner`: the new connection goes into the map, unless there is one already. -/
def insert (i : Nat) (c : Caller) (key : String) : Sessions :=
  match s.reusable key c.forceRelay with
  | some p => (s.build c.forceRelay).claim i c p
  | none =>
    ({ s.build c.forceRelay with sessions := Assoc.put s.sessions key (some s.pcs.length) } : Sessions).claim
      i c s.pcs.length

/-- The region of `close_if_abandoned`. -/
def decide (j p : Nat) (pc : Pc) : Sessions :=
  if pc.pending ≠ 0 ∨ pc.adopted then s.setTask j .done
  else (s.modifyPc p fun pc => { pc with closing := true }).setTask j (.committed p)

inductive Event
  | new (forceRelay hasKey : Bool)
  | lookup (i : Nat) (key : String)
  | insert (i : Nat) (key : String)
  | fail (i : Nat)
  /-- `into_inner`, its store and its subtraction. -/
  | storeAdopted (i : Nat)
  | releaseAdopted (i : Nat)
  /-- `drop`, its subtraction and its load. -/
  | releaseDropped (i : Nat)
  | loadAdopted (i : Nat)
  | decide (j : Nat)
  | close (j : Nat)
  /-- What the connection reports of itself, and the entries of it that go. -/
  | health (p : Nat) (disconnected : Bool)
  | terminal (p : Nat)
  | evict (p : Nat)
deriving DecidableEq

def step : Event → Option Sessions
  | .new forceRelay hasKey =>
    some { s with callers := s.callers ++ [⟨forceRelay, if hasKey then .looking else .building⟩] }
  | .lookup i key =>
    match s.callers[i]? with
    | some c@⟨forceRelay, .looking⟩ =>
      match s.reusable key forceRelay with
      | some p => some (s.claim i c p)
      | none => some (s.setPhase i c .building)
    | _ => none
  | .insert i key =>
    match s.callers[i]? with
    | some c@⟨_, .building⟩ => some (s.insert i c key)
    | _ => none
  | .fail i =>
    match s.callers[i]? with
    | some c@⟨_, .building⟩ => some (s.setPhase i c .over)
    | _ => none
  | .storeAdopted i =>
    match s.callers[i]? with
    | some c@⟨_, .holding p⟩ => some ((s.modifyPc p fun pc => { pc with adopted := true }).setPhase i c (.adopting p))
    | _ => none
  | .releaseAdopted i =>
    match s.callers[i]? with
    | some c@⟨_, .adopting p⟩ =>
      some ((s.modifyPc p fun pc => { pc with pending := pc.pending - 1 }).setPhase i c (.handed p))
    | _ => none
  | .releaseDropped i =>
    match s.callers[i]? with
    | some c@⟨_, .holding p⟩ =>
      some ((s.modifyPc p fun pc => { pc with pending := pc.pending - 1 }).setPhase i c
        (.dropping p ((s.pcs[p]?).any (·.pending = 1))))
    | _ => none
  | .loadAdopted i =>
    match s.callers[i]? with
    | some c@⟨_, .dropping p last⟩ =>
      let s' := s.setPhase i c .over
      if last ∧ (s.pcs[p]?).any (!·.adopted) then some { s' with tasks := s'.tasks ++ [.scheduled p] } else some s'
    | _ => none
  | .decide j =>
    match s.tasks[j]? with
    | some (.scheduled p) => (s.pcs[p]?).map (s.decide j p)
    | _ => none
  | .close j =>
    match s.tasks[j]? with
    | some (.committed p) => some ((s.modifyPc p fun pc => { pc with abandoned := true }).setTask j .done)
    | _ => none
  | .health p disconnected => some (s.modifyPc p fun pc => { pc with disconnected := disconnected })
  | .terminal p => some (s.modifyPc p fun pc => { pc with closed := true })
  | .evict p => some { s with sessions := s.sessions.filter (·.2 ≠ p) }

/-- Nothing has been called yet. -/
def Init (s : Sessions) : Prop := s = {}

/-! ## Claims and adoptions -/

variable {s} {s' : Sessions}

/-- The claims are counted, a connection that was taken is marked, and one that is being closed as
abandoned has no claim and was not taken. -/
structure Inv (s : Sessions) : Prop where
  count : ∀ (p : Nat) (pc : Pc), s.pcs[p]? = some pc → pc.pending = s.callers.countP (·.phase.holds p)
  valid : ∀ c ∈ s.callers, ∀ p : Nat, c.phase.holds p = true ∨ c.phase.took p = true → p < s.pcs.length
  took : ∀ c ∈ s.callers, ∀ (p : Nat) (pc : Pc), c.phase.took p = true → s.pcs[p]? = some pc → pc.adopted = true
  closing : ∀ (p : Nat) (pc : Pc), s.pcs[p]? = some pc → pc.closing = true → pc.pending = 0 ∧ pc.adopted = false
  abandoned : ∀ (p : Nat) (pc : Pc), s.pcs[p]? = some pc → pc.abandoned = true → pc.closing = true
  committed : ∀ p, .committed p ∈ s.tasks →
    p < s.pcs.length ∧ ∀ pc, s.pcs[p]? = some pc → pc.closing = true

/-- A connection that was claimed, and that nobody claims or has taken: it is being closed, or that is
on its way. -/
def Due (s : Sessions) : Prop :=
  ∀ (p : Nat) (pc : Pc), s.pcs[p]? = some pc → 0 < pc.claims → pc.pending = 0 → pc.adopted = false →
    pc.closing = true ∨ (∃ c ∈ s.callers, c.phase = .dropping p true) ∨ .scheduled p ∈ s.tasks

/-- A claim that is held is counted. -/
theorem Inv.pending_pos (h : Inv s) {i p : Nat} {c : Caller} {pc : Pc} (hc : s.callers[i]? = some c)
    (hholds : c.phase.holds p = true) (hpc : s.pcs[p]? = some pc) : 0 < pc.pending := by
  rw [h.count p pc hpc]
  exact List.countP_pos_iff.2 ⟨c, List.mem_of_getElem? hc, hholds⟩

section Move

variable {i p : Nat} {c : Caller} {phase : Phase} {f : Pc → Pc}

/-- A caller goes on, with a change to the connection it is about. -/
theorem Inv.move (h : Inv s) (hc : s.callers[i]? = some c)
    (hothers : ∀ q ≠ p, phase.holds q = c.phase.holds q ∧ phase.took q = c.phase.took q)
    (hvalid : phase.holds p = true ∨ phase.took p = true → p < s.pcs.length)
    (hpending : ∀ pc, s.pcs[p]? = some pc →
      (f pc).pending + (c.phase.holds p).toNat = pc.pending + (phase.holds p).toNat)
    (hadopted : ∀ pc, s.pcs[p]? = some pc → phase.took p = true ∨ pc.adopted = true → (f pc).adopted = true)
    (hclosing : ∀ pc, s.pcs[p]? = some pc → (f pc).closing = pc.closing ∧ (f pc).abandoned = pc.abandoned ∧
      (pc.closing = true → (f pc).pending = 0 ∧ (f pc).adopted = false)) :
    Inv ((s.modifyPc p f).setPhase i c phase) := by
  have hmem : ∀ c' ∈ s.callers.set i { c with phase := phase }, c' = { c with phase := phase } ∨ c' ∈ s.callers :=
    fun c' hc' => (List.mem_or_eq_of_mem_set hc').symm
  refine ⟨fun q pc hq => ?_, fun c' hc' q hq => ?_, fun c' hc' q pc htook hq => ?_, fun q pc hq hclose => ?_,
    fun q pc hq hab => ?_, fun q htask => ?_⟩
  · obtain ⟨old, hold, rfl⟩ := getElem?_modify_eq_some hq
    have hcount := h.count q old hold
    have hset := countP_set_add (b := { c with phase := phase }) (fun c => c.phase.holds q) hc
    show _ = (s.callers.set i { c with phase := phase }).countP _
    split_ifs with hqp
    · subst hqp
      have := hpending old hold
      dsimp only at hset
      omega
    · have := (hothers q (Ne.symm hqp)).1
      dsimp only at hset
      rw [this] at hset
      omega
  · show q < (s.pcs.modify p f).length
    rw [List.length_modify]
    rcases hmem c' hc' with rfl | hc'
    · by_cases hqp : q = p
      · subst hqp
        exact hvalid hq
      · obtain ⟨hholds, htook⟩ := hothers q hqp
        rw [hholds, htook] at hq
        exact h.valid c (List.mem_of_getElem? hc) q hq
    · exact h.valid c' hc' q hq
  · obtain ⟨old, hold, rfl⟩ := getElem?_modify_eq_some hq
    split_ifs with hqp
    · subst hqp
      refine hadopted old hold ?_
      rcases hmem c' hc' with rfl | hc'
      · exact .inl htook
      · exact .inr (h.took c' hc' p old htook hold)
    · rcases hmem c' hc' with rfl | hc'
      · rw [(hothers q (Ne.symm hqp)).2] at htook
        exact h.took c (List.mem_of_getElem? hc) q old htook hold
      · exact h.took c' hc' q old htook hold
  · obtain ⟨old, hold, rfl⟩ := getElem?_modify_eq_some hq
    split_ifs at hclose ⊢ with hqp
    · subst hqp
      obtain ⟨hsame, -, hkeeps⟩ := hclosing old hold
      exact hkeeps (hsame ▸ hclose)
    · exact h.closing q old hold hclose
  · obtain ⟨old, hold, rfl⟩ := getElem?_modify_eq_some hq
    split_ifs at hab ⊢ with hqp
    · subst hqp
      obtain ⟨hsame, hsame', -⟩ := hclosing old hold
      rw [hsame]
      exact h.abandoned p old hold (hsame' ▸ hab)
    · exact h.abandoned q old hold hab
  · obtain ⟨hlt, hcommitted⟩ := h.committed q htask
    refine ⟨lt_of_lt_of_eq hlt (List.length_modify ..).symm, fun pc hq => ?_⟩
    obtain ⟨old, hold, rfl⟩ := getElem?_modify_eq_some hq
    split_ifs with hqp
    · subst hqp
      rw [(hclosing old hold).1]
      exact hcommitted old hold
    · exact hcommitted old hold

/-- A caller goes on, and no connection changes. -/
theorem Inv.setPhase (h : Inv s) (hc : s.callers[i]? = some c)
    (hsame : ∀ q, phase.holds q = c.phase.holds q ∧ phase.took q = c.phase.took q) :
    Inv (s.setPhase i c phase) := by
  have hmove : Inv ((s.modifyPc s.pcs.length id).setPhase i c phase) := by
    have hnone : ∀ pc, s.pcs[s.pcs.length]? ≠ some pc := by simp
    refine h.move hc (fun q _ => hsame q) (fun hp => ?_) (fun pc hpc => absurd hpc (hnone pc))
      (fun pc hpc => absurd hpc (hnone pc)) fun pc hpc => absurd hpc (hnone pc)
    obtain ⟨hholds, htook⟩ := hsame s.pcs.length
    rw [hholds, htook] at hp
    exact h.valid c (List.mem_of_getElem? hc) _ hp
  simpa [modifyPc] using hmove

theorem Due.setPhase (h : Due s) (hc : s.callers[i]? = some c) (hlast : ∀ q, c.phase ≠ .dropping q true) :
    Due (s.setPhase i c phase) := by
  intro q pc hpc hclaims hpending hadopted
  rcases h q pc hpc hclaims hpending hadopted with hclosing | ⟨c', hc', hphase⟩ | htask
  · exact .inl hclosing
  · refine .inr (.inl ⟨c', mem_set_of_ne hc hc' fun heq => ?_, hphase⟩)
    exact hlast q (heq ▸ hphase)
  · exact .inr (.inr htask)

/-- A caller goes on, with a change to a connection that is not due after it, or that the caller sees to. -/
theorem Due.move (h : Due s) (hc : s.callers[i]? = some c) (hlast : ∀ q, c.phase ≠ .dropping q true)
    (hp : ∀ pc, s.pcs[p]? = some pc → 0 < (f pc).pending ∨ (f pc).adopted = true ∨ phase = .dropping p true) :
    Due ((s.modifyPc p f).setPhase i c phase) := by
  intro q pc hpc hclaims hpending hadopted
  obtain ⟨old, hold, rfl⟩ := getElem?_modify_eq_some hpc
  by_cases hqp : p = q
  · subst hqp
    rw [if_pos rfl] at hpending hadopted
    rcases hp old hold with hpos | htrue | rfl
    · omega
    · rw [hadopted] at htrue
      cases htrue
    · have hlt := (List.getElem?_eq_some_iff.1 hc).1
      exact .inr (.inl ⟨_, List.mem_iff_getElem?.2 ⟨i, List.getElem?_set_self hlt⟩, rfl⟩)
  · rw [if_neg hqp] at hclaims hpending hadopted ⊢
    exact h.setPhase hc hlast q old hold hclaims hpending hadopted

end Move

section Change

variable {p : Nat} {f : Pc → Pc}

/-- A connection changes in a way that claims and adoptions do not see. -/
theorem Inv.modifyPc (h : Inv s) (hf : ∀ pc, (f pc).pending = pc.pending ∧ (f pc).adopted = pc.adopted ∧
    (f pc).closing = pc.closing ∧ ((f pc).abandoned = true → pc.abandoned = true ∨ .committed p ∈ s.tasks)) :
    Inv (s.modifyPc p f) := by
  refine ⟨fun q pc hq => ?_, fun c hc q hq => ?_, fun c hc q pc htook hq => ?_, fun q pc hq hclose => ?_,
    fun q pc hq hab => ?_, fun q htask => ?_⟩
  · obtain ⟨old, hold, rfl⟩ := getElem?_modify_eq_some hq
    have hcount := h.count q old hold
    split_ifs
    · rw [(hf old).1]
      exact hcount
    · exact hcount
  · show q < (s.pcs.modify p f).length
    rw [List.length_modify]
    exact h.valid c hc q hq
  · obtain ⟨old, hold, rfl⟩ := getElem?_modify_eq_some hq
    have hadopted := h.took c hc q old htook hold
    split_ifs
    · rw [(hf old).2.1]
      exact hadopted
    · exact hadopted
  · obtain ⟨old, hold, rfl⟩ := getElem?_modify_eq_some hq
    split_ifs at hclose ⊢
    · rw [(hf old).1, (hf old).2.1]
      exact h.closing q old hold ((hf old).2.2.1 ▸ hclose)
    · exact h.closing q old hold hclose
  · obtain ⟨old, hold, rfl⟩ := getElem?_modify_eq_some hq
    split_ifs at hab ⊢ with hqp
    · subst hqp
      rw [(hf old).2.2.1]
      rcases (hf old).2.2.2 hab with hab | htask
      · exact h.abandoned p old hold hab
      · exact (h.committed p htask).2 old hold
    · exact h.abandoned q old hold hab
  · obtain ⟨hlt, hcommitted⟩ := h.committed q htask
    refine ⟨lt_of_lt_of_eq hlt (List.length_modify ..).symm, fun pc hq => ?_⟩
    obtain ⟨old, hold, rfl⟩ := getElem?_modify_eq_some hq
    split_ifs
    · rw [(hf old).2.2.1]
      exact hcommitted old hold
    · exact hcommitted old hold

theorem Due.modifyPc (h : Due s) (hf : ∀ pc, (f pc).pending = pc.pending ∧ (f pc).adopted = pc.adopted ∧
    (f pc).claims = pc.claims ∧ (pc.closing = true → (f pc).closing = true)) : Due (s.modifyPc p f) := by
  intro q pc hpc hclaims hpending hadopted
  obtain ⟨old, hold, rfl⟩ := getElem?_modify_eq_some hpc
  obtain ⟨hsame, hsame', hclaims', hclosing⟩ := hf old
  split_ifs at hclaims hpending hadopted ⊢
  · rw [hclaims'] at hclaims
    rw [hsame] at hpending
    rw [hsame'] at hadopted
    rcases h q old hold hclaims hpending hadopted with hclose | hrest
    · exact .inl (hclosing hclose)
    · exact .inr hrest
  · exact h q old hold hclaims hpending hadopted

/-- Tasks do not matter but for those that have committed. -/
theorem Inv.setTask (h : Inv s) {j : Nat} {task : Task}
    (htask : ∀ q, task = .committed q → q < s.pcs.length ∧ ∀ pc, s.pcs[q]? = some pc → pc.closing = true) :
    Inv (s.setTask j task) := by
  refine ⟨h.count, h.valid, h.took, h.closing, h.abandoned, fun q hq => ?_⟩
  rcases List.mem_or_eq_of_mem_set hq with hq | hq
  · exact h.committed q hq
  · exact htask q hq.symm

theorem Due.setTask (h : Due s) {j : Nat} {old task : Task} (hold : s.tasks[j]? = some old)
    (hdone : ∀ q pc, old = .scheduled q → s.pcs[q]? = some pc →
      0 < pc.pending ∨ pc.adopted = true ∨ pc.closing = true) : Due (s.setTask j task) := by
  intro q pc hpc hclaims hpending hadopted
  rcases h q pc hpc hclaims hpending hadopted with hclosing | hdrop | htask
  · exact .inl hclosing
  · exact .inr (.inl hdrop)
  · by_cases heq : .scheduled q = old
    · rcases hdone q pc heq.symm hpc with hpos | htrue | hclosing
      · omega
      · rw [hadopted] at htrue
        cases htrue
      · exact .inl hclosing
    · exact .inr (.inr (mem_set_of_ne hold htask heq))

/-- The task finds no claim and nobody who took the connection. -/
theorem Inv.commit (h : Inv s) {pc₀ : Pc} (hpc₀ : s.pcs[p]? = some pc₀) (hpending : pc₀.pending = 0)
    (hadopted : pc₀.adopted = false) : Inv (s.modifyPc p fun pc => { pc with closing := true }) := by
  refine ⟨fun q pc hq => ?_, fun c hc q hq => ?_, fun c hc q pc htook hq => ?_, fun q pc hq hclose => ?_,
    fun q pc hq hab => ?_, fun q htask => ?_⟩
  · obtain ⟨old, hold, rfl⟩ := getElem?_modify_eq_some hq
    have hcount := h.count q old hold
    split_ifs <;> exact hcount
  · show q < (s.pcs.modify p _).length
    rw [List.length_modify]
    exact h.valid c hc q hq
  · obtain ⟨old, hold, rfl⟩ := getElem?_modify_eq_some hq
    have hadopted := h.took c hc q old htook hold
    split_ifs <;> exact hadopted
  · obtain ⟨old, hold, rfl⟩ := getElem?_modify_eq_some hq
    split_ifs at hclose ⊢ with hqp
    · subst hqp
      rw [hpc₀] at hold
      cases hold
      exact ⟨hpending, hadopted⟩
    · exact h.closing q old hold hclose
  · obtain ⟨old, hold, rfl⟩ := getElem?_modify_eq_some hq
    split_ifs at hab ⊢
    · rfl
    · exact h.abandoned q old hold hab
  · obtain ⟨hlt, hcommitted⟩ := h.committed q htask
    refine ⟨lt_of_lt_of_eq hlt (List.length_modify ..).symm, fun pc hq => ?_⟩
    obtain ⟨old, hold, rfl⟩ := getElem?_modify_eq_some hq
    split_ifs
    · rfl
    · exact hcommitted old hold

/-- A new connection has no claim yet. -/
theorem Inv.build (h : Inv s) (forceRelay : Bool) : Inv (s.build forceRelay) := by
  have hget : ∀ q (pc : Pc), (s.pcs ++ [{ relayOnly := forceRelay }])[q]? = some pc →
      s.pcs[q]? = some pc ∨ q = s.pcs.length ∧ pc = { relayOnly := forceRelay } :=
    fun _ _ => getElem?_append_singleton
  refine ⟨fun q pc hq => ?_, fun c hc q hq => ?_, fun c hc q pc htook hq => ?_, fun q pc hq hclose => ?_,
    fun q pc hq hab => ?_, fun q htask => ?_⟩
  · rcases hget q pc hq with hold | ⟨rfl, rfl⟩
    · exact h.count q pc hold
    · -- nobody has a claim on what was not there
      symm
      refine List.countP_eq_zero.2 fun c hc hholds => ?_
      exact absurd (h.valid c hc _ (.inl hholds)) (lt_irrefl _)
  · exact lt_of_lt_of_le (h.valid c hc q hq) (by simp [Sessions.build])
  · rcases hget q pc hq with hold | ⟨rfl, rfl⟩
    · exact h.took c hc q pc htook hold
    · exact absurd (h.valid c hc _ (.inr htook)) (lt_irrefl _)
  · rcases hget q pc hq with hold | ⟨rfl, rfl⟩
    · exact h.closing q pc hold hclose
    · cases hclose
  · rcases hget q pc hq with hold | ⟨rfl, rfl⟩
    · exact h.abandoned q pc hold hab
    · cases hab
  · obtain ⟨hlt, hcommitted⟩ := h.committed q htask
    refine ⟨lt_of_lt_of_le hlt (by simp [Sessions.build]), fun pc hq => ?_⟩
    rcases hget q pc hq with hold | ⟨rfl, rfl⟩
    · exact hcommitted pc hold
    · exact absurd hlt (lt_irrefl _)

theorem Due.build (h : Due s) (forceRelay : Bool) : Due (s.build forceRelay) := by
  intro q pc hq hclaims hpending hadopted
  rcases getElem?_append_singleton hq with hold | ⟨rfl, rfl⟩
  · exact h q pc hold hclaims hpending hadopted
  · cases hclaims

end Change

section Claim

variable {i p : Nat} {c : Caller}

/-- A caller that has no claim yet takes one on a connection that is not being closed. -/
theorem Inv.claim (h : Inv s) (hc : s.callers[i]? = some c) (hphase : c.phase = .looking ∨ c.phase = .building)
    {pc₀ : Pc} (hp : s.pcs[p]? = some pc₀) (hopen : pc₀.closing = false) : Inv (s.claim i c p) := by
  have hnone : ∀ q, c.phase.holds q = false ∧ c.phase.took q = false := by
    intro q
    rcases hphase with hphase | hphase <;> rw [hphase] <;> exact ⟨rfl, rfl⟩
  refine h.move hc (fun q hq => ⟨?_, ?_⟩) (fun _ => (List.getElem?_eq_some_iff.1 hp).1) (fun pc hpc => ?_)
    (fun pc hpc hadopted => ?_) fun pc hpc => ⟨rfl, rfl, fun hclosing => ?_⟩
  · rw [(hnone q).1]
    exact beq_eq_false_iff_ne.2 (Ne.symm hq)
  · rw [(hnone q).2]
    rfl
  · rw [(hnone p).1]
    simp [Phase.holds]
  · rcases hadopted with hfalse | hadopted
    · cases hfalse
    · exact hadopted
  · rw [hp] at hpc
    cases hpc
    rw [hopen] at hclosing
    cases hclosing

theorem Due.claim (h : Due s) (hc : s.callers[i]? = some c) (hphase : c.phase = .looking ∨ c.phase = .building) :
    Due (s.claim i c p) := by
  refine h.move hc (fun q hq => ?_) fun pc _ => .inl (Nat.succ_pos _)
  rcases hphase with hphase | hphase <;> rw [hphase] at hq <;> cases hq

theorem reusable_open {key : String} {forceRelay : Bool} (h : s.reusable key forceRelay = some p) :
    ∃ pc, s.pcs[p]? = some pc ∧ pc.closing = false := by
  obtain ⟨-, hany⟩ := Option.filter_eq_some_iff.1 h
  cases hpc : s.pcs[p]? with
  | none =>
    rw [hpc] at hany
    cases hany
  | some pc =>
    rw [hpc, Option.any_some, Pc.isReusableFor] at hany
    simp only [Bool.and_eq_true, Bool.not_eq_true'] at hany
    exact ⟨pc, rfl, hany.1.1.2⟩

theorem reusable_build {key : String} {forceRelay r : Bool} (h : s.reusable key forceRelay = some p) :
    ∃ pc, (s.build r).pcs[p]? = some pc ∧ pc.closing = false := by
  obtain ⟨pc, hpc, hopen⟩ := reusable_open h
  have hlt := (List.getElem?_eq_some_iff.1 hpc).1
  exact ⟨pc, (List.getElem?_append_left hlt).trans hpc, hopen⟩

/-- The claims do not depend on the map. -/
theorem Inv.sessions (h : Inv s) (sessions : List (String × Nat)) : Inv { s with sessions := sessions } :=
  ⟨h.count, h.valid, h.took, h.closing, h.abandoned, h.committed⟩

theorem Inv.insert (h : Inv s) (hc : s.callers[i]? = some c) (hphase : c.phase = .building) (key : String) :
    Inv (s.insert i c key) := by
  unfold Sessions.insert
  split
  · next p hreusable =>
    obtain ⟨pc, hpc, hopen⟩ := reusable_build hreusable
    exact (h.build c.forceRelay).claim hc (.inr hphase) hpc hopen
  · exact ((h.build c.forceRelay).sessions _).claim hc (.inr hphase) List.getElem?_concat_length rfl

theorem Due.insert (h : Due s) (hc : s.callers[i]? = some c) (hphase : c.phase = .building) (key : String) :
    Due (s.insert i c key) := by
  unfold Sessions.insert
  split
  · exact (h.build c.forceRelay).claim hc (.inr hphase)
  · have hsessions : Due { s.build c.forceRelay with sessions := Assoc.put s.sessions key (some s.pcs.length) } :=
      h.build c.forceRelay
    exact hsessions.claim hc (.inr hphase)

end Claim

/-! ## Every step -/

theorem Inv.step {e : Event} (h : Inv s) (hs : s.step e = some s') : Inv s' := by
  cases e with
  | new forceRelay hasKey =>
    cases hs
    have hnone : ∀ q, (⟨forceRelay, if hasKey then .looking else .building⟩ : Caller).phase.holds q = false ∧
        (⟨forceRelay, if hasKey then .looking else .building⟩ : Caller).phase.took q = false := by
      intro q
      cases hasKey <;> exact ⟨rfl, rfl⟩
    refine ⟨fun q pc hq => ?_, fun c hc q hq => ?_, fun c hc q pc htook hq => ?_, h.closing, h.abandoned, h.committed⟩
    · show _ = (s.callers ++ [_]).countP _
      rw [List.countP_append, List.countP_singleton, (hnone q).1, h.count q pc hq]
      rfl
    · rcases List.mem_append.1 hc with hc | hc
      · exact h.valid c hc q hq
      · obtain rfl := List.mem_singleton.1 hc
        rw [(hnone q).1, (hnone q).2] at hq
        rcases hq with hq | hq <;> cases hq
    · rcases List.mem_append.1 hc with hc | hc
      · exact h.took c hc q pc htook hq
      · obtain rfl := List.mem_singleton.1 hc
        rw [(hnone q).2] at htook
        cases htook
  | lookup i key =>
    simp only [Sessions.step] at hs
    split at hs
    · next forceRelay hc =>
      split at hs
      · next p hreusable =>
        cases hs
        obtain ⟨pc, hpc, hopen⟩ := reusable_open hreusable
        exact h.claim hc (.inl rfl) hpc hopen
      · cases hs
        exact h.setPhase hc fun q => ⟨rfl, rfl⟩
    · cases hs
  | insert i key =>
    simp only [Sessions.step] at hs
    split at hs
    · next forceRelay hc =>
      cases hs
      exact h.insert hc rfl key
    · cases hs
  | fail i =>
    simp only [Sessions.step] at hs
    split at hs
    · next forceRelay hc =>
      cases hs
      exact h.setPhase hc fun q => ⟨rfl, rfl⟩
    · cases hs
  | storeAdopted i =>
    simp only [Sessions.step] at hs
    split at hs
    · next forceRelay p hc =>
      cases hs
      have hholds : (Phase.holding p).holds p = true := beq_self_eq_true p
      refine h.move hc (fun q hq => ⟨rfl, beq_eq_false_iff_ne.2 (Ne.symm hq)⟩)
        (fun _ => h.valid _ (List.mem_of_getElem? hc) p (.inl hholds)) (fun pc _ => rfl) (fun pc _ _ => rfl)
        fun pc hpc => ⟨rfl, rfl, fun hclosing => ?_⟩
      -- a claim is held, so the connection is not being closed
      have hpos := h.pending_pos hc hholds hpc
      have hzero := (h.closing p pc hpc hclosing).1
      omega
    · cases hs
  | releaseAdopted i =>
    simp only [Sessions.step] at hs
    split at hs
    · next forceRelay p hc =>
      cases hs
      have hholds : (Phase.adopting p).holds p = true := beq_self_eq_true p
      have htook : (Phase.adopting p).took p = true := beq_self_eq_true p
      refine h.move hc (fun q hq => ⟨(beq_eq_false_iff_ne.2 (Ne.symm hq)).symm, rfl⟩)
        (fun _ => h.valid _ (List.mem_of_getElem? hc) p (.inl hholds)) (fun pc hpc => ?_)
        (fun pc hpc _ => h.took _ (List.mem_of_getElem? hc) p pc htook hpc)
        fun pc hpc => ⟨rfl, rfl, fun hclosing => ?_⟩
      · have hpos := h.pending_pos hc hholds hpc
        rw [show (⟨forceRelay, .adopting p⟩ : Caller).phase.holds p = true from hholds]
        show pc.pending - 1 + 1 = pc.pending + 0
        omega
      · have hpos := h.pending_pos hc hholds hpc
        have hzero := (h.closing p pc hpc hclosing).1
        omega
    · cases hs
  | releaseDropped i =>
    simp only [Sessions.step] at hs
    split at hs
    · next forceRelay p hc =>
      cases hs
      have hholds : (Phase.holding p).holds p = true := beq_self_eq_true p
      refine h.move hc (fun q hq => ⟨(beq_eq_false_iff_ne.2 (Ne.symm hq)).symm, rfl⟩) (fun hp => ?_)
        (fun pc hpc => ?_) (fun pc hpc hadopted => ?_) fun pc hpc => ⟨rfl, rfl, fun hclosing => ?_⟩
      · rcases hp with hp | hp <;> cases hp
      · have hpos := h.pending_pos hc hholds hpc
        rw [show (⟨forceRelay, .holding p⟩ : Caller).phase.holds p = true from hholds]
        show pc.pending - 1 + 1 = pc.pending + 0
        omega
      · rcases hadopted with hfalse | hadopted
        · cases hfalse
        · exact hadopted
      · have hpos := h.pending_pos hc hholds hpc
        have hzero := (h.closing p pc hpc hclosing).1
        omega
    · cases hs
  | loadAdopted i =>
    simp only [Sessions.step] at hs
    split at hs
    · next forceRelay p last hc =>
      have hphase : Inv (s.setPhase i ⟨forceRelay, .dropping p last⟩ .over) := h.setPhase hc fun q => ⟨rfl, rfl⟩
      split_ifs at hs
      · cases hs
        refine ⟨hphase.count, hphase.valid, hphase.took, hphase.closing, hphase.abandoned, fun q hq => ?_⟩
        rcases List.mem_append.1 hq with hq | hq
        · exact hphase.committed q hq
        · cases List.mem_singleton.1 hq
      · cases hs
        exact hphase
    · cases hs
  | decide j =>
    simp only [Sessions.step] at hs
    split at hs
    · next p htask =>
      obtain ⟨pc, hpc, rfl⟩ := Option.map_eq_some_iff.1 hs
      unfold Sessions.decide
      split_ifs with hwanted
      · exact h.setTask nofun
      · obtain ⟨hpending, hadopted⟩ := not_or.1 hwanted
        have hcommit := h.commit hpc (not_not.1 hpending) (by simpa using hadopted)
        refine hcommit.setTask fun q hq => ?_
        cases hq
        refine ⟨lt_of_lt_of_eq (List.getElem?_eq_some_iff.1 hpc).1 (List.length_modify ..).symm, fun pc' hpc' => ?_⟩
        obtain ⟨old, hold, rfl⟩ := getElem?_modify_eq_some hpc'
        rw [if_pos rfl]
    · cases hs
  | close j =>
    simp only [Sessions.step] at hs
    split at hs
    · next p htask =>
      cases hs
      have hclosed : Inv (s.modifyPc p fun pc => { pc with abandoned := true }) :=
        h.modifyPc fun pc => ⟨rfl, rfl, rfl, fun _ => .inr (List.mem_of_getElem? htask)⟩
      exact hclosed.setTask nofun
    · cases hs
  | health p disconnected =>
    cases hs
    exact h.modifyPc fun pc => ⟨rfl, rfl, rfl, fun hab => .inl hab⟩
  | terminal p =>
    cases hs
    exact h.modifyPc fun pc => ⟨rfl, rfl, rfl, fun hab => .inl hab⟩
  | evict p =>
    cases hs
    exact h.sessions _

theorem Due.step {e : Event} (h : Due s) (hi : Inv s) (hs : s.step e = some s') : Due s' := by
  cases e with
  | new forceRelay hasKey =>
    cases hs
    intro q pc hpc hclaims hpending hadopted
    rcases h q pc hpc hclaims hpending hadopted with hclosing | ⟨c, hc, hphase⟩ | htask
    · exact .inl hclosing
    · exact .inr (.inl ⟨c, List.mem_append_left _ hc, hphase⟩)
    · exact .inr (.inr htask)
  | lookup i key =>
    simp only [Sessions.step] at hs
    split at hs
    · next forceRelay hc =>
      split at hs
      · cases hs
        exact h.claim hc (.inl rfl)
      · cases hs
        exact h.setPhase hc nofun
    · cases hs
  | insert i key =>
    simp only [Sessions.step] at hs
    split at hs
    · next forceRelay hc =>
      cases hs
      exact h.insert hc rfl key
    · cases hs
  | fail i =>
    simp only [Sessions.step] at hs
    split at hs
    · next forceRelay hc =>
      cases hs
      exact h.setPhase hc nofun
    · cases hs
  | storeAdopted i =>
    simp only [Sessions.step] at hs
    split at hs
    · next forceRelay p hc =>
      cases hs
      exact h.move hc nofun fun pc _ => .inr (.inl rfl)
    · cases hs
  | releaseAdopted i =>
    simp only [Sessions.step] at hs
    split at hs
    · next forceRelay p hc =>
      cases hs
      refine h.move hc nofun fun pc hpc => .inr (.inl ?_)
      exact hi.took _ (List.mem_of_getElem? hc) p pc (beq_self_eq_true p) hpc
    · cases hs
  | releaseDropped i =>
    simp only [Sessions.step] at hs
    split at hs
    · next forceRelay p hc =>
      cases hs
      refine h.move hc nofun fun pc hpc => ?_
      -- the claim that brings the count to zero is the last
      have hpos := hi.pending_pos hc (beq_self_eq_true p) hpc
      by_cases hone : pc.pending = 1
      · refine .inr (.inr ?_)
        rw [hpc, Option.any_some, hone]
        rfl
      · refine .inl ?_
        show 0 < pc.pending - 1
        omega
    · cases hs
  | loadAdopted i =>
    simp only [Sessions.step] at hs
    split at hs
    · next forceRelay p last hc =>
      intro q pc hpc hclaims hpending hadopted
      have hpcs : s.pcs[q]? = some pc := by
        split_ifs at hs <;> cases hs <;> exact hpc
      have hkeep : ∀ c' ∈ s.callers, c' ≠ ⟨forceRelay, .dropping p last⟩ → c' ∈ s'.callers := by
        intro c' hc' hne
        split_ifs at hs <;> cases hs <;> exact mem_set_of_ne hc hc' hne
      have htasks : ∀ t ∈ s.tasks, t ∈ s'.tasks := by
        intro t ht
        split_ifs at hs <;> cases hs
        · exact List.mem_append_left _ ht
        · exact ht
      rcases h q pc hpcs hclaims hpending hadopted with hclosing | ⟨c, hc', hphase⟩ | htask
      · exact .inl hclosing
      · by_cases heq : c = ⟨forceRelay, .dropping p last⟩
        · subst heq
          cases hphase
          rw [if_pos (by simp [hpcs, hadopted])] at hs
          cases hs
          exact .inr (.inr (List.mem_append_right _ (List.mem_singleton.2 rfl)))
        · exact .inr (.inl ⟨c, hkeep c hc' heq, hphase⟩)
      · exact .inr (.inr (htasks _ htask))
    · cases hs
  | decide j =>
    simp only [Sessions.step] at hs
    split at hs
    · next p htask =>
      obtain ⟨pc, hpc, rfl⟩ := Option.map_eq_some_iff.1 hs
      unfold Sessions.decide
      split_ifs with hwanted
      · refine h.setTask htask fun q pc' hq hpc' => ?_
        cases hq
        rw [hpc] at hpc'
        cases hpc'
        rcases hwanted with hpending | hadopted
        · exact .inl (Nat.pos_of_ne_zero hpending)
        · exact .inr (.inl hadopted)
      · have hdue : Due (s.modifyPc p fun pc => { pc with closing := true }) :=
          h.modifyPc fun pc => ⟨rfl, rfl, rfl, fun _ => rfl⟩
        refine hdue.setTask htask fun q pc' hq hpc' => ?_
        cases hq
        obtain ⟨old, hold, rfl⟩ := getElem?_modify_eq_some hpc'
        rw [if_pos rfl]
        exact .inr (.inr rfl)
    · cases hs
  | close j =>
    simp only [Sessions.step] at hs
    split at hs
    · next p htask =>
      cases hs
      have hdue : Due (s.modifyPc p fun pc => { pc with abandoned := true }) :=
        h.modifyPc fun pc => ⟨rfl, rfl, rfl, id⟩
      exact hdue.setTask htask nofun
    · cases hs
  | health p disconnected =>
    cases hs
    exact h.modifyPc fun pc => ⟨rfl, rfl, rfl, id⟩
  | terminal p =>
    cases hs
    exact h.modifyPc fun pc => ⟨rfl, rfl, rfl, id⟩
  | evict p =>
    cases hs
    exact h

theorem exec_inv {h : List (Sessions × Event)} (hx : Exec Init step h s) : Inv s ∧ Due s := by
  refine hx.invariant (I := fun s => Inv s ∧ Due s) ?_ fun s e s' hi hs => ⟨hi.1.step hs, hi.2.step hi.1 hs⟩
  rintro s rfl
  exact ⟨⟨nofun, nofun, nofun, nofun, nofun, nofun⟩, nofun⟩

/-- The abandon-close of a connection has committed, or the task for it is there and commits when it
runs, or the drop of the last claim is half done and its next step schedules the task. -/
def Closes (s : Sessions) (p : Nat) (pc : Pc) : Prop :=
  pc.closing = true ∨
    (∃ j s₁ pc₁, s.tasks[j]? = some (.scheduled p) ∧ s.step (.decide j) = some s₁ ∧ s₁.pcs[p]? = some pc₁ ∧
      pc₁.closing = true) ∨
    ∃ i c s₁, s.callers[i]? = some c ∧ c.phase = .dropping p true ∧ s.step (.loadAdopted i) = some s₁ ∧
      .scheduled p ∈ s₁.tasks

/-- In every run, of any peer connection: if some caller took it, it is not closed as abandoned; once an
abandon-close has committed, no caller has a claim on it or was handed it; and when every claim on it
has been dropped and nobody took it, an abandon-close commits. -/
theorem handed_off {h : List (Sessions × Event)} (hx : Exec Init step h s) {p : Nat} {pc : Pc}
    (hpc : s.pcs[p]? = some pc) :
    ((∃ c ∈ s.callers, c.phase.took p = true) → pc.closing = false ∧ pc.abandoned = false) ∧
      (pc.closing = true → ∀ c ∈ s.callers, c.phase.holds p = false ∧ c.phase.took p = false) ∧
      (0 < pc.claims → pc.adopted = false → (∀ c ∈ s.callers, c.phase.holds p = false) → Closes s p pc) := by
  obtain ⟨hi, hd⟩ := exec_inv hx
  have htaken : (∃ c ∈ s.callers, c.phase.took p = true) → pc.closing = false := by
    rintro ⟨c, hc, htook⟩
    by_contra hclosing
    have hadopted := hi.took c hc p pc htook hpc
    rw [(hi.closing p pc hpc (by simpa using hclosing)).2] at hadopted
    cases hadopted
  refine ⟨fun htook => ⟨htaken htook, ?_⟩, fun hclosing c hc => ⟨?_, ?_⟩, fun hclaims hadopted hfree => ?_⟩
  · by_contra hab
    have hclosing := hi.abandoned p pc hpc (by simpa using hab)
    rw [htaken htook] at hclosing
    cases hclosing
  · have hzero := (hi.closing p pc hpc hclosing).1
    rw [hi.count p pc hpc] at hzero
    simpa using List.countP_eq_zero.1 hzero c hc
  · by_contra htook
    rw [htaken ⟨c, hc, by simpa using htook⟩] at hclosing
    cases hclosing
  · have hpending : pc.pending = 0 := by
      rw [hi.count p pc hpc]
      exact List.countP_eq_zero.2 fun c hc => by simp [hfree c hc]
    rcases hd p pc hpc hclaims hpending hadopted with hclosing | ⟨c, hc, hphase⟩ | htask
    · exact .inl hclosing
    · obtain ⟨i, hi'⟩ := List.mem_iff_getElem?.1 hc
      obtain ⟨forceRelay, phase⟩ := c
      cases hphase
      have hstep : s.step (.loadAdopted i) =
          some { s.setPhase i ⟨forceRelay, .dropping p true⟩ .over with tasks := s.tasks ++ [.scheduled p] } := by
        simp only [step, hi']
        exact if_pos (by simp [hpc, hadopted])
      exact .inr (.inr ⟨i, _, _, hi', rfl, hstep, List.mem_append_right _ (List.mem_singleton.2 rfl)⟩)
    · obtain ⟨j, hj⟩ := List.mem_iff_getElem?.1 htask
      refine .inr (.inl ⟨j, s.decide j p pc, { pc with closing := true }, hj, ?_, ?_, rfl⟩)
      · simp only [step, hj, hpc, Option.map_some]
      · have hdecide : s.decide j p pc = (s.modifyPc p fun pc => { pc with closing := true }).setTask j (.committed p) :=
          if_neg (by simp [hpending, hadopted])
        rw [hdecide]
        show (s.pcs.modify p _)[p]? = _
        rw [List.getElem?_modify, hpc]
        simp

/-- Four callers and three connections: the first connection is taken by the second caller after the first
has gone, the second is closed as its caller went away, and of the third the drop is half done. -/
def several : Sessions where
  sessions := [("key", 2)]
  pcs := [{ relayOnly := false, adopted := true, claims := 2 }, { relayOnly := true, closing := true, claims := 1 },
    { relayOnly := true, claims := 1 }]
  callers := [⟨false, .over⟩, ⟨false, .handed 0⟩, ⟨true, .over⟩, ⟨true, .dropping 2 true⟩]
  tasks := [.committed 1]

def severalEvents : List Event :=
  [.new false false, .insert 0 "key", .new false true, .lookup 1 "key", .new true true, .lookup 2 "key",
    .releaseDropped 0, .loadAdopted 0, .storeAdopted 1, .releaseAdopted 1, .insert 2 "key", .releaseDropped 2,
    .loadAdopted 2, .decide 0, .new true true, .lookup 3 "key", .insert 3 "key", .releaseDropped 3]

theorem handed_off_several :
    (∃ h, Exec Init step h several) ∧
      ((several.pcs[0]?).map fun pc => (pc.closing, pc.abandoned)) = some (false, false) ∧
      (∀ c ∈ several.callers, c.phase.holds 1 = false ∧ c.phase.took 1 = false) ∧
      Closes several 2 { relayOnly := true, claims := 1 } := by
  have hrun : Lib.runs step {} severalEvents = some several := by decide
  obtain ⟨h, hx⟩ := (Exec.start (show Init {} from rfl)).append hrun
  obtain ⟨htaken, -, -⟩ := handed_off hx (p := 0) rfl
  obtain ⟨-, hclosing, -⟩ := handed_off hx (p := 1) rfl
  obtain ⟨-, -, hdue⟩ := handed_off hx (p := 2) rfl
  obtain ⟨hopen, habandoned⟩ := htaken ⟨_, List.mem_cons_of_mem _ (List.mem_cons_self ..), rfl⟩
  refine ⟨⟨h, hx⟩, ?_, hclosing rfl, hdue (by decide) rfl (by decide)⟩
  rw [show several.pcs[0]? = some { relayOnly := false, adopted := true, claims := 2 } from rfl, Option.map_some,
    hopen, habandoned]

end Sessions

end FontisRemote.WebRtc
