import Mathlib.Data.List.Nodup
import FontisRemote.PortForward.MuxSteps

/-!
# What a peer can make the controlled side hold

Every channel task of the controlled side holds a target socket and a queue. The queue is bounded by the
window: what is in it, what was drained and not advertised and what the peer may still send never
exceed what was granted (`Channel.Within`). The number of tasks is bounded by the size of the map when
an `open` is handled, but an entry leaves the map on a `close`, an overrun or once nothing listens any
more, and its task goes on as long as it is parked on its socket (`PortForwardMux.orphans`). The tasks
exceed the limit by as many of those as there ever are when an `open` is let in, at most
(`PortForwardMux.alive_le_of_orphans`); so they are within it if every such task has ended by then
(`PortForwardMux.bounded_unless_outlived`).
-/

namespace FontisRemote.PortForward

open FontisRemote.Lib Channel

namespace Channel

/-- Charge in the inbound queue and the buffer of the connect loop. -/
def buffered (c : Channel) : Nat :=
  (c.pending.map (charge ·.length)).sum + (c.inbound.map Inbound.charge).sum

def Inbound.isData : Inbound → Bool
  | .data _ => true
  | _ => false

/-- Data frames in the inbound queue and the buffer of the connect loop. -/
def bufferedFrames (c : Channel) : Nat := c.pending.length + c.inbound.countP Inbound.isData

/-- Window, withheld drains and backlog together. -/
def stock (c : Channel) : Nat := c.window.remaining + c.window.drainedSinceUpdate + c.queued

/-- What a task was granted: the initial window until it is connected. -/
def Within (c : Channel) : Prop :=
  c.stock ≤ if c.stage = .connecting then initialWindow else channelWindow

variable {gone entry : Bool} {c c' : Channel} {e : TaskEvent} {em : Emit}

theorem buffered_le_queued (c : Channel) : c.buffered ≤ c.queued := by
  unfold buffered queued
  omega

theorem minFrameCharge_mul_le (c : Channel) : c.bufferedFrames * minFrameCharge ≤ c.buffered := by
  have hpending : ∀ l : List Bytes, l.length * minFrameCharge ≤ (l.map (charge ·.length)).sum := by
    intro l
    induction l with
    | nil => simp
    | cons b l ih =>
      have := minFrameCharge_le_charge b.length
      simp only [List.length_cons, List.map_cons, List.sum_cons, Nat.add_mul]
      omega
  have hinbound : ∀ l : List Inbound, l.countP Inbound.isData * minFrameCharge ≤
      (l.map Inbound.charge).sum := by
    intro l
    induction l with
    | nil => simp
    | cons i l ih =>
      cases i with
      | data b =>
        have := minFrameCharge_le_charge b.length
        have hcount : (Inbound.data b :: l).countP Inbound.isData = l.countP Inbound.isData + 1 :=
          List.countP_cons_of_pos rfl
        simp only [hcount, List.map_cons, List.sum_cons, Nat.add_mul, Inbound.charge]
        omega
      | close => simpa [Inbound.isData, Inbound.charge] using ih
      | violation => simpa [Inbound.isData, Inbound.charge] using ih
  have h₁ := hpending c.pending
  have h₂ := hinbound c.inbound
  unfold bufferedFrames buffered
  rw [Nat.add_mul]
  omega

theorem Within.buffered_le (h : Within c) : c.buffered ≤ channelWindow := by
  have hinit : initialWindow ≤ channelWindow := by decide
  have hb := c.buffered_le_queued
  unfold Within stock at h
  split_ifs at h <;> omega

theorem Within.frames_le (h : Within c) : c.bufferedFrames ≤ channelWindow / minFrameCharge := by
  rw [Nat.le_div_iff_mul_le (by decide)]
  exact c.minFrameCharge_mul_le.trans h.buffered_le

/-- A step makes nothing of its own. -/
theorem Did.stock_le (h : Did gone entry c e c' em) (hcap : c.stock ≤ channelWindow) :
    c'.stock ≤ c.stock + grantOf e := by
  by_cases hr : c'.receiving = true
  · exact (h.balance hcap hr).le
  · unfold stock at hcap ⊢
    cases h with
    | connectData hs _ _ => exact absurd (by simp [Channel.receiving, hs]) hr
    | connected _ => exact absurd rfl hr
    | nextPending hs _ _ => exact absurd (by simp [Channel.receiving, hs]) hr
    | nextData hs _ _ _ => exact absurd (by simp [Channel.receiving, hs]) hr
    | write hs _ _ => exact absurd (by simp [Channel.receiving, hs]) hr
    | writeDone hs _ _ => exact absurd (by simp [Channel.receiving, hs]) hr
    | writeDoneUpdate hs _ _ => exact absurd (by simp [Channel.receiving, hs]) hr
    | advertise hs _ => exact absurd (by simp [Channel.receiving, hs]) hr
    | _ => simp_all [queued, grantOf]

theorem Did.connecting (h : Did gone entry c e c' em) (hs : c'.stage = .connecting) :
    c.stage = .connecting := by
  cases h with
  | @join first second _ _ _ => cases hsc : sendsClose first second <;> simp [hsc] at hs
  | _ => simp_all

theorem Did.of_grants (h : Did gone entry c e c' em) (hg : grantOf e ≠ 0) : c.stage = .connecting ∧
    c'.stage = .granted ∧ grantOf e = channelWindow - initialWindow := by
  cases h with
  | connected hs => exact ⟨hs, rfl, rfl⟩
  | _ => exact absurd rfl hg

theorem Did.within (h : Did gone entry c e c' em) (hc : Within c) : Within c' := by
  have hinit : initialWindow ≤ channelWindow := by decide
  have hcap : c.stock ≤ channelWindow := by
    unfold Within at hc
    split_ifs at hc <;> omega
  have hle := h.stock_le hcap
  unfold Within at hc ⊢
  by_cases hg : grantOf e = 0
  · by_cases hs : c'.stage = .connecting
    · rw [if_pos hs]
      rw [if_pos (h.connecting hs)] at hc
      omega
    · rw [if_neg hs]
      omega
  · obtain ⟨hs, hs', hgrant⟩ := h.of_grants hg
    rw [if_pos hs] at hc
    simp only [hs', reduceCtorEq, if_false]
    omega

theorem stock_push (c : Channel) (i : Inbound) : (c.push i).stock ≤ c.stock + i.charge := by
  unfold Channel.push
  split
  · simp only [stock, queued, List.map_append, List.map_cons, List.map_nil, List.sum_append,
      List.sum_cons, List.sum_nil]
    omega
  · omega

theorem stock_credit (c : Channel) (credit : Nat) : stock { c with credit := credit } = c.stock := rfl

end Channel

/-- A frame takes from the window what it adds to the queue. -/
theorem EndOp.stock_le {f : End → End} (h : EndOp f) {ent : Entry} {c c' : Channel}
    (hc : (f ⟨some ent, some c⟩).chan = some c') : c'.stock ≤ c.stock := by
  cases h with
  | data d =>
    simp only [End.onData] at hc
    split at hc
    · rename_i w hw
      obtain ⟨hle, heq⟩ := RecvWindow.accept_eq_some hw
      have hrem : w.remaining + charge d.length = c.window.remaining := by
        rw [heq]
        exact Nat.sub_add_cancel hle
      have hdrained : w.drainedSinceUpdate = c.window.drainedSinceUpdate := by rw [heq]
      have hstock : Channel.stock { c with window := w } + charge d.length = c.stock := by
        simp only [stock, queued, hdrained]
        omega
      split at hc
      · cases hc
        have hpush := stock_push { c with window := w } (.data d)
        have hcharge : (Inbound.data d).charge = charge d.length := rfl
        omega
      · cases hc
        omega
    · cases hc
      exact stock_push c .violation
  | close =>
    cases hc
    exact stock_push c .close
  | windowUpdate n =>
    cases hc
    exact (stock_credit c _).le
  | opened w =>
    simp only [End.onOpened] at hc
    split at hc
    · cases hc
      exact le_rfl
    · cases hc
      exact (stock_credit c _).le

/-- Every task of the controlled side holds what it was granted at most. -/
def Side.Within (s : Side) : Prop := ∀ c ∈ s.tasks, c.Within

theorem Side.Within.step {s s' : Side} (h : s.Within) (hs : s.Step .controlled s') : s'.Within := by
  have hset : ∀ {i c c'}, s.tasks[i]? = some c → c'.Within → ∀ d ∈ s.tasks.set i c', d.Within := by
    intro i c c' _ hc' d hd
    rcases List.mem_or_eq_of_mem_set hd with hd | rfl
    · exact h d hd
    · exact hc'
  cases hs with
  | spawned born _ _ _ tasks _ _ =>
    intro c hc
    rw [tasks] at hc
    rcases List.mem_append.1 hc with hc | hc
    · exact h c hc
    · rw [List.mem_singleton.1 hc]
      cases born with
      | connecting host port window => exact le_of_eq (by rfl)
  | @delivered id f op eq =>
    subst eq
    rcases s.deliver_cases id op with heq | ⟨slot, c, c', -, hc, hc', hrec, heq⟩
    · rwa [heq]
    · rw [heq]
      refine hset hc ?_
      have hle := op.stock_le hc'
      have hstage : c'.stage = c.stage := by rw [hrec.eq]
      have hold := h c (List.mem_of_getElem? hc)
      unfold Channel.Within at hold ⊢
      rw [hstage]
      omega
  | stepped task did _ tasks _ _ =>
    intro d hd
    rw [tasks] at hd
    exact hset task (did.within (h _ (List.mem_of_getElem? task))) d hd
  | refused _ _ tasks _ _ =>
    intro c hc
    exact h c (tasks ▸ hc)
  | trimmed _ tasks _ _ =>
    intro c hc
    exact h c (tasks ▸ hc)

/-! ## How many tasks there are -/

/-- The task holds its target socket and its queue. -/
def Channel.alive (c : Channel) : Bool := c.stage ≠ .exited

theorem Channel.Did.was_alive {gone entry : Bool} {c c' : Channel} {e : TaskEvent} {em : Emit}
    (h : Did gone entry c e c' em) : c.alive = true := by
  cases h <;> simp_all [Channel.alive]

theorem Channel.alive_of_receiving {c : Channel} (h : c.receiving = true) : c.alive = true := by
  by_contra hno
  have hs : c.stage = .exited := by simpa [Channel.alive] using hno
  simp [Channel.receiving, hs] at h

namespace Side

variable {s s' : Side}

def alive (s : Side) : Nat := s.tasks.countP Channel.alive

theorem alive_set {i : Nat} {c c' : Channel} (hc : s.tasks[i]? = some c)
    (hle : c'.alive = true → c.alive = true) : (s.tasks.set i c').countP Channel.alive ≤ s.alive := by
  obtain ⟨hlt, rfl⟩ := List.getElem?_eq_some_iff.1 hc
  rw [List.countP_set hlt, alive]
  cases ha : c'.alive with
  | false => simp
  | true =>
    have hpos : 0 < s.tasks.countP Channel.alive :=
      List.countP_pos_iff.2 ⟨_, List.getElem_mem hlt, hle ha⟩
    simp only [hle ha, if_true]
    omega

theorem alive_deliver {id : ChannelId} {f : End → End} (op : EndOp f) :
    (s.deliver id f).alive ≤ s.alive := by
  rcases s.deliver_cases id op with heq | ⟨slot, c, c', -, hc, -, hrec, heq⟩
  · rw [heq]
  · rw [heq]
    refine alive_set hc fun ha => ?_
    rw [hrec.eq] at ha
    exact ha

end Side

namespace PortForwardMux

variable {m m' : PortForwardMux} {ev : MuxEvent}

/-- Tasks no entry leads to, once the entries nothing listens to are dropped. -/
def orphans (m : PortForwardMux) : Nat :=
  m.tasks.zipIdx.countP fun p => p.1.alive && !m.sweep.holds p.2

theorem holds_iff {s : Side} {i : Nat} : s.holds i = true ↔ i ∈ s.channels.map (·.2.task) := by
  simp only [Side.holds, List.any_eq_true, decide_eq_true_eq, List.mem_map]

theorem receiving_of_sweep {p : ChannelId × Slot} (h : p ∈ m.sweep.channels) :
    ∃ c, m.tasks[p.2.task]? = some c ∧ c.receiving = true := by
  have hr := (List.mem_filter.1 h).2
  split at hr
  · rename_i c hc
    exact ⟨c, hc, hr⟩
  · cases hr

/-- Entries of different ids lead to different tasks. -/
theorem tasks_nodup {s : Side} (h : s.Owned) : (s.channels.map (·.2.task)).Nodup := by
  refine List.Nodup.of_map (fun i => (s.tasks[i]?).map Channel.id) ?_
  have hkeys : (s.channels.map (·.2.task)).map (fun i => (s.tasks[i]?).map Channel.id) =
      (s.channels.map Prod.fst).map some := by
    rw [List.map_map, List.map_map]
    refine List.map_congr_left fun p hp => ?_
    obtain ⟨c, hc, hid⟩ := h.leads p hp
    simp [hc, hid]
  rw [hkeys]
  exact h.keys.map fun _ _ heq => Option.some.inj heq

/-- The tasks that are alive are those the map leads to and those it does not. -/
theorem alive_eq (h : m.Owned) : m.alive = m.sweep.channels.length + m.orphans := by
  have hsw : m.sweep.Owned := h.sublist m.sweep_sublist rfl
  have hall : m.alive = m.tasks.zipIdx.countP (fun p => p.1.alive) := by
    have hmap : m.tasks.zipIdx.map Prod.fst = m.tasks := List.zipIdx_map_fst ..
    rw [Side.alive]
    conv_lhs => rw [← hmap]
    rw [List.countP_map]
    rfl
  have hheld : m.tasks.zipIdx.countP (fun p => p.1.alive && m.sweep.holds p.2) =
      m.sweep.channels.length := by
    have hlen : (m.sweep.channels.map (·.2.task)).length = m.sweep.channels.length := List.length_map ..
    rw [List.countP_eq_length_filter, ← List.length_map Prod.snd, ← hlen]
    refine List.Perm.length_eq ((List.perm_ext_iff_of_nodup ?_ (tasks_nodup hsw)).2 fun i => ?_)
    · refine List.Nodup.sublist (List.filter_sublist.map _) ?_
      rw [List.zipIdx_map_snd]
      exact List.nodup_range'
    · constructor
      · intro hi
        obtain ⟨p, hp, rfl⟩ := List.mem_map.1 hi
        have hq := (List.mem_filter.1 hp).2
        exact holds_iff.1 (by simpa using (Bool.and_eq_true_iff.1 hq).2)
      · intro hi
        have hholds := holds_iff.2 hi
        obtain ⟨p, hp, rfl⟩ := List.mem_map.1 hi
        obtain ⟨c, hc, hr⟩ := receiving_of_sweep hp
        refine List.mem_map.2 ⟨(c, p.2.task), List.mem_filter.2 ⟨?_, ?_⟩, rfl⟩
        · exact List.mk_mem_zipIdx_iff_getElem?.2 hc
        · simp [Channel.alive_of_receiving hr, hholds]
  rw [hall, orphans, ← hheld]
  generalize m.tasks.zipIdx = l
  induction l with
  | nil => rfl
  | cons p l ih =>
    simp only [List.countP_cons, ih]
    cases p.1.alive <;> cases m.sweep.holds p.2 <;> simp <;> omega

/-- The event is an `open` that is let in. -/
def Admits (m : PortForwardMux) (ev : MuxEvent) : Prop :=
  ∃ permitted id host port window serial, ev = .frame permitted (.open id host port window serial) ∧
    m.sweep.accepts permitted id host port = true

theorem alive_of_admits (h : m.step ev = some m') (ha : m.Admits ev) : m'.alive = m.alive + 1 := by
  obtain ⟨permitted, id, host, port, window, serial, rfl, hacc⟩ := ha
  simp only [step, Option.ite_none_left_eq_some, Option.some.injEq] at h
  obtain ⟨-, rfl⟩ := h
  have hsweep : m.sweep.tasks = m.tasks := rfl
  rcases m.onOpen_cases permitted id host port window with ⟨message, -, hno⟩ | ⟨-, hno⟩ | ⟨heq, -⟩
  · exact absurd (hacc.symm.trans hno) (by simp)
  · exact absurd (hacc.symm.trans hno) (by simp)
  · show (m.onOpen permitted id host port window).alive = m.alive + 1
    rw [heq, Side.alive, Side.alive]
    show (m.sweep.tasks ++ [Channel.connecting id m.opens host port window]).countP Channel.alive = _
    rw [List.countP_append, hsweep]
    rfl

theorem alive_of_not_admits (h : m.step ev = some m') (ha : ¬m.Admits ev) : m'.alive ≤ m.alive := by
  cases ev with
  | frame permitted f =>
    simp only [step, Option.ite_none_left_eq_some, Option.some.injEq] at h
    obtain ⟨-, rfl⟩ := h
    rcases m.handle_cases permitted f with ⟨id, host, port, window, serial, rfl⟩ | heq | ⟨id, g, hg, heq⟩
    · show (m.onOpen permitted id host port window).alive ≤ m.alive
      rcases m.onOpen_cases permitted id host port window with ⟨message, heq, -⟩ | ⟨heq, -⟩ | ⟨-, hacc⟩
      · rw [heq]
        exact le_rfl
      · rw [heq]
        exact le_rfl
      · exact absurd ⟨permitted, id, host, port, window, serial, rfl, hacc⟩ ha
    · rw [heq]
    · rw [heq]
      exact Side.alive_deliver hg
  | task i e =>
    obtain ⟨⟨s, em⟩, hs, rfl⟩ := Option.map_eq_some_iff.1 h
    obtain ⟨c, c', hc, hstep, rfl⟩ := Side.taskStep_cases hs
    exact Side.alive_set hc fun _ => (did_of_step hstep).was_alive
  | closeAll =>
    cases h
    exact le_rfl
  | gone =>
    simp only [step, Option.ite_none_right_eq_some, Option.some.injEq] at h
    obtain ⟨-, rfl⟩ := h
    exact le_rfl

/-! ## Runs -/

/-- No more tasks than `MAX_CHANNELS`, and no more in the queue of any than a window. -/
structure Bounded (m : PortForwardMux) : Prop where
  tasks : m.alive ≤ maxChannels
  charge : ∀ c ∈ m.tasks, c.buffered ≤ channelWindow
  frames : ∀ c ∈ m.tasks, c.bufferedFrames ≤ channelWindow / minFrameCharge

section Runs

variable {h : List (PortForwardMux × MuxEvent)}

theorem owned_of_exec (hx : Exec Init step h m) : m.Owned := by
  refine hx.invariant (I := fun m => m.Owned) (fun m hi => ?_)
    fun m e m' ho hstep => ho.step (side_step hstep)
  obtain ⟨target, rfl⟩ := hi
  exact ⟨List.nodup_nil, fun p hp => (nomatch hp), fun p hp => (nomatch hp)⟩

theorem within_of_exec (hx : Exec Init step h m) : m.Within := by
  refine hx.invariant (I := fun m => m.Within) (fun m hi => ?_)
    fun m e m' ho hstep => ho.step (side_step hstep)
  obtain ⟨target, rfl⟩ := hi
  exact fun c hc => (nomatch hc)

theorem bounded_of_alive (hx : Exec Init step h m) (ha : m.alive ≤ maxChannels) : m.Bounded :=
  ⟨ha, fun c hc => (within_of_exec hx c hc).buffered_le, fun c hc => (within_of_exec hx c hc).frames_le⟩

theorem length_lt_of_admits (ha : m.Admits ev) : m.sweep.channels.length < maxChannels := by
  obtain ⟨permitted, id, host, port, window, serial, -, hacc⟩ := ha
  simp only [accepts, Bool.and_eq_true, decide_eq_true_eq] at hacc
  exact hacc.1.1.2

/-- The tasks exceed `MAX_CHANNELS` by those at most that have outlived their entries when an `open` is
let in. -/
theorem alive_le_of_orphans {n : Nat} (hx : Exec Init step h m)
    (hfew : ∀ p ∈ h, p.1.Admits p.2 → p.1.orphans ≤ n) : m.alive ≤ maxChannels + n := by
  induction hx with
  | start hi =>
    obtain ⟨target, rfl⟩ := hi
    exact Nat.zero_le _
  | @snoc h m m' ev hx hstep ih =>
    have hle := ih fun p hp => hfew p (List.mem_cons_of_mem _ hp)
    by_cases hadm : m.Admits ev
    · have hmore := alive_of_admits hstep hadm
      have hlt := length_lt_of_admits hadm
      have horphans : m.orphans ≤ n := hfew (m, ev) (List.mem_cons_self ..) hadm
      have heq := alive_eq (owned_of_exec hx)
      omega
    · exact (alive_of_not_admits hstep hadm).trans hle

/-- In every run against any peer in which every task that has lost its entry has ended whenever an
`open` is let in, there are never more tasks than `MAX_CHANNELS`, each with no more in its queue than a
window. -/
theorem bounded_unless_outlived (hx : Exec Init step h m)
    (hended : ∀ p ∈ h, p.1.Admits p.2 → p.1.orphans = 0) :
    (∀ p ∈ h, p.1.Bounded) ∧ m.Bounded := by
  have hlast : ∀ {h m}, Exec Init step h m → (∀ p ∈ h, p.1.Admits p.2 → p.1.orphans = 0) →
      m.Bounded := fun hx hended =>
    bounded_of_alive hx (alive_le_of_orphans hx fun p hp ha => (hended p hp ha).le)
  refine ⟨?_, hlast hx hended⟩
  induction hx with
  | start hi => exact fun p hp => (nomatch hp)
  | @snoc h m m' ev hx hstep ih =>
    have hended' : ∀ p ∈ h, p.1.Admits p.2 → p.1.orphans = 0 :=
      fun p hp => hended p (List.mem_cons_of_mem _ hp)
    intro p hp
    rcases List.mem_cons.1 hp with rfl | hp
    · exact hlast hx hended'
    · exact ih hended' p hp

/-- A channel is opened, closed once it is connected and, when its task has ended, opened again. -/
theorem bounded_unless_outlived_reopened : ∃ m h, Exec Init step h m ∧ m.tasks.length = 2 ∧ m.alive = 1 ∧
    (∀ p ∈ h, p.1.Bounded) ∧ m.Bounded := by
  have hx : Exec Init step [] rdp := .start ⟨_, rfl⟩
  have h₁ := hx.snoc (e := .frame true (.open 1 "RDP" 0 channelWindow 0)) rfl
  have h₂ := (h₁.snoc (e := .task 0 .connected) rfl).snoc (e := .task 0 .sendOpened) rfl
  have h₃ := h₂.snoc (e := .frame true (.close 1)) rfl
  have h₄ := (h₃.snoc (e := .task 0 .nextInbound) rfl).snoc (e := .task 0 .signalCancel) rfl
  have h₅ := (h₄.snoc (e := .task 0 .takeCancelled) rfl).snoc (e := .task 0 .join) rfl
  have h₆ := h₅.snoc (e := .task 0 .leave) rfl
  have h₇ := h₆.snoc (e := .frame true (.open 1 "RDP" 0 channelWindow 1)) rfl
  obtain ⟨hall, hb⟩ := bounded_unless_outlived h₇ fun p hp hadm => by
    obtain ⟨permitted, id, host, port, window, serial, hev, -⟩ := hadm
    simp only [List.mem_cons, List.not_mem_nil, or_false] at hp
    -- only the first and the last step are an `open`
    rcases hp with rfl | rfl | rfl | rfl | rfl | rfl | rfl | rfl | rfl | rfl
    · decide +kernel
    · cases hev
    · cases hev
    · cases hev
    · cases hev
    · cases hev
    · cases hev
    · cases hev
    · cases hev
    · rfl
  exact ⟨_, _, h₇, rfl, by decide +kernel, hall, hb⟩

end Runs

/-! ## Tasks without an entry -/

/-- A side with one entry at most, which leads to the last task. -/
def single (ent : Option Entry) (ts : List Channel) (c : Channel) (sent : List (Nat × Frame)) :
    PortForwardMux where
  channels := ent.toList.map fun e => (1, ⟨ts.length, e⟩)
  tasks := ts ++ [c]
  opens := ts.length + 1
  sent := sent
  loginTarget := rdp.loginTarget

theorem single_task {ent : Option Entry} {ts : List Channel} {c t : Channel} {sent : List (Nat × Frame)}
    {e : TaskEvent} {em : Emit} (h : c.step false false ent.isSome e = some (t, em)) :
    (single ent ts c sent).step (.task ts.length e) =
      some (single ent ts t (sent ++ (em.ordered ++ em.control).map (c.serial, ·))) := by
  have hholds : (single ent ts c sent).holds ts.length = ent.isSome := by
    cases ent <;> simp [single, Side.holds]
  have hget : (single ent ts c sent).tasks[ts.length]? = some c := by simp [single]
  have hset : (single ent ts c sent).tasks.set ts.length t = ts ++ [t] := by simp [single]
  simp only [step, Side.taskStep, hget, hholds]
  rw [show (single ent ts c sent).down = false from rfl, show (single ent ts c sent).gone = false from rfl]
  simp only [h, Option.map_some, hset]
  rfl

theorem single_deliver {ent : Entry} {ts : List Channel} {c c' : Channel} {sent : List (Nat × Frame)}
    {f : End → End} {ent' : Option Entry} (h : f ⟨some ent, some c⟩ = ⟨ent', some c'⟩) :
    (single (some ent) ts c sent).deliver 1 f = (single ent' ts c' sent).toSide := by
  have hunder : (single (some ent) ts c sent).under 1 = some (⟨ts.length, ent⟩, c) := by
    simp [Side.under, single, Assoc.get]
  simp only [Side.deliver, hunder, h]
  cases ent' <;> simp [single, Assoc.put, Assoc.erase]

theorem single_data {ent : Entry} {ts : List Channel} {c : Channel} {sent : List (Nat × Frame)}
    {d : Bytes} {w : RecvWindow} (hw : c.window.accept d.length = some w) (hr : c.receiving = true) :
    (single (some ent) ts c sent).step (.frame true (.data 1 d)) =
      some (single (some ent) ts { c with window := w, inbound := c.inbound ++ [.data d] } sent) := by
  have hr' : Channel.receiving { c with window := w } = true := hr
  have hdeliver : (single (some ent) ts c sent).deliver 1 (·.onData d) =
      (single (some ent) ts { c with window := w, inbound := c.inbound ++ [.data d] } sent).toSide :=
    single_deliver (by simp only [End.onData, hw, hr', if_true, Channel.push])
  simp only [step, handle, hdeliver]
  rfl

theorem single_close {ent : Entry} {ts : List Channel} {c : Channel} {sent : List (Nat × Frame)} :
    (single (some ent) ts c sent).step (.frame true (.close 1)) =
      some (single none ts (c.push .close) sent) := by
  have hdeliver : (single (some ent) ts c sent).deliver 1 (·.onClose) =
      (single none ts (c.push .close) sent).toSide := single_deliver rfl
  simp only [step, handle, hdeliver]
  rfl

theorem onOpen_empty {m : PortForwardMux} (hm : m.channels = [])
    (ht : m.loginTarget = rdp.loginTarget) :
    m.onOpen true 1 "RDP" 0 channelWindow =
      { m with toSide := m.spawn 1 (.connecting 1 m.opens "RDP" 0 channelWindow) } := by
  have hsweep : m.sweep = m := by
    obtain ⟨⟨channels, tasks, down, gone, opens, sent⟩, target⟩ := m
    subst hm
    rfl
  have hmax : ¬maxChannels ≤ m.channels.length := by
    rw [hm]
    decide
  have hget : ∀ id, Assoc.get m.channels id = none := fun id => by rw [hm]; rfl
  have htarget : (normalizePortForwardTarget "RDP" 0).1 = m.loginTarget := ht.symm
  simp [onOpen, hsweep, hmax, hget, htarget]

/-! ### A target that does not read -/

/-- The `n`th task, connected to its target. -/
def serving (n : Nat) (window : RecvWindow) (inbound : List Inbound) (toSocket : ToSocket)
    (written : Bytes) : Channel :=
  { Channel.connecting 1 n "RDP" 0 channelWindow with
    stage := .running
    window := window
    inbound := inbound
    toSocket := toSocket
    written := written }

/-- As much as is advertised at a time goes into the buffers of the socket. -/
theorem fill_once {n : Nat} {ent : Entry} {ts : List Channel} {sent : List (Nat × Frame)}
    {written d : Bytes} {h : List (PortForwardMux × MuxEvent)} (hd : d.length = updateThreshold)
    (hx : Exec Init step h (single (some ent) ts (serving n ⟨channelWindow, 0⟩ [] .next written) sent)) :
    ∃ h' sent', Exec Init step h'
      (single (some ent) ts (serving n ⟨channelWindow, 0⟩ [] .next (written ++ d)) sent') := by
  let w : RecvWindow := ⟨channelWindow - updateThreshold, 0⟩
  have haccept : (⟨channelWindow, 0⟩ : RecvWindow).accept d.length = some w := by
    rw [hd]
    decide +kernel
  have hdrained : w.drained d.length = (⟨channelWindow, 0⟩, some updateThreshold) := by
    rw [hd]
    decide +kernel
  have hwrite : (serving n w [] (.writing d 0) written).step false false (some ent).isSome
      (.write d.length) = some (serving n w [] (.writing d d.length) (written ++ d), .nothing) := by
    simp [serving, Channel.step, relaySocketToTunnel, relayTunnelToSocket]
  have hdone : (serving n w [] (.writing d d.length) (written ++ d)).step false false (some ent).isSome
      .writeDone = some (serving n ⟨channelWindow, 0⟩ [] (.advertising updateThreshold) (written ++ d),
        .nothing) := by
    simp [serving, Channel.step, relaySocketToTunnel, relayTunnelToSocket, hdrained]
  have h₁ := hx.snoc (single_data haccept rfl)
  have h₂ := h₁.snoc (single_task (t := serving n w [] (.writing d 0) written) (e := .nextInbound) rfl)
  have h₃ := (h₂.snoc (single_task hwrite)).snoc (single_task hdone)
  exact ⟨_, _, h₃.snoc (single_task (e := .advertise) rfl)⟩

theorem fill_rounds {n : Nat} {ent : Entry} {ts : List Channel} (rounds : Nat)
    {sent : List (Nat × Frame)} {h : List (PortForwardMux × MuxEvent)}
    (hx : Exec Init step h (single (some ent) ts (serving n ⟨channelWindow, 0⟩ [] .next []) sent)) :
    ∃ h' sent' written, written.length = rounds * updateThreshold ∧ Exec Init step h'
      (single (some ent) ts (serving n ⟨channelWindow, 0⟩ [] .next written) sent') := by
  induction rounds with
  | zero => exact ⟨_, _, [], by simp, hx⟩
  | succ rounds ih =>
    obtain ⟨h', sent', written, hlen, hx'⟩ := ih
    obtain ⟨d, hd⟩ : ∃ d : Bytes, d.length = updateThreshold :=
      ⟨List.replicate updateThreshold 0, by rw [List.length_replicate]⟩
    obtain ⟨h₁, sent₁, hx₁⟩ := fill_once hd hx'
    refine ⟨h₁, sent₁, _, ?_, hx₁⟩
    rw [List.length_append, hlen, hd, Nat.succ_mul]

/-- The task is in `write_all`, and the socket has taken this much and takes no more. -/
structure Stuck (taken : Nat) (c : Channel) : Prop where
  alive : c.alive = true
  writing : c.toSocket = .writing [0] 0
  written : c.written.length = taken

/-- A channel is opened, the buffers of its target are filled, and it is closed while one byte more
waits to be written. -/
theorem stick_once {rounds : Nat} {m : PortForwardMux} {h : List (PortForwardMux × MuxEvent)}
    (hx : Exec Init step h m) (hch : m.channels = []) (hopens : m.opens = m.tasks.length)
    (hdown : m.down = false) (hgone : m.gone = false) (htarget : m.loginTarget = rdp.loginTarget) :
    ∃ h' sent' c, Stuck (rounds * updateThreshold) c ∧
      Exec Init step h' (single none m.tasks c sent') := by
  have hopen : m.step (.frame true (.open 1 "RDP" 0 channelWindow 0)) = some
      (single (some ⟨false⟩) m.tasks (.connecting 1 m.opens "RDP" 0 channelWindow) m.sent) := by
    simp only [step, hdown, handle, onOpen_empty hch htarget]
    simp [single, Side.spawn, hch, hopens, hdown, hgone, htarget, Assoc.put, Assoc.erase]
  have hwindow : (RecvWindow.new initialWindow).grant (channelWindow - initialWindow) =
      ⟨channelWindow, 0⟩ := by decide +kernel
  have hconnected : (Channel.connecting 1 m.opens "RDP" 0 channelWindow).step false false true .connected =
      some ({ serving m.opens ⟨channelWindow, 0⟩ [] .next [] with stage := .granted }, .nothing) := by
    simp [serving, Channel.connecting, Channel.step, hwindow]
  have h₁ := (hx.snoc hopen).snoc (single_task hconnected)
  have h₂ := h₁.snoc (single_task (t := serving m.opens ⟨channelWindow, 0⟩ [] .next [])
    (e := .sendOpened) rfl)
  obtain ⟨h₃, sent, written, hlen, hfull⟩ := fill_rounds rounds h₂
  have haccept : (⟨channelWindow, 0⟩ : RecvWindow).accept 1 = some ⟨channelWindow - minFrameCharge, 0⟩ := by
    decide +kernel
  have h₄ := hfull.snoc (single_data (d := [0]) haccept rfl)
  have h₅ := h₄.snoc (single_task
    (t := serving m.opens ⟨channelWindow - minFrameCharge, 0⟩ [] (.writing [0] 0) written)
    (e := .nextInbound) rfl)
  exact ⟨_, _, _, ⟨rfl, rfl, hlen⟩, h₅.snoc single_close⟩

/-- Some run leaves any number of tasks stuck, with no entry in the map. -/
theorem stuck_many (rounds n : Nat) : ∃ h m, Exec Init step h m ∧ m.channels = [] ∧ m.tasks.length = n ∧
    (∀ c ∈ m.tasks, Stuck (rounds * updateThreshold) c) ∧ m.opens = n ∧ m.down = false ∧
    m.gone = false ∧ m.loginTarget = rdp.loginTarget := by
  induction n with
  | zero => exact ⟨[], .rdp, .start ⟨_, rfl⟩, rfl, rfl, fun c hc => (nomatch hc), rfl, rfl, rfl, rfl⟩
  | succ n ih =>
    obtain ⟨h, m, hx, hch, hlen, hstuck, hopens, hdown, hgone, htarget⟩ := ih
    obtain ⟨h', sent', c, hc, hx'⟩ :=
      stick_once hx hch (hopens.trans hlen.symm) hdown hgone htarget
    refine ⟨h', _, hx', rfl, ?_, ?_, ?_, rfl, rfl, rfl⟩
    · simp [single, hlen]
    · intro d hd
      rcases List.mem_append.1 hd with hd | hd
      · exact hstuck d hd
      · rw [List.mem_singleton.1 hd]
        exact hc
    · simp [single, hlen]

/-- What the buffers of a socket hold whose other end does not read: 4 MiB on this side and 6 MiB on
that one, where Linux stops by itself. -/
def socketBuffers : Nat := 10 * 1024 * 1024

/-- A peer fills the buffers of a target that does not read and closes the channel, over and over. -/
theorem tasks_outlive_entries : ∃ m h, Exec Init step h m ∧ m.channels = [] ∧
    (∀ c ∈ m.tasks, Stuck socketBuffers c) ∧ m.alive = maxChannels + 1 ∧ ¬m.Bounded := by
  obtain ⟨h, m, hx, hch, hlen, hstuck, -⟩ := stuck_many 80 (maxChannels + 1)
  have halive : m.alive = maxChannels + 1 := by
    rw [← hlen]
    exact List.countP_eq_length.2 fun c hc => (hstuck c hc).alive
  have hfull : 80 * updateThreshold = socketBuffers := by decide +kernel
  exact ⟨m, h, hx, hch, hfull ▸ hstuck, halive, fun hb => absurd (halive ▸ hb.tasks) (by decide)⟩

end PortForwardMux

end FontisRemote.PortForward
