import FontisRemote.Lib.Slots
import FontisRemote.PortForward.Mux

/-!
# What a step of one side can do

`Side.Step` lists what the steps of `TunnelHandle` and `PortForwardMux` do to what they have in common:
a channel is spawned, a frame reaches a channel, a task takes a step, an `open` is refused, or entries
are dropped. `TunnelHandle.side_step` and `PortForwardMux.side_step` say that they do nothing else.
-/

namespace FontisRemote.PortForward

open FontisRemote.Lib Channel

/-- Which side it is. -/
inductive Role where
  | controller
  | controlled
  deriving DecidableEq, Repr

/-- A channel as it is spawned. -/
inductive Born (id : ChannelId) (serial : Nat) : Role → Channel → Prop
  | opening (host : String) (port : Int) (prebuf : Bytes) :
      Born id serial .controller (.opening id serial host port prebuf)
  | connecting (host : String) (port : Int) (window : Nat) :
      Born id serial .controlled (.connecting id serial host port window)

/-- What a frame does to the channel it reaches. -/
inductive EndOp : (End → End) → Prop
  | data (d : Bytes) : EndOp (·.onData d)
  | close : EndOp (·.onClose)
  | windowUpdate (n : Nat) : EndOp (·.onWindowUpdate n)
  | opened (w : Nat) : EndOp (·.onOpened w)

/-- Nothing but the inbound queue, the credit and the window of a task is shared with its entry. -/
structure Received (c c' : Channel) : Prop where
  eq : c' = { c with credit := c'.credit, window := c'.window, inbound := c'.inbound }

theorem Received.push (c : Channel) (i : Inbound) : Received c (c.push i) := by
  unfold Channel.push
  split <;> exact ⟨rfl⟩

theorem EndOp.received {f : End → End} (h : EndOp f) (ent : Entry) (c : Channel) :
    ∃ c', (f ⟨some ent, some c⟩).chan = some c' ∧ Received c c' := by
  cases h with
  | data d =>
    simp only [End.onData]
    split
    · split
      · rename_i w _ hr
        refine ⟨{ c with window := w, inbound := c.inbound ++ [.data d] }, ?_, ⟨rfl⟩⟩
        simp only [Channel.push, if_pos hr]
      · exact ⟨_, rfl, ⟨rfl⟩⟩
    · exact ⟨_, rfl, .push c .violation⟩
  | close => exact ⟨_, rfl, .push c .close⟩
  | windowUpdate n => exact ⟨_, rfl, ⟨rfl⟩⟩
  | opened w =>
    simp only [End.onOpened]
    split
    · exact ⟨c, rfl, ⟨rfl⟩⟩
    · generalize SendCredit.raiseInitial c.credit w = credit
      exact ⟨_, rfl, ⟨rfl⟩⟩

namespace Side

/-- One step of a side. -/
inductive Step (role : Role) (s s' : Side) : Prop
  | spawned {id : ChannelId} {c : Channel} {rest : List (ChannelId × Slot)} (born : Born id s.opens role c)
      (channels : s'.channels = (id, ⟨s.tasks.length, ⟨false⟩⟩) :: rest)
      (others : rest.Sublist s.channels) (free : ∀ p ∈ rest, p.1 ≠ id)
      (tasks : s'.tasks = s.tasks ++ [c]) (opens : s'.opens = s.opens + 1) (sent : s'.sent = s.sent)
  | delivered {id : ChannelId} {f : End → End} (op : EndOp f) (eq : s' = s.deliver id f)
  | stepped {i : Nat} {e : TaskEvent} {c c' : Channel} {em : Emit} (task : s.tasks[i]? = some c)
      (did : Did s.gone (s.holds i) c e c' em) (channels : s'.channels.Sublist s.channels)
      (tasks : s'.tasks = s.tasks.set i c') (opens : s'.opens = s.opens)
      (sent : s'.sent = s.sent ++ (em.ordered ++ em.control).map (c.serial, ·))
  | refused {id : ChannelId} {message : String} (side : role = .controlled)
      (channels : s'.channels.Sublist s.channels) (tasks : s'.tasks = s.tasks)
      (opens : s'.opens = s.opens + 1)
      (sent : s'.sent = s.sent ∨ s'.sent = s.sent ++ [(s.opens, .opened id false message 0)])
  | trimmed (channels : s'.channels.Sublist s.channels) (tasks : s'.tasks = s.tasks)
      (opens : s.opens ≤ s'.opens) (sent : s'.sent = s.sent)

section Steps

variable {s s' : Side} {i : Nat} {e : TaskEvent} {em : Emit}

theorem taskStep_cases (h : s.taskStep i e = some (s', em)) :
    ∃ c c', s.tasks[i]? = some c ∧ c.step s.down s.gone (s.holds i) e = some (c', em) ∧
      s' = { s with
        tasks := s.tasks.set i c'
        sent := s.sent ++ (em.ordered ++ em.control).map (c.serial, ·) } := by
  unfold taskStep at h
  split at h
  · cases h
  · rename_i c hc
    split at h
    · cases h
    · rename_i c' em' hs
      cases h
      exact ⟨c, c', hc, hs, rfl⟩

/-- Writing one place of a list of tasks. -/
theorem step_spawn {role : Role} {id : ChannelId} {c : Channel} (hb : Born id s.opens role c) :
    Step role s (s.spawn id c) :=
  .spawned hb rfl List.filter_sublist (fun p hp => by simpa using (List.mem_filter.1 hp).2) rfl rfl rfl

end Steps

/-! ## What a frame does to the tasks -/

section Deliver

variable {f : End → End} {s : Side} {id : ChannelId}

theorem under_eq_some {slot : Slot} {c : Channel} (h : s.under id = some (slot, c)) :
    Assoc.get s.channels id = some slot ∧ s.tasks[slot.task]? = some c := by
  unfold under at h
  split at h
  · cases h
  · rename_i slot' hget
    obtain ⟨c', hc, heq⟩ := Option.map_eq_some_iff.1 h
    cases heq
    exact ⟨hget, hc⟩

/-- A frame reaches one task at most, and no other changes. -/
theorem deliver_cases (s : Side) (id : ChannelId) (h : EndOp f) :
    s.deliver id f = s ∨ ∃ slot c c', Assoc.get s.channels id = some slot ∧
      s.tasks[slot.task]? = some c ∧ (f ⟨some slot.entry, some c⟩).chan = some c' ∧ Received c c' ∧
      s.deliver id f = { s with
        channels := Assoc.put s.channels id ((f ⟨some slot.entry, some c⟩).entry.map (⟨slot.task, ·⟩))
        tasks := s.tasks.set slot.task c' } := by
  unfold deliver
  cases hu : s.under id with
  | none => exact .inl rfl
  | some r =>
    obtain ⟨slot, c⟩ := r
    obtain ⟨hget, hc⟩ := under_eq_some hu
    obtain ⟨c', hc', hrec⟩ := h.received slot.entry c
    refine .inr ⟨slot, c, c', hget, hc, hc', hrec, ?_⟩
    dsimp only
    rw [hc']
    rfl

theorem deliver_task (h : EndOp f) {j : Nat} {c' : Channel}
    (hj : (s.deliver id f).tasks[j]? = some c') : ∃ c, s.tasks[j]? = some c ∧ Received c c' := by
  rcases s.deliver_cases id h with heq | ⟨slot, c, c₁, -, hc, -, hrec, heq⟩
  · rw [heq] at hj
    exact ⟨c', hj, ⟨rfl⟩⟩
  · rw [heq] at hj
    dsimp only at hj
    rcases getElem?_set_eq_some hj with ⟨rfl, rfl⟩ | ⟨-, hj⟩
    · exact ⟨c, hc, hrec⟩
    · exact ⟨c', hj, ⟨rfl⟩⟩

end Deliver

/-! ## Whose an entry is -/

/-- An entry leads to the task that was spawned last for its id. -/
structure Owned (s : Side) : Prop where
  keys : (s.channels.map Prod.fst).Nodup
  leads : ∀ p ∈ s.channels, ∃ c, s.tasks[p.2.task]? = some c ∧ c.id = p.1
  latest : ∀ p ∈ s.channels, ∀ (j : Nat) (c : Channel), s.tasks[j]? = some c → c.id = p.1 →
    j ≤ p.2.task

variable {role : Role} {s s' : Side}

/-- What holds of all entries holds of what is left of them, with the tasks of the same ids. -/
theorem Owned.sublist (h : Owned s) (hsub : s'.channels.Sublist s.channels)
    (htasks : s'.tasks.map Channel.id = s.tasks.map Channel.id) : Owned s' where
  keys := (hsub.map _).nodup h.keys
  leads p hp := by
    obtain ⟨c, hc, hid⟩ := h.leads p (hsub.subset hp)
    have hget := congrArg (·[p.2.task]?) htasks
    simp only [List.getElem?_map, hc, Option.map_some, Option.map_eq_some_iff] at hget
    obtain ⟨c', hc', hid'⟩ := hget
    exact ⟨c', hc', hid'.trans hid⟩
  latest p hp j c hc hid := by
    have hget := congrArg (·[j]?) htasks
    simp only [List.getElem?_map, hc, Option.map_some] at hget
    obtain ⟨c', hc', hid'⟩ := Option.map_eq_some_iff.1 hget.symm
    exact h.latest p (hsub.subset hp) j c' hc' (hid'.trans hid)

theorem ids_set {i : Nat} {c c' : Channel} (hc : s.tasks[i]? = some c) (hid : c'.id = c.id) :
    (s.tasks.set i c').map Channel.id = s.tasks.map Channel.id := by
  rw [List.map_set, hid]
  obtain ⟨hlt, rfl⟩ := List.getElem?_eq_some_iff.1 hc
  refine List.ext_getElem (by simp) fun j h₁ h₂ => ?_
  by_cases hij : i = j
  · subst hij
    simp
  · simp [List.getElem_set_ne hij]

theorem get_mem {m : List (ChannelId × Slot)} {id : ChannelId} {slot : Slot}
    (h : Assoc.get m id = some slot) : (id, slot) ∈ m := by
  induction m with
  | nil => cases h
  | cons p m ih =>
    obtain ⟨j, v⟩ := p
    simp only [Assoc.get] at h
    split_ifs at h with hj
    · cases h
      subst hj
      exact List.mem_cons_self ..
    · exact List.mem_cons_of_mem _ (ih h)

theorem Owned.step (h : Owned s) (hs : Step role s s') : Owned s' := by
  cases hs with
  | @spawned id c rest born channels others free tasks _ _ =>
    have hid : c.id = id := by cases born <;> rfl
    refine ⟨?_, fun p hp => ?_, fun p hp j d hd hdid => ?_⟩
    · rw [channels, List.map_cons, List.nodup_cons]
      refine ⟨fun hmem => ?_, (others.map _).nodup h.keys⟩
      obtain ⟨p, hp, hpid⟩ := List.mem_map.1 hmem
      exact free p hp hpid
    · rw [channels] at hp
      rcases List.mem_cons.1 hp with rfl | hp
      · exact ⟨c, by simp [tasks], hid⟩
      · obtain ⟨d, hd, hdid⟩ := h.leads p (others.subset hp)
        refine ⟨d, ?_, hdid⟩
        rw [tasks, List.getElem?_append_left (List.getElem?_eq_some_iff.1 hd).1]
        exact hd
    · rw [tasks] at hd
      rw [channels] at hp
      have hj := (List.getElem?_eq_some_iff.1 hd).1
      rw [List.length_append, List.length_singleton] at hj
      rcases List.mem_cons.1 hp with rfl | hp
      · show j ≤ s.tasks.length
        omega
      · by_cases hlt : j < s.tasks.length
        · rw [List.getElem?_append_left hlt] at hd
          exact h.latest p (others.subset hp) j d hd hdid
        · have hdc : d = c := by
            rw [List.getElem?_append_right (by omega)] at hd
            exact List.mem_singleton.1 (List.mem_of_getElem? hd)
          rw [hdc, hid] at hdid
          exact absurd hdid.symm (free p hp)
  | @delivered id f op eq =>
    subst eq
    rcases s.deliver_cases id op with heq | ⟨slot, c, c', hget, hc, -, hrec, heq⟩
    · rwa [heq]
    · have hids : (s.deliver id f).tasks.map Channel.id = s.tasks.map Channel.id := by
        rw [heq]
        exact ids_set hc (by rw [hrec.eq])
      cases hent : (f ⟨some slot.entry, some c⟩).entry with
      | none =>
        refine h.sublist ?_ hids
        rw [heq, hent]
        exact List.filter_sublist
      | some ent =>
        -- the entry stays; only its flag may differ
        have hchan : (s.deliver id f).channels = (id, ⟨slot.task, ent⟩) :: Assoc.erase s.channels id := by
          rw [heq, hent]
          rfl
        have hrest : Owned { s.deliver id f with channels := Assoc.erase s.channels id } :=
          h.sublist List.filter_sublist hids
        have hold : Owned { s.deliver id f with channels := s.channels } := h.sublist (.refl _) hids
        have hmem := get_mem hget
        refine ⟨?_, fun p hp => ?_, fun p hp => ?_⟩
        · rw [hchan, List.map_cons, List.nodup_cons]
          refine ⟨fun hm => ?_, hrest.keys⟩
          obtain ⟨p, hp, hpid⟩ := List.mem_map.1 hm
          simpa [hpid] using (List.mem_filter.1 hp).2
        · rw [hchan] at hp
          rcases List.mem_cons.1 hp with rfl | hp
          · exact hold.leads (id, slot) hmem
          · exact hrest.leads p hp
        · rw [hchan] at hp
          rcases List.mem_cons.1 hp with rfl | hp
          · exact hold.latest (id, slot) hmem
          · exact hrest.latest p hp
  | stepped task did channels tasks _ _ =>
    exact h.sublist channels (by rw [tasks]; exact ids_set task did.id_eq.1)
  | refused _ channels tasks _ _ => exact h.sublist channels (by rw [tasks])
  | trimmed channels tasks _ _ => exact h.sublist channels (by rw [tasks])

end Side

/-! ## The controller -/

namespace TunnelHandle

variable {t t' : TunnelHandle}

theorem openChannel_cases {host : String} {port : Int} {prebuf : Bytes}
    (h : t.openChannel host port prebuf = some t') :
    t.gone = false ∧ t.channels.length < maxChannels ∧
      t' = { t with
        toSide := t.spawn t.openId (.opening t.openId t.opens host port prebuf)
        nextId := t.openId + 1 } := by
  unfold openChannel at h
  split_ifs at h with hg hm
  exact ⟨by simpa using hg, by omega, (Option.some.inj h).symm⟩

theorem task_cases {i : Nat} {e : TaskEvent} (h : t.task i e = some t') :
    ∃ c c' em, t.tasks[i]? = some c ∧ c.step t.down t.gone (t.holds i) e = some (c', em) ∧
      t' = { t with
        channels := if e = .leave then Assoc.erase t.channels c.id else t.channels
        tasks := t.tasks.set i c'
        sent := t.sent ++ (em.ordered ++ em.control).map (c.serial, ·)
        dataQ := t.dataQ + em.ordered.length } := by
  unfold task at h
  split at h
  · cases h
  · rename_i s em hs
    obtain ⟨c, c', hc, hstep, rfl⟩ := Side.taskStep_cases hs
    split_ifs at h with hq he
    · simp only [hc, Option.some.injEq] at h
      exact ⟨c, c', em, hc, hstep, by rw [← h, if_pos he]⟩
    · exact ⟨c, c', em, hc, hstep, by rw [← Option.some.inj h, if_neg he]⟩

theorem onFrame_cases (f : Frame) : t.onFrame f = t ∨
    ∃ id g, EndOp g ∧ t.onFrame f = { t with toSide := t.deliver id g } := by
  cases f with
  | «open» => exact .inl rfl
  | opened id success message window =>
    cases success with
    | true => exact .inr ⟨id, _, .opened window, rfl⟩
    | false => exact .inr ⟨id, _, .close, rfl⟩
  | data id d => exact .inr ⟨id, _, .data d, rfl⟩
  | close id => exact .inr ⟨id, _, .close, rfl⟩
  | windowUpdate id n => exact .inr ⟨id, _, .windowUpdate n, rfl⟩

theorem side_step {e : HandleEvent} (h : t.step e = some t') : Side.Step .controller t.toSide t'.toSide := by
  cases e with
  | «open» host port prebuf =>
    obtain ⟨-, -, rfl⟩ := openChannel_cases h
    exact Side.step_spawn (.opening host port prebuf)
  | frame f =>
    simp only [step, Option.ite_none_left_eq_some, Option.some.injEq] at h
    obtain ⟨-, rfl⟩ := h
    rcases t.onFrame_cases f with heq | ⟨id, g, hg, heq⟩
    · rw [heq]
      exact .trimmed (.refl _) rfl le_rfl rfl
    · rw [heq]
      exact .delivered hg rfl
  | task i e =>
    obtain ⟨c, c', em, hc, hstep, rfl⟩ := task_cases h
    refine .stepped hc (did_of_step hstep) ?_ rfl rfl rfl
    dsimp only
    split_ifs
    · exact List.filter_sublist
    · exact .refl _
  | pump =>
    simp only [step, Option.ite_none_left_eq_some, Option.some.injEq] at h
    obtain ⟨-, rfl⟩ := h
    exact .trimmed (.refl _) rfl le_rfl rfl
  | closeAll =>
    cases h
    exact .trimmed (List.nil_sublist _) rfl le_rfl rfl
  | gone =>
    simp only [step, Option.ite_none_right_eq_some, Option.some.injEq] at h
    obtain ⟨-, rfl⟩ := h
    exact .trimmed (.refl _) rfl le_rfl rfl

end TunnelHandle

/-! ## The controlled side -/

namespace PortForwardMux

variable {m m' : PortForwardMux}

theorem sweep_sublist (m : PortForwardMux) : m.sweep.channels.Sublist m.channels := List.filter_sublist

/-- What an `open` comes to. -/
theorem onOpen_cases (permitted : Bool) (id : ChannelId) (host : String) (port : Int) (window : Nat) :
    (∃ message, m.onOpen permitted id host port window = m.sweep.refuse id message ∧
        m.sweep.accepts permitted id host port = false) ∨
      (m.onOpen permitted id host port window = { m.sweep with opens := m.opens + 1 } ∧
        m.sweep.accepts permitted id host port = false) ∨
      (m.onOpen permitted id host port window =
          { m.sweep with
            toSide := m.sweep.toSide.spawn id (.connecting id m.opens host port window) } ∧
        m.sweep.accepts permitted id host port = true) := by
  unfold onOpen accepts
  dsimp only
  generalize hsw : m.sweep = m₁
  have hopens : m₁.opens = m.opens := by rw [← hsw]; rfl
  split_ifs with hperm hmax hlive htarget
  · exact .inl ⟨_, rfl, by simp_all⟩
  · exact .inl ⟨_, rfl, by simp [hmax]⟩
  · refine .inr (.inl ⟨by rw [hopens], ?_⟩)
    simp [Option.isSome_iff_ne_none.1 hlive]
  · exact .inl ⟨_, rfl, by simp [htarget]⟩
  · refine .inr (.inr ⟨by rw [hopens], ?_⟩)
    simp_all

theorem handle_cases (permitted : Bool) (f : Frame) :
    (∃ id host port window serial, f = .open id host port window serial) ∨ m.handle permitted f = m ∨
      ∃ id g, EndOp g ∧ m.handle permitted f = { m with toSide := m.deliver id g } := by
  cases f with
  | «open» id host port window serial => exact .inl ⟨id, host, port, window, serial, rfl⟩
  | opened => exact .inr (.inl rfl)
  | data id d => exact .inr (.inr ⟨id, _, .data d, rfl⟩)
  | close id => exact .inr (.inr ⟨id, _, .close, rfl⟩)
  | windowUpdate id n => exact .inr (.inr ⟨id, _, .windowUpdate n, rfl⟩)

theorem side_step {e : MuxEvent} (h : m.step e = some m') : Side.Step .controlled m.toSide m'.toSide := by
  cases e with
  | frame permitted f =>
    simp only [step, Option.ite_none_left_eq_some, Option.some.injEq] at h
    obtain ⟨-, rfl⟩ := h
    rcases m.handle_cases permitted f with ⟨id, host, port, window, serial, rfl⟩ | heq | ⟨id, g, hg, heq⟩
    · show Side.Step .controlled m.toSide (m.onOpen permitted id host port window).toSide
      rcases m.onOpen_cases permitted id host port window with ⟨message, heq, -⟩ | ⟨heq, -⟩ | ⟨heq, -⟩
      · rw [heq]
        refine @Side.Step.refused _ _ _ id message rfl m.sweep_sublist rfl rfl ?_
        by_cases hg : m.gone = true
        · exact .inl (if_pos hg)
        · exact .inr (if_neg hg)
      · rw [heq]
        exact .trimmed m.sweep_sublist rfl (Nat.le_succ _) rfl
      · rw [heq]
        refine .spawned (.connecting host port window) rfl (List.filter_sublist.trans m.sweep_sublist)
          (fun p hp => ?_) rfl rfl rfl
        simpa using (List.mem_filter.1 hp).2
    · rw [heq]
      exact .trimmed (.refl _) rfl le_rfl rfl
    · rw [heq]
      exact .delivered hg rfl
  | task i e =>
    simp only [step, Option.map_eq_some_iff] at h
    obtain ⟨⟨s, em⟩, hs, rfl⟩ := h
    obtain ⟨c, c', hc, hstep, rfl⟩ := Side.taskStep_cases hs
    exact .stepped hc (did_of_step hstep) (.refl _) rfl rfl rfl
  | closeAll =>
    cases h
    exact .trimmed (List.nil_sublist _) rfl le_rfl rfl
  | gone =>
    simp only [step, Option.ite_none_right_eq_some, Option.some.injEq] at h
    obtain ⟨-, rfl⟩ := h
    exact .trimmed (.refl _) rfl le_rfl rfl

end PortForwardMux

end FontisRemote.PortForward
