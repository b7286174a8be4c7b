import Mathlib.Data.List.Nodup
import Mathlib.Data.List.Perm.Subperm
import FontisRemote.PortForward.MuxSteps

/-!
# Whose the entries of the controller are

The controller's table across any number of opens, also when the counter behind the ids has come all
the way round: an entry leads to the task of the last open that was given its id (`Side.Owned`), an
open is given an id that has none, and what takes an entry away (`Removes`). A task that ends removes
whatever stands under its id; if the id was given again while it was still parked on its socket, that
is the entry of another channel (`older_exit_removes_entry`).
-/

namespace FontisRemote.PortForward

open FontisRemote.Lib Channel

/-! ## A free id -/

theorem freshId_cases (m : List (ChannelId × Entry)) (n : Nat) (id : ChannelId) :
    Assoc.get m (freshId m n id) = none ∨
      freshId m n id = id + BitVec.ofNat 32 n ∧
        ∀ k < n, (Assoc.get m (id + BitVec.ofNat 32 k)).isSome = true := by
  induction n generalizing id with
  | zero => exact .inr ⟨by simp [freshId], fun k hk => absurd hk (Nat.not_lt_zero k)⟩
  | succ n ih =>
    have hsucc : ∀ k, id + 1 + BitVec.ofNat 32 k = id + BitVec.ofNat 32 (k + 1) := by
      intro k
      rw [BitVec.ofNat_add, BitVec.add_assoc, BitVec.add_comm 1]
      rfl
    simp only [freshId]
    split_ifs with hsome
    · rcases ih (id + 1) with hfree | ⟨heq, hall⟩
      · exact .inl hfree
      · refine .inr ⟨by rw [heq, hsucc], fun k hk => ?_⟩
        cases k with
        | zero => simpa using hsome
        | succ k =>
          rw [← hsucc]
          exact hall k (Nat.lt_of_succ_lt_succ hk)
    · exact .inl (by simpa using hsome)

theorem key_mem {m : List (ChannelId × Entry)} {id : ChannelId} (h : (Assoc.get m id).isSome = true) :
    id ∈ m.map Prod.fst := by
  induction m with
  | nil => cases h
  | cons p m ih =>
    simp only [Assoc.get] at h
    split_ifs at h with hid
    · exact hid ▸ List.mem_cons_self ..
    · exact List.mem_cons_of_mem _ (ih h)

/-- As many steps as there are entries find a free id. -/
theorem freshId_free {m : List (ChannelId × Entry)} (hlen : m.length < 2 ^ 32) (id : ChannelId) :
    Assoc.get m (freshId m m.length id) = none := by
  rcases freshId_cases m m.length id with hfree | ⟨heq, hall⟩
  · exact hfree
  · by_contra hne
    have hlast : (Assoc.get m (id + BitVec.ofNat 32 m.length)).isSome = true := by
      rw [← heq]
      exact Option.isSome_iff_ne_none.2 hne
    -- one id more than there are entries would be taken
    let taken := (List.range (m.length + 1)).map fun k => id + BitVec.ofNat 32 k
    have hnodup : taken.Nodup := by
      refine List.Nodup.map_on (fun a ha b hb hab => ?_) List.nodup_range
      have ha := List.mem_range.1 ha
      have hb := List.mem_range.1 hb
      have hnat := congrArg BitVec.toNat ((BitVec.add_right_inj id).1 hab)
      rwa [BitVec.toNat_ofNat, BitVec.toNat_ofNat, Nat.mod_eq_of_lt (by omega), Nat.mod_eq_of_lt (by omega)] at hnat
    have hsub : taken ⊆ m.map Prod.fst := by
      intro j hj
      obtain ⟨k, hk, rfl⟩ := List.mem_map.1 hj
      refine key_mem ?_
      rcases Nat.lt_succ_iff_lt_or_eq.1 (List.mem_range.1 hk) with hk | rfl
      · exact hall k hk
      · exact hlast
    have hle := (List.subperm_of_subset hnodup hsub).length_le
    simp only [taken, List.length_map, List.length_range] at hle
    omega

/-! ## Entries come and go -/

theorem Side.holds_of_mem {s : Side} {p : ChannelId × Slot} (h : p ∈ s.channels) :
    s.holds p.2.task = true :=
  List.any_eq_true.2 ⟨p, h, by simp⟩

/-- A key that is there once is found. -/
theorem Side.get_of_mem {m : List (ChannelId × Slot)} (hn : (m.map Prod.fst).Nodup) {id : ChannelId}
    {slot : Slot} (h : (id, slot) ∈ m) : Assoc.get m id = some slot := by
  induction m with
  | nil => cases h
  | cons p m ih =>
    obtain ⟨hnot, hn⟩ := List.nodup_cons.1 hn
    rcases List.mem_cons.1 h with rfl | h
    · simp [Assoc.get]
    · have hne : p.1 ≠ id := fun heq => hnot (heq ▸ List.mem_map_of_mem h)
      simp only [Assoc.get, if_neg hne]
      exact ih hn h

theorem Side.mem_put_of_ne {m : List (ChannelId × Slot)} {id j : ChannelId} {slot : Slot}
    {o : Option Slot} (h : (id, slot) ∈ m) (hne : id ≠ j) : (id, slot) ∈ Assoc.put m j o := by
  have herase : (id, slot) ∈ Assoc.erase m j := List.mem_filter.2 ⟨h, by simpa using hne⟩
  cases o with
  | none => exact herase
  | some v => exact List.mem_cons_of_mem _ herase

namespace TunnelHandle

variable {t t' : TunnelHandle} {h : List (TunnelHandle × HandleEvent)} {ev : HandleEvent}

theorem owned_of_exec (hx : Exec Init step h t) : t.Owned := by
  refine hx.invariant (I := fun t => t.Owned) (fun t hi => ?_)
    fun t e t' ho hstep => ho.step (side_step hstep)
  rw [hi]
  exact ⟨List.nodup_nil, fun p hp => (nomatch hp), fun p hp => (nomatch hp)⟩

theorem get_table (t : TunnelHandle) (id : ChannelId) :
    Assoc.get t.table id = (Assoc.get t.channels id).map Slot.entry := by
  unfold table
  generalize t.channels = m
  induction m with
  | nil => rfl
  | cons p m ih =>
    simp only [List.map_cons, Assoc.get]
    split_ifs
    · rfl
    · exact ih

/-- No open is given an id that has an entry. -/
theorem openId_free (hlen : t.channels.length < maxChannels) : Assoc.get t.channels t.openId = none := by
  have hmax : maxChannels < 2 ^ 32 := by decide
  have hfree : Assoc.get t.table t.openId = none :=
    freshId_free (by simp only [table, List.length_map]; omega) t.nextId
  rw [get_table] at hfree
  exact Option.map_eq_none_iff.1 hfree

/-- What takes the entry of a channel away. -/
inductive Removes (t : TunnelHandle) (id : ChannelId) (slot : Slot) : HandleEvent → Prop
  | close : Removes t id slot (.frame (.close id))
  | refused (message : String) (window : Nat) :
      Removes t id slot (.frame (.opened id false message window))
  | overrun {c : Channel} {d : Bytes} (task : t.tasks[slot.task]? = some c)
      (overrun : c.window.accept d.length = none) : Removes t id slot (.frame (.data id d))
  /-- Nothing listens to its queue any more. -/
  | deaf {c : Channel} {d : Bytes} (task : t.tasks[slot.task]? = some c) (deaf : c.receiving = false) :
      Removes t id slot (.frame (.data id d))
  /-- Its own task ends. -/
  | exit : Removes t id slot (.task slot.task .leave)
  | closeAll : Removes t id slot .closeAll

/-- The task of an earlier channel that had the id ends. -/
def ExitsOlder (t : TunnelHandle) (id : ChannelId) (slot : Slot) (ev : HandleEvent) : Prop :=
  ∃ j c, ev = .task j .leave ∧ t.tasks[j]? = some c ∧ c.id = id ∧ j < slot.task

theorem removed_by_data {id : ChannelId} {slot : Slot} {d : Bytes} {c : Channel}
    (hc : t.tasks[slot.task]? = some c)
    (hnone : (End.onData ⟨some slot.entry, some c⟩ d).entry = none) :
    Removes t id slot (.frame (.data id d)) := by
  simp only [End.onData] at hnone
  split at hnone
  · split at hnone
    · cases hnone
    · rename_i w _ hr
      exact .deaf hc (by simpa [Channel.receiving] using hr)
  · rename_i hw
    exact .overrun hc hw

theorem removes_of_step (ho : t.Owned) (hstep : t.step ev = some t') {id : ChannelId} {slot : Slot}
    (hmem : (id, slot) ∈ t.channels) (hgone : t'.holds slot.task = false)
    (hold : ¬t.ExitsOlder id slot ev) : t.Removes id slot ev := by
  have hget := Side.get_of_mem ho.keys hmem
  -- an entry that leads to the task is still there
  have hstay : ∀ ent : Entry, (id, (⟨slot.task, ent⟩ : Slot)) ∈ t'.channels → t.Removes id slot ev :=
    fun _ hm => absurd (hgone.symm.trans (Side.holds_of_mem hm)) (by simp)
  cases ev with
  | «open» host port prebuf =>
    obtain ⟨-, hlen, rfl⟩ := openChannel_cases hstep
    have hfree := openId_free hlen
    have hne : id ≠ t.openId := by
      rintro rfl
      rw [hget] at hfree
      cases hfree
    refine hstay slot.entry ?_
    show (id, slot) ∈ Assoc.put t.channels t.openId (some ⟨t.tasks.length, ⟨false⟩⟩)
    exact Side.mem_put_of_ne hmem hne
  | frame f =>
    simp only [step, Option.ite_none_left_eq_some, Option.some.injEq] at hstep
    obtain ⟨-, rfl⟩ := hstep
    obtain ⟨c, hc, -⟩ := ho.leads _ hmem
    have hunder : t.under id = some (slot, c) := by simp [Side.under, hget, hc]
    have hdeliver : ∀ {j : ChannelId} {f : End → End} (hne : id ≠ j),
        (id, (⟨slot.task, slot.entry⟩ : Slot)) ∈ (t.deliver j f).channels := by
      intro j f hne
      unfold Side.deliver
      split
      · exact hmem
      · exact Side.mem_put_of_ne hmem hne
    have hkept : ∀ {f : End → End} {ent : Entry}, (f ⟨some slot.entry, some c⟩).entry = some ent →
        (id, (⟨slot.task, ent⟩ : Slot)) ∈ (t.deliver id f).channels := by
      intro f ent hent
      simp only [Side.deliver, hunder, hent]
      exact List.mem_cons_self ..
    cases f with
    | «open» => exact hstay slot.entry hmem
    | opened j success message window =>
      by_cases hj : id = j
      · subst hj
        cases success with
        | false => exact .refused message window
        | true =>
          refine absurd (hgone.symm.trans (Side.holds_of_mem (p := (id, ⟨slot.task, ⟨true⟩⟩)) ?_)) (by simp)
          refine hkept (f := (·.onOpened window)) ?_
          simp only [End.onOpened]
          split
          · rename_i ho
            rw [show slot.entry = ⟨true⟩ from by rw [← ho]]
          · rfl
      · cases success with
        | false => exact hstay _ (hdeliver hj)
        | true => exact hstay _ (hdeliver hj)
    | data j d =>
      by_cases hj : id = j
      · subst hj
        cases hent : (End.onData ⟨some slot.entry, some c⟩ d).entry with
        | none => exact removed_by_data hc hent
        | some ent => exact hstay _ (hkept (f := (·.onData d)) hent)
      · exact hstay _ (hdeliver hj)
    | close j =>
      by_cases hj : id = j
      · subst hj
        exact .close
      · exact hstay _ (hdeliver hj)
    | windowUpdate j n =>
      by_cases hj : id = j
      · subst hj
        exact hstay slot.entry (hkept (f := (·.onWindowUpdate n)) rfl)
      · exact hstay _ (hdeliver hj)
  | task i e =>
    obtain ⟨c, c', em, hc, -, rfl⟩ := task_cases hstep
    by_cases he : e = .leave
    · subst he
      by_cases hid : c.id = id
      · have hle := ho.latest _ hmem i c hc hid
        rcases Nat.lt_or_eq_of_le hle with hlt | rfl
        · exact absurd ⟨i, c, rfl, hc, hid, hlt⟩ hold
        · exact .exit
      · refine hstay slot.entry ?_
        exact List.mem_filter.2 ⟨hmem, by simpa using fun heq => hid heq.symm⟩
    · refine hstay slot.entry ?_
      simp only [if_neg he]
      exact hmem
  | pump =>
    simp only [step, Option.ite_none_left_eq_some, Option.some.injEq] at hstep
    obtain ⟨-, rfl⟩ := hstep
    exact hstay slot.entry hmem
  | closeAll => exact .closeAll
  | gone =>
    simp only [step, Option.ite_none_right_eq_some, Option.some.injEq] at hstep
    obtain ⟨-, rfl⟩ := hstep
    exact hstay slot.entry hmem

/-- In every run, whatever the peer sends and however often the ids come round: every entry leads to
the task of the last open that was given its id; an open is given an id without an entry and gets the
entry; and, the exit of an older channel's task apart, an entry goes only when a frame for it says so or
finds its queue overrun or closed, when its own task ends, or with the tunnel. -/
theorem entries_owned (hx : Exec Init step h t) :
    t.Owned ∧ ∀ ev t', t.step ev = some t' →
      (∀ host port prebuf, ev = .open host port prebuf → Assoc.get t.channels t.openId = none ∧
        Assoc.get t'.channels t.openId = some ⟨t.tasks.length, ⟨false⟩⟩ ∧
        t'.tasks = t.tasks ++ [.opening t.openId t.opens host port prebuf]) ∧
      ∀ id slot, (id, slot) ∈ t.channels → t'.holds slot.task = false → ¬t.ExitsOlder id slot ev →
        t.Removes id slot ev := by
  have ho := owned_of_exec hx
  refine ⟨ho, fun ev t' hstep => ⟨?_, fun id slot hmem hgone hold => removes_of_step ho hstep hmem hgone hold⟩⟩
  rintro host port prebuf rfl
  obtain ⟨-, hlen, rfl⟩ := openChannel_cases hstep
  exact ⟨openId_free hlen, by simp [Side.spawn, Assoc.get_put], rfl⟩

theorem entries_owned_first : ∃ t h, Exec Init step h t ∧ t.tasks.length = 1 ∧ t.Owned := by
  have h₀ : Exec Init step [] {} := .start rfl
  have h₁ := h₀.snoc (e := .open "RDP" 0 []) rfl
  exact ⟨_, _, h₁, rfl, (entries_owned h₁).1⟩

/-- The half that writes to the socket has failed; the next `data` takes the entry away, although it is
within the window and the task has not ended. -/
theorem removed_by_data_within_window : ∃ t h slot c t', Exec Init step h t ∧ (1, slot) ∈ t.channels ∧
    t.tasks[slot.task]? = some c ∧ (c.window.accept 1).isSome = true ∧
    t.step (.frame (.data 1 [0])) = some t' ∧ t'.holds slot.task = false := by
  have h₀ : Exec Init step [] {} := .start rfl
  have h₁ := h₀.snoc (e := .open "RDP" 0 []) rfl
  have h₂ := h₁.snoc (e := .task 0 .sendOpen) rfl
  have h₃ := h₂.snoc (e := .frame (.data 1 [0])) rfl
  have h₄ := h₃.snoc (e := .task 0 .nextInbound) rfl
  have h₅ := h₄.snoc (e := .task 0 .writeFails) rfl
  exact ⟨_, _, ⟨0, ⟨false⟩⟩, _, _, h₅, by decide, rfl, by decide +kernel, rfl, by decide +kernel⟩

/-! ## When the ids have come round -/

/-- No channel is in the table, and the first task still is where it was. -/
structure Idle (t : TunnelHandle) (id : ChannelId) (c : Channel) : Prop where
  channels : t.channels = []
  nextId : t.nextId = id
  first : t.tasks[0]? = some c
  up : t.down = false ∧ t.gone = false
  room : t.dataQ = 0

theorem Idle.openId {id : ChannelId} {c : Channel} (hi : t.Idle id c) : t.openId = id := by
  simp [TunnelHandle.openId, table, hi.channels, freshId, hi.nextId]

theorem Idle.opened {id : ChannelId} {c : Channel} (hi : t.Idle id c) :
    t.step (.open "RDP" 0 []) = some { t with
      channels := [(id, ⟨t.tasks.length, ⟨false⟩⟩)]
      tasks := t.tasks ++ [.opening id t.opens "RDP" 0 []]
      opens := t.opens + 1
      nextId := id + 1 } := by
  have hmax : ¬maxChannels ≤ 0 := by decide
  simp [step, openChannel, hi.up.2, hi.channels, hmax, hi.openId, Side.spawn, Assoc.put, Assoc.erase]

/-- A channel is opened and closed by the peer before its task does anything. -/
theorem Idle.round {id : ChannelId} {c : Channel} (hx : Exec Init step h t) (hi : t.Idle id c) :
    ∃ h' t', Exec Init step h' t' ∧ t'.Idle (id + 1) c := by
  have hlt := (List.getElem?_eq_some_iff.1 hi.first).1
  have hclose : TunnelHandle.step { t with
      channels := [(id, ⟨t.tasks.length, ⟨false⟩⟩)]
      tasks := t.tasks ++ [.opening id t.opens "RDP" 0 []]
      opens := t.opens + 1
      nextId := id + 1 } (.frame (.close id)) = some { t with
      channels := []
      tasks := t.tasks ++ [(Channel.opening id t.opens "RDP" 0 []).push .close]
      opens := t.opens + 1
      nextId := id + 1 } := by
    simp [step, hi.up.1, onFrame, Side.deliver, Side.under, Assoc.get, End.onClose, Assoc.put, Assoc.erase]
  refine ⟨_, _, (hx.snoc hi.opened).snoc hclose, rfl, rfl, ?_, hi.up, hi.room⟩
  rw [List.getElem?_append_left hlt]
  exact hi.first

theorem Idle.rounds {id : ChannelId} {c : Channel} (hx : Exec Init step h t) (hi : t.Idle id c) (n : Nat) :
    ∃ h' t', Exec Init step h' t' ∧ t'.Idle (id + BitVec.ofNat 32 n) c := by
  induction n with
  | zero => exact ⟨h, t, hx, by simpa using hi⟩
  | succ n ih =>
    obtain ⟨h', t', hx', hi'⟩ := ih
    obtain ⟨h₁, t₁, hx₁, hi₁⟩ := Idle.round hx' hi'
    refine ⟨h₁, t₁, hx₁, ?_⟩
    rw [BitVec.ofNat_add, ← BitVec.add_assoc]
    exact hi₁

/-- The first task, parked in `write_all` with the peer's `close` behind it. -/
def parked : Channel :=
  { Channel.opening 1 0 "RDP" 0 [] with
    stage := .running
    window := ⟨channelWindow - minFrameCharge, 0⟩
    inbound := [.close]
    toSocket := .writing [0] 0 }

theorem idle_parked : ∃ h t, Exec Init step h t ∧ t.Idle 2 parked := by
  have h₀ : Exec Init step [] {} := .start rfl
  have h₁ := h₀.snoc (e := .open "RDP" 0 []) rfl
  have h₂ := h₁.snoc (e := .task 0 .sendOpen) rfl
  have h₃ := h₂.snoc (e := .pump) rfl
  have h₄ := h₃.snoc (e := .frame (.data 1 [0])) rfl
  have h₅ := h₄.snoc (e := .task 0 .nextInbound) rfl
  have h₆ := h₅.snoc (e := .frame (.close 1)) rfl
  exact ⟨_, _, h₆, rfl, rfl, by decide +kernel, ⟨rfl, rfl⟩, rfl⟩

/-- The first id is in the table again, for another task. -/
structure Reused (t : TunnelHandle) (n : Nat) (c : Channel) : Prop where
  channels : t.channels = [(1, ⟨n, ⟨false⟩⟩)]
  later : 0 < n
  first : t.tasks[0]? = some c
  up : t.down = false ∧ t.gone = false

theorem Reused.holds {n : Nat} {c : Channel} (hr : t.Reused n c) : t.holds 0 = false := by
  have := hr.later
  simp [Side.holds, hr.channels]
  omega

theorem Reused.task {n : Nat} {c c' : Channel} {e : TaskEvent} (hx : Exec Init step h t)
    (hr : t.Reused n c) (hs : c.step false false false e = some (c', .nothing)) (he : e ≠ .leave) :
    ∃ h' t', Exec Init step h' t' ∧ t'.Reused n c' := by
  have hstep : t.step (.task 0 e) = some { t with tasks := t.tasks.set 0 c' } := by
    simp [step, TunnelHandle.task, Side.taskStep, hr.first, hr.up, hr.holds, hs, he, Emit.nothing]
  refine ⟨_, _, hx.snoc hstep, hr.channels, hr.later, ?_, hr.up⟩
  have hlt := (List.getElem?_eq_some_iff.1 hr.first).1
  simp [hlt]

theorem Reused.leave {n : Nat} {c : Channel} (hr : t.Reused n c) (hs : c.stage = .leaving) (hid : c.id = 1) :
    t.step (.task 0 .leave) =
      some { t with channels := [], tasks := t.tasks.set 0 { c with stage := .exited } } := by
  have hstep : c.step false false false .leave = some ({ c with stage := .exited }, .nothing) := by
    simp only [Channel.step, hs]
  simp [step, TunnelHandle.task, Side.taskStep, hr.first, hr.up, hr.holds, hr.channels, hstep, hid,
    Emit.nothing, Assoc.erase]

/-- 2^32 opens after the first one its id is given again. The first task, parked all the while, then
ends and takes the entry of the new channel with it. -/
theorem older_exit_removes_entry : ∃ h t slot ev t', Exec Init step h t ∧ (1, slot) ∈ t.channels ∧
    t.ExitsOlder 1 slot ev ∧ t.step ev = some t' ∧ t'.holds slot.task = false := by
  have hwrap : (2 : ChannelId) + BitVec.ofNat 32 (2 ^ 32 - 1) = 1 := by decide
  obtain ⟨h₀, t₀, hx₀, hi₀⟩ := idle_parked
  obtain ⟨h₁, t₁, hx₁, hi₁⟩ := hi₀.rounds hx₀ (2 ^ 32 - 1)
  rw [hwrap] at hi₁
  have hlt := (List.getElem?_eq_some_iff.1 hi₁.first).1
  have hr₂ : Reused { t₁ with
      channels := [(1, ⟨t₁.tasks.length, ⟨false⟩⟩)]
      tasks := t₁.tasks ++ [.opening 1 t₁.opens "RDP" 0 []]
      opens := t₁.opens + 1
      nextId := 1 + 1 } t₁.tasks.length parked :=
    ⟨rfl, hlt, (List.getElem?_append_left hlt).trans hi₁.first, hi₁.up⟩
  obtain ⟨_, _, hx₃, hr₃⟩ := hr₂.task (e := .write 1) (hx₁.snoc hi₁.opened) rfl (by decide)
  have hdone : ∃ h' t', Exec Init step h' t' ∧ t'.Reused t₁.tasks.length { parked with
      window := ⟨channelWindow - minFrameCharge, minFrameCharge⟩
      toSocket := .next
      written := [0] } :=
    hr₃.task (e := .writeDone) hx₃ (by decide +kernel) (by decide)
  obtain ⟨_, _, hx₄, hr₄⟩ := hdone
  obtain ⟨_, _, hx₅, hr₅⟩ := hr₄.task (e := .nextInbound) hx₄ rfl (by decide)
  obtain ⟨_, _, hx₆, hr₆⟩ := hr₅.task (e := .signalCancel) hx₅ rfl (by decide)
  obtain ⟨_, _, hx₇, hr₇⟩ := hr₆.task (e := .takeCancelled) hx₆ rfl (by decide)
  obtain ⟨h, t, hx, hr⟩ := hr₇.task (e := .join) hx₇ rfl (by decide)
  exact ⟨h, t, ⟨t₁.tasks.length, ⟨false⟩⟩, .task 0 .leave, _, hx, by simp [hr.channels],
    ⟨0, _, rfl, hr.first, rfl, hr.later⟩, hr.leave rfl rfl, rfl⟩

end TunnelHandle

end FontisRemote.PortForward
