import FontisRemote.PortForward.Deliver

/-!
# From a tunnel to its links

`Tunnel.link t id` is what a tunnel has under one id. As long as no `open` is given an id that an
earlier channel of the tunnel had, every step of the tunnel is, seen under any one id, a sequence of
steps of that link (`Tunnel.link_steps`), so the invariant of a link holds under every id in every
state such a run reaches (`Tunnel.Sound`).
-/

namespace FontisRemote.PortForward

open Channel FontisRemote.Lib

/-- The frames of one id. -/
def only (id : ChannelId) (fs : List Frame) : List Frame := fs.filter fun f => f.id = id

@[simp] theorem only_append (id : ChannelId) (fs gs : List Frame) :
    only id (fs ++ gs) = only id fs ++ only id gs := List.filter_append ..

theorem only_cons_same {id : ChannelId} {f : Frame} (fs : List Frame) (h : f.id = id) :
    only id (f :: fs) = f :: only id fs := by simp [only, h]

theorem only_cons_other {id : ChannelId} {f : Frame} (fs : List Frame) (h : f.id ≠ id) :
    only id (f :: fs) = only id fs := by simp [only, h]

theorem only_eq_self {id : ChannelId} {fs : List Frame} (h : ∀ f ∈ fs, Frame.id f = id) :
    only id fs = fs := by
  refine List.filter_eq_self.2 fun f hf => ?_
  simp [h f hf]

theorem only_eq_nil {id j : ChannelId} {fs : List Frame} (h : ∀ f ∈ fs, Frame.id f = j)
    (hj : j ≠ id) : only id fs = [] := by
  refine List.filter_eq_nil_iff.2 fun f hf => ?_
  simp [h f hf, hj]

namespace Endpoint

theorem under_set (p : Endpoint) (id j : ChannelId) (e : End) :
    (p.set id e).under j = if j = id then e else p.under j := by
  unfold Endpoint.set Endpoint.under
  by_cases hj : j = id
  · subst hj
    simp [Assoc.get_put]
  · simp [Assoc.get_put, hj]

theorem under_insert (p : Endpoint) (id j : ChannelId) (c : Channel) :
    (p.insert id c).under j = if j = id then ⟨some ⟨false⟩, some c⟩ else p.under j :=
  under_set p id j ⟨some ⟨false⟩, some c⟩

theorem under_setTask (p : Endpoint) (id j : ChannelId) (c : Channel) :
    (p.setTask c (.live id)).under j =
      if j = id then ⟨(p.under id).entry, some c⟩ else p.under j := by
  unfold Endpoint.setTask Endpoint.under
  by_cases hj : j = id
  · subst hj
    simp
  · simp [hj]

/-- No id was used twice: nothing earlier is kept, and each channel is stored under its own id. -/
structure Single (p : Endpoint) : Prop where
  old_nil : p.old = []
  chan_id : ∀ {id c}, p.chan id = some c → c.id = id

theorem Single.congr {p q : Endpoint} (h : p.Single) (hold : q.old = p.old)
    (hchan : q.chan = p.chan) : q.Single :=
  ⟨hold.trans h.old_nil, fun hc => h.chan_id (hchan ▸ hc)⟩

/-- The channels of the controller carry the numbers of the calls that opened them. -/
structure Labelled (p : Endpoint) (opens : Nat) : Prop where
  lt : ∀ {id c}, p.chan id = some c → c.serial < opens
  inj : ∀ {i j c d}, p.chan i = some c → p.chan j = some d → c.serial = d.serial → i = j

end Endpoint

/-- What is put in place of an end is the same channel, further on. -/
def End.Keeps (e e' : End) : Prop :=
  ∀ {c}, e'.chan = some c → ∃ c₀, e.chan = some c₀ ∧ c.id = c₀.id ∧ c.serial = c₀.serial

section Keeps

theorem Channel.push_keeps (c : Channel) (i : Inbound) :
    (c.push i).id = c.id ∧ (c.push i).serial = c.serial := by
  unfold Channel.push
  split <;> exact ⟨rfl, rfl⟩

variable (e : End)

theorem End.Keeps.refl : e.Keeps e := fun hc => ⟨_, hc, rfl, rfl⟩

theorem End.onData_keeps (d : Bytes) : e.Keeps (e.onData d) := by
  unfold End.onData
  split
  · next ent c₀ _ hc₀ =>
    split
    · next w _ =>
      simp only
      split
      · intro c hc
        cases hc
        obtain ⟨h1, h2⟩ := Channel.push_keeps { c₀ with window := w } (.data d)
        exact ⟨c₀, hc₀, h1, h2⟩
      · intro c hc
        cases hc
        exact ⟨c₀, hc₀, rfl, rfl⟩
    · intro c hc
      cases hc
      obtain ⟨h1, h2⟩ := c₀.push_keeps .violation
      exact ⟨c₀, hc₀, h1, h2⟩
  · exact End.Keeps.refl e

theorem End.onClose_keeps : e.Keeps e.onClose := by
  unfold End.onClose
  split
  · next ent c₀ _ hc₀ =>
    intro c hc
    cases hc
    obtain ⟨h1, h2⟩ := c₀.push_keeps .close
    exact ⟨c₀, hc₀, h1, h2⟩
  · exact End.Keeps.refl e

theorem End.onWindowUpdate_keeps (n : Nat) : e.Keeps (e.onWindowUpdate n) := by
  unfold End.onWindowUpdate
  split
  · next ent c₀ _ hc₀ =>
    intro c hc
    cases hc
    exact ⟨c₀, hc₀, rfl, rfl⟩
  · exact End.Keeps.refl e

theorem End.onOpened_keeps (w : Nat) : e.Keeps (e.onOpened w) := by
  unfold End.onOpened
  split
  · next ent c₀ _ hc₀ =>
    split
    · exact End.Keeps.refl e
    · intro c hc
      cases hc
      exact ⟨c₀, hc₀, rfl, rfl⟩
  · exact End.Keeps.refl e

end Keeps

namespace Endpoint

/-- A channel of the changed endpoint, traced back. -/
theorem chan_set {p : Endpoint} {id j : ChannelId} {e : End} (hk : (p.under id).Keeps e)
    {c : Channel} (hc : (p.set id e).chan j = some c) :
    ∃ c₀, p.chan j = some c₀ ∧ c.id = c₀.id ∧ c.serial = c₀.serial := by
  by_cases hj : j = id
  · subst hj
    simp only [Endpoint.set, Function.update_self] at hc
    exact hk hc
  · simp only [Endpoint.set, Function.update_of_ne hj] at hc
    exact ⟨c, hc, rfl, rfl⟩

theorem chan_setTask {p : Endpoint} (hold : p.old = []) {r : TaskRef} {c c' : Channel}
    (hr : p.task r = some c) (hid : c'.id = c.id) (hser : c'.serial = c.serial) {j : ChannelId}
    {d : Channel} (hd : (p.setTask c' r).chan j = some d) :
    ∃ d₀, p.chan j = some d₀ ∧ d.id = d₀.id ∧ d.serial = d₀.serial := by
  cases r with
  | old i => simp [Endpoint.task, hold] at hr
  | live id =>
    by_cases hj : j = id
    · subst hj
      simp only [Endpoint.setTask, Function.update_self, Option.some.injEq] at hd
      subst hd
      exact ⟨c, hr, hid, hser⟩
    · simp only [Endpoint.setTask, Function.update_of_ne hj] at hd
      exact ⟨d, hd, rfl, rfl⟩

/-- Both facts survive a change that keeps the channels. -/
theorem Single.keeps {p q : Endpoint} (h : p.Single) (hold : q.old = p.old)
    (hk : ∀ {j c}, q.chan j = some c →
      ∃ c₀, p.chan j = some c₀ ∧ c.id = c₀.id ∧ c.serial = c₀.serial) : q.Single := by
  refine ⟨hold.trans h.old_nil, fun hc => ?_⟩
  obtain ⟨c₀, hc₀, hid, -⟩ := hk hc
  rw [hid]
  exact h.chan_id hc₀

theorem Labelled.keeps {p q : Endpoint} {n : Nat} (h : p.Labelled n)
    (hk : ∀ {j c}, q.chan j = some c →
      ∃ c₀, p.chan j = some c₀ ∧ c.id = c₀.id ∧ c.serial = c₀.serial) : q.Labelled n := by
  refine ⟨fun hc => ?_, fun hc hd heq => ?_⟩
  · obtain ⟨c₀, hc₀, -, hser⟩ := hk hc
    rw [hser]
    exact h.lt hc₀
  · obtain ⟨c₀, hc₀, -, hsc⟩ := hk hc
    obtain ⟨d₀, hd₀, -, hsd⟩ := hk hd
    exact h.inj hc₀ hd₀ (by rw [← hsc, ← hsd, heq])

theorem Single.insert {p : Endpoint} (h : p.Single) {id : ChannelId} {c : Channel}
    (hnone : p.chan id = none) (hc : c.id = id) : (p.insert id c).Single := by
  refine ⟨by simp [Endpoint.insert, hnone, h.old_nil], fun {j d} hd => ?_⟩
  by_cases hj : j = id
  · subst hj
    simp only [Endpoint.insert, Endpoint.set, Function.update_self, Option.some.injEq] at hd
    exact hd ▸ hc
  · simp only [Endpoint.insert, Endpoint.set, Function.update_of_ne hj] at hd
    exact h.chan_id hd

theorem Labelled.insert {p : Endpoint} {n : Nat} (h : p.Labelled n) {id : ChannelId} {c : Channel}
    (hc : c.serial = n) : (p.insert id c).Labelled (n + 1) := by
  have key : ∀ {j d}, (p.insert id c).chan j = some d →
      (j = id ∧ d.serial = n) ∨ (j ≠ id ∧ p.chan j = some d ∧ d.serial < n) := by
    intro j d hd
    by_cases hj : j = id
    · subst hj
      simp only [Endpoint.insert, Endpoint.set, Function.update_self, Option.some.injEq] at hd
      exact Or.inl ⟨rfl, hd ▸ hc⟩
    · simp only [Endpoint.insert, Endpoint.set, Function.update_of_ne hj] at hd
      exact Or.inr ⟨hj, hd, h.lt hd⟩
  refine ⟨fun hd => ?_, fun {i j a b} ha hb heq => ?_⟩
  · rcases key hd with ⟨-, h1⟩ | ⟨-, -, h1⟩ <;> omega
  · rcases key ha with ⟨h1, h2⟩ | ⟨-, h1, h2⟩ <;> rcases key hb with ⟨h3, h4⟩ | ⟨-, h3, h4⟩
    · rw [h1, h3]
    · omega
    · omega
    · exact h.inj h1 h3 heq

end Endpoint

/-- A step's frames carry the id of its channel. -/
theorem Channel.Did.frame_id {gone entry : Bool} {c c' : Channel} {e : TaskEvent} {em : Emit}
    (h : Did gone entry c e c' em) :
    (∀ f ∈ em.ordered, Frame.id f = c.id) ∧ ∀ f ∈ em.control, Frame.id f = c.id := by
  refine ⟨?_, ?_⟩
  · rcases h.ordered with h | ⟨bs, h, -⟩ | ⟨h, -⟩ | ⟨-, -, m, h⟩ | ⟨-, -, h⟩ | ⟨-, -, h⟩ <;>
      simp [h, Frame.id]
  · rcases h.control with h | ⟨n, h⟩ <;> simp [h, Frame.id]

namespace Tunnel

/-- What the tunnel has under one id. -/
def link (t : Tunnel) (id : ChannelId) : Link where
  ctl := t.ctl.under id
  srv := t.srv.under id
  dataQ := only id t.dataQ
  controlQ := only id t.controlQ
  c2s := only id t.c2s
  s2c := only id t.s2c

/-- The `open` is not given an id that an earlier channel of this tunnel had. -/
def FreshId (t : Tunnel) : TunnelEvent → Prop
  | .open .. => t.ctl.chan t.openId = none
  | _ => True

/-- Every id was used for one channel at most, and each link keeps its invariant. -/
structure Sound (t : Tunnel) : Prop where
  ctl : t.ctl.Single
  srv : t.srv.Single
  labels : t.ctl.Labelled t.opens
  inv : ∀ id, (t.link id).Inv

abbrev Steps : Link → Link → Prop := Relation.ReflTransGen Link.Step

theorem Steps.inv {l l' : Link} (hs : Steps l l') (h : l.Inv) : l'.Inv := by
  induction hs with
  | refl => exact h
  | tail _ hst ih => exact ih.step hst

section Projection

variable {t t' : Tunnel}

theorem link_open (hf : t.ctl.chan t.openId = none) {host : String} {port : Int} {prebuf : Bytes}
    (h : t.openChannel host port prebuf = some t') (id : ChannelId) :
    Steps (t.link id) (t'.link id) := by
  unfold openChannel at h
  split at h
  · cases h
  split at h
  · cases h
  cases h
  by_cases hid : id = t.openId
  · subst hid
    simp only [link, Endpoint.under_insert, if_true]
    exact .single (.open hf)
  · simp only [link, Endpoint.under_insert, hid, if_false]
    exact .refl

/-- What the controller has under an id after a step of a task, a `leave` included. -/
theorem under_leave (p : Endpoint) (c : Channel) (b : Prop) [Decidable b] (id j : ChannelId) :
    (if b then { (p.setTask c (.live id)) with
        entries := Assoc.erase (p.setTask c (.live id)).entries id }
      else p.setTask c (.live id)).under j =
      if j = id then ⟨if b then none else (p.under id).entry, some c⟩ else p.under j := by
  by_cases hb : b
  · by_cases hj : j = id
    · subst hj
      simp [hb, Endpoint.under, Endpoint.setTask, Assoc.get_erase]
    · simp [hb, hj, Endpoint.under, Endpoint.setTask, Assoc.get_erase]
  · simp only [if_neg hb]
    exact Endpoint.under_setTask p id j c

theorem link_ctlTask (hJ : t.Sound) {r : TaskRef} {e : TaskEvent} (h : t.ctlTask r e = some t')
    (id : ChannelId) : Steps (t.link id) (t'.link id) := by
  unfold ctlTask at h
  split at h
  · cases h
  next c htask =>
  split at h
  · cases h
  next c' em hstep =>
  split at h
  · cases h
  cases h
  have hd := did_of_step hstep
  obtain ⟨ho, hc⟩ := hd.frame_id
  cases r with
  | old i => simp [Endpoint.task, hJ.ctl.old_nil] at htask
  | live j =>
    have hcid : c.id = j := hJ.ctl.chan_id htask
    rw [hcid] at ho hc
    by_cases hid : id = j
    · subst hid
      simp only [link, only_append, only_eq_self ho, only_eq_self hc, hcid, under_leave, if_true]
      exact .single (.ctlTask htask hd)
    · have hne : j ≠ id := fun h => hid h.symm
      simp only [link, only_append, only_eq_nil ho hne, only_eq_nil hc hne, hcid, under_leave, hid,
        if_false, List.append_nil]
      exact .refl

theorem link_srvTask (hJ : t.Sound) {r : TaskRef} {e : TaskEvent} (h : t.srvTask r e = some t')
    (id : ChannelId) : Steps (t.link id) (t'.link id) := by
  unfold srvTask at h
  split at h
  · cases h
  next c htask =>
  split at h
  · cases h
  next c' em hstep =>
  cases h
  have hd := did_of_step hstep
  obtain ⟨ho, hc⟩ := hd.frame_id
  cases r with
  | old i => simp [Endpoint.task, hJ.srv.old_nil] at htask
  | live j =>
    have hcid : c.id = j := hJ.srv.chan_id htask
    rw [hcid] at ho hc
    by_cases hid : id = j
    · subst hid
      simp only [link, only_append, only_eq_self ho, only_eq_self hc, Endpoint.under_setTask, if_true]
      exact .single (.srvTask htask hd)
    · have hne : j ≠ id := fun h => hid h.symm
      simp only [link, only_append, only_eq_nil ho hne, only_eq_nil hc hne, Endpoint.under_setTask,
        hid, if_false, List.append_nil]
      exact .refl

/-- A frame handed on from a queue. -/
theorem link_pumpData {f : Frame} {q : List Frame} (hq : t.dataQ = f :: q) (id : ChannelId) :
    Steps (t.link id) (link { t with dataQ := q, c2s := t.c2s ++ [f] } id) := by
  by_cases hid : f.id = id
  · have hdq : (t.link id).dataQ = f :: only id q := by
      rw [← only_cons_same q hid, ← hq]
      rfl
    have := Link.Step.pumpData hdq
    simp only [link, only_append, only_cons_same [] hid]
    exact .single this
  · simp only [link, only_append, only_cons_other [] hid, hq, only_cons_other q hid]
    simp only [only, List.filter_nil, List.append_nil]
    exact .refl

theorem link_pumpControl {f : Frame} {q : List Frame} (hq : t.controlQ = f :: q) (id : ChannelId) :
    Steps (t.link id) (link { t with controlQ := q, c2s := t.c2s ++ [f] } id) := by
  by_cases hid : f.id = id
  · have hcq : (t.link id).controlQ = f :: only id q := by
      rw [← only_cons_same q hid, ← hq]
      rfl
    have := Link.Step.pumpControl hcq
    simp only [link, only_append, only_cons_same [] hid]
    exact .single this
  · simp only [link, only_append, only_cons_other [] hid, hq, only_cons_other q hid]
    simp only [only, List.filter_nil, List.append_nil]
    exact .refl

theorem link_ctl_set (t : Tunnel) (q : List Frame) (j : ChannelId) (e : End) (id : ChannelId) :
    link { t with s2c := q, ctl := t.ctl.set j e } id =
      { t.link id with s2c := only id q, ctl := if id = j then e else t.ctl.under id } := by
  simp only [link, Endpoint.under_set]

theorem link_srv_set (t : Tunnel) (q : List Frame) (j : ChannelId) (e : End) (id : ChannelId) :
    link { t with c2s := q, srv := t.srv.set j e } id =
      { t.link id with c2s := only id q, srv := if id = j then e else t.srv.under id } := by
  simp only [link, Endpoint.under_set]

theorem link_onFrame {f : Frame} {q : List Frame} (hq : t.s2c = f :: q) (id : ChannelId) :
    Steps (t.link id) ((onFrame { t with s2c := q } f).link id) := by
  by_cases hid : id = f.id
  · have hs2c : (t.link id).s2c = f :: only id q := by
      rw [← only_cons_same q hid.symm, ← hq]
      rfl
    cases f with
    | opened j success m w =>
      have hj : id = j := hid
      cases success with
      | true =>
        simp only [onFrame, if_true, link_ctl_set, hj]
        exact .single (.ctlOpened (hj ▸ hs2c))
      | false =>
        simp only [onFrame, Bool.false_eq_true, if_false, if_true, link_ctl_set, hj]
        exact .single (.ctlRefused (hj ▸ hs2c))
    | data j d =>
      have hj : id = j := hid
      simp only [onFrame, if_true, link_ctl_set, hj]
      exact .single (.ctlData (hj ▸ hs2c))
    | close j =>
      have hj : id = j := hid
      simp only [onFrame, if_true, link_ctl_set, hj]
      exact .single (.ctlClose (hj ▸ hs2c))
    | windowUpdate j n =>
      have hj : id = j := hid
      simp only [onFrame, if_true, link_ctl_set, hj]
      exact .single (.ctlUpdate (hj ▸ hs2c))
    | «open» j host port w k => exact .single (.ctlOpen hs2c)
  · -- frames of other ids are not seen here
    have hs2c : (t.link id).s2c = only id q := by
      rw [← only_cons_other q (fun h => hid h.symm), ← hq]
      rfl
    have hlink : (onFrame { t with s2c := q } f).link id = t.link id := by
      cases f with
      | opened j success m w =>
        have hj : ¬ id = j := hid
        cases success <;> simp [onFrame, link_ctl_set, hj, ← hs2c] <;> rfl
      | data j d =>
        have hj : ¬ id = j := hid
        simp only [onFrame, link_ctl_set, hj, if_false, ← hs2c]
        rfl
      | close j =>
        have hj : ¬ id = j := hid
        simp only [onFrame, link_ctl_set, hj, if_false, ← hs2c]
        rfl
      | windowUpdate j n =>
        have hj : ¬ id = j := hid
        simp only [onFrame, link_ctl_set, hj, if_false, ← hs2c]
        rfl
      | «open» j host port w k =>
        simp only [onFrame]
        show ({ t.link id with s2c := only id q } : Link) = t.link id
        rw [← hs2c]
    rw [hlink]

/-- The sweep in `on_open` is, for each id, its entry staying or going. -/
theorem link_sweep (t : Tunnel) (id : ChannelId) : Steps (t.link id) (t.sweep.link id) := by
  unfold sweep
  simp only [link, Endpoint.under, Assoc.get_retain]
  split
  · split
    · exact .refl
    · exact .single (.srvDrop (l := t.link id))
  · exact .single (.srvDrop (l := t.link id))

/-- `on_open` of the swept tunnel is one of its three outcomes. -/
theorem onOpen_cases (t : Tunnel) (permitted : Bool) (id : ChannelId) (host : String) (port : Int)
    (window serial : Nat) :
    (∃ message, t.onOpen permitted id host port window serial = t.sweep.refuse id message) ∨
      (t.onOpen permitted id host port window serial = t.sweep ∧
        (Assoc.get t.sweep.srv.entries id).isSome = true) ∨
      (t.onOpen permitted id host port window serial =
          { t.sweep with srv := t.sweep.srv.insert id (.connecting id serial host port window) } ∧
        Assoc.get t.sweep.srv.entries id = none) := by
  unfold onOpen
  simp only
  split
  · exact Or.inl ⟨_, rfl⟩
  split
  · exact Or.inl ⟨_, rfl⟩
  split
  · next h => exact Or.inr (Or.inl ⟨rfl, h⟩)
  next h =>
  split
  · exact Or.inl ⟨_, rfl⟩
  · exact Or.inr (Or.inr ⟨rfl, by simpa using h⟩)

theorem link_onOpen {id : ChannelId} {host : String} {port : Int} {window serial : Nat}
    {q : List Frame} (hq : t.c2s = .open id host port window serial :: q) (permitted : Bool)
    (j : ChannelId) :
    Steps (t.link j) ((onOpen { t with c2s := q } permitted id host port window serial).link j) := by
  refine (link_sweep t j).trans ?_
  -- the frame leaves the stream of the swept tunnel
  have hsw : sweep { t with c2s := q } = { t.sweep with c2s := q } := rfl
  generalize hu : t.sweep = u at hsw
  have huq : u.c2s = .open id host port window serial :: q := by rw [← hu]; exact hq
  have hcase := onOpen_cases { t with c2s := q } permitted id host port window serial
  rw [hsw] at hcase
  by_cases hj : j = id
  · subst hj
    have hc2s : (u.link j).c2s = .open j host port window serial :: only j q := by
      show only j u.c2s = _
      rw [huq]
      exact only_cons_same q rfl
    rcases hcase with ⟨message, heq⟩ | ⟨heq, hent⟩ | ⟨heq, hent⟩
    · have hone : only j [.opened j false message 0] = [.opened j false message 0] :=
        only_cons_same [] rfl
      rw [heq]
      simp only [refuse, link, only_append, hone]
      exact .single (.refuse hc2s)
    · rw [heq]
      exact .single (.ignore hc2s hent)
    · rw [heq]
      simp only [link, Endpoint.under_insert, if_true]
      exact .single (.accept hc2s hent)
  · have hne : ∀ f : Frame, f.id = id → f.id ≠ j := fun f hf h => hj (h.symm.trans hf)
    have hc2s : only j q = only j u.c2s := by
      rw [huq, only_cons_other q (hne (.open id host port window serial) rfl)]
    have hsame : link { u with c2s := q } j = u.link j := by
      simp only [link, hc2s]
    rcases hcase with ⟨message, heq⟩ | ⟨heq, -⟩ | ⟨heq, -⟩
    · have hnil : only j [.opened id false message 0] = [] :=
        only_cons_other [] (hne (.opened id false message 0) rfl)
      rw [heq]
      simp only [refuse, link, only_append, hnil, List.append_nil, hc2s]
      exact .refl
    · rw [heq, hsame]
    · rw [heq]
      simp only [link, Endpoint.under_insert, hj, if_false, hc2s]
      exact .refl

theorem link_handle {f : Frame} {q : List Frame} (hq : t.c2s = f :: q) (permitted : Bool)
    (id : ChannelId) : Steps (t.link id) ((handle { t with c2s := q } permitted f).link id) := by
  by_cases hid : id = f.id
  · have hc2s : (t.link id).c2s = f :: only id q := by
      rw [← only_cons_same q hid.symm, ← hq]
      rfl
    cases f with
    | «open» j host port w k => exact link_onOpen hq permitted id
    | data j d =>
      have hj : id = j := hid
      simp only [handle, if_true, link_srv_set, hj]
      exact .single (.srvData (hj ▸ hc2s))
    | close j =>
      have hj : id = j := hid
      simp only [handle, if_true, link_srv_set, hj]
      exact .single (.srvClose (hj ▸ hc2s))
    | windowUpdate j n =>
      have hj : id = j := hid
      simp only [handle, if_true, link_srv_set, hj]
      exact .single (.srvUpdate (hj ▸ hc2s))
    | opened j ok m w => exact .single (.srvOpened hc2s)
  · have hc2s : only id q = only id t.c2s := by
      rw [hq, only_cons_other q (fun h => hid h.symm)]
    have hset : ∀ (j : ChannelId) (e : End), id ≠ j →
        link { t with c2s := q, srv := t.srv.set j e } id = t.link id := by
      intro j e hj
      rw [link_srv_set, if_neg hj, hc2s]
      rfl
    cases f with
    | «open» j host port w k => exact link_onOpen hq permitted id
    | data j d =>
      rw [handle, hset j _ hid]
    | close j =>
      rw [handle, hset j _ hid]
    | windowUpdate j n =>
      rw [handle, hset j _ hid]
    | opened j ok m w =>
      simp only [handle, link, hc2s]
      exact .refl

/-- Seen under one id, a step of the tunnel is a sequence of steps of that link. -/
theorem link_steps (hJ : t.Sound) {e : TunnelEvent} (hf : t.FreshId e) (h : t.step e = some t')
    (id : ChannelId) : Steps (t.link id) (t'.link id) := by
  cases e with
  | «open» host port prebuf => exact link_open hf h id
  | ctlTask r e => exact link_ctlTask hJ h id
  | srvTask r e => exact link_srvTask hJ h id
  | pumpData =>
    simp only [step] at h
    split at h
    · cases h
    split at h
    · cases h
    next hq =>
    cases h
    exact link_pumpData hq id
  | pumpControl =>
    simp only [step] at h
    split at h
    · cases h
    split at h
    · cases h
    next hq =>
    cases h
    exact link_pumpControl hq id
  | deliverSrv permitted =>
    simp only [step] at h
    split at h
    · cases h
    split at h
    · cases h
    next hq =>
    cases h
    exact link_handle hq permitted id
  | deliverCtl =>
    simp only [step] at h
    split at h
    · cases h
    split at h
    · cases h
    next hq =>
    cases h
    exact link_onFrame hq id
  | ctlDown =>
    cases h
    exact .single (.ctlDrop (l := t.link id))
  | ctlGone =>
    simp only [step] at h
    split at h
    · cases h
      exact .refl
    · cases h
  | srvDown =>
    cases h
    exact .single (.srvDrop (l := t.link id))
  | srvGone =>
    simp only [step] at h
    split at h
    · cases h
      exact .refl
    · cases h

/-! ### Along runs -/

theorem onFrame_keeps (t : Tunnel) (f : Frame) :
    (t.onFrame f).ctl.old = t.ctl.old ∧ ∀ {j c}, (t.onFrame f).ctl.chan j = some c →
      ∃ c₀, t.ctl.chan j = some c₀ ∧ c.id = c₀.id ∧ c.serial = c₀.serial := by
  cases f with
  | opened id success m w =>
    simp only [onFrame]
    split
    · exact ⟨rfl, Endpoint.chan_set (End.onOpened_keeps _ w)⟩
    · exact ⟨rfl, Endpoint.chan_set (End.onClose_keeps _)⟩
  | data id d => exact ⟨rfl, Endpoint.chan_set (End.onData_keeps _ d)⟩
  | close id => exact ⟨rfl, Endpoint.chan_set (End.onClose_keeps _)⟩
  | windowUpdate id n => exact ⟨rfl, Endpoint.chan_set (End.onWindowUpdate_keeps _ n)⟩
  | «open» id host port w k => exact ⟨rfl, fun hc => ⟨_, hc, rfl, rfl⟩⟩

/-- An `open` at the head of the stream finds no controlled end under its id. -/
theorem Sound.open_head (hJ : t.Sound) {id : ChannelId} {host : String} {port : Int}
    {window serial : Nat} {q : List Frame} (hq : t.c2s = .open id host port window serial :: q) :
    t.srv.chan id = none := by
  have hc2s : (t.link id).c2s = .open id host port window serial :: only id q := by
    show only id t.c2s = _
    rw [hq]
    exact only_cons_same q rfl
  rcases hJ.inv id with ⟨-, -, -, -, hnil, -⟩ | ⟨c, s, se, o, g, hp⟩
  · rw [hnil] at hc2s
    cases hc2s
  · obtain ⟨-, -, hsrv, -⟩ := hp.open_head hc2s
    exact congrArg End.chan hsrv

theorem single_handle (hJ : t.Sound) {f : Frame} {q : List Frame} (hq : t.c2s = f :: q)
    (permitted : Bool) : (handle { t with c2s := q } permitted f).srv.Single := by
  cases f with
  | «open» id host port w k =>
    have hsw : (sweep { t with c2s := q }).srv.Single := hJ.srv.congr rfl rfl
    rcases onOpen_cases { t with c2s := q } permitted id host port w k with
      ⟨m, heq⟩ | ⟨heq, -⟩ | ⟨heq, -⟩
    · rw [handle, heq]
      exact hsw
    · rw [handle, heq]
      exact hsw
    · rw [handle, heq]
      exact hsw.insert (hJ.open_head hq) rfl
  | data id d => exact hJ.srv.keeps rfl (Endpoint.chan_set (End.onData_keeps _ d))
  | close id => exact hJ.srv.keeps rfl (Endpoint.chan_set (End.onClose_keeps _))
  | windowUpdate id n => exact hJ.srv.keeps rfl (Endpoint.chan_set (End.onWindowUpdate_keeps _ n))
  | opened id ok m w => exact hJ.srv

theorem handle_ctl (t : Tunnel) (permitted : Bool) (f : Frame) :
    (t.handle permitted f).ctl = t.ctl := by
  cases f with
  | «open» id host port w k =>
    rcases onOpen_cases t permitted id host port w k with ⟨m, heq⟩ | ⟨heq, -⟩ | ⟨heq, -⟩ <;>
      rw [handle, heq] <;> rfl
  | _ => rfl

theorem onFrame_srv (t : Tunnel) (f : Frame) : (t.onFrame f).srv = t.srv := by
  cases f with
  | opened id success m w =>
    simp only [onFrame]
    split <;> rfl
  | _ => rfl

theorem ctlTask_keeps (hold : t.ctl.old = []) {r : TaskRef} {e : TaskEvent}
    (h : t.ctlTask r e = some t') :
    t'.srv = t.srv ∧ t'.opens = t.opens ∧ t'.ctl.old = t.ctl.old ∧
      ∀ {j c}, t'.ctl.chan j = some c →
        ∃ c₀, t.ctl.chan j = some c₀ ∧ c.id = c₀.id ∧ c.serial = c₀.serial := by
  unfold ctlTask at h
  split at h
  · cases h
  next c htask =>
  split at h
  · cases h
  next c' em hstep =>
  split at h
  · cases h
  cases h
  obtain ⟨hid, hser, -, -⟩ := (did_of_step hstep).id_eq
  have hset := fun {j d} => Endpoint.chan_setTask (j := j) (d := d) hold htask hid hser
  have hold' : (t.ctl.setTask c' r).old = t.ctl.old := by
    cases r with
    | live id => rfl
    | old i => simp [Endpoint.task, hold] at htask
  refine ⟨rfl, rfl, ?_, ?_⟩
  · simp only
    split <;> exact hold'
  · simp only
    split <;> exact hset

theorem srvTask_keeps (hold : t.srv.old = []) {r : TaskRef} {e : TaskEvent}
    (h : t.srvTask r e = some t') :
    t'.ctl = t.ctl ∧ t'.opens = t.opens ∧ t'.srv.old = t.srv.old ∧
      ∀ {j c}, t'.srv.chan j = some c →
        ∃ c₀, t.srv.chan j = some c₀ ∧ c.id = c₀.id ∧ c.serial = c₀.serial := by
  unfold srvTask at h
  split at h
  · cases h
  next c htask =>
  split at h
  · cases h
  next c' em hstep =>
  cases h
  obtain ⟨hid, hser, -, -⟩ := (did_of_step hstep).id_eq
  refine ⟨rfl, rfl, ?_, Endpoint.chan_setTask hold htask hid hser⟩
  cases r with
  | live id => rfl
  | old i => simp [Endpoint.task, hold] at htask

theorem handle_opens (t : Tunnel) (permitted : Bool) (f : Frame) :
    (t.handle permitted f).opens = t.opens := by
  cases f with
  | «open» id host port w k =>
    rcases onOpen_cases t permitted id host port w k with ⟨m, heq⟩ | ⟨heq, -⟩ | ⟨heq, -⟩ <;>
      rw [handle, heq] <;> rfl
  | _ => rfl

theorem onFrame_opens (t : Tunnel) (f : Frame) : (t.onFrame f).opens = t.opens := by
  cases f with
  | opened id success m w =>
    simp only [onFrame]
    split <;> rfl
  | _ => rfl

theorem single_step (hJ : t.Sound) {e : TunnelEvent} (hf : t.FreshId e) (h : t.step e = some t') :
    t'.ctl.Single ∧ t'.srv.Single ∧ t'.ctl.Labelled t'.opens := by
  cases e with
  | «open» host port prebuf =>
    simp only [step, openChannel] at h
    split at h
    · cases h
    split at h
    · cases h
    cases h
    exact ⟨hJ.ctl.insert hf rfl, hJ.srv, hJ.labels.insert rfl⟩
  | ctlTask r e =>
    obtain ⟨h1, h2, h3, hk⟩ := ctlTask_keeps hJ.ctl.old_nil h
    rw [h1, h2]
    exact ⟨hJ.ctl.keeps h3 hk, hJ.srv, hJ.labels.keeps hk⟩
  | srvTask r e =>
    obtain ⟨h1, h2, h3, hk⟩ := srvTask_keeps hJ.srv.old_nil h
    rw [h1, h2]
    exact ⟨hJ.ctl, hJ.srv.keeps h3 hk, hJ.labels⟩
  | pumpData =>
    simp only [step] at h
    split at h
    · cases h
    split at h <;> cases h
    exact ⟨hJ.ctl, hJ.srv, hJ.labels⟩
  | pumpControl =>
    simp only [step] at h
    split at h
    · cases h
    split at h <;> cases h
    exact ⟨hJ.ctl, hJ.srv, hJ.labels⟩
  | deliverSrv permitted =>
    simp only [step] at h
    split at h
    · cases h
    split at h
    · cases h
    next hq =>
    cases h
    rw [handle_ctl, handle_opens]
    exact ⟨hJ.ctl, single_handle hJ hq permitted, hJ.labels⟩
  | deliverCtl =>
    simp only [step] at h
    split at h
    · cases h
    split at h
    · cases h
    next f q hq =>
    cases h
    obtain ⟨h1, hk⟩ := onFrame_keeps { t with s2c := q } f
    rw [onFrame_srv, onFrame_opens]
    exact ⟨hJ.ctl.keeps h1 hk, hJ.srv, hJ.labels.keeps hk⟩
  | ctlDown =>
    cases h
    exact ⟨hJ.ctl.congr rfl rfl, hJ.srv, hJ.labels.keeps fun hc => ⟨_, hc, rfl, rfl⟩⟩
  | ctlGone =>
    simp only [step] at h
    split at h <;> cases h
    exact ⟨hJ.ctl.congr rfl rfl, hJ.srv, hJ.labels.keeps fun hc => ⟨_, hc, rfl, rfl⟩⟩
  | srvDown =>
    cases h
    exact ⟨hJ.ctl, hJ.srv.congr rfl rfl, hJ.labels⟩
  | srvGone =>
    simp only [step] at h
    split at h <;> cases h
    exact ⟨hJ.ctl, hJ.srv.congr rfl rfl, hJ.labels⟩

theorem Sound.step (hJ : t.Sound) {e : TunnelEvent} (hf : t.FreshId e) (h : t.step e = some t') :
    t'.Sound := by
  obtain ⟨h1, h2, h3⟩ := single_step hJ hf h
  exact ⟨h1, h2, h3, fun id => (link_steps hJ hf h id).inv (hJ.inv id)⟩

theorem Sound.start (h : t.Init) : t.Sound := by
  obtain ⟨target, rfl⟩ := h
  refine ⟨⟨rfl, ?_⟩, ⟨rfl, ?_⟩, ⟨?_, ?_⟩, fun id => Or.inl ⟨rfl, rfl, rfl, rfl, rfl, rfl⟩⟩
  all_goals simp [Tunnel.start, Endpoint.empty]

/-- In every run in which no id comes round again. -/
theorem sound_of_exec {h : List (Tunnel × TunnelEvent)} (hx : Exec Init Tunnel.step h t)
    (hf : ∀ p ∈ h, FreshId p.1 p.2) : t.Sound :=
  hx.invariant_of (I := Sound) (fun _ hi => Sound.start hi) (fun _ _ _ hJ hg hs => hJ.step hg hs) hf

end Projection

end Tunnel

end FontisRemote.PortForward
