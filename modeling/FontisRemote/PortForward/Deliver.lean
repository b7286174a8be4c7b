import FontisRemote.PortForward.Pair

/-!
# Deliveries, and the invariant of a link along its steps

What each kind of frame does to a `Link.Pair` when it reaches the head of a stream, and from it
`Link.Inv.step`: the invariant holds after every step of a link.
-/

namespace FontisRemote.PortForward

open Channel

namespace Link

section Deliveries

variable {l : Link} {c s : Channel} {se o g : Bool}

/-! ### Deliveries to the controlled side -/

/-- The `open` is in front of everything else the controller sent. -/
theorem Pair.up_head (h : Pair l c s se o g) {f : Frame} {q : List Frame} (hq : l.c2s = f :: q)
    (hf : f.isUpdate = false) :
    Direction c s l.ctl.entry.isSome se (openOf c o) (f :: ordered (q ++ l.dataQ))
      (updates l.s2c + grantDue s g) := by
  have hup := h.up
  rwa [hq, List.cons_append, ordered_cons _ hf] at hup

theorem Pair.up_head_open (h : Pair l c s se true g) {f : Frame} {q : List Frame}
    (hq : l.c2s = f :: q) (hf : f.isUpdate = false) :
    f = .open c.id c.host c.port channelWindow c.serial := by
  obtain ⟨ws, hws, -⟩ := (h.up_head hq hf).wire.started
  exact (List.cons.inj hws).1

theorem Pair.up_head_other (h : Pair l c s se false g) {f : Frame} {q : List Frame}
    (hq : l.c2s = f :: q) (hf : f.isUpdate = false) :
    (f.isData = true ∨ f.ends = true) ∧ c.stage ≠ .opening := by
  have hw := (h.up_head hq hf).wire
  refine ⟨hw.head, fun hs => ?_⟩
  have := hw.early (Or.inl hs)
  simp at this

/-- An `open` at the head of the stream finds no controlled end yet. -/
theorem Pair.open_head (h : Pair l c s se o g) {id : ChannelId} {host : String} {port : Int}
    {window serial : Nat} {q : List Frame} (hq : l.c2s = .open id host port window serial :: q) :
    o = true ∧ se = true ∧ l.srv = ⟨none, none⟩ ∧
      s = .connecting id serial host port window ∧ id = c.id := by
  cases o with
  | false =>
    have := (h.up_head_other hq rfl).1
    simp [Frame.isData, Frame.ends] at this
  | true =>
    have hf := h.up_head_open hq rfl
    simp only [Frame.open.injEq] at hf
    obtain ⟨rfl, rfl, rfl, rfl, rfl⟩ := hf
    cases h.side with
    | waiting h1 h2 h3 => exact ⟨rfl, rfl, h1, h2, rfl⟩

theorem Pair.open_through (h : Pair l c s se o g) {id : ChannelId} {host : String} {port : Int}
    {window serial : Nat} {q : List Frame} (hq : l.c2s = .open id host port window serial :: q) :
    Direction c s l.ctl.entry.isSome se [] (ordered (q ++ l.dataQ)) (updates l.s2c + grantDue s g) ∧
      c.stage ≠ .opening := by
  obtain ⟨rfl, -⟩ := h.open_head hq
  have hup := h.up_head hq rfl
  refine ⟨?_, fun hs => ?_⟩
  · have hf := h.up_head_open hq rfl
    simp only [openOf, if_true, ← hf] at hup
    exact hup.started rfl
  · have := hup.wire.early (Or.inl hs)
    simp at this

theorem Pair.accept (h : Pair l c s se o g) {id : ChannelId} {host : String} {port : Int}
    {window serial : Nat} {q : List Frame} (hq : l.c2s = .open id host port window serial :: q) :
    Pair { l with
      c2s := q
      srv := ⟨some ⟨false⟩, some (.connecting id serial host port window)⟩ } c s true false g := by
  obtain ⟨hup, hc⟩ := h.open_through hq
  obtain ⟨rfl, rfl, hsrv, hs, -⟩ := h.open_head hq
  have hdown := h.down
  rw [hq, List.cons_append, updates_cons] at hdown
  simp only [Frame.update, Nat.zero_add] at hdown
  exact ⟨h.ctl_chan, .born (by rw [hs]) hc, h.ok_ctl, h.ok_srv, h.same, h.ctl_stage, h.srv_stage,
    h.dataQ, h.controlQ, fun f hf => h.up_ends f (by rw [hq]; exact List.mem_cons_of_mem _ hf),
    hup, hdown, h.fresh⟩

/-- A refusal is the reply a failed connect would send. -/
theorem Pair.refuse (h : Pair l c s se o g) {id : ChannelId} {host : String} {port : Int}
    {window serial : Nat} {q : List Frame} (hq : l.c2s = .open id host port window serial :: q)
    (message : String) :
    Pair { l with c2s := q, s2c := l.s2c ++ [.opened id false message 0] } c
      { s with stage := .exited } false false g := by
  obtain ⟨hup, hc⟩ := h.open_through hq
  obtain ⟨rfl, rfl, hsrv, hs, hid⟩ := h.open_head hq
  have hst : s.stage = .connecting := by rw [hs]; rfl
  have hsid : s.id = id := by rw [hs]; rfl
  have hd : Did false true s (.connectFails message) { s with stage := .exited }
      (.onOrdered (.opened s.id false message 0)) := .connectFails hst
  have hdown := h.down
  rw [hq, List.cons_append, updates_cons] at hdown
  simp only [Frame.update, Nat.zero_add] at hdown
  have hord : ordered (l.s2c ++ [.opened id false message 0]) =
      ordered l.s2c ++ (Emit.onOrdered (.opened s.id false message 0)).ordered := by
    simp [Emit.onOrdered, ordered, Frame.isUpdate, hsid]
  have hgd : grantDue { s with stage := .exited } g ≤ grantDue s g := by simp [grantDue]
  refine ⟨h.ctl_chan, .void hsrv rfl (by rw [hs]; rfl) (by rw [hs]; rfl) hc, h.ok_ctl,
    hd.ok h.ok_srv, h.same, h.ctl_stage, by simp, h.dataQ, h.controlQ,
    fun f hf => h.up_ends f (by rw [hq]; exact List.mem_cons_of_mem _ hf), ?_, ?_, ?_⟩
  · refine Direction.drop_receiver (hup.receives h.ok_srv hd ?_ (by simp [Channel.receiving]))
    simp only [updates_append, updates_cons, Frame.update, updates_nil, Nat.add_zero, Emit.onOrdered,
      grantOf]
    exact Nat.add_le_add_left hgd _
  · have hw := hdown.wire.send hd (by simp [Emit.onOrdered, Frame.ends])
    simp only [hord]
    exact (hdown.sends h.ok_srv hd hw (dataCharge_append ..) (dataBytes_append ..)).drop_sender
  · rintro (h1 | h1 | h1)
    · cases h1
    · cases h1
    · exact h.fresh (Or.inr (Or.inr h1))

/-- A frame for the controlled end, taken off the stream, that touches its window and its queue. -/
theorem Pair.srv_frame (h : Pair l c s l.srv.entry.isSome false g) (hc : c.stage ≠ .opening)
    {f : Frame} {q : List Frame} (hq : l.c2s = f :: q) (hf : f.isUpdate = false)
    {w : RecvWindow} {i : List Inbound} {ent : Option Entry} (hent : ent = l.srv.entry ∨ ent = none)
    (hup : Direction c { s with window := w, inbound := i } l.ctl.entry.isSome ent.isSome []
      (ordered (q ++ l.dataQ)) (updates l.s2c + grantDue s g)) :
    Pair { l with c2s := q, srv := ⟨ent, some { s with window := w, inbound := i }⟩ } c
      { s with window := w, inbound := i } ent.isSome false g := by
  have hu : f.update = 0 := by cases f <;> simp_all [Frame.isUpdate, Frame.update]
  have hdown := h.down
  rw [hq, List.cons_append, updates_cons, hu, Nat.zero_add] at hdown
  refine ⟨h.ctl_chan, .born rfl hc, h.ok_ctl, h.ok_srv.frame _ _, h.same, h.ctl_stage, h.srv_stage,
    h.dataQ, h.controlQ, fun x hx => h.up_ends x (by rw [hq]; exact List.mem_cons_of_mem _ hx),
    hup, ?_, h.fresh⟩
  rcases hent with rfl | rfl
  · exact hdown.sender_frame w i
  · exact hdown.drop_sender.sender_frame w i

/-- A frame for a controlled end there will never be. -/
theorem Pair.srv_void (h : Pair l c s false false g) (hsrv : l.srv = ⟨none, none⟩)
    (hs : s.stage = .exited) (hr : s.read = []) (hw : s.written = []) (hc : c.stage ≠ .opening)
    {f : Frame} {q : List Frame} (hq : l.c2s = f :: q) (hf : f.isUpdate = false)
    (hup : Direction c s l.ctl.entry.isSome false [] (ordered (q ++ l.dataQ))
      (updates l.s2c + grantDue s g)) :
    Pair { l with c2s := q } c s false false g := by
  have hu : f.update = 0 := by cases f <;> simp_all [Frame.isUpdate, Frame.update]
  have hdown := h.down
  rw [hq, List.cons_append, updates_cons, hu, Nat.zero_add] at hdown
  exact ⟨h.ctl_chan, .void hsrv hs hr hw hc, h.ok_ctl, h.ok_srv, h.same, h.ctl_stage, h.srv_stage,
    h.dataQ, h.controlQ, fun x hx => h.up_ends x (by rw [hq]; exact List.mem_cons_of_mem _ hx),
    hup, hdown, h.fresh⟩

/-- Ordered frames behind the `open` find the controlled end running, or none to come. -/
theorem Pair.settled (h : Pair l c s se o g) {f : Frame} {q : List Frame} (hq : l.c2s = f :: q)
    (hf : f.isUpdate = false) (hopen : ∀ id host port w k, f ≠ .open id host port w k) :
    o = false ∧ c.stage ≠ .opening ∧ ((l.srv.chan = some s ∧ se = l.srv.entry.isSome) ∨
      (se = false ∧ l.srv = ⟨none, none⟩ ∧ s.stage = .exited ∧ s.read = [] ∧ s.written = [])) := by
  cases o with
  | true => exact absurd (h.up_head_open hq hf) (hopen _ _ _ _ _)
  | false =>
    have hc := (h.up_head_other hq hf).2
    refine ⟨rfl, hc, ?_⟩
    cases h.side with
    | born h1 h2 => exact Or.inl ⟨h1, rfl⟩
    | waiting h1 h2 h3 => exact absurd (h3 rfl) hc
    | void h1 h2 h3 h4 h5 => exact Or.inr ⟨rfl, h1, h2, h3, h4⟩

theorem Pair.srvData (h : Pair l c s se o g) {id : ChannelId} {d : Bytes} {q : List Frame}
    (hq : l.c2s = .data id d :: q) : Inv { l with c2s := q, srv := l.srv.onData d } := by
  have hup := h.up_head hq rfl
  obtain ⟨rfl, hc, ⟨hchan, rfl⟩ | ⟨rfl, hsrv, hs, hr, hw⟩⟩ := h.settled hq rfl (by simp)
  · obtain ⟨w, i, ent, heq, hent, hup'⟩ := hup.onData
    have hsrv : l.srv.onData d = ⟨ent, some { s with window := w, inbound := i }⟩ := by
      rw [← heq, ← hchan]
    rw [hsrv]
    exact Or.inr ⟨_, _, _, _, _, h.srv_frame hc hq rfl hent hup'⟩
  · have hsame : l.srv.onData d = l.srv := by rw [hsrv]; rfl
    rw [hsame]
    exact Or.inr ⟨_, _, _, _, _, h.srv_void hsrv hs hr hw hc hq rfl (hup.data_dropped rfl)⟩

theorem Pair.srvClose (h : Pair l c s se o g) {id : ChannelId} {q : List Frame}
    (hq : l.c2s = .close id :: q) : Inv { l with c2s := q, srv := l.srv.onClose } := by
  have hup := h.up_head hq rfl
  obtain ⟨rfl, hc, ⟨hchan, rfl⟩ | ⟨rfl, hsrv, hs, hr, hw⟩⟩ := h.settled hq rfl (by simp)
  · obtain ⟨w, i, heq, hup'⟩ := hup.onClose h.ok_ctl rfl
    have hsrv : l.srv.onClose = ⟨none, some { s with window := w, inbound := i }⟩ := by
      rw [← heq, ← hchan]
    rw [hsrv]
    exact Or.inr ⟨_, _, _, _, _, h.srv_frame hc hq rfl (Or.inr rfl) hup'⟩
  · have hsame : l.srv.onClose = l.srv := by rw [hsrv]; rfl
    rw [hsame]
    exact Or.inr ⟨_, _, _, _, _, h.srv_void hsrv hs hr hw hc hq rfl (hup.close_dropped rfl)⟩

theorem Pair.srvUpdate (h : Pair l c s se o g) {id : ChannelId} {n : Nat} {q : List Frame}
    (hq : l.c2s = .windowUpdate id n :: q) :
    Inv { l with c2s := q, srv := l.srv.onWindowUpdate n } := by
  have hup := h.up
  rw [hq, List.cons_append, ordered_cons_update _ rfl] at hup
  have hdown := h.down
  rw [hq, List.cons_append, updates_cons, Frame.update, Nat.add_comm] at hdown
  have hends : ∀ f ∈ q ++ l.dataQ, ∀ id ok m w, f ≠ .opened id ok m w := fun x hx =>
    h.up_ends x (by rw [hq]; exact List.mem_cons_of_mem _ hx)
  cases h.side with
  | born h1 h2 =>
    obtain ⟨k, heq, hdown'⟩ := hdown.onWindowUpdate
    have hsrv : l.srv.onWindowUpdate n = ⟨l.srv.entry, some { s with credit := k }⟩ := by
      rw [← heq, ← h1]
    rw [hsrv]
    exact Or.inr ⟨c, { s with credit := k }, l.srv.entry.isSome, false, g, h.ctl_chan, .born rfl h2,
      h.ok_ctl, h.ok_srv.credit k, h.same, h.ctl_stage, h.srv_stage, h.dataQ, h.controlQ, hends,
      hup.receiver_credit k, hdown', h.fresh⟩
  | waiting h1 h2 h3 =>
    -- nothing was sent to the controller yet, so there is nothing it could have drained
    have hn : n = 0 := by
      have := hdown.held_le
      rw [h2, (connecting_account c.id c.serial c.host c.port).1] at this
      have hcap : maxSendCredit = channelWindow := rfl
      omega
    subst hn
    have hsame : l.srv.onWindowUpdate 0 = l.srv := by rw [h1]; rfl
    rw [hsame]
    exact Or.inr ⟨c, s, true, o, g, h.ctl_chan, .waiting h1 h2 h3, h.ok_ctl, h.ok_srv, h.same,
      h.ctl_stage, h.srv_stage, h.dataQ, h.controlQ, hends, hup, hdown, h.fresh⟩
  | void h1 h2 h3 h4 h5 =>
    have hsame : l.srv.onWindowUpdate n = l.srv := by rw [h1]; rfl
    rw [hsame]
    exact Or.inr ⟨c, s, false, false, g, h.ctl_chan, .void h1 h2 h3 h4 h5, h.ok_ctl, h.ok_srv, h.same,
      h.ctl_stage, h.srv_stage, h.dataQ, h.controlQ, hends, hup,
      hdown.credit_dropped (Nat.le_add_right _ _), h.fresh⟩

/-! ### Deliveries to the controller -/

theorem Pair.down_head (h : Pair l c s se o g) {f : Frame} {q : List Frame} (hq : l.s2c = f :: q)
    (hf : f.isUpdate = false) :
    Direction s c se l.ctl.entry.isSome (openedOf s g) (f :: ordered q)
      (updates (l.c2s ++ l.controlQ)) := by
  have hdown := h.down
  rwa [hq, ordered_cons _ hf] at hdown

/-- The `opened` is in front of everything else the controlled side sent. -/
theorem Pair.down_settled (h : Pair l c s se o g) {f : Frame} {q : List Frame} (hq : l.s2c = f :: q)
    (hf : f.isUpdate = false) (hopened : ∀ id m w, f ≠ .opened id true m w) : g = false := by
  cases g with
  | false => rfl
  | true =>
    obtain ⟨ws, hws, -⟩ := (h.down_head hq hf).wire.started
    exact absurd (List.cons.inj hws).1 (hopened _ _ _)

/-- A frame for the controller, taken off the stream, that touches its window and its queue. -/
theorem Pair.ctl_frame (h : Pair l c s se o false) {f : Frame} {q : List Frame}
    (hq : l.s2c = f :: q) (hf : f.isUpdate = false) {w : RecvWindow} {i : List Inbound}
    {ent : Option Entry} (hent : ent = l.ctl.entry ∨ ent = none)
    (hdown : Direction s { c with window := w, inbound := i } se ent.isSome [] (ordered q)
      (updates (l.c2s ++ l.controlQ))) :
    Pair { l with s2c := q, ctl := ⟨ent, some { c with window := w, inbound := i }⟩ }
      { c with window := w, inbound := i } s se o false := by
  have hu : f.update = 0 := by cases f <;> simp_all [Frame.isUpdate, Frame.update]
  have hup := h.up
  rw [hq, updates_cons, hu, Nat.zero_add] at hup
  refine ⟨rfl, ?_, h.ok_ctl.frame _ _, h.ok_srv, h.same, h.ctl_stage, h.srv_stage, h.dataQ,
    h.controlQ, h.up_ends, ?_, hdown, fun hs x hx => ?_⟩
  · cases h.side with
    | born h1 h2 => exact .born h1 h2
    | waiting h1 h2 h3 => exact .waiting h1 h2 h3
    | void h1 h2 h3 h4 h5 => exact .void h1 h2 h3 h4 h5
  · rcases hent with rfl | rfl
    · exact hup.sender_frame w i
    · exact hup.drop_sender.sender_frame w i
  · rcases hent with rfl | rfl
    · exact h.fresh hs x hx
    · cases hx

theorem Pair.ctlData (h : Pair l c s se o g) {id : ChannelId} {d : Bytes} {q : List Frame}
    (hq : l.s2c = .data id d :: q) : Inv { l with s2c := q, ctl := l.ctl.onData d } := by
  obtain rfl := h.down_settled hq rfl (by simp)
  obtain ⟨w, i, ent, heq, hent, hdown'⟩ := (h.down_head hq rfl).onData
  have hctl : l.ctl.onData d = ⟨ent, some { c with window := w, inbound := i }⟩ := by
    rw [← heq, ← h.ctl_chan]
  rw [hctl]
  exact Or.inr ⟨_, _, _, _, _, h.ctl_frame hq rfl hent hdown'⟩

/-- `close`, or an `opened` that refuses. -/
theorem Pair.ctlClose (h : Pair l c s se o g) {f : Frame} {q : List Frame}
    (hq : l.s2c = f :: q) (hf : f.ends = true) : Inv { l with s2c := q, ctl := l.ctl.onClose } := by
  have hupd : f.isUpdate = false := by cases f <;> simp_all [Frame.ends, Frame.isUpdate]
  have hopened : ∀ id m w, f ≠ .opened id true m w := by
    rintro id m w rfl
    cases hf
  obtain rfl := h.down_settled hq hupd hopened
  obtain ⟨w, i, heq, hdown'⟩ := (h.down_head hq hupd).onClose h.ok_srv hf
  have hctl : l.ctl.onClose = ⟨none, some { c with window := w, inbound := i }⟩ := by
    rw [← heq, ← h.ctl_chan]
  rw [hctl]
  exact Or.inr ⟨_, _, _, _, _, h.ctl_frame hq hupd (Or.inr rfl) hdown'⟩

/-- Credit for the controller, taken off the stream. -/
theorem Pair.ctl_credit (h : Pair l c s se o g) {q : List Frame} {k : Nat} {g' : Bool}
    {ent : Option Entry} (hent : ent.isSome = l.ctl.entry.isSome)
    (hup : Direction { c with credit := k } s l.ctl.entry.isSome se (openOf c o)
      (ordered (l.c2s ++ l.dataQ)) (updates q + grantDue s g'))
    (hdown : Direction s c se l.ctl.entry.isSome (openedOf s g') (ordered q)
      (updates (l.c2s ++ l.controlQ)))
    (hfresh : s.stage = .connecting ∨ s.stage = .granted ∨ g' = true →
      ∀ x, ent = some x → x.opened = false) :
    Pair { l with s2c := q, ctl := ⟨ent, some { c with credit := k }⟩ }
      { c with credit := k } s se o g' := by
  refine ⟨rfl, ?_, h.ok_ctl.credit k, h.ok_srv, h.same, h.ctl_stage, h.srv_stage, h.dataQ, h.controlQ,
    h.up_ends, ?_, ?_, hfresh⟩
  · cases h.side with
    | born h1 h2 => exact .born h1 h2
    | waiting h1 h2 h3 => exact .waiting h1 h2 h3
    | void h1 h2 h3 h4 h5 => exact .void h1 h2 h3 h4 h5
  · simp only [hent]
    exact hup
  · simp only [hent]
    exact hdown.receiver_credit k

theorem Pair.ctlUpdate (h : Pair l c s se o g) {id : ChannelId} {n : Nat} {q : List Frame}
    (hq : l.s2c = .windowUpdate id n :: q) :
    Inv { l with s2c := q, ctl := l.ctl.onWindowUpdate n } := by
  have hup := h.up
  rw [hq, updates_cons, Frame.update, show n + updates q + grantDue s g =
    updates q + grantDue s g + n by omega] at hup
  have hdown := h.down
  rw [hq, ordered_cons_update _ rfl] at hdown
  obtain ⟨k, heq, hup'⟩ := hup.onWindowUpdate
  have hctl : l.ctl.onWindowUpdate n = ⟨l.ctl.entry, some { c with credit := k }⟩ := by
    rw [← heq, ← h.ctl_chan]
  rw [hctl]
  exact Or.inr ⟨_, _, _, _, _, h.ctl_credit rfl hup' hdown h.fresh⟩

theorem Pair.ctlOpened (h : Pair l c s se o g) {id : ChannelId} {m : String} {w : Nat}
    {q : List Frame} (hq : l.s2c = .opened id true m w :: q) :
    Inv { l with s2c := q, ctl := l.ctl.onOpened w } := by
  have hhead := h.down_head hq rfl
  cases g with
  | false =>
    have := hhead.wire.head
    simp [Frame.isData, Frame.ends] at this
  | true =>
    obtain ⟨ws, hws, -⟩ := hhead.wire.started
    obtain ⟨hid, -, hm, hw⟩ : id = s.id ∧ true = true ∧ m = "" ∧ w = channelWindow := by
      simpa only [Frame.opened.injEq] using (List.cons.inj hws).1
    subst hw
    have hdown : Direction s c se l.ctl.entry.isSome (openedOf s false) (ordered q)
        (updates (l.c2s ++ l.controlQ)) := by
      simp only [openedOf, if_true, ← hid, ← hm] at hhead
      exact hhead.started rfl
    have hup := h.up
    have hgd : grantDue s true = grantDue s false + (channelWindow - initialWindow) := by
      simp [grantDue]
    have hu : (Frame.opened id true m channelWindow).update = 0 := rfl
    rw [hq, updates_cons, hu, Nat.zero_add, hgd, ← Nat.add_assoc] at hup
    obtain ⟨k, ent, heq, hent, hup'⟩ := hup.onOpened (h.fresh (Or.inr (Or.inr rfl)))
    have hctl : l.ctl.onOpened channelWindow = ⟨ent, some { c with credit := k }⟩ := by
      rw [← heq, ← h.ctl_chan]
    rw [hctl]
    refine Or.inr ⟨_, _, _, _, _, h.ctl_credit hent hup' hdown ?_⟩
    rintro (hs | hs | hs)
    · exact absurd hs h.opened_pending.1
    · exact absurd hs h.opened_pending.2
    · cases hs

/-! ### The entries -/

theorem Pair.drop_srv (h : Pair l c s se o g) :
    Inv { l with srv := { l.srv with entry := none } } := by
  cases h.side with
  | born h1 h2 =>
    exact Or.inr ⟨c, s, false, false, g, h.ctl_chan, .born h1 h2, h.ok_ctl, h.ok_srv, h.same,
      h.ctl_stage, h.srv_stage, h.dataQ, h.controlQ, h.up_ends, h.up.drop_receiver,
      h.down.drop_sender, h.fresh⟩
  | waiting h1 h2 h3 =>
    have hsame : { l with srv := { l.srv with entry := none } } = l := by
      cases l
      simp_all
    rw [hsame]
    exact Or.inr ⟨c, s, _, _, g, h⟩
  | void h1 h2 h3 h4 h5 =>
    have hsame : { l with srv := { l.srv with entry := none } } = l := by
      cases l
      simp_all
    rw [hsame]
    exact Or.inr ⟨c, s, _, _, g, h⟩

end Deliveries

/-- The invariant holds after every step. -/
theorem Inv.step {l l' : Link} (h : l.Inv) (hst : Step l l') : l'.Inv := by
  rcases h with hu | ⟨c, s, se, o, g, hp⟩
  · have hu' := hu
    obtain ⟨hctl, hsrv, hdq, hcq, hc2s, hs2c⟩ := hu'
    cases hst with
    | «open» hc => exact Or.inr ⟨_, _, _, _, _, hu.open _ _ _ _ _⟩
    | ctlDrop => exact Or.inl ⟨by simp [hctl], hsrv, hdq, hcq, hc2s, hs2c⟩
    | srvDrop => exact Or.inl ⟨hctl, by simp [hsrv], hdq, hcq, hc2s, hs2c⟩
    | _ => simp_all
  · cases hst with
    | «open» hc => simp [hp.ctl_chan] at hc
    | ctlTask hc hd =>
      rw [hp.ctl_chan] at hc
      cases hc
      exact hp.ctlTask hd
    | srvTask hc hd => exact hp.srvTask hc hd
    | pumpData hq => exact Or.inr ⟨_, _, _, _, _, hp.pumpData hq⟩
    | pumpControl hq => exact Or.inr ⟨_, _, _, _, _, hp.pumpControl hq⟩
    | accept hq _ => exact Or.inr ⟨_, _, _, _, _, hp.accept hq⟩
    | refuse hq => exact Or.inr ⟨_, _, _, _, _, hp.refuse hq _⟩
    | ignore hq hent =>
      obtain ⟨-, -, hsrv, -⟩ := hp.open_head hq
      simp [hsrv] at hent
    | srvData hq => exact hp.srvData hq
    | srvClose hq => exact hp.srvClose hq
    | srvUpdate hq => exact hp.srvUpdate hq
    | srvOpened hq =>
      have hmem : _ ∈ l.c2s ++ l.dataQ := List.mem_append_left _ (hq ▸ List.mem_cons_self ..)
      exact absurd rfl (hp.up_ends _ hmem _ _ _ _)
    | ctlOpened hq => exact hp.ctlOpened hq
    | ctlRefused hq => exact hp.ctlClose hq rfl
    | ctlData hq => exact hp.ctlData hq
    | ctlClose hq => exact hp.ctlClose hq rfl
    | ctlUpdate hq => exact hp.ctlUpdate hq
    | ctlOpen hq =>
      have hg := hp.down_settled hq rfl (by simp)
      subst hg
      have := (hp.down_head hq rfl).wire.head
      simp [Frame.isData, Frame.ends] at this
    | ctlDrop => exact Or.inr ⟨_, _, _, _, _, hp.drop_ctl⟩
    | srvDrop => exact hp.drop_srv

end Link

end FontisRemote.PortForward
