import FontisRemote.PortForward.Project

/-!
# What a tunnel guarantees

Read off the invariant of the links, for every run of a tunnel in which no `open` is given an id an
earlier channel had: no receiver is overrun and the credit of a channel adds up to the window it was
granted; an idle sender can always go on; and what is written is what was read.

The ids come from a 32-bit counter that wraps, and no frame says which of two channels with the same
id it belongs to. Without that condition a run fails each of the three (`overrun_when_id_reused`,
`truncated_when_id_reused`, `garbled_when_id_reused`).
-/

namespace FontisRemote.PortForward

open Channel FontisRemote.Lib

namespace Frame

/-- What an `opened` raises the credit by. -/
def grant : Frame → Nat
  | .opened _ success _ window => if success then effectiveWindow window - initialWindow else 0
  | _ => 0

end Frame

def grants (fs : List Frame) : Nat := (fs.map Frame.grant).sum

@[simp] theorem grants_nil : grants [] = 0 := rfl
@[simp] theorem grants_cons (f : Frame) (fs : List Frame) :
    grants (f :: fs) = f.grant + grants fs := by simp [grants]
@[simp] theorem grants_append (fs gs : List Frame) :
    grants (fs ++ gs) = grants fs + grants gs := by simp [grants]

/-- Granted by the connect, with the `opened` that says so still to be sent. -/
def Channel.unannounced (r : Channel) : Nat :=
  if r.stage = .granted then channelWindow - initialWindow else 0

/-- All the credit there is for the direction from `p` to `r`: as `SendCredit`, taken for a read,
read and unsent, in flight as `data`, queued undrained, drained and unadvertised, and on its way back
in `window_update` and `opened`. -/
def totalCredit (p r : Channel) (wire back : List Frame) : Nat :=
  p.credit + p.taken + p.outgoingCharge + dataCharge wire + r.queued + r.window.drainedSinceUpdate +
    r.advertised + updates back + grants back + r.unannounced

/-- Nothing is under way in the direction from `p` to `r`: no `data`, `opened` or `window_update` in
flight, nothing taken, and all that arrived was written. -/
structure Idle (p r : Channel) (wire back : List Frame) : Prop where
  sender : p.stage = .running ∧ p.toTunnel = .taking
  receiver : r.stage = .running ∧ r.toSocket = .next ∧ r.pending = [] ∧ r.inbound = []
  no_data : ∀ f ∈ wire, Frame.isData f = false
  no_credit : ∀ f ∈ back, Frame.isUpdate f = false ∧ Frame.grant f = 0

namespace Tunnel

/-- The frames of a channel on their way to the controlled side, the updates apart. -/
def upWire (t : Tunnel) (id : ChannelId) : List Frame := only id (t.c2s ++ t.dataQ)

/-- The controller's updates of a channel on their way. -/
def upBack (t : Tunnel) (id : ChannelId) : List Frame := only id (t.c2s ++ t.controlQ)

/-- The frames of a channel on their way to the controller. -/
def downWire (t : Tunnel) (id : ChannelId) : List Frame := only id t.s2c

/-- Both ends have the channel: its two entries are there and its two tasks. -/
def Holds (t : Tunnel) (id : ChannelId) (c s : Channel) : Prop :=
  (∃ x, t.ctl.under id = ⟨some x, some c⟩) ∧ ∃ x, t.srv.under id = ⟨some x, some s⟩

section Reading

variable {t : Tunnel} {id : ChannelId} {c s : Channel} {se o g : Bool}

theorem Sound.pair (h : t.Sound) (hc : t.ctl.chan id = some c) :
    ∃ s se o g, Link.Pair (t.link id) c s se o g := by
  rcases h.inv id with ⟨hctl, -⟩ | ⟨c', s, se, o, g, hp⟩
  · have : t.ctl.chan id = none := congrArg End.chan hctl
    rw [hc] at this
    cases this
  · have hc' : t.ctl.chan id = some c' := hp.ctl_chan
    rw [hc] at hc'
    cases hc'
    exact ⟨s, se, o, g, hp⟩

/-- A channel of the controlled side has its counterpart under the same id. -/
theorem Sound.pair_srv (h : t.Sound) (hs : t.srv.chan id = some s) :
    ∃ c g, t.ctl.chan id = some c ∧
      Link.Pair (t.link id) c s (t.srv.under id).entry.isSome false g := by
  rcases h.inv id with ⟨-, hsrv, -⟩ | ⟨c, s', se, o, g, hp⟩
  · have : t.srv.chan id = none := congrArg End.chan hsrv
    rw [hs] at this
    cases this
  · refine ⟨c, g, hp.ctl_chan, ?_⟩
    have key : ∀ s', t.srv.chan id = some s' → s' = s := by
      intro s' hs'
      rw [hs] at hs'
      exact (Option.some.inj hs').symm
    cases hp.side with
    | born h1 h2 =>
      obtain rfl := key s' h1
      exact hp
    | waiting h1 h2 h3 =>
      have : t.srv.chan id = none := congrArg End.chan h1
      rw [hs] at this
      cases this
    | void h1 h2 h3 h4 h5 =>
      have : t.srv.chan id = none := congrArg End.chan h1
      rw [hs] at this
      cases this

theorem Sound.pair_both (h : t.Sound) (hc : t.ctl.chan id = some c) (hs : t.srv.chan id = some s) :
    ∃ g, Link.Pair (t.link id) c s (t.srv.under id).entry.isSome false g := by
  obtain ⟨c', g, hc', hp⟩ := h.pair_srv hs
  rw [hc] at hc'
  cases hc'
  exact ⟨g, hp⟩

theorem grants_ordered (fs : List Frame) : grants (ordered fs) = grants fs := by
  induction fs with
  | nil => rfl
  | cons f fs ih =>
    by_cases hf : f.isUpdate = true
    · rw [ordered_cons_update fs hf, ih, grants_cons]
      have : f.grant = 0 := by cases f <;> simp_all [Frame.isUpdate, Frame.grant]
      omega
    · rw [ordered_cons fs (by simpa using hf), grants_cons, grants_cons, ih]

theorem dataCharge_ordered (fs : List Frame) : dataCharge (ordered fs) = dataCharge fs := by
  induction fs with
  | nil => rfl
  | cons f fs ih =>
    by_cases hf : f.isUpdate = true
    · rw [ordered_cons_update fs hf, ih, dataCharge_cons]
      have : f.charge = 0 := by cases f <;> simp_all [Frame.isUpdate, Frame.charge]
      omega
    · rw [ordered_cons fs (by simpa using hf), dataCharge_cons, dataCharge_cons, ih]

theorem grants_eq_zero {fs : List Frame} (h : ∀ f ∈ fs, Frame.grant f = 0) : grants fs = 0 := by
  induction fs with
  | nil => rfl
  | cons f fs ih =>
    rw [grants_cons, h f (List.mem_cons_self ..), ih fun g hg => h g (List.mem_cons_of_mem _ hg)]

/-- The only grant on its way is the pending `opened`. -/
theorem grants_wire {p : Channel} {op ws : List Frame} (h : Wire p op ws) : grants ws = grants op := by
  obtain ⟨mid, tl, rfl, hmid, htl⟩ := h.shape
  have h1 : grants mid = 0 := grants_eq_zero fun f hf => by
    have := hmid f hf
    cases f <;> simp_all [Frame.isData, Frame.grant]
  have h2 : grants tl = 0 := by
    rcases htl with rfl | ⟨f, rfl, hf, -⟩
    · rfl
    · cases f <;> simp_all [Frame.ends, Frame.grant]
  simp [h1, h2]

theorem pair_grants (hp : Link.Pair (t.link id) c s se o g) :
    grants (t.downWire id) + s.unannounced = grantDue s g := by
  have h1 : grants (t.downWire id) = grants (openedOf s g) := by
    rw [← grants_ordered]
    exact grants_wire hp.down.wire
  have h2 : effectiveWindow channelWindow = channelWindow := by decide
  rw [h1]
  cases g <;> simp [openedOf, Frame.grant, h2, Channel.unannounced, grantDue, Nat.add_comm]

theorem pair_no_grants (hp : Link.Pair (t.link id) c s se o g) :
    grants (t.upBack id) + c.unannounced = 0 := by
  have h1 : grants (t.upBack id) = 0 := grants_eq_zero fun f hf => by
    unfold upBack at hf
    rw [only_append] at hf
    rcases List.mem_append.1 hf with hf | hf
    · have := hp.up_ends f (List.mem_append_left _ hf)
      cases f with
      | opened id ok m w => exact absurd rfl (this id ok m w)
      | _ => rfl
    · have := hp.controlQ f hf
      cases f <;> simp_all [Frame.isUpdate, Frame.grant]
  rw [h1]
  simp [Channel.unannounced, hp.ctl_stage.2]

/-- The account of the direction to the controlled side. -/
theorem pair_total_up (hp : Link.Pair (t.link id) c s se o g) :
    totalCredit c s (t.upWire id) (t.downWire id) ≤ s.granted ∧
      ((t.ctl.under id).entry.isSome = true → se = true → s.receiving = true → c.lossless →
        totalCredit c s (t.upWire id) (t.downWire id) = s.granted) := by
  have hg := pair_grants hp
  have hw : dataCharge (ordered ((t.link id).c2s ++ (t.link id).dataQ)) =
      dataCharge (t.upWire id) := by
    rw [dataCharge_ordered]
    simp [upWire, link]
  have hb : updates (t.link id).s2c = updates (t.downWire id) := rfl
  have hle := hp.up.credit_le
  have hbal := hp.up.bal.le
  rw [hw, hb] at hle
  simp only [Channel.held] at hle
  refine ⟨?_, fun hce hse hr hl => ?_⟩
  · unfold totalCredit
    omega
  · have heq := hp.up.credit_eq hce hse hr hl
    have hbal := hp.up.bal.eq hr
    rw [hw, hb] at heq
    simp only [Channel.held] at heq
    unfold totalCredit
    omega

/-- The account of the direction to the controller. -/
theorem pair_total_down (hp : Link.Pair (t.link id) c s se o g) :
    totalCredit s c (t.downWire id) (t.upBack id) ≤ c.granted ∧
      (se = true → (t.ctl.under id).entry.isSome = true → c.receiving = true → s.lossless →
        totalCredit s c (t.downWire id) (t.upBack id) = c.granted) := by
  have hg := pair_no_grants hp
  have hw : dataCharge (ordered (t.link id).s2c) = dataCharge (t.downWire id) :=
    dataCharge_ordered _
  have hb : updates ((t.link id).c2s ++ (t.link id).controlQ) = updates (t.upBack id) := by
    simp [upBack, link]
  have hle := hp.down.credit_le
  have hbal := hp.down.bal.le
  rw [hw, hb] at hle
  simp only [Channel.held] at hle
  refine ⟨?_, fun hse hce hr hl => ?_⟩
  · unfold totalCredit
    omega
  · have heq := hp.down.credit_eq hse hce hr hl
    have hbal := hp.down.bal.eq hr
    rw [hw, hb] at heq
    simp only [Channel.held] at heq
    unfold totalCredit
    omega

end Reading

/-- A run in which the first channel has a byte on its way. -/
theorem first_byte : ∃ h t, Exec Init step h t ∧ (∀ p ∈ h, FreshId p.1 p.2) ∧
    t.c2s = [.open 1 "" 0 channelWindow 0, .data 1 [7]] := by
  refine ⟨_, _, .snoc (.snoc (.snoc (.snoc (.snoc (.snoc (.snoc (.start ⟨"localhost:0", rfl⟩)
    (e := .open "" 0 [7]) rfl) (e := .ctlTask (.live 1) .sendOpen) rfl)
    (e := .ctlTask (.live 1) .take) rfl) (e := .ctlTask (.live 1) (.read [7])) rfl)
    (e := .ctlTask (.live 1) .sendData) rfl) (e := .pumpData) rfl) (e := .pumpData) rfl, ?_, rfl⟩
  simp only [List.forall_mem_cons, FreshId, true_and]
  exact ⟨rfl, by simp⟩

/-- The run goes on: the channel is connected and opened at both ends, and the byte is written. -/
theorem first_byte_written : ∃ h t c s, Exec Init step h t ∧ (∀ p ∈ h, FreshId p.1 p.2) ∧ t.Holds 1 c s ∧
    Idle c s (t.upWire 1) (t.downWire 1) ∧ Idle s c (t.downWire 1) (t.upBack 1) ∧ c.read = [7] ∧
    s.written = [7] := by
  have hopen : Exec Init step [] (start "localhost:0") := .start ⟨"localhost:0", rfl⟩
  have hasked := ((hopen.snoc (e := .open "" 0 [7]) rfl).snoc (e := .ctlTask (.live 1) .sendOpen) rfl).snoc
    (e := .pumpData) rfl
  have hup := ((hasked.snoc (e := .deliverSrv true) rfl).snoc (e := .srvTask (.live 1) .connected) rfl).snoc
    (e := .srvTask (.live 1) .sendOpened) rfl
  have hread := ((hup.snoc (e := .deliverCtl) rfl).snoc (e := .ctlTask (.live 1) .take) rfl).snoc
    (e := .ctlTask (.live 1) (.read [7])) rfl
  have hsent := ((hread.snoc (e := .ctlTask (.live 1) .sendData) rfl).snoc (e := .pumpData) rfl).snoc
    (e := .deliverSrv true) rfl
  have hwritten := ((hsent.snoc (e := .srvTask (.live 1) .nextInbound) rfl).snoc
    (e := .srvTask (.live 1) (.write 1)) rfl).snoc (e := .srvTask (.live 1) .writeDone) rfl
  refine ⟨_, _, _, _, hwritten, ?_, ⟨⟨_, rfl⟩, _, rfl⟩, ?_, ?_, rfl, rfl⟩
  · simp only [List.forall_mem_cons, FreshId, true_and]
    exact ⟨rfl, by simp⟩
  · exact ⟨⟨rfl, rfl⟩, ⟨rfl, rfl, rfl, rfl⟩, fun f hf => (by cases hf), fun f hf => (by cases hf)⟩
  · exact ⟨⟨rfl, rfl⟩, ⟨rfl, rfl, rfl, rfl⟩, fun f hf => (by cases hf), fun f hf => (by cases hf)⟩

/-! ## No overrun -/

/-- No task was told of a violation, no frame at the head of a stream is about to be refused, and
nothing a connecting task takes overflows its buffer. -/
structure NoOverrun (t : Tunnel) : Prop where
  ctl_clean : ∀ r c, t.ctl.task r = some c → .violation ∉ c.inbound ∧ c.toSocket ≠ .ended .violation
  srv_clean : ∀ r s, t.srv.task r = some s → .violation ∉ s.inbound ∧ s.toSocket ≠ .ended .violation
  ctl_accept : ∀ id d q x c, t.s2c = .data id d :: q → t.ctl.under id = ⟨some x, some c⟩ →
    (c.window.accept d.length).isSome = true
  srv_accept : ∀ id d q x s, t.c2s = .data id d :: q → t.srv.under id = ⟨some x, some s⟩ →
    (s.window.accept d.length).isSome = true
  pending : ∀ r s b rest, t.srv.task r = some s → s.stage = .connecting →
    s.inbound = .data b :: rest → pendingFits s.pendingLen b.length = true

/-- The credit of a channel adds up to the granted window in both directions: exactly while both ends
hold the channel, the receiver listens and the sender lost nothing to a tunnel that went, and never to
more. Before the controlled side has the channel, the window is the initial one. -/
structure Accounted (t : Tunnel) : Prop where
  up_le : ∀ id c s, t.ctl.chan id = some c → t.srv.chan id = some s →
    totalCredit c s (t.upWire id) (t.downWire id) ≤ s.granted
  up_eq : ∀ id c s, t.Holds id c s → s.receiving = true → c.lossless →
    totalCredit c s (t.upWire id) (t.downWire id) = s.granted
  down_le : ∀ id c s, t.ctl.chan id = some c → t.srv.chan id = some s →
    totalCredit s c (t.downWire id) (t.upBack id) ≤ c.granted
  down_eq : ∀ id c s, t.Holds id c s → c.receiving = true → s.lossless →
    totalCredit s c (t.downWire id) (t.upBack id) = c.granted
  early : ∀ id c x, t.ctl.under id = ⟨some x, some c⟩ →
    c.stage = .opening ∨ (∃ f ∈ t.upWire id, ∃ host port w k, f = .open id host port w k) →
    c.lossless → c.held + dataCharge (t.upWire id) + updates (t.downWire id) = initialWindow

section Overrun

variable {t : Tunnel}

theorem Sound.task_ctl (h : t.Sound) {r : TaskRef} {c : Channel} (hr : t.ctl.task r = some c) :
    ∃ id, t.ctl.chan id = some c := by
  cases r with
  | live id => exact ⟨id, hr⟩
  | old i => simp [Endpoint.task, h.ctl.old_nil] at hr

theorem Sound.task_srv (h : t.Sound) {r : TaskRef} {s : Channel} (hr : t.srv.task r = some s) :
    ∃ id, t.srv.chan id = some s := by
  cases r with
  | live id => exact ⟨id, hr⟩
  | old i => simp [Endpoint.task, h.srv.old_nil] at hr

theorem Sound.noOverrun (h : t.Sound) : t.NoOverrun := by
  refine ⟨?_, ?_, ?_, ?_, ?_⟩
  · intro r c hr
    obtain ⟨id, hc⟩ := h.task_ctl hr
    obtain ⟨s, se, o, g, hp⟩ := h.pair hc
    exact ⟨hp.down.bal.no_violation, hp.down.bal.clean⟩
  · intro r s hr
    obtain ⟨id, hs⟩ := h.task_srv hr
    obtain ⟨c, g, -, hp⟩ := h.pair_srv hs
    exact ⟨hp.up.bal.no_violation, hp.up.bal.clean⟩
  · intro id d q x c hq hu
    have hc : t.ctl.chan id = some c := congrArg End.chan hu
    obtain ⟨s, se, o, g, hp⟩ := h.pair hc
    have hs2c : (t.link id).s2c = .data id d :: only id q := by
      show only id t.s2c = _
      rw [hq]
      exact only_cons_same q rfl
    obtain rfl := hp.down_settled hs2c rfl (by simp)
    exact RecvWindow.accept_isSome.2 (hp.down_head hs2c rfl).accept
  · intro id d q x s hq hu
    have hs : t.srv.chan id = some s := congrArg End.chan hu
    obtain ⟨c, g, -, hp⟩ := h.pair_srv hs
    have hc2s : (t.link id).c2s = .data id d :: only id q := by
      show only id t.c2s = _
      rw [hq]
      exact only_cons_same q rfl
    exact RecvWindow.accept_isSome.2 (hp.up_head hc2s rfl).accept
  · intro r s b rest hr hst hin
    obtain ⟨id, hs⟩ := h.task_srv hr
    obtain ⟨c, g, -, hp⟩ := h.pair_srv hs
    exact hp.up.bal.pendingFits hp.ok_srv hst hin

/-- An `open` on its way, or one still to be sent: the controlled side has nothing yet. -/
theorem pair_waiting {id : ChannelId} {c s : Channel} {se o g : Bool}
    (hp : Link.Pair (t.link id) c s se o g)
    (h : c.stage = .opening ∨ ∃ f ∈ t.upWire id, ∃ host port w k, f = .open id host port w k) :
    se = true ∧ s = .connecting c.id c.serial c.host c.port channelWindow := by
  have hopen : o = true ∨ c.stage = .opening := by
    rcases h with h | ⟨f, hf, host, port, w, k, rfl⟩
    · exact Or.inr h
    · cases o with
      | true => exact Or.inl rfl
      | false =>
        have hmem : .open id host port w k ∈ ordered ((t.link id).c2s ++ (t.link id).dataQ) := by
          refine List.mem_filter.2 ⟨?_, rfl⟩
          simpa [upWire, link] using hf
        obtain ⟨mid, tl, heq, hmid, htl⟩ := hp.up.wire.shape
        rw [heq] at hmem
        simp only [openOf, Bool.false_eq_true, if_false, List.nil_append] at hmem
        rcases List.mem_append.1 hmem with hm | hm
        · cases hmid _ hm
        · rcases htl with rfl | ⟨f, rfl, hf, -⟩
          · cases hm
          · rw [← List.mem_singleton.1 hm] at hf
            cases hf
  cases hp.side with
  | born h1 h2 => simp_all
  | waiting h1 h2 h3 => exact ⟨rfl, h2⟩
  | void h1 h2 h3 h4 h5 => simp_all

theorem Sound.accounted (h : t.Sound) : t.Accounted := by
  have hold : ∀ {id c s}, t.Holds id c s → t.ctl.chan id = some c ∧ t.srv.chan id = some s ∧
      (t.ctl.under id).entry.isSome = true ∧ (t.srv.under id).entry.isSome = true := by
    rintro id c s ⟨⟨x, hx⟩, y, hy⟩
    exact ⟨congrArg End.chan hx, congrArg End.chan hy, by rw [hx]; rfl, by rw [hy]; rfl⟩
  refine ⟨?_, ?_, ?_, ?_, ?_⟩
  · intro id c s hc hs
    obtain ⟨g, hp⟩ := h.pair_both hc hs
    exact (pair_total_up hp).1
  · intro id c s hh hr hl
    obtain ⟨hc, hs, hce, hse⟩ := hold hh
    obtain ⟨g, hp⟩ := h.pair_both hc hs
    exact (pair_total_up hp).2 hce hse hr hl
  · intro id c s hc hs
    obtain ⟨g, hp⟩ := h.pair_both hc hs
    exact (pair_total_down hp).1
  · intro id c s hh hr hl
    obtain ⟨hc, hs, hce, hse⟩ := hold hh
    obtain ⟨g, hp⟩ := h.pair_both hc hs
    exact (pair_total_down hp).2 hse hce hr hl
  · intro id c x hu hopen hl
    have hc : t.ctl.chan id = some c := congrArg End.chan hu
    obtain ⟨s, se, o, g, hp⟩ := h.pair hc
    obtain ⟨rfl, hs⟩ := pair_waiting hp hopen
    have hce : (t.ctl.under id).entry.isSome = true := by rw [hu]; rfl
    have hrec : s.receiving = true := by rw [hs]; rfl
    have htot := (pair_total_up hp).2 hce rfl hrec hl
    have hg := pair_grants hp
    have hst : s.stage = .connecting := by rw [hs]; rfl
    have hg0 : g = false := by
      cases g with
      | false => rfl
      | true => exact absurd hst hp.opened_pending.1
    have hgd : grantDue s g = 0 := by simp [grantDue, hst, hg0]
    have hgr : s.granted = initialWindow := by rw [hs]; rfl
    have hq : s.queued = 0 := by rw [hs]; rfl
    have hdr : s.window.drainedSinceUpdate = 0 := by rw [hs]; rfl
    have had : s.advertised = 0 := by rw [hs]; rfl
    unfold totalCredit at htot
    unfold Channel.held
    omega

/-- Between honest endpoints no window is overrun and the credit adds up, in every run in which no
id comes round again. -/
theorem never_overrun {h : List (Tunnel × TunnelEvent)} (hx : Exec Init step h t)
    (hf : ∀ p ∈ h, FreshId p.1 p.2) : t.NoOverrun ∧ t.Accounted :=
  ⟨(sound_of_exec hx hf).noOverrun, (sound_of_exec hx hf).accounted⟩

theorem never_overrun_first_byte : ∃ h t, Exec Init step h t ∧ (∀ p ∈ h, FreshId p.1 p.2) ∧
    t.c2s = [.open 1 "" 0 channelWindow 0, .data 1 [7]] ∧ (t.NoOverrun ∧ t.Accounted) := by
  obtain ⟨h, t, hx, hf, hq⟩ := first_byte
  exact ⟨h, t, hx, hf, hq, never_overrun hx hf⟩

end Overrun

/-! ## No lost credit -/

/-- Enough credit to go on with. -/
def Enough (p : Channel) : Prop :=
  channelWindow - (updateThreshold - 1) ≤ p.credit ∧ minFrameCharge ≤ p.credit ∧
    (SendCredit.take p.credit maxFrame).isSome = true

/-- The cap in `SendCredit::add` takes nothing of what is granted, refunded or about to arrive. -/
structure NoTruncation (t : Tunnel) : Prop where
  ctl_update : ∀ id n q x c, t.s2c = .windowUpdate id n :: q → t.ctl.under id = ⟨some x, some c⟩ →
    SendCredit.add c.credit n = c.credit + n
  srv_update : ∀ id n q x s, t.c2s = .windowUpdate id n :: q → t.srv.under id = ⟨some x, some s⟩ →
    SendCredit.add s.credit n = s.credit + n
  opened : ∀ id m w q x c, t.s2c = .opened id true m w :: q → t.ctl.under id = ⟨some x, some c⟩ →
    x.opened = false ∧ SendCredit.raiseInitial c.credit w = c.credit + (channelWindow - initialWindow)
  refund : ∀ r c, t.ctl.task r = some c ∨ t.srv.task r = some c →
    ∀ allow n, c.toTunnel = .reading allow → n ≤ allow → SendCredit.add c.credit n = c.credit + n

/-- An open channel with nothing under way in one direction leaves that direction's sender enough. -/
def Wakeful (t : Tunnel) : Prop :=
  ∀ id c s, t.Holds id c s →
    (Idle c s (t.upWire id) (t.downWire id) → Enough c) ∧
    (Idle s c (t.downWire id) (t.upBack id) → Enough s)

section Credit

variable {t : Tunnel}

theorem dataCharge_eq_zero {fs : List Frame} (h : ∀ f ∈ fs, Frame.isData f = false) :
    dataCharge fs = 0 := by
  induction fs with
  | nil => rfl
  | cons f fs ih =>
    have hf := h f (List.mem_cons_self ..)
    have hc : f.charge = 0 := by cases f <;> simp_all [Frame.isData, Frame.charge]
    rw [dataCharge_cons, hc, ih fun g hg => h g (List.mem_cons_of_mem _ hg)]

/-- What an idle direction has left is all in the sender's hands, but for what is withheld below the
threshold. -/
theorem Idle.enough {p r : Channel} {wire back : List Frame} (h : Idle p r wire back)
    (htot : totalCredit p r wire back = r.granted)
    (hdr : r.window.drainedSinceUpdate < updateThreshold) : Enough p := by
  obtain ⟨⟨-, hpt⟩, ⟨hrs, hrt, hrp, hri⟩, hdata, hcred⟩ := h
  have h1 : dataCharge wire = 0 := dataCharge_eq_zero hdata
  have h2 : updates back = 0 := updates_eq_zero fun f hf => (hcred f hf).1
  have h3 : grants back = 0 := grants_eq_zero fun f hf => (hcred f hf).2
  have h4 : r.granted = channelWindow := by simp [Channel.granted, hrs]
  have h5 : r.queued = 0 := by simp [Channel.queued, hrt, hrp, hri]
  have h6 : r.advertised = 0 := by simp [Channel.advertised, hrt]
  have h7 : r.unannounced = 0 := by simp [Channel.unannounced, hrs]
  have h8 : p.taken = 0 ∧ p.outgoingCharge = 0 := by
    simp [Channel.taken, Channel.outgoingCharge, hpt]
  have h9 : minFrameCharge ≤ channelWindow - (updateThreshold - 1) := by decide
  have hge : channelWindow - (updateThreshold - 1) ≤ p.credit := by
    unfold totalCredit at htot
    omega
  refine ⟨hge, h9.trans hge, ?_⟩
  unfold SendCredit.take
  rw [if_pos (h9.trans hge)]
  rfl

theorem Sound.wakeful (h : t.Sound) : t.Wakeful := by
  rintro id c s ⟨⟨x, hx⟩, y, hy⟩
  have hc : t.ctl.chan id = some c := congrArg End.chan hx
  have hs : t.srv.chan id = some s := congrArg End.chan hy
  have hce : (t.ctl.under id).entry.isSome = true := by rw [hx]; rfl
  have hse : (t.srv.under id).entry.isSome = true := by rw [hy]; rfl
  obtain ⟨g, hp⟩ := h.pair_both hc hs
  have listening : ∀ {r : Channel}, r.stage = .running → r.toSocket = .next → r.receiving = true := by
    intro r h1 h2
    simp [Channel.receiving, h1, h2]
  have lossless : ∀ {p : Channel}, p.toTunnel = .taking → p.lossless := by
    intro p h1 h2
    rw [h1] at h2
    cases h2
  refine ⟨fun hi => ?_, fun hi => ?_⟩
  · have hr := listening hi.receiver.1 hi.receiver.2.1
    exact Idle.enough hi ((pair_total_up hp).2 hce hse hr (lossless hi.sender.2)) hp.up.bal.drained
  · have hr := listening hi.receiver.1 hi.receiver.2.1
    exact Idle.enough hi ((pair_total_down hp).2 hse hce hr (lossless hi.sender.2)) hp.down.bal.drained

theorem Sound.noTruncation (h : t.Sound) : t.NoTruncation := by
  refine ⟨?_, ?_, ?_, ?_⟩
  · intro id n q x c hq hu
    obtain ⟨s, se, o, g, hp⟩ := h.pair (congrArg End.chan hu : t.ctl.chan id = some c)
    have hs2c : (t.link id).s2c = .windowUpdate id n :: only id q := by
      show only id t.s2c = _
      rw [hq]
      exact only_cons_same q rfl
    have hcap := hp.up.held_le
    rw [hs2c, updates_cons, Frame.update] at hcap
    unfold Channel.held at hcap
    exact SendCredit.add_eq (by omega)
  · intro id n q x s hq hu
    obtain ⟨c, g, -, hp⟩ := h.pair_srv (congrArg End.chan hu : t.srv.chan id = some s)
    have hc2s : (t.link id).c2s = .windowUpdate id n :: only id q := by
      show only id t.c2s = _
      rw [hq]
      exact only_cons_same q rfl
    have hcap := hp.down.held_le
    rw [hc2s, List.cons_append, updates_cons, Frame.update] at hcap
    unfold Channel.held at hcap
    exact SendCredit.add_eq (by omega)
  · intro id m w q x c hq hu
    obtain ⟨s, se, o, g, hp⟩ := h.pair (congrArg End.chan hu : t.ctl.chan id = some c)
    have hs2c : (t.link id).s2c = .opened id true m w :: only id q := by
      show only id t.s2c = _
      rw [hq]
      exact only_cons_same q rfl
    have hhead := hp.down_head hs2c rfl
    cases g with
    | false =>
      have := hhead.wire.head
      simp [Frame.isData, Frame.ends] at this
    | true =>
      obtain ⟨ws, hws, -⟩ := hhead.wire.started
      obtain ⟨-, -, -, hw⟩ : id = s.id ∧ true = true ∧ m = "" ∧ w = channelWindow := by
        simpa only [Frame.opened.injEq] using (List.cons.inj hws).1
      refine ⟨hp.fresh (Or.inr (Or.inr rfl)) x (congrArg End.entry hu), ?_⟩
      have hcap := hp.up.held_le
      have hgd : channelWindow - initialWindow ≤ grantDue s true := by simp [grantDue]
      unfold Channel.held at hcap
      rw [hw, SendCredit.raiseInitial_channelWindow]
      exact SendCredit.add_eq (by omega)
  · intro r c hr allow n hread hn
    have hcap : c.held ≤ maxSendCredit := by
      rcases hr with hr | hr
      · obtain ⟨id, hc⟩ := h.task_ctl hr
        obtain ⟨s, se, o, g, hp⟩ := h.pair hc
        exact le_trans (Nat.le_add_right _ _) hp.up.held_le
      · obtain ⟨id, hs⟩ := h.task_srv hr
        obtain ⟨d, g, -, hp⟩ := h.pair_srv hs
        exact le_trans (Nat.le_add_right _ _) hp.down.held_le
    simp only [Channel.held, Channel.taken, hread] at hcap
    exact SendCredit.add_eq (by omega)

/-- Flow control loses no credit, in every run in which no id comes round again. -/
theorem never_starved {h : List (Tunnel × TunnelEvent)} (hx : Exec Init step h t)
    (hf : ∀ p ∈ h, FreshId p.1 p.2) : t.Wakeful ∧ t.NoTruncation :=
  ⟨(sound_of_exec hx hf).wakeful, (sound_of_exec hx hf).noTruncation⟩

theorem never_starved_first_byte : ∃ h t c s, Exec Init step h t ∧ (∀ p ∈ h, FreshId p.1 p.2) ∧
    t.Holds 1 c s ∧ Idle c s (t.upWire 1) (t.downWire 1) ∧ Idle s c (t.downWire 1) (t.upBack 1) ∧
    s.written = [7] ∧ (t.Wakeful ∧ t.NoTruncation) := by
  obtain ⟨h, t, c, s, hx, hf, hholds, hup, hdown, -, hwritten⟩ := first_byte_written
  exact ⟨h, t, c, s, hx, hf, hholds, hup, hdown, hwritten, never_starved hx hf⟩

end Credit

/-! ## The bytes -/

/-- What is written is a prefix of what the other end of the same channel read, and all of it when the
one side came to the end of its source and the other to the peer's `close`. -/
def Conveys (p r : Channel) : Prop :=
  r.written <+: p.read ∧
    (p.toTunnel = .ended .localEof → r.toSocket = .ended .peerClosed → r.written = p.read)

/-- The bytes of every channel, one `open` to a channel: each controlled end has its controller's end,
both directions convey, and an end without a counterpart has written nothing. -/
structure Intact (t : Tunnel) : Prop where
  paired : ∀ r s, t.srv.task r = some s → ∃ r' c, t.ctl.task r' = some c ∧ c.serial = s.serial
  conveys : ∀ r c r' s, t.ctl.task r = some c → t.srv.task r' = some s → s.serial = c.serial →
    Conveys c s ∧ Conveys s c
  alone : ∀ r c, t.ctl.task r = some c → (∀ r' s, t.srv.task r' = some s → s.serial ≠ c.serial) →
    c.written = []

section Bytes

variable {t : Tunnel}

theorem Direction.conveys {p r : Channel} {pe re : Bool} {op ws : List Frame} {b : Nat}
    (h : Direction p r pe re op ws b) : Conveys p r := by
  refine ⟨h.written, fun hp hr => (h.ended hr).2 ?_⟩
  intro hgone
  rw [hp] at hgone
  cases hgone

theorem Sound.intact (h : t.Sound) : t.Intact := by
  refine ⟨?_, ?_, ?_⟩
  · intro r s hr
    obtain ⟨id, hs⟩ := h.task_srv hr
    obtain ⟨c, g, hc, hp⟩ := h.pair_srv hs
    exact ⟨.live id, c, hc, hp.same.2.symm⟩
  · intro r c r' s hr hr' hser
    obtain ⟨i, hc⟩ := h.task_ctl hr
    obtain ⟨j, hs⟩ := h.task_srv hr'
    obtain ⟨d, g, hd, hp⟩ := h.pair_srv hs
    -- the counterpart under the id of `s` carries the same number, so it is `c`
    have hij : i = j := h.labels.inj hc hd (by rw [← hser, hp.same.2])
    subst hij
    rw [hc] at hd
    cases hd
    exact ⟨Direction.conveys hp.up, Direction.conveys hp.down⟩
  · intro r c hr hnone
    obtain ⟨id, hc⟩ := h.task_ctl hr
    obtain ⟨s, se, o, g, hp⟩ := h.pair hc
    have hread : s.read = [] := by
      cases hp.side with
      | born h1 h2 => exact absurd hp.same.2 (hnone (.live id) s h1)
      | waiting h1 h2 h3 => rw [h2]; rfl
      | void h1 h2 h3 h4 h5 => exact h3
    have := hp.down.written
    rw [hread] at this
    exact List.prefix_nil.1 this

/-- Byte streams arrive intact, in every run in which no id comes round again. -/
theorem never_garbled {h : List (Tunnel × TunnelEvent)} (hx : Exec Init step h t)
    (hf : ∀ p ∈ h, FreshId p.1 p.2) : t.Intact :=
  (sound_of_exec hx hf).intact

theorem never_garbled_first_byte : ∃ h t c s, Exec Init step h t ∧ (∀ p ∈ h, FreshId p.1 p.2) ∧
    t.Holds 1 c s ∧ c.read = [7] ∧ s.written = [7] ∧ t.Intact := by
  obtain ⟨h, t, c, s, hx, hf, hholds, -, -, hread, hwritten⟩ := first_byte_written
  exact ⟨h, t, c, s, hx, hf, hholds, hread, hwritten, never_garbled hx hf⟩

end Bytes

end Tunnel

/-! ## When an id comes round again

The counter behind the ids is 32 bits wide. A tunnel that lives for 2^32 opens gives an id a second
time, and `open` only steps past ids that are still in the controller's table. Frames of the earlier
channel that are still on the stream then reach the new one.

The run below leaves a `window_update` and a `data` frame of the first channel undelivered, opens and
closes a channel for every other id, and opens the first id again. From there each of the three
guarantees fails. -/

/-- What a login for the default target was approved for. -/
def defaultTarget : String := (normalizePortForwardTarget "" 0).1

/-- A tunnel that is up, with one id in use at most. -/
structure Solo (t : Tunnel) (id : ChannelId) (ctl srv : End) (dq cq up dn : List Frame) : Prop where
  ctl_entries : t.ctl.entries = ctl.entry.toList.map (id, ·)
  srv_entries : t.srv.entries = srv.entry.toList.map (id, ·)
  ctl_chan : t.ctl.chan id = ctl.chan
  srv_chan : t.srv.chan id = srv.chan
  dataQ : t.dataQ = dq
  controlQ : t.controlQ = cq
  c2s : t.c2s = up
  s2c : t.s2c = dn
  ctl_up : t.ctl.down = false ∧ t.ctl.gone = false
  srv_up : t.srv.down = false ∧ t.srv.gone = false
  nextId : t.nextId = id + 1
  target : t.loginTarget = defaultTarget

/-- Some run gets there. -/
def Gets (P : Tunnel → Prop) : Prop := ∃ t, Reachable Tunnel.Init Tunnel.step t ∧ P t

theorem Gets.step {P Q : Tunnel → Prop} (h : Gets P)
    (hs : ∀ t, P t → ∃ e t', t.step e = some t' ∧ Q t') : Gets Q := by
  obtain ⟨t, hr, hp⟩ := h
  obtain ⟨e, t', he, hq⟩ := hs t hp
  have hrun : runs Tunnel.step t [e] = some t' := by simp [runs, he]
  exact ⟨t', hr.append hrun, hq⟩

/-- Some run gets to a tunnel with these contents. -/
def Stands (id : ChannelId) (ctl srv : End) (dq cq up dn : List Frame) : Prop :=
  Gets fun t => Solo t id ctl srv dq cq up dn

section Moves

variable {id : ChannelId} {ce se : End} {dq cq up dn : List Frame}

theorem get_entries (id : ChannelId) (o : Option Entry) :
    Assoc.get (o.toList.map (id, ·)) id = o := by
  cases o <;> simp [Assoc.get]

theorem put_entries (id : ChannelId) (o o' : Option Entry) :
    Assoc.put (o.toList.map (id, ·)) id o' = o'.toList.map (id, ·) := by
  cases o <;> cases o' <;> simp [Assoc.put, Assoc.erase]

theorem erase_entries (id : ChannelId) (o : Option Entry) :
    Assoc.erase (o.toList.map (id, ·)) id = [] := by
  cases o <;> simp [Assoc.erase]

/-- A step of the controller's task. -/
theorem Stands.ctlTask {ent : Option Entry} {c c' : Channel} {em : Emit}
    (h : Stands id ⟨ent, some c⟩ se dq cq up dn) (e : TaskEvent)
    (hs : c.step false false ent.isSome e = some (c', em)) (hq : decide (dq.length < dataQueueFrames) = true)
    (hid : c.id = id) :
    Stands id ⟨if e = .leave then none else ent, some c'⟩ se (dq ++ em.ordered)
      (cq ++ em.control) up dn := by
  refine h.step fun t ht => ⟨.ctlTask (.live id) e, ?_⟩
  have htask : t.ctl.task (.live id) = some c := ht.ctl_chan
  have hholds : t.ctl.holds (.live id) = ent.isSome := by
    simp only [Endpoint.holds, ht.ctl_entries, get_entries]
  have hfull : ¬ (em.ordered ≠ [] ∧ dataQueueFrames ≤ t.dataQ.length) := by
    rw [ht.dataQ]
    have := of_decide_eq_true hq
    omega
  simp only [Tunnel.step, Tunnel.ctlTask, htask, ht.ctl_up.1, ht.ctl_up.2, hholds, hs, if_neg hfull,
    hid]
  refine ⟨_, rfl, ?_⟩
  by_cases he : e = .leave
  · simp only [if_pos he]
    exact ⟨by simp [Endpoint.setTask, ht.ctl_entries, erase_entries], ht.srv_entries,
      by simp [Endpoint.setTask], ht.srv_chan, by rw [ht.dataQ], by rw [ht.controlQ], ht.c2s, ht.s2c,
      ht.ctl_up, ht.srv_up, ht.nextId, ht.target⟩
  · simp only [if_neg he]
    exact ⟨ht.ctl_entries, ht.srv_entries, by simp [Endpoint.setTask], ht.srv_chan, by rw [ht.dataQ],
      by rw [ht.controlQ], ht.c2s, ht.s2c, ht.ctl_up, ht.srv_up, ht.nextId, ht.target⟩

/-- A step of the controlled side's task. -/
theorem Stands.srvTask {ent : Option Entry} {s s' : Channel} {em : Emit}
    (h : Stands id ce ⟨ent, some s⟩ dq cq up dn) (e : TaskEvent)
    (hs : s.step false false ent.isSome e = some (s', em)) :
    Stands id ce ⟨ent, some s'⟩ dq cq up (dn ++ em.ordered ++ em.control) := by
  refine h.step fun t ht => ⟨.srvTask (.live id) e, ?_⟩
  have htask : t.srv.task (.live id) = some s := ht.srv_chan
  have hholds : t.srv.holds (.live id) = ent.isSome := by
    simp only [Endpoint.holds, ht.srv_entries, get_entries]
  simp only [Tunnel.step, Tunnel.srvTask, htask, ht.srv_up.1, ht.srv_up.2, hholds, hs]
  exact ⟨_, rfl, ht.ctl_entries, ht.srv_entries, ht.ctl_chan, by simp [Endpoint.setTask], ht.dataQ,
    ht.controlQ, ht.c2s, by rw [ht.s2c], ht.ctl_up, ht.srv_up, ht.nextId, ht.target⟩

theorem Stands.pumpData {f : Frame} (h : Stands id ce se (f :: dq) cq up dn) :
    Stands id ce se dq cq (up ++ [f]) dn := by
  refine h.step fun t ht => ⟨.pumpData, ?_⟩
  simp only [Tunnel.step, ht.ctl_up.1, ht.dataQ]
  exact ⟨_, rfl, ht.ctl_entries, ht.srv_entries, ht.ctl_chan, ht.srv_chan, rfl, ht.controlQ,
    by rw [ht.c2s], ht.s2c, ht.ctl_up, ht.srv_up, ht.nextId, ht.target⟩

theorem onOpen_accepts (t : Tunnel) (hent : t.srv.entries = [])
    (htarget : t.loginTarget = defaultTarget) (id : ChannelId) (w k : Nat) :
    t.onOpen true id "" 0 w k =
      { t.sweep with srv := t.sweep.srv.insert id (.connecting id k "" 0 w) } := by
  have hsw : t.sweep.srv.entries = [] := by simp [Tunnel.sweep, hent, Assoc.retain]
  have hmax : ¬ maxChannels ≤ 0 := by decide
  have ht : t.sweep.loginTarget = (normalizePortForwardTarget "" 0).1 := htarget
  simp [Tunnel.onOpen, hsw, hmax, ht]

/-- An `open` for the target the tunnel is logged in for. -/
theorem Stands.accept {sc : Option Channel} {w k : Nat}
    (h : Stands id ce ⟨none, sc⟩ dq cq (.open id "" 0 w k :: up) dn) :
    Stands id ce ⟨some ⟨false⟩, some (.connecting id k "" 0 w)⟩ dq cq up dn := by
  refine h.step fun t ht => ⟨.deliverSrv true, ?_⟩
  have hopen := onOpen_accepts { t with c2s := up } ht.srv_entries ht.target id w k
  simp only [Tunnel.step, ht.srv_up.1, ht.c2s, Tunnel.handle]
  rw [hopen]
  refine ⟨_, rfl, ht.ctl_entries, ?_, ht.ctl_chan, ?_, ht.dataQ, ht.controlQ, rfl, ht.s2c, ht.ctl_up,
    ht.srv_up, ht.nextId, ht.target⟩
  · simp [Endpoint.insert, Endpoint.set, Tunnel.sweep, ht.srv_entries, Assoc.retain, Assoc.put,
      Assoc.erase]
  · simp [Endpoint.insert, Endpoint.set]

theorem Solo.srv_set {t : Tunnel} {f : Frame} (h : Solo t id ce se dq cq (f :: up) dn) (e : End) :
    t.srv.under id = se ∧
      Solo { t with c2s := up, srv := t.srv.set id e } id ce e dq cq up dn := by
  refine ⟨?_, h.ctl_entries, ?_, h.ctl_chan, ?_, h.dataQ, h.controlQ, rfl, h.s2c, h.ctl_up, h.srv_up,
    h.nextId, h.target⟩
  · unfold Endpoint.under
    rw [h.srv_entries, get_entries, h.srv_chan]
  · simp [Endpoint.set, h.srv_entries, put_entries]
  · simp [Endpoint.set]

theorem Stands.srvData {d : Bytes} (h : Stands id ce se dq cq (.data id d :: up) dn) :
    Stands id ce (se.onData d) dq cq up dn := by
  refine h.step fun t ht => ⟨.deliverSrv true, ?_⟩
  obtain ⟨hu, hset⟩ := ht.srv_set (se.onData d)
  rw [← hu] at hset
  simp only [Tunnel.step, ht.srv_up.1, ht.c2s]
  exact ⟨_, rfl, hu ▸ hset⟩

theorem Stands.srvClose (h : Stands id ce se dq cq (.close id :: up) dn) :
    Stands id ce se.onClose dq cq up dn := by
  refine h.step fun t ht => ⟨.deliverSrv true, ?_⟩
  obtain ⟨hu, hset⟩ := ht.srv_set se.onClose
  rw [← hu] at hset
  simp only [Tunnel.step, ht.srv_up.1, ht.c2s]
  exact ⟨_, rfl, hu ▸ hset⟩

theorem Solo.ctl_set {t : Tunnel} {f : Frame} (h : Solo t id ce se dq cq up (f :: dn)) (e : End) :
    t.ctl.under id = ce ∧
      Solo { t with s2c := dn, ctl := t.ctl.set id e } id e se dq cq up dn := by
  refine ⟨?_, ?_, h.srv_entries, ?_, h.srv_chan, h.dataQ, h.controlQ, h.c2s, rfl, h.ctl_up, h.srv_up,
    h.nextId, h.target⟩
  · unfold Endpoint.under
    rw [h.ctl_entries, get_entries, h.ctl_chan]
  · simp [Endpoint.set, h.ctl_entries, put_entries]
  · simp [Endpoint.set]

theorem Stands.ctlData {d : Bytes} (h : Stands id ce se dq cq up (.data id d :: dn)) :
    Stands id (ce.onData d) se dq cq up dn := by
  refine h.step fun t ht => ⟨.deliverCtl, ?_⟩
  obtain ⟨hu, hset⟩ := ht.ctl_set (ce.onData d)
  rw [← hu] at hset
  simp only [Tunnel.step, ht.ctl_up.1, ht.s2c]
  exact ⟨_, rfl, hu ▸ hset⟩

theorem Stands.ctlUpdate {n : Nat} (h : Stands id ce se dq cq up (.windowUpdate id n :: dn)) :
    Stands id (ce.onWindowUpdate n) se dq cq up dn := by
  refine h.step fun t ht => ⟨.deliverCtl, ?_⟩
  obtain ⟨hu, hset⟩ := ht.ctl_set (ce.onWindowUpdate n)
  rw [← hu] at hset
  simp only [Tunnel.step, ht.ctl_up.1, ht.s2c]
  exact ⟨_, rfl, hu ▸ hset⟩

theorem Stands.ctlOpened {m : String} {w : Nat}
    (h : Stands id ce se dq cq up (.opened id true m w :: dn)) :
    Stands id (ce.onOpened w) se dq cq up dn := by
  refine h.step fun t ht => ⟨.deliverCtl, ?_⟩
  obtain ⟨hu, hset⟩ := ht.ctl_set (ce.onOpened w)
  rw [← hu] at hset
  simp only [Tunnel.step, ht.ctl_up.1, ht.s2c]
  exact ⟨_, rfl, hu ▸ hset⟩

end Moves

/-! ## Opening and closing -/

/-- No channel is up, and `stale` waits for the controller. -/
structure Quiet (t : Tunnel) (next : ChannelId) (stale : List Frame) : Prop where
  ctl_entries : t.ctl.entries = []
  srv_entries : t.srv.entries = []
  dataQ : t.dataQ = []
  controlQ : t.controlQ = []
  c2s : t.c2s = []
  s2c : t.s2c = stale
  ctl_up : t.ctl.down = false ∧ t.ctl.gone = false
  srv_up : t.srv.down = false ∧ t.srv.gone = false
  nextId : t.nextId = next
  target : t.loginTarget = defaultTarget

theorem start_quiet : Gets fun t => Quiet t 1 [] :=
  ⟨Tunnel.start defaultTarget, ⟨[], .start ⟨_, rfl⟩⟩,
    ⟨rfl, rfl, rfl, rfl, rfl, rfl, ⟨rfl, rfl⟩, ⟨rfl, rfl⟩, rfl, rfl⟩⟩

variable {id : ChannelId} {stale : List Frame}

/-- A new channel, its `open` accepted. -/
theorem Gets.opened (h : Gets fun t => Quiet t id stale) :
    ∃ n, Stands id ⟨some ⟨false⟩, some { opening id n "" 0 [] with stage := .running }⟩
      ⟨some ⟨false⟩, some (connecting id n "" 0 channelWindow)⟩ [] [] [] stale := by
  obtain ⟨t, hr, ht⟩ := h
  have hmax : ¬ maxChannels ≤ 0 := by decide
  have hid : t.openId = id := by simp [Tunnel.openId, ht.ctl_entries, freshId, ht.nextId]
  have h1 : Stands id ⟨some ⟨false⟩, some (opening id t.opens "" 0 [])⟩ ⟨none, t.srv.chan id⟩
      [] [] [] stale := by
    refine Gets.step ⟨t, hr, Eq.refl t⟩ fun t' ht' => ⟨.open "" 0 [], ?_⟩
    subst ht'
    simp only [Tunnel.step, Tunnel.openChannel, ht.ctl_up.2, ht.ctl_entries, List.length_nil, hmax, hid]
    refine ⟨_, rfl, ?_, ht.srv_entries, ?_, rfl, ht.dataQ, ht.controlQ, ht.c2s, ht.s2c, ht.ctl_up,
      ht.srv_up, rfl, ht.target⟩
    · simp [Endpoint.insert, Endpoint.set, ht.ctl_entries, Assoc.put, Assoc.erase]
    · simp [Endpoint.insert, Endpoint.set]
  have h2 := h1.ctlTask .sendOpen rfl rfl rfl
  have h3 := h2.pumpData
  have h4 := h3.accept
  exact ⟨t.opens, h4⟩

/-- The local source ends, and the channel is closed on both sides. -/
theorem Stands.closed {c s : Channel} {ex : Entry} {ent : Option Entry} {allow left : Nat}
    (h : Stands id ⟨some ex, some c⟩ ⟨ent, some s⟩ [] [] [] stale) (hid : c.id = id)
    (hs : c.stage = .running) (ht : c.toTunnel = .taking) (hts : c.toSocket = .next)
    (hp : c.pending = []) (hpre : c.prebuf = [])
    (htake : SendCredit.take c.credit maxFrame = some (allow, left)) :
    Gets fun t => Quiet t (id + 1) stale := by
  obtain ⟨cid, serial, host, port, stage, credit, window, inbound, pending, plen, toTunnel, toSocket,
    cancel, prebuf, read, written⟩ := c
  subst hid hs ht hts hp hpre
  have h1 := h.ctlTask .take (by simp [Channel.step, relaySocketToTunnel, htake]; exact ⟨rfl, rfl⟩)
    rfl rfl
  have h2 := h1.ctlTask .readEof rfl rfl rfl
  have h3 := h2.ctlTask .signalCancel rfl rfl rfl
  have h4 := h3.ctlTask .nextCancelled rfl rfl rfl
  have h5 := h4.ctlTask .join rfl rfl rfl
  have h6 := h5.ctlTask .sendClose rfl rfl rfl
  have h7 := h6.ctlTask .leave rfl rfl rfl
  have h8 := h7.pumpData.srvClose
  have hclosed : (End.onClose ⟨ent, some s⟩).entry = none := by cases ent <;> rfl
  obtain ⟨t, hr, ht⟩ := h8
  refine ⟨t, hr, ht.ctl_entries, ?_, ht.dataQ, ht.controlQ, ht.c2s, ht.s2c, ht.ctl_up, ht.srv_up,
    ht.nextId, ht.target⟩
  rw [ht.srv_entries, hclosed]
  rfl

/-- One id further on. -/
theorem Gets.next (h : Gets fun t => Quiet t id stale) : Gets fun t => Quiet t (id + 1) stale := by
  obtain ⟨n, h1⟩ := h.opened
  exact h1.closed rfl rfl rfl rfl rfl rfl rfl

/-- Any number of ids further on. -/
theorem Gets.later (h : Gets fun t => Quiet t id stale) (n : Nat) :
    Gets fun t => Quiet t (id + BitVec.ofNat 32 n) stale := by
  induction n with
  | zero => simpa using h
  | succ n ih =>
    have hnext := ih.next
    rw [BitVec.add_assoc] at hnext
    rw [BitVec.ofNat_add]
    exact hnext

/-! ## A whole frame -/

theorem charge_maxFrame : charge maxFrame = maxFrame := by decide

section Block

variable {block : Bytes} (hb : block.length = maxFrame) {c : Channel} {x : Entry} {dn : List Frame}

include hb

theorem step_read_block (hs : c.stage = .running) (ht : c.toTunnel = .reading maxFrame)
    (hp : c.prebuf = []) (entry : Bool) :
    c.step false false entry (.read block) =
      some ({ c with toTunnel := .sending block, prebuf := [], read := c.read ++ block }, .nothing) := by
  have hne : block ≠ [] := by
    rintro rfl
    cases hb
  simp [Channel.step, hs, relaySocketToTunnel, ht, Channel.offers, hp, hne, charge_maxFrame, hb]

theorem step_write_block (hs : c.stage = .running) (ht : c.toSocket = .writing block 0)
    (entry : Bool) :
    c.step false false entry (.write maxFrame) =
      some ({ c with
        toSocket := .writing block maxFrame
        written := c.written ++ block }, .nothing) := by
  have htake : block.take maxFrame = block := by rw [← hb, List.take_length]
  simp [Channel.step, hs, relaySocketToTunnel, relayTunnelToSocket, ht, hb, htake]

theorem step_writeDone_block {w : RecvWindow} (hs : c.stage = .running)
    (ht : c.toSocket = .writing block maxFrame) (hw : c.window.drained maxFrame = (w, none))
    (entry : Bool) :
    c.step false false entry .writeDone =
      some ({ c with window := w, toSocket := .next }, .nothing) := by
  simp [Channel.step, hs, relaySocketToTunnel, relayTunnelToSocket, ht, hb, hw]

theorem step_writeDone_update {w : RecvWindow} {n : Nat} (hs : c.stage = .running)
    (ht : c.toSocket = .writing block maxFrame) (hw : c.window.drained maxFrame = (w, some n))
    (entry : Bool) :
    c.step false false entry .writeDone =
      some ({ c with window := w, toSocket := .advertising n }, .nothing) := by
  simp [Channel.step, hs, relaySocketToTunnel, relayTunnelToSocket, ht, hb, hw]

theorem onData_block {w : RecvWindow} (hr : c.receiving = true)
    (hw : c.window.accept maxFrame = some w) :
    End.onData ⟨some x, some c⟩ block =
      ⟨some x, some { c with window := w, inbound := c.inbound ++ [.data block] }⟩ := by
  have hr' : Channel.receiving { c with window := w } = true := hr
  simp [End.onData, hb, hw, Channel.push, hr']

theorem onData_overrun (hr : c.receiving = true) (hw : c.window.accept maxFrame = none) :
    End.onData ⟨some x, some c⟩ block =
      ⟨none, some { c with inbound := c.inbound ++ [.violation] }⟩ := by
  simp [End.onData, hb, hw, Channel.push, hr]

/-- A whole frame, sent. -/
theorem Stands.sendBlock {se : End} {left : Nat}
    (h : Stands id ⟨some x, some c⟩ se [] [] [] dn) (hid : c.id = id) (hs : c.stage = .running)
    (ht : c.toTunnel = .taking) (hp : c.prebuf = [])
    (htake : SendCredit.take c.credit maxFrame = some (maxFrame, left)) :
    Stands id ⟨some x, some { c with credit := left, read := c.read ++ block }⟩ se [] []
      [.data id block] dn := by
  obtain ⟨cid, serial, host, port, stage, credit, window, inbound, pending, plen, toTunnel, toSocket,
    cancel, prebuf, read, written⟩ := c
  subst hid hs ht hp
  have h1 := h.ctlTask .take (by simp [Channel.step, relaySocketToTunnel, htake]; exact ⟨rfl, rfl⟩)
    rfl rfl
  have h2 := h1.ctlTask (.read block) (step_read_block hb rfl rfl rfl _) rfl rfl
  have h3 := h2.ctlTask .sendData rfl rfl rfl
  exact h3.pumpData

/-- A whole frame, received and written. -/
theorem Stands.writeBlock {s : Channel} {y : Entry} {ce : End} {w : RecvWindow}
    (h : Stands id ce ⟨some y, some s⟩ [] [] [.data id block] dn) (hs : s.stage = .running)
    (ht : s.toSocket = .next) (hp : s.pending = []) (hi : s.inbound = [])
    (hacc : s.window.accept maxFrame = some w) :
    Stands id ce ⟨some y, some { s with
      window := w
      toSocket := .writing block maxFrame
      written := s.written ++ block }⟩ [] [] [] dn := by
  obtain ⟨cid, serial, host, port, stage, credit, window, inbound, pending, plen, toTunnel, toSocket,
    cancel, prebuf, read, written⟩ := s
  subst hs ht hp hi
  have h1 := h.srvData
  rw [onData_block hb rfl hacc] at h1
  have h2 := h1.srvTask .nextInbound
    (by simp [Channel.step, relaySocketToTunnel, relayTunnelToSocket]; exact ⟨rfl, rfl⟩)
  have h3 := h2.srvTask (.write maxFrame) (step_write_block hb rfl rfl _)
  simp only [Emit.nothing, List.append_nil] at h3
  exact h3

end Block

/-! ## The first channel -/

/-- The controlled end once connected. -/
def connectedEnd (id : ChannelId) (n : Nat) : Channel :=
  { connecting id n "" 0 channelWindow with stage := .running, window := ⟨channelWindow, 0⟩ }

/-- The controller's end once it was told. -/
def openedEnd (id : ChannelId) (n : Nat) : Channel :=
  { opening id n "" 0 [] with stage := .running, credit := channelWindow }

theorem step_connected (id : ChannelId) (n : Nat) :
    (connecting id n "" 0 channelWindow).step false false true .connected =
      some ({ connectedEnd id n with stage := .granted }, .nothing) := by
  have hw : RecvWindow.grant (RecvWindow.new initialWindow) (channelWindow - initialWindow) =
      ⟨channelWindow, 0⟩ := by
    simp only [RecvWindow.grant, RecvWindow.new, RecvWindow.mk.injEq, and_true]
    decide
  simp only [Channel.step, connecting, hw]
  rfl

theorem onOpened_opening (id : ChannelId) (n : Nat) :
    End.onOpened ⟨some ⟨false⟩, some { opening id n "" 0 [] with stage := .running }⟩ channelWindow =
      ⟨some ⟨true⟩, some (openedEnd id n)⟩ := by
  have hc : SendCredit.raiseInitial (SendCredit.new initialWindow) channelWindow = channelWindow := by
    decide
  simp only [End.onOpened, openedEnd, opening, hc]
  rfl

theorem first_opened : ∃ n, Stands 1 ⟨some ⟨true⟩, some (openedEnd 1 n)⟩
    ⟨some ⟨false⟩, some (connectedEnd 1 n)⟩ [] [] [] [] := by
  obtain ⟨n, h0⟩ := start_quiet.opened
  have h1 := h0.srvTask .connected (step_connected 1 n)
  have h2 := h1.srvTask .sendOpened rfl
  have h3 := h2.ctlOpened
  rw [onOpened_opening] at h3
  exact ⟨n, h3⟩

/-- What the first channel leaves behind for the controller. -/
def leftovers : List Frame := [.windowUpdate 1 updateThreshold, .data 1 [0]]

/-- Two whole frames are drained, which is worth an update, and a byte is sent back; then the
controller closes without having read either. -/
theorem first_closed {block : Bytes} (hb : block.length = maxFrame) :
    Gets fun t => Quiet t 2 leftovers := by
  obtain ⟨n, h0⟩ := first_opened
  have t1 : SendCredit.take channelWindow maxFrame = some (maxFrame, 196608) := by decide
  have t2 : SendCredit.take 196608 maxFrame = some (maxFrame, 131072) := by decide
  have t3 : SendCredit.take 131072 maxFrame = some (maxFrame, 65536) := by decide
  have a1 : RecvWindow.accept ⟨channelWindow, 0⟩ maxFrame = some ⟨196608, 0⟩ := by
    simp [RecvWindow.accept, charge, minFrameCharge, u32Max, channelWindow, maxFrame]
  have a2 : RecvWindow.accept ⟨196608, 65536⟩ maxFrame = some ⟨131072, 65536⟩ := by
    simp [RecvWindow.accept, charge, minFrameCharge, u32Max, maxFrame]
  have d1 : RecvWindow.drained ⟨196608, 0⟩ maxFrame = (⟨196608, 65536⟩, none) := by
    simp [RecvWindow.drained, charge, minFrameCharge, u32Max, maxFrame, satAdd, updateThreshold,
      channelWindow]
  have d2 : RecvWindow.drained ⟨131072, 65536⟩ maxFrame = (⟨262144, 0⟩, some updateThreshold) := by
    simp [RecvWindow.drained, charge, minFrameCharge, u32Max, maxFrame, satAdd, updateThreshold,
      channelWindow]
  have h1 := (h0.sendBlock hb rfl rfl rfl rfl t1).writeBlock hb rfl rfl rfl rfl a1
  have h2 := h1.srvTask .writeDone (step_writeDone_block hb rfl rfl (by exact d1) _)
  have h3 := (h2.sendBlock hb rfl rfl rfl rfl t2).writeBlock hb rfl rfl rfl rfl a2
  have h4 := h3.srvTask .writeDone (step_writeDone_update hb rfl rfl (by exact d2) _)
  have h5 := h4.srvTask .advertise rfl
  have h6 := h5.srvTask .take rfl
  have h7 := h6.srvTask (.read [0]) rfl
  have h8 := h7.srvTask .sendData rfl
  exact h8.closed rfl rfl rfl rfl rfl rfl t3

/-! ## The second channel of the same id -/

/-- The controller's end with the old update on top of the initial window. -/
def boostedEnd (n : Nat) : Channel :=
  { opening 1 n "" 0 [] with stage := .running, credit := initialWindow + updateThreshold }

/-- All other ids went by, the first one is given again, and the old update arrives. -/
theorem second_boosted : ∃ n, Stands 1 ⟨some ⟨false⟩, some (boostedEnd n)⟩
    ⟨some ⟨false⟩, some (connecting 1 n "" 0 channelWindow)⟩ [] [] [] [.data 1 [0]] := by
  have hb : (List.replicate maxFrame (0 : UInt8)).length = maxFrame := List.length_replicate ..
  have hwrap : (2 : ChannelId) + BitVec.ofNat 32 (2 ^ 32 - 1) = 1 := by decide
  have hround := (first_closed hb).later (2 ^ 32 - 1)
  rw [hwrap] at hround
  obtain ⟨n, h1⟩ := hround.opened
  have h2 := h1.ctlUpdate
  have hup : End.onWindowUpdate ⟨some ⟨false⟩, some { opening 1 n "" 0 [] with stage := .running }⟩
      updateThreshold = ⟨some ⟨false⟩, some (boostedEnd n)⟩ := by
    have hc : SendCredit.add (SendCredit.new initialWindow) updateThreshold =
        initialWindow + updateThreshold := by decide
    simp only [End.onWindowUpdate, opening, boostedEnd, hc]
  rw [hup] at h2
  exact ⟨n, h2⟩

/-- The credit of the old update overruns the window the controlled side starts with. -/
theorem overrun_when_id_reused :
    ∃ t, Reachable Tunnel.Init Tunnel.step t ∧
      (∃ r s, t.srv.task r = some s ∧ .violation ∈ s.inbound) ∧ ¬ (t.NoOverrun ∧ t.Accounted) := by
  obtain ⟨block, hb⟩ : ∃ block : Bytes, block.length = maxFrame :=
    ⟨List.replicate maxFrame 0, List.length_replicate ..⟩
  obtain ⟨n, h0⟩ := second_boosted
  have t1 : SendCredit.take (initialWindow + updateThreshold) maxFrame = some (maxFrame, 131072) := by
    decide
  have t2 : SendCredit.take 131072 maxFrame = some (maxFrame, 65536) := by decide
  have a1 : RecvWindow.accept (RecvWindow.new initialWindow) maxFrame = some ⟨0, 0⟩ := by
    simp [RecvWindow.accept, RecvWindow.new, effectiveWindow, charge, minFrameCharge, u32Max, maxFrame,
      initialWindow]
  have a2 : RecvWindow.accept ⟨0, 0⟩ maxFrame = none := by
    simp [RecvWindow.accept, charge, minFrameCharge, u32Max, maxFrame]
  have h1 := (h0.sendBlock hb rfl rfl rfl rfl t1).srvData
  rw [onData_block hb rfl (by exact a1)] at h1
  have h2 := (h1.sendBlock hb rfl rfl rfl rfl t2).srvData
  rw [onData_overrun hb rfl (by exact a2)] at h2
  obtain ⟨t, hr, ht⟩ := h2
  have hbad : ∃ s, t.srv.task (.live 1) = some s ∧ .violation ∈ s.inbound :=
    ⟨_, ht.srv_chan, by simp⟩
  obtain ⟨s, hs, hv⟩ := hbad
  exact ⟨t, hr, ⟨.live 1, s, hs, hv⟩, fun h => (h.1.srv_clean _ s hs).1 hv⟩

/-- The cap in `add` takes part of the grant that `opened` brings on top of it. -/
theorem truncated_when_id_reused :
    ∃ t, Reachable Tunnel.Init Tunnel.step t ∧ ¬ (t.Wakeful ∧ t.NoTruncation) := by
  obtain ⟨n, h0⟩ := second_boosted
  have hdata : ∃ x c, End.onData ⟨some ⟨false⟩, some (boostedEnd n)⟩ [0] = ⟨some x, some c⟩ ∧
      c.credit = initialWindow + updateThreshold := ⟨_, _, rfl, rfl⟩
  obtain ⟨x, c, hdata, hc⟩ := hdata
  have h1 := h0.ctlData
  rw [hdata] at h1
  have h2 := h1.srvTask .connected (step_connected 1 n)
  have h3 := h2.srvTask .sendOpened rfl
  obtain ⟨t, hr, ht⟩ := h3
  refine ⟨t, hr, fun h => ?_⟩
  have hu : t.ctl.under 1 = ⟨some x, some c⟩ := by
    unfold Endpoint.under
    rw [ht.ctl_entries, get_entries, ht.ctl_chan]
  obtain ⟨-, hraise⟩ := h.2.opened 1 "" channelWindow [] x c ht.s2c hu
  rw [hc] at hraise
  exact absurd hraise (by decide)

/-- The new channel writes a byte its own source never read. -/
theorem garbled_when_id_reused :
    ∃ t, Reachable Tunnel.Init Tunnel.step t ∧
      (∃ r c s, t.ctl.task r = some c ∧ t.srv.task r = some s ∧ c.serial = s.serial ∧
        c.written = [0] ∧ s.read = []) ∧ ¬ t.Intact := by
  obtain ⟨n, h0⟩ := second_boosted
  have h1 := h0.ctlData
  have h2 := h1.ctlTask .nextInbound rfl rfl rfl
  have h3 := h2.ctlTask (.write 1) rfl rfl rfl
  obtain ⟨t, hr, ht⟩ := h3
  have hends : ∃ c s, t.ctl.task (.live 1) = some c ∧ t.srv.task (.live 1) = some s ∧
      c.serial = s.serial ∧ c.written = [0] ∧ s.read = [] :=
    ⟨_, _, ht.ctl_chan, ht.srv_chan, rfl, rfl, rfl⟩
  obtain ⟨c, s, hc, hs, hser, hw, hread⟩ := hends
  refine ⟨t, hr, ⟨.live 1, c, s, hc, hs, hser, hw, hread⟩, fun h => ?_⟩
  have := (h.conveys _ c _ s hc hs hser.symm).2.1
  rw [hw, hread] at this
  simp at this

end FontisRemote.PortForward
