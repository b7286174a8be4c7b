import FontisRemote.PortForward.Link

/-!
# The invariant of a link

`Link.Pair` puts a `Direction` each way between the two ends of a link. The controlled end is part
of it from the moment the controller's end exists: until the `open` is handled it is the channel
`on_open` would build, with nothing received. So an accepted `open` changes nothing in the accounts,
and a refused one is a connect that failed at once.
-/

namespace FontisRemote.PortForward

open Channel

/-- The frames whose order matters: all but the updates, which have a queue of their own. -/
def ordered (fs : List Frame) : List Frame := fs.filter fun f => !f.isUpdate

@[simp] theorem ordered_nil : ordered [] = [] := rfl

@[simp] theorem ordered_append (fs gs : List Frame) : ordered (fs ++ gs) = ordered fs ++ ordered gs :=
  List.filter_append ..

theorem ordered_cons {f : Frame} (fs : List Frame) (h : f.isUpdate = false) :
    ordered (f :: fs) = f :: ordered fs := by simp [ordered, h]

theorem ordered_cons_update {f : Frame} (fs : List Frame) (h : f.isUpdate = true) :
    ordered (f :: fs) = ordered fs := by simp [ordered, h]

theorem ordered_eq_self {fs : List Frame} (h : ∀ f ∈ fs, Frame.isUpdate f = false) :
    ordered fs = fs := by
  refine List.filter_eq_self.2 fun f hf => ?_
  simp [h f hf]

theorem updates_eq_zero {fs : List Frame} (h : ∀ f ∈ fs, Frame.isUpdate f = false) :
    updates fs = 0 := by
  induction fs with
  | nil => rfl
  | cons f fs ih =>
    have hf := h f (List.mem_cons_self ..)
    have hu : f.update = 0 := by cases f <;> simp_all [Frame.isUpdate, Frame.update]
    rw [updates_cons, hu, ih fun g hg => h g (List.mem_cons_of_mem _ hg)]

/-- The controller's `open`, if it is still on its way. -/
def openOf (c : Channel) (o : Bool) : List Frame :=
  if o then [.open c.id c.host c.port channelWindow c.serial] else []

/-- The controlled side's `opened`, if it is still on its way. -/
def openedOf (s : Channel) (g : Bool) : List Frame :=
  if g then [.opened s.id true "" channelWindow] else []

/-- What the controlled end has granted and the controller has not been told yet. -/
def grantDue (s : Channel) (g : Bool) : Nat :=
  (if s.stage = .granted then channelWindow - initialWindow else 0) +
    (if g then channelWindow - initialWindow else 0)

/-- Where the controlled end of a link stands: it runs, the `open` for it is still on its way, or
there will be none. -/
inductive FarEnd (l : Link) (c s : Channel) : Bool → Bool → Prop
  | born : l.srv.chan = some s → c.stage ≠ .opening → FarEnd l c s l.srv.entry.isSome false
  | waiting {o : Bool} : l.srv = ⟨none, none⟩ →
      s = .connecting c.id c.serial c.host c.port channelWindow → (o = false → c.stage = .opening) →
      FarEnd l c s true o
  | void : l.srv = ⟨none, none⟩ → s.stage = .exited → s.read = [] → s.written = [] →
      c.stage ≠ .opening → FarEnd l c s false false

namespace Link

structure Pair (l : Link) (c s : Channel) (se o g : Bool) : Prop where
  ctl_chan : l.ctl.chan = some c
  side : FarEnd l c s se o
  ok_ctl : c.Ok
  ok_srv : s.Ok
  same : s.id = c.id ∧ s.serial = c.serial
  ctl_stage : c.stage ≠ .connecting ∧ c.stage ≠ .granted
  srv_stage : s.stage ≠ .opening
  dataQ : ∀ f ∈ l.dataQ, Frame.isUpdate f = false
  controlQ : ∀ f ∈ l.controlQ, Frame.isUpdate f = true
  up_ends : ∀ f ∈ l.c2s ++ l.dataQ, ∀ id ok m w, f ≠ .opened id ok m w
  up : Direction c s l.ctl.entry.isSome se (openOf c o) (ordered (l.c2s ++ l.dataQ))
    (updates l.s2c + grantDue s g)
  down : Direction s c se l.ctl.entry.isSome (openedOf s g) (ordered l.s2c)
    (updates (l.c2s ++ l.controlQ))
  fresh : s.stage = .connecting ∨ s.stage = .granted ∨ g = true →
    ∀ x, l.ctl.entry = some x → x.opened = false

/-- Nothing was ever sent under this id. -/
def Unused (l : Link) : Prop :=
  l.ctl = ⟨none, none⟩ ∧ l.srv = ⟨none, none⟩ ∧
    l.dataQ = [] ∧ l.controlQ = [] ∧ l.c2s = [] ∧ l.s2c = []

def Inv (l : Link) : Prop := l.Unused ∨ ∃ c s se o g, Pair l c s se o g

section Steps

variable {l : Link} {c s : Channel} {se o g : Bool}

/-! ### The controller opens -/

theorem opening_account (id : ChannelId) (serial : Nat) (host : String) (port : Int)
    (prebuf : Bytes) :
    (opening id serial host port prebuf).held = initialWindow ∧
      (opening id serial host port prebuf).window = ⟨channelWindow, 0⟩ := by
  have h1 : SendCredit.new initialWindow = initialWindow := by decide
  have h2 : RecvWindow.new channelWindow = ⟨channelWindow, 0⟩ := by decide
  simp [opening, Channel.held, Channel.taken, Channel.outgoingCharge, h1, h2]

theorem connecting_account (id : ChannelId) (serial : Nat) (host : String) (port : Int) :
    (connecting id serial host port channelWindow).held = channelWindow ∧
      (connecting id serial host port channelWindow).window = ⟨initialWindow, 0⟩ := by
  have h1 : SendCredit.new (effectiveWindow channelWindow) = channelWindow := by decide
  have h2 : RecvWindow.new initialWindow = ⟨initialWindow, 0⟩ := by decide
  simp [connecting, Channel.held, Channel.taken, Channel.outgoingCharge, h1, h2]

theorem direction_up (id : ChannelId) (serial : Nat) (host : String) (port : Int) (prebuf : Bytes) :
    Direction (.opening id serial host port prebuf) (.connecting id serial host port channelWindow)
      true true [] [] 0 := by
  obtain ⟨hheld, -⟩ := opening_account id serial host port prebuf
  obtain ⟨-, hwin⟩ := connecting_account id serial host port
  have hq : (connecting id serial host port channelWindow).queued = 0 := by
    simp [connecting, Channel.queued]
  have hg : (connecting id serial host port channelWindow).granted = initialWindow := rfl
  have ha : (connecting id serial host port channelWindow).advertised = 0 := rfl
  have ht : 0 < updateThreshold := by decide
  refine ⟨⟨?_, ?_, ?_, ⟨[], false, rfl, by simp⟩, by simp [connecting]⟩,
    ⟨⟨[], [], rfl, by simp, Or.inl rfl⟩, fun _ => rfl⟩, ?_, ?_, ?_, ?_, ?_, ?_, ?_, ?_⟩
  · simp [hwin, hq, hg]
  · simp [hwin, hq, hg]
  · simpa [hwin] using ht
  · simp [hheld, hwin, ha]
  · simp [hheld, hwin, ha]
  all_goals simp [opening, connecting, Channel.backlog, Channel.outgoing]

theorem direction_down (id : ChannelId) (serial : Nat) (host : String) (port : Int)
    (prebuf : Bytes) :
    Direction (.connecting id serial host port channelWindow) (.opening id serial host port prebuf)
      true true [] [] 0 := by
  obtain ⟨-, hwin⟩ := opening_account id serial host port prebuf
  obtain ⟨hheld, -⟩ := connecting_account id serial host port
  have hq : (opening id serial host port prebuf).queued = 0 := by simp [opening, Channel.queued]
  have hg : (opening id serial host port prebuf).granted = channelWindow := rfl
  have ha : (opening id serial host port prebuf).advertised = 0 := rfl
  have ht : 0 < updateThreshold := by decide
  refine ⟨⟨?_, ?_, ?_, ⟨[], false, rfl, by simp⟩, by simp [opening]⟩,
    ⟨⟨[], [], rfl, by simp, Or.inl rfl⟩, fun _ => rfl⟩, ?_, ?_, ?_, ?_, ?_, ?_, ?_, ?_⟩
  · simp [hwin, hq, hg]
  · simp [hwin, hq, hg]
  · simpa [hwin] using ht
  · simp [hheld, hwin, ha]
  · simp [hheld, hwin, ha]
  all_goals simp [opening, connecting, Channel.backlog, Channel.outgoing]

theorem Unused.open (h : l.Unused) (id : ChannelId) (serial : Nat) (host : String) (port : Int)
    (prebuf : Bytes) :
    Pair { l with ctl := ⟨some ⟨false⟩, some (.opening id serial host port prebuf)⟩ }
      (.opening id serial host port prebuf) (.connecting id serial host port channelWindow)
      true false false := by
  obtain ⟨-, hsrv, hdq, hcq, hc2s, hs2c⟩ := h
  have hgd : updates l.s2c + grantDue (.connecting id serial host port channelWindow) false = 0 := by
    simp [hs2c, grantDue, connecting]
  refine ⟨rfl, .waiting hsrv rfl fun _ => rfl, ?_, ?_, ⟨rfl, rfl⟩, by simp [opening],
    by simp [connecting], by simp [hdq], by simp [hcq], by simp [hc2s, hdq], ?_, ?_, by simp⟩
  · constructor <;> simp [opening]
  · constructor <;> simp [connecting]
  · simp only [hgd, hc2s, hdq, openOf]
    exact direction_up id serial host port prebuf
  · simp only [hc2s, hs2c, hcq, openedOf]
    exact direction_down id serial host port prebuf

/-! ### The tasks -/

variable {gone : Bool} {c' s' : Channel} {e : TaskEvent} {em : Emit}

/-- The queues after a step of the controller. -/
theorem ctl_queues (l : Link) (hd : Did gone l.ctl.entry.isSome c e c' em) :
    ordered (l.c2s ++ (l.dataQ ++ em.ordered)) = ordered (l.c2s ++ l.dataQ) ++ em.ordered ∧
      updates (l.c2s ++ (l.controlQ ++ em.control)) =
        updates (l.c2s ++ l.controlQ) + updates em.control := by
  refine ⟨?_, by simp; omega⟩
  rw [← List.append_assoc, ordered_append (l.c2s ++ l.dataQ),
    ordered_eq_self fun f hf => hd.ordered_not_update hf]

/-- The frames the controller's task sends are of its own kind. -/
theorem ctl_not_opened (hst : c.stage ≠ .connecting ∧ c.stage ≠ .granted)
    (hd : Did gone entry c e c' em) : ∀ f ∈ em.ordered, ∀ id ok m w, f ≠ .opened id ok m w := by
  rcases hd.ordered with h | ⟨bs, h, -⟩ | ⟨h, -⟩ | ⟨hc, -⟩ | ⟨-, -, h⟩ | ⟨hg, -⟩
  · simp [h]
  · simp [h]
  · simp [h]
  · exact absurd hc hst.1
  · simp [h]
  · exact absurd hg hst.2

theorem Did.grantOf_eq_zero (hd : Did gone entry c e c' em) (hst : c.stage ≠ .connecting) :
    grantOf e = 0 := by
  cases hd with
  | connected hs => exact absurd hs hst
  | _ => rfl

theorem Pair.ctlTask_down (h : Pair l c s se o g) (hd : Did gone l.ctl.entry.isSome c e c' em) :
    Direction s c' se l.ctl.entry.isSome (openedOf s g) (ordered l.s2c)
      (updates (l.c2s ++ (l.controlQ ++ em.control))) := by
  have hg := Did.grantOf_eq_zero hd h.ctl_stage.1
  have hu := (ctl_queues l hd).2
  exact h.down.receives h.ok_ctl hd (by omega) fun _ => by omega

/-- The controller's task once it runs. -/
theorem Pair.ctlTask_up (h : Pair l c s se o g) (hd : Did gone l.ctl.entry.isSome c e c' em)
    (hne : c.stage ≠ .opening) :
    Direction c' s l.ctl.entry.isSome se (openOf c' o) (ordered (l.c2s ++ (l.dataQ ++ em.ordered)))
      (updates l.s2c + grantDue s g) := by
  obtain ⟨hid, hser, hhost, hport⟩ := hd.id_eq
  have hop : openOf c' o = openOf c o := by simp [openOf, hid, hser, hhost, hport]
  rw [(ctl_queues l hd).1, hop]
  refine h.up.sends h.ok_ctl hd (h.up.wire.send hd ?_) (dataCharge_append ..) (dataBytes_append ..)
  intro f hf
  rcases hd.ordered with hem | ⟨bs, hem, -⟩ | ⟨hem, -⟩ | ⟨hc, -⟩ | ⟨ho, -⟩ | ⟨hg, -⟩
  · simp [hem] at hf
  · simp_all [Frame.isData]
  · simp_all [Frame.ends]
  · exact absurd hc h.ctl_stage.1
  · exact absurd ho hne
  · exact absurd hg h.ctl_stage.2

/-- The step that sends `open`. -/
theorem Pair.sendOpen_up (h : Pair l c s se false g) (hd : Did gone l.ctl.entry.isSome c e c' em)
    (hop : c.stage = .opening) (hrun : c'.stage = .running)
    (hem : em.ordered = [.open c.id c.host c.port channelWindow c.serial]) :
    Direction c' s l.ctl.entry.isSome se (openOf c' true)
      (ordered (l.c2s ++ (l.dataQ ++ em.ordered))) (updates l.s2c + grantDue s g) := by
  obtain ⟨hid, hser, hhost, hport⟩ := hd.id_eq
  have hopen : openOf c' true = em.ordered := by simp [openOf, hid, hser, hhost, hport, hem]
  rw [(ctl_queues l hd).1, hopen]
  refine h.up.sends h.ok_ctl hd ?_ (dataCharge_append ..) (dataBytes_append ..)
  rw [hem]
  exact Wire.start h.up.wire (Or.inl hop) hrun _

/-- The controller's entry may go at any moment, with the end of its task or before. -/
theorem Pair.drop_ctl (h : Pair l c s se o g) :
    Pair { l with ctl := { l.ctl with entry := none } } c s se o g := by
  refine ⟨h.ctl_chan, ?_, h.ok_ctl, h.ok_srv, h.same, h.ctl_stage, h.srv_stage, h.dataQ, h.controlQ,
    h.up_ends, h.up.drop_sender, h.down.drop_receiver, by simp⟩
  cases h.side with
  | born h1 h2 => exact .born h1 h2
  | waiting h1 h2 h3 => exact .waiting h1 h2 h3
  | void h1 h2 h3 h4 h5 => exact .void h1 h2 h3 h4 h5

/-- A controller's task never takes the controlled side's stages. -/
theorem ctl_stage_step (hst : c.stage ≠ .connecting ∧ c.stage ≠ .granted)
    (hd : Did gone entry c e c' em) : c'.stage ≠ .connecting ∧ c'.stage ≠ .granted := by
  cases hd with
  | join hs h1 h2 =>
    rename_i first second
    cases sendsClose first second <;> simp
  | _ => simp_all

/-- A controlled end that will never be: the channel standing in for it ends at once. -/
theorem Direction.void_receiver {p : Channel} {pe re : Bool} {op ws : List Frame} {b b' : Nat}
    (h : Direction p s pe re op ws b) (hs : s.Ok) (hst : s.stage = .connecting)
    (hin : s.inbound = []) (hb : b' ≤ b) :
    Direction p { s with stage := .exited } pe false op ws b' := by
  have hd : Did false false s .connectRecv { s with stage := .exited } .nothing :=
    .connectGone hst hin rfl
  refine h.drop_receiver.receives hs hd ?_ (by simp [Channel.receiving])
  simpa [Emit.nothing, grantOf] using hb

theorem Direction.void_sender {r : Channel} {pe re : Bool} {op ws : List Frame} {b : Nat}
    (h : Direction s r pe re op ws b) (hs : s.Ok) (hst : s.stage = .connecting)
    (hin : s.inbound = []) : Direction { s with stage := .exited } r false re op ws b := by
  have hd : Did false false s .connectRecv { s with stage := .exited } .nothing :=
    .connectGone hst hin rfl
  refine h.drop_sender.sends hs hd ?_ (by simp [Emit.nothing]) (by simp [Emit.nothing])
  have hw := h.wire.send hd (by simp [Emit.nothing])
  rwa [Emit.nothing, List.append_nil] at hw

theorem Pair.ctlTask (h : Pair l c s se o g) (hd : Did gone l.ctl.entry.isSome c e c' em) :
    Inv { l with
      ctl := ⟨if e = .leave then none else l.ctl.entry, some c'⟩
      dataQ := l.dataQ ++ em.ordered
      controlQ := l.controlQ ++ em.control } := by
  obtain ⟨hid, hser, hhost, hport⟩ := hd.id_eq
  have hdq : ∀ f ∈ l.dataQ ++ em.ordered, Frame.isUpdate f = false := by
    intro f hf
    rcases List.mem_append.1 hf with hf | hf
    · exact h.dataQ f hf
    · exact hd.ordered_not_update hf
  have hcq : ∀ f ∈ l.controlQ ++ em.control, Frame.isUpdate f = true := by
    intro f hf
    rcases List.mem_append.1 hf with hf | hf
    · exact h.controlQ f hf
    · rcases hd.control with hc | ⟨n, hc⟩ <;> simp_all [Frame.isUpdate]
  have hends : ∀ f ∈ l.c2s ++ (l.dataQ ++ em.ordered), ∀ id ok m w, f ≠ .opened id ok m w := by
    intro f hf
    rw [← List.append_assoc] at hf
    rcases List.mem_append.1 hf with hf | hf
    · exact h.up_ends f hf
    · exact ctl_not_opened h.ctl_stage hd f hf
  have hsame : s.id = c'.id ∧ s.serial = c'.serial := by
    rw [hid, hser]
    exact h.same
  -- the pair before a `leave` takes the entry
  let l' : Link := { l with
    ctl := ⟨l.ctl.entry, some c'⟩
    dataQ := l.dataQ ++ em.ordered
    controlQ := l.controlQ ++ em.control }
  have build : ∀ {o'}, FarEnd l' c' s se o' →
      Direction c' s l.ctl.entry.isSome se (openOf c' o')
        (ordered (l.c2s ++ (l.dataQ ++ em.ordered))) (updates l.s2c + grantDue s g) →
      Pair l' c' s se o' g := fun hside hup =>
    ⟨rfl, hside, hd.ok h.ok_ctl, h.ok_srv, hsame, ctl_stage_step h.ctl_stage hd, h.srv_stage,
      hdq, hcq, hends, hup, h.ctlTask_down hd, h.fresh⟩
  have leave : (∃ s' se' o' g', Pair l' c' s' se' o' g') → Inv { l with
      ctl := ⟨if e = .leave then none else l.ctl.entry, some c'⟩
      dataQ := l.dataQ ++ em.ordered
      controlQ := l.controlQ ++ em.control } := by
    rintro ⟨s', se', o', g', hp⟩
    by_cases he : e = .leave
    · rw [if_pos he]
      exact Or.inr ⟨c', s', se', o', g', hp.drop_ctl⟩
    · rw [if_neg he]
      exact Or.inr ⟨c', s', se', o', g', hp⟩
  apply leave
  by_cases hop : c.stage = .opening
  · have hw : o = false := by
      cases o with
      | false => rfl
      | true =>
        have := h.up.wire.started
        rw [h.up.wire.early (Or.inl hop)] at this
        simp at this
    subst hw
    have hside : l.srv = ⟨none, none⟩ ∧
        s = .connecting c.id c.serial c.host c.port channelWindow ∧ se = true := by
      cases h.side with
      | born h1 h2 => exact absurd hop h2
      | waiting h1 h2 h3 => exact ⟨h1, h2, rfl⟩
      | void h1 h2 h3 h4 h5 => exact absurd hop h5
    obtain ⟨hsrv, hs, rfl⟩ := hside
    have hs' : s = .connecting c'.id c'.serial c'.host c'.port channelWindow := by
      rw [hs, hid, hser, hhost, hport]
    rcases hd.of_opening hop with ⟨-, hc', hem⟩ | ⟨-, hc', hem⟩
    · have hrun : c'.stage = .running := by rw [hc']
      have hord : em.ordered = [.open c.id c.host c.port channelWindow c.serial] := by rw [hem]; rfl
      exact ⟨s, true, true, g, build (.waiting hsrv hs' (by simp)) (h.sendOpen_up hd hop hrun hord)⟩
    · have hst : s.stage = .connecting := by rw [hs]; rfl
      have hin : s.inbound = [] := by rw [hs]; rfl
      have hread : s.read = [] := by rw [hs]; rfl
      have hwr : s.written = [] := by rw [hs]; rfl
      have hnil : em.ordered = [] := by rw [hem]; rfl
      have hup : Direction c' s l.ctl.entry.isSome true (openOf c' false)
          (ordered (l.c2s ++ (l.dataQ ++ em.ordered))) (updates l.s2c + grantDue s g) := by
        rw [(ctl_queues l hd).1]
        exact h.up.sends h.ok_ctl hd (h.up.wire.send hd (by simp [hnil])) (dataCharge_append ..)
          (dataBytes_append ..)
      have hgd : grantDue { s with stage := .exited } g ≤ grantDue s g := by simp [grantDue]
      refine ⟨{ s with stage := .exited }, false, false, g, rfl,
        .void hsrv rfl hread hwr (by rw [hc']; simp), hd.ok h.ok_ctl, ?_, hsame,
        ctl_stage_step h.ctl_stage hd, by simp, hdq, hcq, hends,
        Direction.void_receiver hup h.ok_srv hst hin (Nat.add_le_add_left hgd _),
        Direction.void_sender (h.ctlTask_down hd) h.ok_srv hst hin, ?_⟩
      · have hv : Did false false s .connectRecv { s with stage := .exited } .nothing :=
          .connectGone hst hin rfl
        exact hv.ok h.ok_srv
      · rintro (h1 | h1 | h1)
        · cases h1
        · cases h1
        · exact h.fresh (Or.inr (Or.inr h1))
  · have hop' : c'.stage ≠ .opening := by
      intro hs
      obtain ⟨hst, -⟩ := hd.late (Or.inl hs)
      have := h.ctl_stage
      simp_all
    refine ⟨s, se, o, g, build ?_ (h.ctlTask_up hd hop)⟩
    generalize hl' : l' = k
    have hk : k.srv = l.srv := by rw [← hl']
    cases h.side with
    | born h1 h2 =>
      rw [← hk]
      exact .born (by rw [hk]; exact h1) hop'
    | waiting h1 h2 h3 =>
      refine .waiting (by rw [hk]; exact h1) ?_ fun ho => absurd (h3 ho) hop
      rw [h2, hid, hser, hhost, hport]
    | void h1 h2 h3 h4 h5 => exact .void (by rw [hk]; exact h1) h2 h3 h4 hop'

/-- What a step of the controlled side does to the grant it has made. -/
theorem grantDue_step (hd : Did gone entry s e s' em) (g : Bool) :
    grantDue s' g ≤ grantDue s g + grantOf e ∧
      (e ≠ .sendOpened → s'.receiving = true → grantDue s' g = grantDue s g + grantOf e) := by
  cases hd with
  | connected hs =>
    have hne : ¬ Stage.connecting = Stage.granted := by decide
    simp only [grantDue, hs, grantOf, hne, if_true, if_false]
    omega
  | sendOpened hs =>
    simp only [grantDue, hs, ne_eq, not_true_eq_false, false_implies, and_true]
    simp
    omega
  | join hs h1 h2 =>
    rename_i first second
    cases sendsClose first second <;> simp [grantDue, hs, grantOf]
  | _ => simp_all [grantDue, grantOf, Channel.receiving]

theorem srv_stage_step (hst : s.stage ≠ .opening) (hd : Did gone entry s e s' em) :
    s'.stage ≠ .opening := by
  cases hd with
  | join hs h1 h2 =>
    rename_i first second
    cases sendsClose first second <;> simp
  | _ => simp_all

/-- An end that is still connecting, or about to report it, was so before the step. -/
theorem srv_early (hst : s.stage ≠ .opening) (hd : Did gone entry s e s' em)
    (hs : s'.stage = .connecting ∨ s'.stage = .granted) :
    s.stage = .connecting ∨ s.stage = .granted := by
  obtain ⟨hopening | hconnecting | hgranted, -⟩ := hd.late (Or.inr hs)
  · exact absurd hopening hst
  · exact Or.inl hconnecting
  · exact Or.inr hgranted

/-- The stream after a step of the controlled side. -/
theorem srv_queue (l : Link) (hd : Did gone entry s e s' em) :
    ordered (l.s2c ++ em.ordered ++ em.control) = ordered l.s2c ++ em.ordered ∧
      updates (l.s2c ++ em.ordered ++ em.control) = updates l.s2c + updates em.control := by
  have hord := fun f (hf : f ∈ em.ordered) => hd.ordered_not_update hf
  have hctl : ordered em.control = [] := by
    rcases hd.control with h | ⟨n, h⟩ <;> simp [h, ordered, Frame.isUpdate]
  constructor
  · rw [ordered_append, ordered_append, hctl, ordered_eq_self hord, List.append_nil]
  · rw [updates_append, updates_append, updates_eq_zero hord, Nat.add_zero]

theorem Pair.opened_pending (h : Pair l c s se o true) :
    s.stage ≠ .connecting ∧ s.stage ≠ .granted := by
  have hne : ordered l.s2c ≠ [] := by
    obtain ⟨ws, hws, -⟩ := h.down.wire.started
    simp [hws]
  exact ⟨fun hs => hne (h.down.wire.early (Or.inr (Or.inl hs))),
    fun hs => hne (h.down.wire.early (Or.inr (Or.inr hs)))⟩

theorem Pair.srvTask (h : Pair l c s se o g) {s₀ : Channel} (hchan : l.srv.chan = some s₀)
    (hd : Did gone l.srv.entry.isSome s₀ e s' em) :
    Inv { l with
      srv := ⟨l.srv.entry, some s'⟩
      s2c := l.s2c ++ em.ordered ++ em.control } := by
  obtain ⟨rfl, rfl, rfl, hcop⟩ : s₀ = s ∧ se = l.srv.entry.isSome ∧ o = false ∧
      c.stage ≠ .opening := by
    cases h.side with
    | born h1 h2 =>
      rw [hchan] at h1
      exact ⟨Option.some.inj h1, rfl, rfl, h2⟩
    | waiting h1 h2 h3 => simp [h1] at hchan
    | void h1 h2 h3 h4 h5 => simp [h1] at hchan
  obtain ⟨hid, hser, -, -⟩ := hd.id_eq
  have hsame : s'.id = c.id ∧ s'.serial = c.serial := by
    rw [hid, hser]
    exact h.same
  obtain ⟨hqo, hqu⟩ := srv_queue l hd
  have build : ∀ g', Direction c s' l.ctl.entry.isSome l.srv.entry.isSome (openOf c false)
      (ordered (l.c2s ++ l.dataQ))
      (updates (l.s2c ++ em.ordered ++ em.control) + grantDue s' g') →
      Wire s' (openedOf s' g') (ordered l.s2c ++ em.ordered) →
      (g' = true → g = true ∨ s₀.stage = .granted) →
      Inv { l with
        srv := ⟨l.srv.entry, some s'⟩
        s2c := l.s2c ++ em.ordered ++ em.control } := by
    intro g' hup hw hg'
    refine Or.inr ⟨c, s', l.srv.entry.isSome, false, g', h.ctl_chan, .born rfl hcop, h.ok_ctl,
      hd.ok h.ok_srv, hsame, h.ctl_stage, srv_stage_step h.srv_stage hd, h.dataQ, h.controlQ,
      h.up_ends, hup, ?_, ?_⟩
    · simp only [hqo]
      exact h.down.sends h.ok_srv hd hw (dataCharge_append ..) (dataBytes_append ..)
    · intro hs'
      apply h.fresh
      rcases hs' with hconnecting | hgranted | hmoved
      · exact (srv_early h.srv_stage hd (Or.inl hconnecting)).imp_right Or.inl
      · exact (srv_early h.srv_stage hd (Or.inr hgranted)).imp_right Or.inl
      · exact (hg' hmoved).elim (fun hg => Or.inr (Or.inr hg)) fun hst => Or.inr (Or.inl hst)
  by_cases hopened : s₀.stage = .granted ∧ e = .sendOpened
  · -- the grant moves from the task to the frame that carries it
    obtain ⟨hgr, rfl⟩ := hopened
    have hg : g = false := by
      cases g with
      | false => rfl
      | true => exact absurd hgr h.opened_pending.2
    subst hg
    have hcase : s' = { s₀ with stage := .running } ∧
        em = .onOrdered (.opened s₀.id true "" channelWindow) := by
      cases hd
      exact ⟨rfl, rfl⟩
    obtain ⟨rfl, rfl⟩ := hcase
    refine build true ?_ (Wire.start h.down.wire (Or.inr (Or.inr hgr)) rfl _) (by simp [hgr])
    rw [hqu]
    refine h.up.receives h.ok_srv hd ?_ ?_ <;> simp [grantDue, hgr, grantOf, Emit.onOrdered]
  · have hne : e ≠ .sendOpened := by
      rintro rfl
      cases hd
      exact hopened ⟨by assumption, rfl⟩
    obtain ⟨hgle, hgeq⟩ := grantDue_step hd g
    refine build g ?_ ?_ (fun hg => Or.inl hg)
    · rw [hqu]
      refine h.up.receives h.ok_srv hd (by omega) fun hr => ?_
      have := hgeq hne hr
      omega
    · have hop : openedOf s' g = openedOf s₀ g := by simp [openedOf, hid]
      rw [hop]
      refine h.down.wire.send hd fun f hf => ?_
      rcases hd.ordered with hem | ⟨bs, hem, -⟩ | ⟨hem, -⟩ | ⟨-, -, m, hem⟩ | ⟨ho, -⟩ | ⟨hgr, -, hem⟩
      · simp [hem] at hf
      · simp_all [Frame.isData]
      · simp_all [Frame.ends]
      · simp_all [Frame.ends]
      · exact absurd ho h.srv_stage
      · cases hd <;> simp_all [Emit.nothing]

/-! ### The queues -/

theorem FarEnd.congr {l' : Link} (h : FarEnd l c s se o) (hsrv : l'.srv = l.srv) : FarEnd l' c s se o := by
  cases h with
  | born h1 h2 =>
    rw [← hsrv] at h1 ⊢
    exact .born h1 h2
  | waiting h1 h2 h3 => exact .waiting (hsrv.trans h1) h2 h3
  | void h1 h2 h3 h4 h5 => exact .void (hsrv.trans h1) h2 h3 h4 h5

/-- Only the order of the ordered frames and the sum of the updates matter. -/
theorem Pair.requeue (h : Pair l c s se o g) {dq cq fs : List Frame}
    (hdq : ∀ f ∈ dq, Frame.isUpdate f = false) (hcq : ∀ f ∈ cq, Frame.isUpdate f = true)
    (hsub : ∀ f ∈ fs ++ dq, f ∈ l.c2s ++ l.dataQ ∨ Frame.isUpdate f = true)
    (hord : ordered (fs ++ dq) = ordered (l.c2s ++ l.dataQ))
    (hupd : updates (fs ++ cq) = updates (l.c2s ++ l.controlQ)) :
    Pair { l with dataQ := dq, controlQ := cq, c2s := fs } c s se o g := by
  refine ⟨h.ctl_chan, FarEnd.congr h.side rfl, h.ok_ctl, h.ok_srv, h.same, h.ctl_stage, h.srv_stage,
    hdq, hcq, ?_, ?_, ?_, h.fresh⟩
  · intro f hf
    rcases hsub f hf with hf | hf
    · exact h.up_ends f hf
    · rintro id ok m w rfl
      cases hf
  · simp only [hord]
    exact h.up
  · simp only [hupd]
    exact h.down

theorem Pair.pumpData (h : Pair l c s se o g) {f : Frame} {q : List Frame}
    (hq : l.dataQ = f :: q) : Pair { l with dataQ := q, c2s := l.c2s ++ [f] } c s se o g := by
  have hf : f.isUpdate = false := h.dataQ f (by simp [hq])
  have hu : f.update = 0 := by cases f <;> simp_all [Frame.isUpdate, Frame.update]
  refine h.requeue (fun x hx => h.dataQ x (by simp [hq, hx])) h.controlQ ?_ (by simp [hq]) (by simp [hu])
  intro x hx
  refine Or.inl ?_
  rw [hq]
  simpa using hx

theorem Pair.pumpControl (h : Pair l c s se o g) {f : Frame} {q : List Frame}
    (hq : l.controlQ = f :: q) : Pair { l with controlQ := q, c2s := l.c2s ++ [f] } c s se o g := by
  have hf : f.isUpdate = true := h.controlQ f (by simp [hq])
  refine h.requeue h.dataQ (fun x hx => h.controlQ x (by simp [hq, hx])) ?_ ?_ (by simp [hq])
  · intro x hx
    simp only [List.append_assoc, List.mem_append, List.mem_singleton] at hx ⊢
    rcases hx with hx | rfl | hx
    · exact Or.inl (Or.inl hx)
    · exact Or.inr hf
    · exact Or.inl (Or.inr hx)
  · rw [ordered_append, ordered_append, ordered_append, ordered_cons_update [] hf]
    simp

end Steps

end Link

end FontisRemote.PortForward
