import FontisRemote.Services.CursorCaches

/-!
# The cursor a viewer was told to show

A subscriber was last given the message that the service shows, or nothing where it came in the middle of a
snapshot (`Fed`). Every shape that is about was captured in the run (`Sourced`). Where the platform gives each
handle one shape, the message shown has the shape of what was reported last (`Named`).
-/

namespace FontisRemote.Services.Cursor

open FontisRemote.Lib

namespace CursorService

variable {b : Build} {c c' : CursorService}

/-! ## What a subscriber was given -/

/-- The message shown last, and before it empty ones only where that one is empty; or nothing. -/
def Fed (shown : Arc) (sub : Subscriber Arc) : Prop :=
  sub.inbox = [] ∧ sub.late = true ∨
    ∃ before, sub.inbox = before ++ [shown] ∧ (shown.msg = .empty → ∀ a ∈ before, a.msg = .empty)

structure Feeding (c : CursorService) : Prop where
  ok : c.sp.Ok
  need : c.sp.needSnapshot = true
  swapped : c.pc = .swapping → c.sp.swap = some [c.state.cursorData]
  begun : c.pc = .snapshotting → c.sp.swap = some []
  left : c.pc = .resetting → c.sp.subscribes = []
  subs : ∀ id sub, Assoc.get c.sp.subscribes id = some sub → Fed c.state.cursorData sub
  news : c.pc ≠ .swapping → ∀ id sub, Assoc.get c.sp.newSubscribes id = some sub → sub.inbox = []
  greeted : c.pc = .swapping → ∀ id sub, Assoc.get c.sp.newSubscribes id = some sub → Fed c.state.cursorData sub

theorem feeding_new : new.Feeding :=
  ⟨.new true, rfl, fun h => (by cases h), fun h => (by cases h), fun _ => rfl, fun _ _ h => (by cases h),
    fun _ _ _ h => (by cases h), fun h => (by cases h)⟩

theorem Feeding.onSubscribe (h : c.Feeding) (id : ConnId) : ({ c with sp := c.sp.onSubscribe id }).Feeding := by
  have hok : (c.sp.onSubscribe id).Ok := h.ok.onSubscribe id
  have heq : c.sp.onSubscribe id = if c.sp.inSubscribes id then c.sp
      else { c.sp with newSubscribes := Assoc.put c.sp.newSubscribes id (some (c.sp.subscriber id)) } := by
    rw [ServiceTmpl.onSubscribe, if_pos h.need]
  rw [heq] at hok ⊢
  split_ifs at hok ⊢ with hin
  · exact h
  refine ⟨hok, h.need, h.swapped, h.begun, h.left, h.subs, fun hpc j sub hsub => ?_, fun hpc j sub hsub => ?_⟩
  · rw [Assoc.get_put] at hsub
    split_ifs at hsub
    · cases hsub
      rfl
    · exact h.news hpc j sub hsub
  · rw [Assoc.get_put] at hsub
    split_ifs at hsub
    · cases hsub
      -- the callback has sent its message already
      refine .inl ⟨rfl, ?_⟩
      rw [ServiceTmpl.subscriber, h.swapped hpc]
      rfl
    · exact h.greeted hpc j sub hsub

theorem Feeding.onUnsubscribe (h : c.Feeding) (id : ConnId) : ({ c with sp := c.sp.onUnsubscribe id }).Feeding := by
  have hok : (c.sp.onUnsubscribe id).Ok := h.ok.onUnsubscribe id
  unfold ServiceTmpl.onUnsubscribe at hok ⊢
  split_ifs at hok ⊢
  · refine ⟨hok, h.need, h.swapped, h.begun, fun hpc => ?_, fun j sub hsub => ?_, h.news, h.greeted⟩
    · show Assoc.erase c.sp.subscribes id = []
      rw [h.left hpc]
      rfl
    · rw [Assoc.get_erase] at hsub
      split_ifs at hsub
      exact h.subs j sub hsub
  · refine ⟨hok, h.need, h.swapped, h.begun, h.left, h.subs, fun hpc j sub hsub => ?_, fun hpc j sub hsub => ?_⟩
    · rw [Assoc.get_erase] at hsub
      split_ifs at hsub
      exact h.news hpc j sub hsub
    · rw [Assoc.get_erase] at hsub
      split_ifs at hsub
      exact h.greeted hpc j sub hsub

/-- A step that leaves the subscribers and the message shown. -/
theorem Feeding.frame (h : c.Feeding) (hsp : c'.sp = c.sp) (hshown : c'.state.cursorData = c.state.cursorData)
    (hpc : c.pc ≠ .swapping) (hswapping : c'.pc ≠ .swapping) (hsnap : c'.pc ≠ .snapshotting)
    (hleft : c'.pc = .resetting → c.sp.subscribes = []) : c'.Feeding := by
  refine ⟨?_, ?_, fun hp => absurd hp hswapping, fun hp => absurd hp hsnap, fun hp => ?_, ?_, fun _ => ?_,
    fun hp => absurd hp hswapping⟩
  all_goals rw [hsp]
  · exact h.ok
  · exact h.need
  · exact hleft hp
  · rw [hshown]
    exact h.subs
  · exact h.news hpc

theorem Got.frame {cursor : Except Unit (Option UInt64)} {data : Except Unit CursorData}
    (h : Got b c cursor data c') :
    c'.sp = c.sp ∧ c'.state.cursorData = c.state.cursorData ∧
      (c'.pc = .idle ∨ c'.pc = .snapshot ∨ ∃ msg, c'.pc = .sending msg) := by
  have hshown : ∀ (d : CursorService) (k : UInt64) (msg : Arc),
      (d.shown k msg).pc = .snapshot ∨ ∃ m, (d.shown k msg).pc = .sending m := by
    intro d k msg
    by_cases hptr : msg.ptrEq d.state.cursorData
    · exact .inl (if_pos hptr)
    · exact .inr ⟨msg, if_neg hptr⟩
  cases h with
  | failed _ => exact ⟨rfl, rfl, .inl rfl⟩
  | nothing _ | same _ => exact ⟨rfl, rfl, .inr (.inl rfl)⟩
  | hit k msg _ _ => exact ⟨rfl, rfl, .inr (hshown c k msg)⟩
  | captured k d _ _ _ => exact ⟨rfl, rfl, .inr (hshown _ _ _)⟩

theorem Feeding.getCursor (h : c.Feeding) (hpc : c.pc = .running) {cursor : Except Unit (Option UInt64)}
    {data : Except Unit CursorData} (hgot : Got b c cursor data c') : c'.Feeding := by
  obtain ⟨hsp, hshown, hplace⟩ := hgot.frame
  have hne : ∀ pc : Pc, pc ≠ .idle → pc ≠ .snapshot → (∀ msg, pc ≠ .sending msg) → c'.pc ≠ pc := by
    rintro pc hidle hsnap hsend rfl
    obtain hp | hp | ⟨msg, hp⟩ := hplace
    · exact hidle hp
    · exact hsnap hp
    · exact hsend msg hp
  refine h.frame hsp hshown ?_ ?_ ?_ fun hp => absurd hp ?_
  · rw [hpc]
    decide
  all_goals exact hne _ (by decide) (by decide) (fun _ hp => by cases hp)

theorem Feeding.thread (h : c.Feeding) (hc : c.Coherent) (hw : Went c c') : c'.Feeding := by
  cases hw with
  | polled mayReset pc hpc hplace hleft =>
    have hfree : ∀ p : Pc, p = .idle ∨ p = .running ∨ p = .resetting →
        p ≠ .swapping ∧ p ≠ .snapshotting := by
      rintro p (rfl | rfl | rfl) <;> decide
    refine h.frame rfl rfl ?_ (hfree pc hplace).1 (hfree pc hplace).2 hleft
    rw [hpc]
    decide
  | reset hpc =>
    have hnone : c.sp.subscribes = [] := h.left hpc
    refine ⟨h.ok, h.need, fun hp => (by cases hp), fun hp => (by cases hp), fun hp => (by cases hp),
      fun id sub hsub => ?_, fun _ => h.news ?_, fun hp => (by cases hp)⟩
    · change Assoc.get c.sp.subscribes id = some sub at hsub
      rw [hnone] at hsub
      cases hsub
    · rw [hpc]
      decide
  | sent msg hpc =>
    obtain ⟨cd, hcd, -⟩ := hc.sending msg hpc
    refine ⟨h.ok.thread (e := .send msg) rfl, h.need, fun hp => (by cases hp), fun hp => (by cases hp),
      fun hp => (by cases hp), fun id sub hsub => ?_, fun _ => h.news ?_, fun hp => (by cases hp)⟩
    · change Assoc.get (c.sp.sendWhere (fun _ _ => true) msg).subscribes id = some sub at hsub
      rw [ServiceTmpl.get_sendWhere] at hsub
      obtain ⟨old, -, rfl⟩ := Option.map_eq_some_iff.1 hsub
      refine .inr ⟨old.inbox, rfl, fun hempty => ?_⟩
      rw [hcd] at hempty
      cases hempty
    · intro hp
      rw [hpc] at hp
      cases hp
  | snapshot sp pc hpc hplace =>
    have hnews := h.news (by rw [hpc]; decide)
    rcases hplace with ⟨rfl, rfl⟩ | ⟨rfl, rfl⟩
    · exact ⟨h.ok, h.need, fun hp => (by cases hp), fun hp => (by cases hp), fun hp => (by cases hp), h.subs,
        fun _ => hnews, fun hp => (by cases hp)⟩
    · exact ⟨⟨h.ok.keyed, h.ok.direct, h.ok.apart⟩, h.need, fun hp => (by cases hp), fun _ => rfl,
        fun hp => (by cases hp), h.subs, fun _ => hnews, fun hp => (by cases hp)⟩
  | swapSend hpc =>
    have hnews := h.news (by rw [hpc]; decide)
    have hstep : c.sp.thread (.swapSend c.state.cursorData) = some (c.sp.swapSend [] c.state.cursorData) := by
      rw [ServiceTmpl.thread, h.begun hpc]
      rfl
    refine ⟨h.ok.thread hstep, h.need, fun _ => rfl, fun hp => (by cases hp), fun hp => (by cases hp), h.subs,
      fun hp => absurd rfl hp, fun _ id sub hsub => ?_⟩
    rw [ServiceTmpl.get_swapSend] at hsub
    obtain ⟨old, hold, rfl⟩ := Option.map_eq_some_iff.1 hsub
    refine .inr ⟨[], ?_, fun _ _ ha => by cases ha⟩
    rw [Subscriber.send_inbox, hnews id old hold]
  | swapDrop hpc =>
    have hstep : c.sp.thread (.swapDrop true) = some (c.sp.swapDrop [c.state.cursorData] true) := by
      rw [ServiceTmpl.thread, h.swapped hpc]
      rfl
    refine ⟨h.ok.thread hstep, h.need, fun hp => (by cases hp), fun hp => (by cases hp), fun hp => (by cases hp),
      fun id sub hsub => ?_, fun _ _ _ hsub => (by cases hsub), fun hp => (by cases hp)⟩
    rw [ServiceTmpl.get_swapDrop _ _ _ h.ok] at hsub
    rcases Option.or_eq_some_iff.1 hsub with hnew | ⟨-, hold⟩
    · exact h.greeted hpc id sub hnew
    · exact h.subs id sub hold

theorem Feeding.step {e : Event} (h : c.Feeding) (hc : c.Coherent) (hs : c.step b e = some c') : c'.Feeding := by
  cases e with
  | thread => exact h.thread hc (went_thread hs)
  | getCursor cursor data =>
    obtain ⟨hpc, heq⟩ := Option.ite_none_right_eq_some.1 hs
    cases heq
    exact h.getCursor hpc (got_getCursor cursor data)
  | onSubscribe id =>
    cases hs
    exact h.onSubscribe id
  | onUnsubscribe id =>
    cases hs
    exact h.onUnsubscribe id

/-! ## Where the shapes come from -/

/-- What one step can give a subscriber: nothing, or one message that is shown or kept. -/
def Given (c : CursorService) (old sub : Subscriber Arc) : Prop :=
  sub.inbox = old.inbox ∨ ∃ a, c.Live a ∧ sub.inbox = old.inbox ++ [a]

def Subscribed (c : CursorService) (sub : Subscriber Arc) : Prop :=
  ∃ id, Assoc.get c.sp.subscribes id = some sub ∨ Assoc.get c.sp.newSubscribes id = some sub

theorem subscribed_onSubscribe {id : ConnId} {sub : Subscriber Arc}
    (h : ({ c with sp := c.sp.onSubscribe id }).Subscribed sub) : sub.inbox = [] ∨ c.Subscribed sub := by
  obtain ⟨j, hj⟩ := h
  have hput : ∀ m : List (ConnId × Subscriber Arc),
      Assoc.get (Assoc.put m id (some (c.sp.subscriber id))) j = some sub →
        sub.inbox = [] ∨ Assoc.get m j = some sub := by
    intro m hm
    rw [Assoc.get_put] at hm
    split_ifs at hm
    · cases hm
      exact .inl rfl
    · exact .inr hm
  unfold ServiceTmpl.onSubscribe at hj
  split_ifs at hj
  · exact .inr ⟨j, hj⟩
  · rcases hj with hj | hj
    · exact .inr ⟨j, .inl hj⟩
    · exact (hput _ hj).imp_right fun hold => ⟨j, .inr hold⟩
  · rcases hj with hj | hj
    · exact (hput _ hj).imp_right fun hold => ⟨j, .inl hold⟩
    · exact .inr ⟨j, .inr hj⟩

theorem subscribed_onUnsubscribe {id : ConnId} {sub : Subscriber Arc}
    (h : ({ c with sp := c.sp.onUnsubscribe id }).Subscribed sub) : c.Subscribed sub := by
  obtain ⟨j, hj⟩ := h
  have herase : ∀ m : List (ConnId × Subscriber Arc), Assoc.get (Assoc.erase m id) j = some sub →
      Assoc.get m j = some sub := by
    intro m hm
    rw [Assoc.get_erase] at hm
    split_ifs at hm
    exact hm
  unfold ServiceTmpl.onUnsubscribe at hj
  split_ifs at hj
  · exact ⟨j, hj.imp_left (herase _)⟩
  · exact ⟨j, hj.imp_right (herase _)⟩

theorem subscribed_thread (h : c.Feeding) (hc : c.Coherent) (hw : Went c c') {sub : Subscriber Arc}
    (hsub : c'.Subscribed sub) : ∃ old, c.Subscribed old ∧ c.Given old sub := by
  obtain ⟨id, hsub⟩ := hsub
  cases hw with
  | polled _ _ _ _ _ | reset _ => exact ⟨sub, ⟨id, hsub⟩, .inl rfl⟩
  | sent msg hpc =>
    rcases hsub with hsub | hsub
    · change Assoc.get (c.sp.sendWhere (fun _ _ => true) msg).subscribes id = some sub at hsub
      rw [ServiceTmpl.get_sendWhere] at hsub
      obtain ⟨old, hold, rfl⟩ := Option.map_eq_some_iff.1 hsub
      exact ⟨old, ⟨id, .inl hold⟩, .inr ⟨msg, .inr (hc.sending msg hpc), rfl⟩⟩
    · exact ⟨sub, ⟨id, .inr hsub⟩, .inl rfl⟩
  | snapshot sp pc hpc hplace =>
    rcases hplace with ⟨rfl, -⟩ | ⟨rfl, -⟩ <;> exact ⟨sub, ⟨id, hsub⟩, .inl rfl⟩
  | swapSend _ =>
    rcases hsub with hsub | hsub
    · exact ⟨sub, ⟨id, .inl hsub⟩, .inl rfl⟩
    · rw [ServiceTmpl.get_swapSend] at hsub
      obtain ⟨old, hold, rfl⟩ := Option.map_eq_some_iff.1 hsub
      exact ⟨old, ⟨id, .inr hold⟩, .inr ⟨c.state.cursorData, .inl rfl, rfl⟩⟩
  | swapDrop _ =>
    rcases hsub with hsub | hsub
    · rw [ServiceTmpl.get_swapDrop _ _ _ h.ok] at hsub
      rcases Option.or_eq_some_iff.1 hsub with hnew | ⟨-, hold⟩
      · exact ⟨sub, ⟨id, .inr hnew⟩, .inl rfl⟩
      · exact ⟨sub, ⟨id, .inl hold⟩, .inl rfl⟩
    · cases hsub

abbrev History := List (CursorService × Event)

/-- The shape the platform has for the cursor it reports. -/
def Event.captured : Event → Option CursorShape
  | .getCursor (.ok (some _)) (.ok data) => some data.toCursorShape
  | _ => none

/-- A shape of this run, as it is sent. -/
def Known (b : Build) (h : History) (cd : CursorData) : Prop :=
  ∃ p ∈ h, ∃ shape, p.2.captured = some shape ∧ cd = shape.named b

def Drawn (b : Build) (h : History) (msg : Message) : Prop :=
  msg = .empty ∨ ∃ cd, msg = .cursorData cd ∧ Known b h cd

structure Sourced (b : Build) (h : History) (c : CursorService) : Prop where
  live : ∀ a, c.Live a → Drawn b h a.msg
  inbox : ∀ sub, c.Subscribed sub → ∀ a ∈ sub.inbox, Drawn b h a.msg

variable {h : History}

theorem Drawn.later {msg : Message} (hd : Drawn b h msg) (p : CursorService × Event) : Drawn b (p :: h) msg := by
  rcases hd with hd | ⟨cd, hcd, q, hq, hknown⟩
  · exact .inl hd
  · exact .inr ⟨cd, hcd, q, List.mem_cons_of_mem _ hq, hknown⟩

theorem Sourced.given (hs : Sourced b h c) {old sub : Subscriber Arc} (hold : c.Subscribed old)
    (hg : c.Given old sub) : ∀ a ∈ sub.inbox, Drawn b h a.msg := by
  obtain heq | ⟨a, ha, heq⟩ := hg <;> rw [heq]
  · exact hs.inbox old hold
  · intro x hx
    rcases List.mem_append.1 hx with hx | hx
    · exact hs.inbox old hold x hx
    · rw [List.mem_singleton.1 hx]
      exact hs.live a ha

theorem live_thread (hc : c.Coherent) (hw : Went c c') {a : Arc} (ha : c'.Live a) : a.msg = .empty ∨ c.Live a := by
  cases hw with
  | polled _ _ _ _ _ | swapSend _ | swapDrop _ | snapshot _ _ _ _ => exact .inr ha
  | reset _ =>
    rcases ha with rfl | ha
    · exact .inl rfl
    · exact absurd ha (CursorShapes.not_holds_clear c.shapes _)
  | sent msg hpc =>
    rcases ha with rfl | ha
    · exact .inr (.inr (hc.sending _ hpc))
    · exact .inr (.inr ha)

theorem Sourced.step {e : Event} (h0 : Sourced b h c) (hf : c.Feeding) (hc : c.Coherent)
    (hs : c.step b e = some c') : Sourced b ((c, e) :: h) c' := by
  have hlater : ∀ a, c.Live a → Drawn b ((c, e) :: h) a.msg := fun a ha => (h0.live a ha).later _
  have hsubs : ∀ sub, c.Subscribed sub → ∀ a ∈ sub.inbox, Drawn b ((c, e) :: h) a.msg :=
    fun sub hsub a ha => (h0.inbox sub hsub a ha).later _
  cases e with
  | thread =>
    have hw := went_thread hs
    refine ⟨fun a ha => ?_, fun sub hsub a ha => ?_⟩
    · rcases live_thread hc hw ha with hempty | hlive
      · exact .inl hempty
      · exact hlater a hlive
    · obtain ⟨old, hold, hg⟩ := subscribed_thread hf hc hw hsub
      exact (h0.given hold hg a ha).later _
  | getCursor cursor data =>
    obtain ⟨hpc, heq⟩ := Option.ite_none_right_eq_some.1 hs
    cases heq
    have hgot : Got b c cursor data _ := got_getCursor cursor data
    obtain ⟨hsp, -, -⟩ := hgot.frame
    refine ⟨fun a ha => ?_, fun sub hsub => hsubs sub ?_⟩
    · generalize c.getCursor b cursor data = d at hgot ha
      cases hgot with
      | failed _ | nothing _ | same _ | hit _ _ _ _ => exact hlater a ha
      | captured k d hcursor hdata _ =>
        change (c.filed b k d).Live a at ha
        rcases live_filed hc.toCaches ha with hlive | rfl
        · exact hlater a hlive
        · exact .inr ⟨_, rfl, _, List.mem_cons_self .., d.toCursorShape, by rw [hcursor, hdata]; rfl, rfl⟩
    · rw [Subscribed, hsp] at hsub
      exact hsub
  | onSubscribe id =>
    cases hs
    refine ⟨hlater, fun sub hsub a ha => ?_⟩
    rcases subscribed_onSubscribe hsub with hempty | hold
    · rw [hempty] at ha
      cases ha
    · exact hsubs sub hold a ha
  | onUnsubscribe id =>
    cases hs
    exact ⟨hlater, fun sub hsub => hsubs sub (subscribed_onUnsubscribe hsub)⟩

theorem sourced_new : Sourced b [] new := by
  refine ⟨?_, ?_⟩
  · rintro a (rfl | ha)
    · exact .inl rfl
    · exact absurd ha (CursorShapes.not_holds_clear {} a)
  · rintro sub ⟨id, hsub | hsub⟩ <;> cases hsub

/-! ## The cursor reported last -/

/-- What the platform named last, in a call of `run_cursor` that did not fail, since the service was reset. -/
def lastReported (b : Build) : History → Option UInt64
  | [] => none
  | (c, .thread) :: h => if c.pc = .resetting then none else lastReported b h
  | (c, e) :: h => (c.reported b e).or (lastReported b h)

/-- Each handle names one shape, the one captured under it. -/
def Faithful (b : Build) (h : History) (shapeOf : UInt64 → CursorShape) : Prop :=
  ∀ p ∈ h, ∀ hcursor data, p.2 = .getCursor (.ok (some hcursor)) (.ok data) →
    data.toCursorShape = shapeOf (cacheKey b hcursor data)

/-- The content ids of the shapes of the run do not collide. -/
def NoCollision (b : Build) (h : History) : Prop :=
  ∀ p ∈ h, ∀ q ∈ h, ∀ s t, p.2.captured = some s → q.2.captured = some t →
    s.contentId b.xxh3 = t.contentId b.xxh3 → s = t

theorem NoCollision.known (hn : NoCollision b h) {x y : CursorData} (hx : Known b h x) (hy : Known b h y)
    (hid : x.id = y.id) : x = y := by
  obtain ⟨p, hp, s, hs, rfl⟩ := hx
  obtain ⟨q, hq, t, ht, rfl⟩ := hy
  rw [hn p hp q hq s t hs ht hid]

/-- The message shown, or about to be. -/
def current (c : CursorService) : Arc :=
  match c.pc with
  | .sending msg => msg
  | _ => c.state.cursorData

theorem current_eq (hpc : ∀ msg, c.pc ≠ .sending msg) : c.current = c.state.cursorData := by
  unfold current
  split
  · rename_i msg hmsg
    exact absurd hmsg (hpc msg)
  · rfl

theorem current_sending {msg : Arc} (hpc : c.pc = .sending msg) : c.current = msg := by
  rw [current, hpc]

theorem current_shown (hc : c.Caches) (hcursor : UInt64) {msg : Arc} (hmsg : c.shapes.Holds msg) :
    (c.shown hcursor msg).current = msg := by
  by_cases hptr : msg.ptrEq c.state.cursorData
  · have hsame : msg = c.state.cursorData := hc.apart _ _ (.inr hmsg) (.inl rfl) (beq_iff_eq.1 hptr)
    have hpc : (c.shown hcursor msg).pc = .snapshot := if_pos hptr
    rw [current_eq (by rw [hpc]; intro m hm; cases hm), hsame]
    rfl
  · exact current_sending (if_neg hptr)

structure Named (b : Build) (h : History) (shapeOf : UInt64 → CursorShape) (c : CursorService) : Prop where
  current : ∀ cd, c.current.msg = .cursorData cd →
    lastReported b h = some c.state.hcursor ∧ cd = (shapeOf c.state.hcursor).named b
  cached : ∀ k a cd, Assoc.get c.state.cachedCursorData k = some a → a.msg = .cursorData cd →
    cd = (shapeOf k).named b

variable {shapeOf : UInt64 → CursorShape}

theorem Named.thread (hn : Named b h shapeOf c) (hw : Went c c') : Named b ((c, .thread) :: h) shapeOf c' := by
  have hlast : c.pc ≠ .resetting → lastReported b ((c, .thread) :: h) = lastReported b h := fun hpc => if_neg hpc
  have hkeep : c.pc ≠ .resetting → c'.current = c.current → c'.state.hcursor = c.state.hcursor →
      c'.state.cachedCursorData = c.state.cachedCursorData → Named b ((c, .thread) :: h) shapeOf c' := by
    intro hpc hcurrent hcursor hcached
    refine ⟨?_, ?_⟩
    · rw [hlast hpc, hcurrent, hcursor]
      exact hn.current
    · rw [hcached]
      exact hn.cached
  cases hw with
  | polled mayReset pc hpc hplace _ =>
    refine hkeep (by rw [hpc]; decide) ?_ rfl rfl
    rw [current_eq (c := c) (by rw [hpc]; intro m hm; cases hm)]
    rcases hplace with rfl | rfl | rfl <;> rfl
  | reset _ => exact ⟨fun cd hcd => (by cases hcd), fun k a cd ha => (by cases ha)⟩
  | sent msg hpc =>
    refine hkeep (fun hp => ?_) ?_ rfl rfl
    · rw [hpc] at hp
      cases hp
    · rw [current_sending hpc]
      rfl
  | snapshot sp pc hpc hplace =>
    refine hkeep (by rw [hpc]; decide) ?_ rfl rfl
    rw [current_eq (c := c) (by rw [hpc]; intro m hm; cases hm)]
    rcases hplace with ⟨-, rfl⟩ | ⟨-, rfl⟩ <;> rfl
  | swapSend hpc | swapDrop hpc =>
    refine hkeep (by rw [hpc]; decide) ?_ rfl rfl
    rw [current_eq (c := c) (by rw [hpc]; intro m hm; cases hm)]
    rfl

theorem Named.getCursor (hn : Named b h shapeOf c) (hc : c.Coherent) (hpc : c.pc = .running)
    {cursor : Except Unit (Option UInt64)} {data : Except Unit CursorData} (hgot : Got b c cursor data c')
    (hsourced : Sourced b ((c, .getCursor cursor data) :: h) c')
    (hfaithful : Faithful b ((c, .getCursor cursor data) :: h) shapeOf)
    (hcollision : NoCollision b ((c, .getCursor cursor data) :: h)) :
    Named b ((c, .getCursor cursor data) :: h) shapeOf c' := by
  have hlast : lastReported b ((c, .getCursor cursor data) :: h)
      = (c.reported b (.getCursor cursor data)).or (lastReported b h) := rfl
  have hcurrent : c.current = c.state.cursorData := current_eq (by rw [hpc]; intro m hm; cases hm)
  have hstay : ∀ pc, (∀ msg, pc ≠ .sending msg) →
      ({ c with pc := pc } : CursorService).current = c.current := by
    intro pc hno
    rw [hcurrent, current_eq (c := { c with pc := pc }) hno]
  cases hgot with
  | failed hnone | nothing hnone =>
    refine ⟨?_, hn.cached⟩
    rw [hstay _ fun msg hmsg => by cases hmsg]
    rw [hlast, hnone]
    exact hn.current
  | same hsame =>
    refine ⟨fun cd hcd => ⟨?_, ?_⟩, hn.cached⟩
    · rw [hlast, hsame]
      rfl
    · rw [hstay _ fun msg hmsg => by cases hmsg] at hcd
      exact (hn.current cd hcd).2
  | hit k msg hk hget =>
    refine ⟨fun cd hcd => ⟨?_, ?_⟩, hn.cached⟩
    · rw [hlast, hk]
      rfl
    · rw [current_shown hc.toCaches k (hc.cached k msg hget)] at hcd
      exact hn.cached k msg cd hget hcd
  | captured k d hcursor hdata hkey =>
    have hcaptured : (Event.getCursor cursor data).captured = some d.toCursorShape := by
      rw [hcursor, hdata]
      rfl
    have hshape : d.toCursorShape = shapeOf (cacheKey b k d) :=
      hfaithful _ (List.mem_cons_self ..) k d (by rw [hcursor, hdata])
    -- whoever made the message first, its shape has this content
    have hmsg : ∀ cd, (c.shapeMessage b d).2.msg = .cursorData cd → cd = (shapeOf (cacheKey b k d)).named b := by
      intro cd hcd
      obtain ⟨x, hx, hid⟩ := shapeMessage_id (b := b) hc.shapes d
      rw [hcd] at hx
      cases hx
      have hknown : Known b ((c, .getCursor cursor data) :: h) cd := by
        rcases hsourced.live _ (.inr (Captured.limited hc.toCaches d).holds) with hempty | ⟨y, hy, hknown⟩
        · rw [hcd] at hempty
          cases hempty
        · rw [hcd] at hy
          cases hy
          exact hknown
      rw [← hshape]
      exact hcollision.known hknown ⟨_, List.mem_cons_self .., _, hcaptured, rfl⟩ hid
    refine ⟨fun cd hcd => ⟨?_, ?_⟩, fun j a cd ha hcd => ?_⟩
    · rw [hlast, hkey]
      rfl
    · rw [current_shown (hc.toCaches.filed k d) _ (Captured.limited hc.toCaches d).holds] at hcd
      exact hmsg cd hcd
    · obtain ⟨-, hold | ⟨rfl, rfl⟩⟩ := get_filed hc.toCaches ha
      · exact hn.cached j a cd hold hcd
      · exact hmsg cd hcd

/-! ## Runs -/

theorem run_invariant (hx : Exec Init (step b) h c) : c.Coherent ∧ c.Feeding ∧ Sourced b h c := by
  refine hx.induct (I := fun h c => c.Coherent ∧ c.Feeding ∧ Sourced b h c) ?_ ?_
  · rintro c rfl
    exact ⟨coherent_new, feeding_new, sourced_new⟩
  · rintro h c e c' - ⟨hc, hf, hs⟩ hstep
    exact ⟨hc.step hstep, hf.step hc hstep, hs.step hf hc hstep⟩

theorem run_named (hx : Exec Init (step b) h c) (hfaithful : Faithful b h shapeOf) (hcollision : NoCollision b h) :
    Named b h shapeOf c := by
  induction hx with
  | start hinit =>
    cases hinit
    exact ⟨fun cd hcd => (by cases hcd), fun k a cd ha => (by cases ha)⟩
  | snoc hx hstep ih =>
    rename_i h c c' e
    obtain ⟨hc, -, -⟩ := run_invariant hx
    obtain ⟨-, -, hsourced⟩ := run_invariant (hx.snoc hstep)
    have hn : Named b h shapeOf c := ih (fun p hp => hfaithful p (List.mem_cons_of_mem _ hp))
      fun p hp q hq => hcollision p (List.mem_cons_of_mem _ hp) q (List.mem_cons_of_mem _ hq)
    cases e with
    | thread => exact hn.thread (went_thread hstep)
    | getCursor cursor data =>
      obtain ⟨hpc, heq⟩ := Option.ite_none_right_eq_some.1 hstep
      cases heq
      exact hn.getCursor hc hpc (got_getCursor cursor data) hsourced hfaithful hcollision
    | onSubscribe id | onUnsubscribe id =>
      cases hstep
      exact ⟨hn.current, hn.cached⟩

/-- What went to the connection of a subscriber. -/
def sentTo (sub : Subscriber Arc) : List Message := (MouseCursorSub.ofCalls (sub.inbox.map Arc.msg)).inner

theorem served_inbox {sub : Subscriber Arc} (hinbox : ∀ a ∈ sub.inbox, Drawn b h a.msg) :
    Served (sub.inbox.map Arc.msg) (MouseCursorSub.ofCalls (sub.inbox.map Arc.msg)) := by
  refine served_ofCalls fun id hid => ?_
  obtain ⟨a, ha, heq⟩ := List.mem_map.1 hid
  obtain hempty | ⟨cd, hcd, -⟩ := hinbox a ha
  · rw [hempty] at heq
    cases heq
  · rw [hcd] at heq
    cases heq

theorem viewer_shown {sub : Subscriber Arc} (hinbox : ∀ a ∈ sub.inbox, Drawn b h a.msg)
    (hcollision : NoCollision b h) : (viewer (sentTo sub)).shown = lastCursor (sub.inbox.map Arc.msg) := by
  have hknown : ∀ cd, Message.cursorData cd ∈ sub.inbox.map Arc.msg → Known b h cd := by
    intro cd hcd
    obtain ⟨a, ha, heq⟩ := List.mem_map.1 hcd
    obtain hempty | ⟨x, hx, hknown⟩ := hinbox a ha
    · rw [hempty] at heq
      cases heq
    · rw [hx] at heq
      cases heq
      exact hknown
  exact (served_inbox hinbox).shown fun x y hx hy => hcollision.known (hknown x hx) (hknown y hy)

/-- A subscriber that was given anything has been given the message shown, last. -/
theorem lastCursor_of_fed {shown : Arc} {sub : Subscriber Arc} (hfed : Fed shown sub)
    (hid : ∀ id, shown.msg ≠ .cursorId id) :
    sub.inbox = [] ∧ sub.late = true ∨ lastCursor (sub.inbox.map Arc.msg) = shown.msg.cursor? := by
  refine hfed.imp_right ?_
  rintro ⟨before, heq, hblank⟩
  rw [heq, List.map_append, List.map_singleton, lastCursor_concat]
  cases hmsg : shown.msg with
  | empty =>
    refine lastCursor_eq_none fun msg hm => ?_
    obtain ⟨a, ha, rfl⟩ := List.mem_map.1 hm
    exact hblank hmsg a ha
  | cursorData cd => rfl
  | cursorId id => exact absurd hmsg (hid id)

/-- In every run: what is about to be sent, and what a snapshot is about to send once a cursor was shown, is
kept for its content; the handles name messages that are kept; `bytes` is what the shapes hold; and an id goes
to a subscriber after the shape with that id. Where moreover the platform gives each handle one shape and no
two shapes have one id, a viewer shows the cursor named last by a call that did not fail, whenever no message is
about to be sent. It shows one as soon as one was shown, unless its subscriber came in the middle of a snapshot. -/
theorem cursor_caches_coherent (hx : Exec Init (step b) h c) :
    ((∀ msg, c.pc = .sending msg → c.shapes.Holds msg) ∧
      (c.pc = .snapshotting → c.state.cursorData.msg = .empty ∨ c.shapes.Holds c.state.cursorData)) ∧
    (∀ k a, Assoc.get c.state.cachedCursorData k = some a → c.shapes.Holds a) ∧
    c.shapes.bytes = (c.shapes.shapes.map fun p => p.2.size).sum ∧
    (∀ sub, c.Subscribed sub → ∀ before id after, sentTo sub = before ++ .cursorId id :: after →
      ∃ cd, cd.id = id ∧ .cursorData cd ∈ before) ∧
    ∀ shapeOf, Faithful b h shapeOf → NoCollision b h → (∀ msg, c.pc ≠ .sending msg) →
      (∀ sub, c.Subscribed sub → ∀ cd, (viewer (sentTo sub)).shown = some cd →
        ∃ k, lastReported b h = some k ∧ cd = (shapeOf k).named b) ∧
      ∀ id sub, Assoc.get c.sp.subscribes id = some sub → sub.late = false →
        (viewer (sentTo sub)).shown = c.state.cursorData.msg.cursor? := by
  obtain ⟨hc, hf, hs⟩ := run_invariant hx
  refine ⟨⟨hc.sending, fun hpc => hc.shown fun msg hmsg => ?_⟩, hc.cached, hc.shapes.bytes,
    fun sub hsub => ?_, ?_⟩
  · rw [hpc] at hmsg
    cases hmsg
  · exact (served_inbox (hs.inbox sub hsub)).first
  intro shapeOf hfaithful hcollision hno
  have hnamed : Named b h shapeOf c := run_named hx hfaithful hcollision
  have hid : ∀ id, c.state.cursorData.msg ≠ .cursorId id := by
    intro id hid
    obtain hempty | ⟨cd, hcd, -⟩ := hs.live _ (.inl rfl)
    · rw [hempty] at hid
      cases hid
    · rw [hcd] at hid
      cases hid
  have htold : ∀ sub, c.Subscribed sub → Fed c.state.cursorData sub → sub.inbox = [] ∧ sub.late = true ∨
      (viewer (sentTo sub)).shown = c.state.cursorData.msg.cursor? := by
    intro sub hsub hfed
    rw [viewer_shown (hs.inbox sub hsub) hcollision]
    exact lastCursor_of_fed hfed hid
  refine ⟨fun sub hsub cd hcd => ?_, fun id sub hsub hlate => ?_⟩
  · have hgiven : sub.inbox = [] ∨ Fed c.state.cursorData sub := by
      obtain ⟨id, hsubscribed | hnew⟩ := hsub
      · exact .inr (hf.subs id sub hsubscribed)
      · by_cases hpc : c.pc = .swapping
        · exact .inr (hf.greeted hpc id sub hnew)
        · exact .inl (hf.news hpc id sub hnew)
    have hcursor : c.state.cursorData.msg.cursor? = some cd := by
      have hempty : sub.inbox = [] → (viewer (sentTo sub)).shown = none := by
        intro hinbox
        rw [sentTo, hinbox]
        rfl
      rcases hgiven with hinbox | hfed
      · rw [hempty hinbox] at hcd
        cases hcd
      · rcases htold sub hsub hfed with ⟨hinbox, -⟩ | hshown
        · rw [hempty hinbox] at hcd
          cases hcd
        · rw [← hshown, hcd]
    have hmsg : c.current.msg = .cursorData cd := by
      rw [current_eq hno]
      cases hm : c.state.cursorData.msg with
      | cursorData x =>
        rw [hm] at hcursor
        rw [Option.some.inj hcursor]
      | empty | cursorId _ =>
        rw [hm] at hcursor
        cases hcursor
    exact ⟨_, hnamed.current cd hmsg⟩
  · rcases htold sub ⟨id, .inl hsub⟩ (hf.subs id sub hsub) with ⟨-, hl⟩ | hshown
    · rw [hlate] at hl
      cases hl
    · exact hshown

/-- Told apart by their size, as 16 bytes have the width first. -/
def plainBuild : Build where
  xxh3 := fun bytes => UInt64.ofNat (ofLeBytes bytes)
  compress := id

def plainShape (width : Int32) : CursorShape := ⟨0, 0, width, 1, []⟩

def shows (hcursor : UInt64) (width : Int32) : Event :=
  .getCursor (.ok (some hcursor)) (.ok ⟨plainShape width, hcursor⟩)

/-- A subscriber comes and is sent the cursor 1, and then 2. -/
def twoCursors : List Event :=
  [.onSubscribe 7, .thread, shows 1 1, .thread, .thread, .thread, .thread, .thread, shows 2 2, .thread, .thread]

theorem plain_start : Exec Init (step plainBuild) [] new := .start rfl

theorem cursor_caches_coherent_two : ∃ h c sub, Exec Init (step plainBuild) h c ∧ c.Subscribed sub ∧
    (viewer (sentTo sub)).shown = some ((plainShape 2).named plainBuild) ∧
    ∃ k, lastReported plainBuild h = some k := by
  obtain ⟨r, hr⟩ : ∃ r, trace (step plainBuild) new twoCursors = some r := ⟨_, rfl⟩
  have hx := plain_start.trace hr
  have hshows : ∀ p ∈ r.1 ++ [], p.2 = shows 1 1 ∨ p.2 = shows 2 2 ∨
      ∀ cursor data, p.2 ≠ .getCursor cursor data := by
    intro p hp
    rw [List.append_nil] at hp
    have hmem : p.2 ∈ twoCursors := trace_events hr p hp
    simp only [twoCursors, List.mem_cons, List.not_mem_nil, or_false] at hmem
    rcases hmem with h | h | h | h | h | h | h | h | h | h | h
    all_goals first
      | exact .inl h
      | exact .inr (.inl h)
      | exact .inr (.inr fun _ _ hget => by rw [h] at hget; cases hget)
  have hfaithful : Faithful plainBuild (r.1 ++ []) fun k => if k = 1 then plainShape 1 else plainShape 2 := by
    intro p hp hcursor data hget
    rcases hshows p hp with h | h | h
    · rw [h] at hget
      cases hget
      rfl
    · rw [h] at hget
      cases hget
      rfl
    · exact absurd hget (h _ _)
  have hcaptured : ∀ p ∈ r.1 ++ [], ∀ s, p.2.captured = some s → s = plainShape 1 ∨ s = plainShape 2 := by
    intro p hp s hs
    rcases hshows p hp with h | h | h
    · rw [h] at hs
      exact .inl (Option.some.inj hs).symm
    · rw [h] at hs
      exact .inr (Option.some.inj hs).symm
    · unfold Event.captured at hs
      split at hs
      · rename_i hget
        exact absurd hget (h _ _)
      · cases hs
  have hcollision : NoCollision plainBuild (r.1 ++ []) := by
    intro p hp q hq s t hs ht hid
    rcases hcaptured p hp s hs with rfl | rfl <;> rcases hcaptured q hq t ht with rfl | rfl
    · rfl
    · exact absurd hid (by decide +kernel)
    · exact absurd hid (by decide +kernel)
    · rfl
  have hcoherent := (cursor_caches_coherent hx).2.2.2.2 _ hfaithful hcollision
  cases hr
  refine ⟨_, _, _, hx, ⟨7, .inl rfl⟩, rfl, ?_⟩
  obtain ⟨k, hk, -⟩ := (hcoherent fun msg hmsg => by cases hmsg).1 _ ⟨7, .inl rfl⟩ _ rfl
  exact ⟨k, hk⟩

/-- Before any cursor is reported a snapshot sends a message with no shape; a handle that comes back with
another shape shows the one filed under it; and a shape that cannot be captured leaves the one before. -/
theorem shown_not_reported :
    (∃ h c, Exec Init (step plainBuild) h c ∧ c.pc = .snapshotting ∧ ¬ c.shapes.Holds c.state.cursorData) ∧
    (∃ h c sub, Exec Init (step plainBuild) h c ∧ c.pc = .snapshot ∧ c.Subscribed sub ∧
      (h[1]?.bind fun p => p.2.captured) = some (plainShape 3) ∧
      (viewer (sentTo sub)).shown = some ((plainShape 1).named plainBuild)) ∧
    ∃ h c sub, Exec Init (step plainBuild) h c ∧ c.pc = .idle ∧ c.Subscribed sub ∧
      (h[0]?.map Prod.snd) = some (.getCursor (.ok (some 2)) (.error ())) ∧
      (viewer (sentTo sub)).shown = some ((plainShape 1).named plainBuild) := by
  refine ⟨?_, ?_, ?_⟩
  · obtain ⟨r, hr⟩ : ∃ r, trace (step plainBuild) new
        [.onSubscribe 7, .thread, .getCursor (.ok none) (.error ()), .thread] = some r := ⟨_, rfl⟩
    have hx := plain_start.trace hr
    cases hr
    refine ⟨_, _, hx, rfl, ?_⟩
    rintro ⟨cd, hcd, -⟩
    cases hcd
  · obtain ⟨r, hr⟩ : ∃ r, trace (step plainBuild) new
        (twoCursors ++ [.thread, shows 1 3, .thread]) = some r := ⟨_, rfl⟩
    have hx := plain_start.trace hr
    cases hr
    exact ⟨_, _, _, hx, rfl, ⟨7, .inl rfl⟩, rfl, rfl⟩
  · obtain ⟨r, hr⟩ : ∃ r, trace (step plainBuild) new
        [.onSubscribe 7, .thread, shows 1 1, .thread, .thread, .thread, .thread, .thread,
          .getCursor (.ok (some 2)) (.error ())] = some r := ⟨_, rfl⟩
    have hx := plain_start.trace hr
    cases hr
    exact ⟨_, _, _, hx, rfl, ⟨7, .inl rfl⟩, rfl, rfl⟩

end CursorService

end FontisRemote.Services.Cursor
