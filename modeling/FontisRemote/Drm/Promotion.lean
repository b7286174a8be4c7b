import FontisRemote.Drm.Layout

/-!
# No capturer stays on an old layout

A capturer that is not on the layout the poll last saw is accounted for: it is of an older generation, or
its disagreement is flagged, or a promotion is on its way. So one poll that runs to its end leaves no capturer
on another layout than the one it read, however the other parties' steps fall into it.
-/

namespace FontisRemote.Drm

open FontisRemote.Lib

namespace WaylandLayout

variable {l : WaylandLayout} {live builtOn baseline : List DisplayRect} {gen g : Nat} {missing : Bool}

theorem resetBaseline_seen (h : l.seen ≠ []) : (l.resetBaseline baseline).seen = l.seen := by
  simp [resetBaseline, h]

theorem edge_unseen (h : l.unseenBuild = some gen) : l.edge live missing gen = true := if_pos h

theorem edge_seen (h : l.seen ≠ []) (hne : l.seen ≠ live) : l.edge live missing gen = true := by
  unfold edge
  split
  · rfl
  · simp [h, hne]

theorem noteCapturer_seen (h : l.seen ≠ []) : (l.noteCapturer builtOn gen).seen = l.seen := by
  unfold noteCapturer
  split
  · rfl
  · rw [if_neg (by simpa using h)]
    split <;> rfl

/-- A flag goes up only. -/
theorem noteCapturer_unseen (h : l.unseenBuild = some g) :
    ∃ g', (l.noteCapturer builtOn gen).unseenBuild = some g' ∧ g ≤ g' := by
  unfold noteCapturer
  split
  · exact ⟨g, h, le_rfl⟩
  · split
    · exact ⟨g, h, le_rfl⟩
    · split
      · refine ⟨max g gen, ?_, le_max_left ..⟩
        rw [h]
        rfl
      · exact ⟨g, h, le_rfl⟩

theorem noteCapturer_unseen_le {bound : Nat} (h : ∀ g, l.unseenBuild = some g → g ≤ bound) (hgen : gen ≤ bound)
    (hg : (l.noteCapturer builtOn gen).unseenBuild = some g) : g ≤ bound := by
  unfold noteCapturer at hg
  split at hg
  · exact h g hg
  · split at hg
    · exact h g hg
    · split at hg
      · cases hu : l.unseenBuild with
        | none =>
          rw [hu] at hg
          cases hg
          exact hgen
        | some u =>
          rw [hu] at hg
          cases hg
          exact max_le (h u hu) hgen
      · exact h g hg

/-- What a capturer was built on is remembered, or that it is not is. -/
theorem noteCapturer_recorded (h : builtOn ≠ []) :
    (l.noteCapturer builtOn gen).seen = builtOn ∨
      ∃ g, (l.noteCapturer builtOn gen).unseenBuild = some g ∧ gen ≤ g := by
  unfold noteCapturer
  rw [if_neg (by simpa using h)]
  split
  · exact .inl rfl
  · split
    · right
      cases l.unseenBuild with
      | none => exact ⟨gen, rfl, le_rfl⟩
      | some u => exact ⟨max u gen, rfl, le_max_right ..⟩
    · rename_i hs
      exact .inl (not_not.1 hs)

end WaylandLayout

/-! ## What a step may do to what is owed -/

/-- The poll in flight will raise the generation if DRM is available. -/
def Poll.due : Poll → Bool
  | .take _ liveChanged => liveChanged
  | .owe _ due => due
  | .clear _ => true
  | .bump _ => true
  | _ => false

namespace Desktop

variable {s s' : Desktop} {getOriginalResolution : List Char → Nat → Nat → Int32 × Int32}

/-- A promotion is on its way. -/
def owing (s : Desktop) : Bool := s.unrotatedPending || s.promotionOwed || s.poll.due

/-- What another party than the poll leaves as it is. -/
structure Aside (s s' : Desktop) : Prop where
  generation : s'.generation = s.generation
  poll : s'.poll = s.poll
  promotionOwed : s'.promotionOwed = s.promotionOwed
  polled : s'.polled = s.polled
  pending : s.unrotatedPending = true → s'.unrotatedPending = true
  unseen : ∀ g, s.layout.unseenBuild = some g → ∃ g', s'.layout.unseenBuild = some g' ∧ g ≤ g'
  seen : s.layout.seen ≠ [] → s'.layout.seen = s.layout.seen

/-- A step that touches neither the layout nor a flag. -/
theorem Aside.of_eq (hg : s'.generation = s.generation) (hp : s'.poll = s.poll)
    (ho : s'.promotionOwed = s.promotionOwed) (hn : s'.polled = s.polled)
    (hu : s'.unrotatedPending = s.unrotatedPending) (hl : s'.layout = s.layout) : Aside s s' :=
  ⟨hg, hp, ho, hn, fun h => hu.trans h, fun g h => ⟨g, hl ▸ h, le_rfl⟩, fun _ => by rw [hl]⟩

theorem getDisplays_eq : ∃ cache, s.getDisplays.2 = { s with cache := cache } := by
  unfold getDisplays
  split
  · exact ⟨s.cache, rfl⟩
  · split
    · exact ⟨_, rfl⟩
    · exact ⟨s.cache, rfl⟩

theorem construct_aside {i : Nat} {c : Capturer} (h : s.construct getOriginalResolution i c = some s') : Aside s s' := by
  unfold construct at h
  obtain ⟨cache, hcache⟩ := getDisplays_eq (s := s)
  cases hb : c.build with
  | waiting =>
    rw [hb] at h
    cases h
    exact .of_eq rfl rfl rfl rfl rfl rfl
  | snapshotting gen =>
    rw [hb, hcache] at h
    cases h
    exact .of_eq rfl rfl rfl rfl rfl rfl
  | orienting gen wl =>
    rw [hb] at h
    cases h
    refine ⟨rfl, rfl, rfl, rfl, ?_, fun g hg => ⟨g, hg, le_rfl⟩, fun _ => rfl⟩
    intro hp
    show (transformAndOrigin _ c.drm c.wireIdx ⟨0, wl⟩ s.unrotatedPending).2 = true
    unfold transformAndOrigin
    split
    · simp [hp]
    · exact hp
  | noting gen wl transform =>
    rw [hb] at h
    cases h
    exact ⟨rfl, rfl, rfl, rfl, id, fun _ hg => WaylandLayout.noteCapturer_unseen hg,
      WaylandLayout.noteCapturer_seen⟩
  | streaming gen wl transform =>
    rw [hb] at h
    cases h

theorem setUp_aside {k : Nat} {ok : Bool} {init : SessionInit} (h : s.setUp k ok init = some s') : Aside s s' := by
  obtain ⟨cache, hcache⟩ := getDisplays_eq (s := s)
  cases init with
  | clear =>
    cases h
    exact .of_eq rfl rfl rfl rfl rfl rfl
  | locate =>
    rw [setUp, hcache] at h
    cases h
    exact .of_eq rfl rfl rfl rfl rfl rfl
  | measure =>
    rw [setUp, hcache] at h
    cases h
    exact .of_eq rfl rfl rfl rfl rfl rfl
  | apply layout =>
    cases ok with
    | false =>
      cases h
      exact .of_eq rfl rfl rfl rfl rfl rfl
    | true =>
      cases h
      exact ⟨rfl, rfl, rfl, rfl, id, fun g hg => ⟨g, hg, le_rfl⟩, WaylandLayout.resetBaseline_seen⟩
  | done => cases h

/-- Whatever is not a step of the poll stands aside. -/
theorem step_aside {e : Event} (he : ∀ available, e ≠ .poll available)
    (h : s.step getOriginalResolution e = some s') : Aside s s' := by
  cases e with
  | compositor answer =>
    cases h
    exact .of_eq rfl rfl rfl rfl rfl rfl
  | handshake drm wireIdx =>
    simp only [step, Option.dite_none_right_eq_some, Option.some.injEq] at h
    obtain ⟨_, rfl⟩ := h
    exact .of_eq rfl rfl rfl rfl rfl rfl
  | capturer i =>
    obtain ⟨c, -, h⟩ := Option.bind_eq_some_iff.1 h
    exact construct_aside h
  | sessionInit =>
    cases h
    exact .of_eq rfl rfl rfl rfl rfl rfl
  | init k ok =>
    obtain ⟨init, -, h⟩ := Option.bind_eq_some_iff.1 h
    exact setUp_aside h
  | poll available => exact absurd rfl (he available)

end Desktop

/-! ## Every capturer is accounted for -/

/-- How far a capturer's own generation and snapshot are covered by the state. -/
def Build.Accounted (s : Desktop) : Build → Prop
  | .waiting => True
  | .snapshotting gen => gen ≤ s.generation
  | .orienting gen _ => gen ≤ s.generation
  | .noting gen wl _ => gen ≤ s.generation ∧ (wl = [] → gen < s.generation ∨ s.owing = true)
  | .streaming gen wl _ =>
    gen ≤ s.generation ∧ (gen < s.generation ∨ s.owing = true ∨ s.layout.unseenBuild = some gen ∨
      wl ≠ [] ∧ s.layout.seen = logicalRectsOf wl)

namespace Desktop

variable {s s' : Desktop} {getOriginalResolution : List Char → Nat → Nat → Int32 × Int32}

structure Accounted (s : Desktop) : Prop where
  unseen : ∀ g, s.layout.unseenBuild = some g → g ≤ s.generation
  capturers : ∀ c ∈ s.capturers, c.build.Accounted s
  live : ∀ live, s.poll = .compare live → live ≠ []

theorem owing_of_aside (h : Aside s s') (ho : s.owing = true) : s'.owing = true := by
  unfold owing at ho ⊢
  rw [h.poll, h.promotionOwed]
  simp only [Bool.or_eq_true] at ho ⊢
  exact ho.imp_left (Or.imp_left h.pending)

/-- What a capturer is covered by stays, or a promotion takes its place. -/
theorem accounted_of_kept {b : Build} (hb : b.Accounted s) (hgen : s'.generation = s.generation)
    (howing : s.owing = true → s'.owing = true)
    (hunseen : ∀ gen, s.layout.unseenBuild = some gen →
      gen < s.generation ∨ s'.owing = true ∨ s'.layout.unseenBuild = some gen)
    (hseen : s.layout.seen ≠ [] → s'.owing = true ∨ s'.layout.seen = s.layout.seen) : b.Accounted s' := by
  cases b with
  | waiting => exact hb
  | snapshotting gen => exact (show gen ≤ s.generation from hb).trans_eq hgen.symm
  | orienting gen wl => exact (show gen ≤ s.generation from hb).trans_eq hgen.symm
  | noting gen wl transform =>
    obtain ⟨hle, hblind⟩ := hb
    refine ⟨hle.trans_eq hgen.symm, fun hwl => ?_⟩
    rw [hgen]
    exact (hblind hwl).imp_right howing
  | streaming gen wl transform =>
    obtain ⟨hle, hb⟩ := hb
    refine ⟨hle.trans_eq hgen.symm, ?_⟩
    rw [hgen]
    rcases hb with hlt | ho | hun | ⟨hwl, hs⟩
    · exact .inl hlt
    · exact .inr (.inl (howing ho))
    · rcases hunseen gen hun with hlt | ho | hun
      · exact .inl hlt
      · exact .inr (.inl ho)
      · exact .inr (.inr (.inl hun))
    · have hne : s.layout.seen ≠ [] := by
        rw [hs]
        exact fun hnil => hwl (logicalRectsOf_eq_nil.1 hnil)
      rcases hseen hne with ho | hsame
      · exact .inr (.inl ho)
      · exact .inr (.inr (.inr ⟨hwl, hsame.trans hs⟩))

/-- A raised generation covers whoever read the old one. -/
theorem accounted_of_raised {b : Build} (hb : b.Accounted s) (hgen : s.generation < s'.generation) :
    b.Accounted s' := by
  cases b with
  | waiting => exact hb
  | snapshotting gen => exact (show gen ≤ s.generation from hb).trans hgen.le
  | orienting gen wl => exact (show gen ≤ s.generation from hb).trans hgen.le
  | noting gen wl transform => exact ⟨hb.1.trans hgen.le, fun _ => .inl (hb.1.trans_lt hgen)⟩
  | streaming gen wl transform => exact ⟨hb.1.trans hgen.le, .inl (hb.1.trans_lt hgen)⟩

/-- A capturer that did not move stays accounted for while the others do. -/
theorem accounted_of_aside {b : Build} (h : Aside s s') (hunseen : ∀ g, s'.layout.unseenBuild = some g → g ≤ s'.generation)
    (hb : b.Accounted s) : b.Accounted s' := by
  refine accounted_of_kept hb h.generation (owing_of_aside h) ?_ fun hne => .inr (h.seen hne)
  intro gen hun
  obtain ⟨g, hg, hle⟩ := h.unseen gen hun
  rcases hle.lt_or_eq with hlt | rfl
  · exact .inl (hlt.trans_le ((hunseen g hg).trans_eq h.generation))
  · exact .inr (.inr hg)

/-- The capturer that moves is accounted for where it gets to, and flags no generation to come. -/
theorem construct_accounted {i : Nat} {c : Capturer} (hs : s.Accounted) (hc : s.capturers[i]? = some c)
    (h : s.construct getOriginalResolution i c = some s') :
    ∃ b, s'.capturers = s.capturers.set i { c with build := b } ∧ b.Accounted s' ∧
      ∀ g, s'.layout.unseenBuild = some g → g ≤ s'.generation := by
  have hacc := hs.capturers c (List.mem_of_getElem? hc)
  unfold construct at h
  obtain ⟨cache, hcache⟩ := getDisplays_eq (s := s)
  cases hb : c.build with
  | waiting =>
    rw [hb] at h
    cases h
    exact ⟨_, rfl, le_rfl, hs.unseen⟩
  | snapshotting gen =>
    rw [hb] at h hacc
    rw [hcache] at h
    cases h
    exact ⟨_, rfl, hacc, hs.unseen⟩
  | orienting gen wl =>
    rw [hb] at h hacc
    cases h
    refine ⟨_, rfl, ⟨hacc, ?_⟩, hs.unseen⟩
    rintro rfl
    -- A capturer built on no snapshot leaves its mark before it is noted.
    right
    have hdrm : c.drm.isEmpty = false := by
      rw [List.isEmpty_eq_false_iff]
      intro hnil
      have := c.found
      rw [hnil] at this
      exact absurd this (Nat.not_lt_zero _)
    have hblind : (transformAndOrigin getOriginalResolution c.drm c.wireIdx ⟨0, []⟩ s.unrotatedPending).2 = true := by
      simp [transformAndOrigin, hdrm]
    show (_ || _ || _) = true
    simp only [setCapturer, hblind, Bool.true_or]
  | noting gen wl transform =>
    rw [hb] at h hacc
    cases h
    obtain ⟨hle, hblind⟩ := hacc
    have hunseen : ∀ g, (s.layout.noteCapturer (logicalRectsOf wl) gen).unseenBuild = some g → g ≤ s.generation :=
      fun g => WaylandLayout.noteCapturer_unseen_le hs.unseen hle
    refine ⟨_, rfl, ⟨hle, ?_⟩, hunseen⟩
    by_cases hwl : wl = []
    · exact (hblind hwl).imp_right .inl
    · have hrects : logicalRectsOf wl ≠ [] := fun hnil => hwl (logicalRectsOf_eq_nil.1 hnil)
      have hrecorded : _ ∨ ∃ g, (s.layout.noteCapturer (logicalRectsOf wl) gen).unseenBuild = some g ∧ gen ≤ g :=
        WaylandLayout.noteCapturer_recorded hrects
      rcases hrecorded with hseen | ⟨g, hg, hgen⟩
      · exact .inr (.inr (.inr ⟨hwl, hseen⟩))
      · rcases hgen.lt_or_eq with hlt | rfl
        · exact .inl (hlt.trans_le (hunseen g hg))
        · exact .inr (.inr (.inl hg))
  | streaming gen wl transform =>
    rw [hb] at h
    cases h

theorem setUp_unseen {k : Nat} {ok : Bool} {init : SessionInit} (h : s.setUp k ok init = some s') :
    s'.layout.unseenBuild = s.layout.unseenBuild ∧ s'.capturers = s.capturers := by
  obtain ⟨cache, hcache⟩ := getDisplays_eq (s := s)
  cases init with
  | clear =>
    cases h
    exact ⟨rfl, rfl⟩
  | locate =>
    rw [setUp, hcache] at h
    cases h
    exact ⟨rfl, rfl⟩
  | measure =>
    rw [setUp, hcache] at h
    cases h
    exact ⟨rfl, rfl⟩
  | apply layout =>
    cases ok with
    | false =>
      cases h
      exact ⟨rfl, rfl⟩
    | true =>
      cases h
      exact ⟨rfl, rfl⟩
  | done => cases h

/-- A step of the poll hands on what is owed, and what it consumes it has already put in the next place. -/
theorem refresh_accounted {available : Bool} (hs : s.Accounted) : (s.refresh available s.poll).Accounted := by
  have hkept : ∀ {t : Desktop}, t.capturers = s.capturers → t.generation = s.generation →
      (s.owing = true → t.owing = true) → t.layout.unseenBuild = s.layout.unseenBuild →
      (s.layout.seen ≠ [] → t.layout.seen = s.layout.seen) → (∀ live, t.poll = .compare live → live ≠ []) →
      t.Accounted := by
    intro t hc hg ho hun hseen hlive
    refine ⟨fun g h => (hs.unseen g (hun ▸ h)).trans_eq hg.symm, ?_, hlive⟩
    intro c hmem
    exact accounted_of_kept (hs.capturers c (hc ▸ hmem)) hg ho (fun gen h => .inr (.inr (hun.trans h)))
      fun hne => .inr (hseen hne)
  cases hp : s.poll with
  | idle =>
    unfold refresh
    cases s.compositor with
    | none => exact hs
    | some displays =>
      dsimp only
      split
      · exact hs
      · rename_i hne
        refine hkept rfl rfl (fun ho => ?_) rfl (fun _ => rfl) ?_
        · simpa [owing, hp, Poll.due] using ho
        · intro live hlive
          cases hlive
          exact fun hnil => hne (by simp [logicalRectsOf_eq_nil.1 hnil])
  | compare live =>
    rw [refresh]
    refine ⟨fun g hg => (by cases hg), ?_, fun live h => (by cases h)⟩
    intro c hc
    refine accounted_of_kept (hs.capturers c hc) rfl ?_ ?_ ?_
    · intro ho
      simp only [owing, hp, Poll.due, Bool.or_false, Bool.or_eq_true] at ho
      simp only [owing, Bool.or_eq_true]
      exact .inl ho
    · intro gen hun
      rcases (hs.unseen gen hun).lt_or_eq with hlt | rfl
      · exact .inl hlt
      · right
        left
        simp only [owing, Poll.due, WaylandLayout.edge_unseen hun, Bool.or_true]
    · intro hne
      by_cases hsame : s.layout.seen = live
      · exact .inr hsame.symm
      · left
        simp only [owing, Poll.due, WaylandLayout.edge_seen hne hsame, Bool.or_true]
  | take live liveChanged =>
    refine hkept rfl rfl (fun ho => ?_) rfl (fun _ => rfl) (by intro live h; cases h)
    simp only [owing, hp, Poll.due, Bool.or_eq_true] at ho
    simp only [refresh, owing, Poll.due, Bool.false_or, Bool.or_eq_true]
    tauto
  | owe live due =>
    refine hkept rfl rfl (fun ho => ?_) rfl (fun _ => rfl) (by intro live h; cases h)
    simp only [owing, hp, Poll.due, Bool.or_eq_true] at ho
    simp only [refresh, owing, Poll.due, Bool.or_false, Bool.or_eq_true]
    tauto
  | decide live =>
    rw [refresh]
    split
    · exact hkept rfl rfl (fun _ => Bool.or_true _) rfl (fun _ => rfl) (by intro live h; cases h)
    · refine hkept rfl rfl (fun ho => ?_) rfl (fun _ => rfl) (by intro live h; cases h)
      simpa only [owing, hp, Poll.due] using ho
  | clear live => exact hkept rfl rfl (fun _ => Bool.or_true _) rfl (fun _ => rfl) (by intro live h; cases h)
  | bump live =>
    have hlt : s.generation < (s.refresh available (.bump live)).generation := Nat.lt_succ_self _
    refine ⟨fun g hg => (hs.unseen g hg).trans hlt.le, ?_, by intro live h; cases h⟩
    exact fun c hc => accounted_of_raised (hs.capturers c hc) hlt
  | rebase live =>
    refine hkept rfl rfl (fun ho => ?_) rfl WaylandLayout.resetBaseline_seen (by intro live h; cases h)
    simpa only [refresh, owing, hp, Poll.due] using ho
  | publish live =>
    refine hkept rfl rfl (fun ho => ?_) rfl (fun _ => rfl) (by intro live h; cases h)
    simpa only [refresh, owing, hp, Poll.due] using ho

theorem step_accounted {e : Event} (hs : s.Accounted) (h : s.step getOriginalResolution e = some s') :
    s'.Accounted := by
  have hstill : ∀ {t : Desktop}, Aside s t → t.capturers = s.capturers →
      t.layout.unseenBuild = s.layout.unseenBuild → t.Accounted := by
    intro t ha hc hun
    have hle : ∀ g, t.layout.unseenBuild = some g → g ≤ t.generation := fun g h =>
      (hs.unseen g (hun ▸ h)).trans_eq ha.generation.symm
    exact ⟨hle, fun c hmem => accounted_of_aside ha hle (hs.capturers c (hc ▸ hmem)), fun live hl =>
      hs.live live (ha.poll ▸ hl)⟩
  cases e with
  | compositor answer =>
    cases h
    exact hstill (.of_eq rfl rfl rfl rfl rfl rfl) rfl rfl
  | handshake drm wireIdx =>
    simp only [step, Option.dite_none_right_eq_some, Option.some.injEq] at h
    obtain ⟨found, rfl⟩ := h
    refine ⟨hs.unseen, ?_, hs.live⟩
    intro c hc
    rcases List.mem_append.1 hc with hc | hc
    · exact accounted_of_aside (.of_eq rfl rfl rfl rfl rfl rfl) hs.unseen (hs.capturers c hc)
    · rw [List.mem_singleton.1 hc]
      trivial
  | capturer i =>
    have ha : Aside s s' := step_aside (e := .capturer i) (by simp) h
    obtain ⟨c, hc, h⟩ := Option.bind_eq_some_iff.1 h
    obtain ⟨b, hcap, hb, hunseen⟩ := construct_accounted hs hc h
    refine ⟨hunseen, ?_, fun live hl => hs.live live (ha.poll ▸ hl)⟩
    intro d hd
    rw [hcap] at hd
    rcases List.mem_or_eq_of_mem_set hd with hd | rfl
    · exact accounted_of_aside ha hunseen (hs.capturers d hd)
    · exact hb
  | sessionInit =>
    cases h
    exact hstill (.of_eq rfl rfl rfl rfl rfl rfl) rfl rfl
  | init k ok =>
    have ha : Aside s s' := step_aside (e := .init k ok) (by simp) h
    obtain ⟨init, -, h⟩ := Option.bind_eq_some_iff.1 h
    obtain ⟨hun, hc⟩ := setUp_unseen h
    exact hstill ha hc hun
  | poll available =>
    cases h
    exact refresh_accounted hs

theorem accounted_of_reachable (h : Reachable Init (step getOriginalResolution) s) : s.Accounted := by
  refine Reachable.invariant ?_ (fun s e s' hs hstep => step_accounted hs hstep) h
  rintro s ⟨compositor, rfl⟩
  exact ⟨fun g hg => (by cases hg), fun c hc => (by cases hc), fun live hl => (by cases hl)⟩

end Desktop

/-! ## One poll -/

/-- What the poll carries in its flight for a capturer on another layout than the one it read. -/
def Poll.carries (unrotatedPending promotionOwed : Bool) : Poll → Bool
  | .take _ liveChanged => liveChanged || unrotatedPending || promotionOwed
  | .owe _ due => due || promotionOwed
  | .decide _ => promotionOwed
  | .clear _ => true
  | .bump _ => true
  | _ => false

namespace Desktop

variable {s s' : Desktop} {getOriginalResolution : List Char → Nat → Nat → Int32 × Int32}
variable {live : List DisplayRect} {gen : Nat} {wl : List WaylandDisplayInfo}

/-- A capturer of this generation and snapshot, while the poll that read `live` runs and when it has ended. -/
def Settling (live : List DisplayRect) (gen : Nat) (wl : List WaylandDisplayInfo) (s : Desktop) : Prop :=
  s.poll = .compare live ∨
    (∀ l, s.poll ≠ .compare l) ∧ (gen < s.generation ∨ logicalRectsOf wl = live ∨
      s.poll.carries s.unrotatedPending s.promotionOwed = true)

theorem settling_of_aside (h : Aside s s') (hs : s.Settling live gen wl) : s'.Settling live gen wl := by
  unfold Settling at hs ⊢
  rw [h.poll, h.generation, h.promotionOwed]
  refine hs.imp_right (And.imp_right (Or.imp_right (Or.imp_right ?_)))
  intro hc
  cases hp : s.poll with
  | take l liveChanged =>
    rw [hp] at hc
    simp only [Poll.carries, Bool.or_eq_true] at hc ⊢
    exact hc.imp_left (Or.imp_right h.pending)
  | _ =>
    rw [hp] at hc
    exact hc

/-- While the poll runs it drops no capturer; where it ends, every one is on what it read or is to rebuild. -/
theorem settling_refresh (hs : s.Accounted) (hset : s.Settling live gen wl) (hbusy : s.poll ≠ .idle) {c : Capturer}
    (hc : c ∈ s.capturers) {transform : Int32} (hb : c.build = .streaming gen wl transform) :
    (s.refresh true s.poll).Settling live gen wl := by
  have hgen : gen ≤ s.generation := by
    have hacc := hs.capturers c hc
    rw [hb] at hacc
    exact hacc.1
  rcases hset with hp | ⟨hne, hset⟩
  · -- The comparison: what accounts for the capturer turns into an edge.
    rw [hp, refresh]
    refine .inr ⟨fun l h => (by cases h), ?_⟩
    have hacc := hs.capturers c hc
    rw [hb] at hacc
    simp only [Poll.carries, Bool.or_eq_true]
    rcases hacc.2 with hlt | ho | hun | ⟨hwl, hseen⟩
    · exact .inl hlt
    · simp only [owing, hp, Poll.due, Bool.or_false, Bool.or_eq_true] at ho
      tauto
    · rcases hgen.lt_or_eq with hlt | rfl
      · exact .inl hlt
      · exact .inr (.inr (.inl (.inl (WaylandLayout.edge_unseen hun))))
    · by_cases hsame : logicalRectsOf wl = live
      · exact .inr (.inl hsame)
      · have hnil : s.layout.seen ≠ [] := by
          rw [hseen]
          exact fun h => hwl (logicalRectsOf_eq_nil.1 h)
        exact .inr (.inr (.inl (.inl (WaylandLayout.edge_seen hnil fun h => hsame (hseen.symm.trans h)))))
  · cases hp : s.poll with
    | idle => exact absurd hp hbusy
    | compare l => exact absurd hp (hne l)
    | take l liveChanged =>
      rw [hp] at hset
      refine .inr ⟨fun l h => (by cases h), hset.imp_right (Or.imp_right fun h => ?_)⟩
      simpa only [refresh, Poll.carries] using h
    | owe l due =>
      rw [hp] at hset
      refine .inr ⟨fun l h => (by cases h), hset.imp_right (Or.imp_right fun h => ?_)⟩
      simp only [Poll.carries, Bool.or_eq_true] at h
      simpa only [refresh, Poll.carries, Bool.or_eq_true] using h.symm
    | decide l =>
      rw [hp] at hset
      rw [refresh, Bool.and_true]
      by_cases howed : s.promotionOwed = true
      · rw [if_pos howed]
        exact .inr ⟨fun l h => (by cases h), .inr (.inr rfl)⟩
      · rw [if_neg howed]
        refine .inr ⟨fun l h => (by cases h), hset.imp_right (Or.imp_right fun h => ?_)⟩
        exact absurd h howed
    | clear l => exact .inr ⟨fun l h => (by cases h), .inr (.inr rfl)⟩
    | bump l => exact .inr ⟨fun l h => (by cases h), .inl (Nat.lt_succ_of_le hgen)⟩
    | rebase l =>
      rw [hp] at hset
      refine .inr ⟨fun l h => (by cases h), hset.imp_right (Or.imp_right fun h => ?_)⟩
      cases h
    | publish l =>
      rw [hp] at hset
      refine .inr ⟨fun l h => (by cases h), hset.imp_right (Or.imp_right fun h => ?_)⟩
      cases h

/-- A capturer that streams is not built any further. -/
theorem streaming_stays {e : Event} (h : s.step getOriginalResolution e = some s') {c : Capturer} (hc : c ∈ s.capturers)
    {transform : Int32} (hb : c.build = .streaming gen wl transform) : c ∈ s'.capturers := by
  cases e with
  | compositor answer =>
    cases h
    exact hc
  | handshake drm wireIdx =>
    simp only [step, Option.dite_none_right_eq_some, Option.some.injEq] at h
    obtain ⟨_, rfl⟩ := h
    exact List.mem_append_left _ hc
  | capturer i =>
    obtain ⟨d, hd, h⟩ := Option.bind_eq_some_iff.1 h
    have hne : c ≠ d := by
      rintro rfl
      rw [construct, hb] at h
      cases h
    obtain ⟨b, hset⟩ : ∃ b, s'.capturers = s.capturers.set i { d with build := b } := by
      unfold construct at h
      obtain ⟨cache, hcache⟩ := getDisplays_eq (s := s)
      rw [hcache] at h
      cases hbd : d.build <;> rw [hbd] at h <;> cases h <;> exact ⟨_, rfl⟩
    rw [hset]
    exact mem_set_of_ne hd hc hne
  | sessionInit =>
    cases h
    exact hc
  | init k ok =>
    obtain ⟨init, -, h⟩ := Option.bind_eq_some_iff.1 h
    rw [(setUp_unseen h).2]
    exact hc
  | poll available =>
    cases h
    unfold refresh
    cases s.poll <;> dsimp only
    case idle =>
      cases s.compositor <;> dsimp only
      · exact hc
      · split <;> exact hc
    case decide => split <;> exact hc
    all_goals exact hc

/-- Only a poll that begins counts. -/
theorem refresh_polled {available : Bool} :
    s.polled ≤ (s.refresh available s.poll).polled ∧
      ((s.refresh available s.poll).polled = s.polled → s.poll = .idle → s.refresh available s.poll = s) := by
  cases hp : s.poll with
  | idle =>
    unfold refresh
    cases s.compositor <;> dsimp only
    · exact ⟨le_rfl, fun _ _ => rfl⟩
    · split
      · exact ⟨le_rfl, fun _ _ => rfl⟩
      · exact ⟨Nat.le_succ _, fun h => absurd h (Nat.succ_ne_self _)⟩
  | decide live =>
    rw [refresh]
    split <;> exact ⟨le_rfl, fun _ h => by cases h⟩
  | _ => exact ⟨le_rfl, fun _ h => by cases h⟩

/-- A step of any party, while the poll that is the `n`th runs with DRM available and when it has ended. -/
theorem settling_step {n : Nat} {c : Capturer} {transform : Int32} (hb : c.build = .streaming gen wl transform) {e : Event}
    (hs : s.Accounted ∧ c ∈ s.capturers ∧ n ≤ s.polled ∧ (s.polled = n → s.Settling live gen wl))
    (he : e ≠ .poll false) (h : s.step getOriginalResolution e = some s') :
    s'.Accounted ∧ c ∈ s'.capturers ∧ n ≤ s'.polled ∧ (s'.polled = n → s'.Settling live gen wl) := by
  obtain ⟨hacc, hc, hn, hset⟩ := hs
  refine ⟨step_accounted hacc h, streaming_stays h hc hb, ?_⟩
  by_cases hpoll : ∀ available, e ≠ .poll available
  · have ha := step_aside hpoll h
    rw [ha.polled]
    exact ⟨hn, fun heq => settling_of_aside ha (hset heq)⟩
  · simp only [not_forall, not_not] at hpoll
    obtain ⟨available, rfl⟩ := hpoll
    have htrue : available = true := by
      cases available with
      | true => rfl
      | false => exact absurd rfl he
    subst htrue
    cases h
    have hpolled : s.polled ≤ (s.refresh true s.poll).polled ∧ _ := refresh_polled
    obtain ⟨hle, hsame⟩ := hpolled
    refine ⟨hn.trans hle, fun heq => ?_⟩
    have hsn : s.polled = n := by omega
    by_cases hidle : s.poll = .idle
    · rw [hsame (heq.trans hsn.symm) hidle]
      exact hset hsn
    · exact settling_refresh hacc (hset hsn) hidle hc hb

end Desktop

section OnePoll

variable {s s' : Desktop} {getOriginalResolution : List Char → Nat → Nat → Int32 × Int32}
variable {displays wl : List WaylandDisplayInfo} {es : List Event} {c : Capturer} {gen : Nat} {transform : Int32}

/-- From any reachable state: a poll that begins, reads `displays` and runs to its end with DRM available, whatever
the compositor, the capturers being built and the session inits do meanwhile, leaves no capturer that streamed
before it on another layout: it is on the one the poll read, or gives up at its next frame and is rebuilt. -/
theorem poll_settles (hs : Reachable Desktop.Init (Desktop.step getOriginalResolution) s) (hidle : s.poll = .idle)
    (hanswer : s.compositor = some displays) (hne : displays ≠ []) (hc : c ∈ s.capturers)
    (hb : c.build = .streaming gen wl transform) (hav : Event.poll false ∉ es)
    (hrun : runs (Desktop.step getOriginalResolution) s (.poll true :: es) = some s') (hend : s'.poll = .idle)
    (hone : s'.polled = s.polled + 1) :
    c.rebuilds s'.generation = true ∨ logicalRectsOf wl = logicalRectsOf displays := by
  have hacc := Desktop.accounted_of_reachable hs
  obtain ⟨t, ht, hrun⟩ := Option.bind_eq_some_iff.1 hrun
  have hbegun : t.poll = .compare (logicalRectsOf displays) ∧ t.polled = s.polled + 1 := by
    cases ht
    rw [hidle, Desktop.refresh, hanswer]
    simp [hne]
  obtain ⟨hacc', hc', -, hset⟩ := runs_invariant (I := fun u => u.Accounted ∧ c ∈ u.capturers ∧
      s.polled + 1 ≤ u.polled ∧ (u.polled = s.polled + 1 → u.Settling (logicalRectsOf displays) gen wl))
    (G := fun e => e ≠ .poll false) (fun u e u' => Desktop.settling_step hb)
    ⟨Desktop.step_accounted hacc ht, Desktop.streaming_stays ht hc hb, hbegun.2.ge, fun _ => .inl hbegun.1⟩
    (fun e he h => by
      subst h
      exact hav he) hrun
  have hgen : gen ≤ s'.generation := by
    have hacc := hacc'.capturers c hc'
    rw [hb] at hacc
    exact hacc.1
  rcases hset hone with hcmp | ⟨-, hlt | hsame | hcarries⟩
  · rw [hend] at hcmp
    cases hcmp
  · left
    rw [Capturer.rebuilds, hb]
    simpa using hlt.ne
  · exact .inr hsame
  · rw [hend] at hcarries
    cases hcarries

end OnePoll

section Rotated

/-- A monitor that is turned while it is captured. -/
def turned (transform : Int32) : WaylandDisplayInfo := ⟨['D', 'P'], 0, 0, 4, 2, none, transform⟩

def captured : DrmDisplayInfo := ⟨['D', 'P'], 0, 0, 4, 2, true⟩

def upright : Desktop := { compositor := some [turned 0] }

/-- A capturer is built, and the monitor turns. -/
def untilTurned : List Event :=
  [.handshake [captured] 0, .capturer 0, .capturer 0, .capturer 0, .capturer 0, .compositor (some [turned 90])]

/-- The rest of a poll, a session init in between. -/
def afterRead : List Event :=
  [.sessionInit, .poll true, .init 0 true, .poll true, .init 0 true, .poll true, .init 0 true, .poll true,
    .poll true, .init 0 true, .poll true, .poll true, .poll true]

theorem poll_settles_turned : ∃ s s' c, runs (Desktop.step fun _ _ _ => (0, 0)) upright untilTurned = some s ∧
    c ∈ s.capturers ∧ runs (Desktop.step fun _ _ _ => (0, 0)) s (.poll true :: afterRead) = some s' ∧
    (c.rebuilds s'.generation = true ∨ logicalRectsOf [turned 0] = logicalRectsOf [turned 90]) := by
  obtain ⟨s, hs⟩ : ∃ s, runs (Desktop.step fun _ _ _ => (0, 0)) upright untilTurned = some s := ⟨_, rfl⟩
  obtain ⟨s', hs'⟩ : ∃ s', runs (Desktop.step fun _ _ _ => (0, 0)) s (.poll true :: afterRead) = some s' := by
    cases hs
    exact ⟨_, rfl⟩
  obtain ⟨c, hc, hb⟩ : ∃ c ∈ s.capturers, c.build = .streaming 0 [turned 0] 0 := by
    cases hs
    exact ⟨_, List.mem_singleton.2 rfl, rfl⟩
  refine ⟨s, s', c, hs, hc, hs', ?_⟩
  have hreach : Reachable Desktop.Init (Desktop.step fun _ _ _ => (0, 0)) s :=
    Reachable.append ⟨[], .start ⟨_, rfl⟩⟩ hs
  have hends : s.poll = .idle ∧ s.compositor = some [turned 90] ∧ s'.poll = .idle ∧ s'.polled = s.polled + 1 := by
    cases hs
    cases hs'
    exact ⟨rfl, rfl, rfl, rfl⟩
  exact poll_settles hreach hends.1 hends.2.1 (by simp) hc hb (by simp [afterRead]) hs' hends.2.2.1 hends.2.2.2

end Rotated

end FontisRemote.Drm
