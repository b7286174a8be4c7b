import FontisRemote.Drm.Promotion

/-!
# A layout that does not change

Where the compositor gives the same answer all along, whatever the capturers being built and the session inits
do with the cache, the poll tears the capturers down once at most: when it compares before anything is known of
the layout and finds no snapshot cached.
-/

namespace FontisRemote.Drm

open FontisRemote.Lib

/-- The snapshot a capturer has taken. -/
def Build.snapshot : Build → Option (List WaylandDisplayInfo)
  | .waiting => none
  | .snapshotting _ => none
  | .orienting _ wl => some wl
  | .noting _ wl _ => some wl
  | .streaming _ wl _ => some wl

/-- What the poll in flight has read. -/
def Poll.read : Poll → Option (List DisplayRect)
  | .idle => none
  | .compare live => some live
  | .take live _ => some live
  | .owe live _ => some live
  | .decide live => some live
  | .clear live => some live
  | .bump live => some live
  | .rebase live => some live
  | .publish live => some live

namespace Desktop

variable {s s' : Desktop} {getOriginalResolution : List Char → Nat → Nat → Int32 × Int32}
variable {displays : List WaylandDisplayInfo}

/-- The compositor has answered with these displays all along. -/
structure Steady (displays : List WaylandDisplayInfo) (s : Desktop) : Prop where
  compositor : s.compositor = some displays
  cache : ∀ cached, s.cache = some cached → cached = displays
  baseline : s.layout.baseline = [] ∨ s.layout.baseline = logicalRectsOf displays
  seen : s.layout.seen = [] ∨ s.layout.seen = logicalRectsOf displays
  unseen : s.layout.unseenBuild = none
  pending : s.unrotatedPending = false
  capturers : ∀ c ∈ s.capturers, ∀ wl, c.build.snapshot = some wl → wl = displays
  inits : ∀ layout, SessionInit.apply layout ∈ s.inits → layout = logicalRectsOf displays
  poll : ∀ live, s.poll.read = some live → live = logicalRectsOf displays

theorem Steady.getDisplays (h : s.Steady displays) :
    s.getDisplays.1 = displays ∧ ∃ cache, s.getDisplays.2 = { s with cache := cache } ∧
      ∀ cached, cache = some cached → cached = displays := by
  unfold Desktop.getDisplays
  cases hc : s.cache with
  | some cached =>
    exact ⟨h.cache cached hc, s.cache, rfl, h.cache⟩
  | none =>
    dsimp only
    rw [h.compositor]
    exact ⟨rfl, some displays, rfl, fun cached hd => (Option.some.inj hd).symm⟩

theorem Steady.resetBaseline (h : s.Steady displays) (baseline : List DisplayRect) :
    (s.layout.resetBaseline baseline).seen = [] ∨ (s.layout.resetBaseline baseline).seen = logicalRectsOf displays := by
  unfold WaylandLayout.resetBaseline
  dsimp only
  split
  · exact h.baseline
  · exact h.seen

theorem steady_construct (hne : displays ≠ []) {i : Nat} {c : Capturer} (h : s.Steady displays)
    (hc : c ∈ s.capturers) (hstep : s.construct getOriginalResolution i c = some s') : s'.Steady displays := by
  obtain ⟨hget, cache, hcache, hcached⟩ := h.getDisplays
  have hset : ∀ {b : Build}, (∀ wl, b.snapshot = some wl → wl = displays) →
      ∀ d ∈ s.capturers.set i { c with build := b }, ∀ wl, d.build.snapshot = some wl → wl = displays := by
    intro b hb d hd
    rcases List.mem_or_eq_of_mem_set hd with hd | rfl
    · exact h.capturers d hd
    · exact hb
  unfold construct at hstep
  cases hb : c.build with
  | waiting =>
    rw [hb] at hstep
    cases hstep
    exact { h with capturers := hset fun wl hwl => by cases hwl }
  | snapshotting gen =>
    rw [hb, hcache, hget] at hstep
    cases hstep
    exact { h with cache := hcached, capturers := hset fun wl hwl => (Option.some.inj hwl).symm }
  | orienting gen wl =>
    rw [hb] at hstep
    cases hstep
    have hwl : wl = displays := h.capturers c hc wl (by rw [hb]; rfl)
    subst hwl
    have hpending : (transformAndOrigin getOriginalResolution c.drm c.wireIdx ⟨0, wl⟩ s.unrotatedPending).2 = false := by
      unfold transformAndOrigin
      split
      · simp [h.pending, hne]
      · exact h.pending
    exact { h with pending := hpending, capturers := hset fun w hw => (Option.some.inj hw).symm }
  | noting gen wl transform =>
    rw [hb] at hstep
    cases hstep
    have hwl : wl = displays := h.capturers c hc wl (by rw [hb]; rfl)
    subst hwl
    have hrects : logicalRectsOf wl ≠ [] := fun hnil => hne (logicalRectsOf_eq_nil.1 hnil)
    have hnote : (s.layout.noteCapturer (logicalRectsOf wl) gen).baseline = s.layout.baseline ∧
        (s.layout.noteCapturer (logicalRectsOf wl) gen).seen = logicalRectsOf wl ∧
        (s.layout.noteCapturer (logicalRectsOf wl) gen).unseenBuild = none := by
      unfold WaylandLayout.noteCapturer
      rw [if_neg (by simpa using hrects)]
      rcases h.seen with hseen | hseen
      · rw [if_pos (by simp [hseen])]
        exact ⟨rfl, rfl, h.unseen⟩
      · rw [if_neg (by simpa [hseen] using hrects), if_neg (not_not.2 hseen)]
        exact ⟨rfl, hseen, h.unseen⟩
    have hbaseline : (s.layout.noteCapturer (logicalRectsOf wl) gen).baseline = [] ∨
        (s.layout.noteCapturer (logicalRectsOf wl) gen).baseline = logicalRectsOf wl := by
      rw [hnote.1]
      exact h.baseline
    exact
      { h with
        baseline := hbaseline
        seen := .inr hnote.2.1
        unseen := hnote.2.2
        capturers := hset fun w hw => (Option.some.inj hw).symm }
  | streaming gen wl transform =>
    rw [hb] at hstep
    cases hstep

theorem steady_setUp (hne : displays ≠ []) {k : Nat} {ok : Bool} {init : SessionInit} (h : s.Steady displays)
    (hi : init ∈ s.inits) (hstep : s.setUp k ok init = some s') : s'.Steady displays := by
  obtain ⟨hget, cache, hcache, hcached⟩ := h.getDisplays
  have hset : ∀ {next : SessionInit}, (∀ layout, next = .apply layout → layout = logicalRectsOf displays) →
      ∀ layout, SessionInit.apply layout ∈ s.inits.set k next → layout = logicalRectsOf displays := by
    intro next hnext layout hl
    rcases List.mem_or_eq_of_mem_set hl with hl | hl
    · exact h.inits layout hl
    · exact hnext layout hl.symm
  cases init with
  | clear =>
    cases hstep
    exact { h with cache := fun cached hc => (by cases hc), inits := hset fun layout hl => (by cases hl) }
  | locate =>
    rw [setUp, hcache, hget, if_neg (by simpa using hne)] at hstep
    cases hstep
    exact { h with cache := hcached, inits := hset fun layout hl => by cases hl }
  | measure =>
    rw [setUp, hcache, hget] at hstep
    cases hstep
    exact { h with cache := hcached, inits := hset fun layout hl => (SessionInit.apply.inj hl).symm }
  | apply layout =>
    have hlayout := h.inits layout hi
    cases ok with
    | false =>
      cases hstep
      exact { h with inits := hset fun layout hl => by cases hl }
    | true =>
      cases hstep
      exact
        { h with
          baseline := .inr hlayout
          seen := h.resetBaseline layout
          inits := hset fun layout hl => by cases hl }
  | done => cases hstep

theorem steady_refresh (hne : displays ≠ []) {available : Bool} (h : s.Steady displays) :
    (s.refresh available s.poll).Steady displays := by
  cases hp : s.poll with
  | idle =>
    rw [refresh, h.compositor]
    dsimp only
    rw [if_neg (by simpa using hne)]
    exact { h with compositor := rfl, poll := fun live hl => (Option.some.inj hl).symm }
  | compare live =>
    have hlive : live = logicalRectsOf displays := h.poll live (by rw [hp]; rfl)
    exact { h with seen := .inr hlive, unseen := rfl, poll := fun l hl => (Option.some.inj hl) ▸ hlive }
  | take live liveChanged =>
    have hlive : live = logicalRectsOf displays := h.poll live (by rw [hp]; rfl)
    exact { h with pending := rfl, poll := fun l hl => (Option.some.inj hl) ▸ hlive }
  | owe live due =>
    have hlive : live = logicalRectsOf displays := h.poll live (by rw [hp]; rfl)
    exact { h with poll := fun l hl => (Option.some.inj hl) ▸ hlive }
  | decide live =>
    have hlive : live = logicalRectsOf displays := h.poll live (by rw [hp]; rfl)
    rw [refresh]
    split
    · exact { h with poll := fun l hl => (Option.some.inj hl) ▸ hlive }
    · exact { h with poll := fun l hl => by cases hl }
  | clear live =>
    have hlive : live = logicalRectsOf displays := h.poll live (by rw [hp]; rfl)
    exact { h with cache := fun cached hc => (by cases hc), poll := fun l hl => (Option.some.inj hl) ▸ hlive }
  | bump live =>
    have hlive : live = logicalRectsOf displays := h.poll live (by rw [hp]; rfl)
    exact { h with poll := fun l hl => (Option.some.inj hl) ▸ hlive }
  | rebase live =>
    have hlive : live = logicalRectsOf displays := h.poll live (by rw [hp]; rfl)
    exact
      { h with
        baseline := .inr hlive
        seen := h.resetBaseline live
        poll := fun l hl => (Option.some.inj hl) ▸ hlive }
  | publish live => exact { h with poll := fun l hl => by cases hl }

theorem steady_step (hne : displays ≠ []) {e : Event} (he : ∀ answer, e ≠ .compositor answer) (h : s.Steady displays)
    (hstep : s.step getOriginalResolution e = some s') : s'.Steady displays := by
  cases e with
  | compositor answer => exact absurd rfl (he answer)
  | handshake drm wireIdx =>
    simp only [step, Option.dite_none_right_eq_some, Option.some.injEq] at hstep
    obtain ⟨_, rfl⟩ := hstep
    refine { h with capturers := ?_ }
    intro c hc wl hwl
    rcases List.mem_append.1 hc with hc | hc
    · exact h.capturers c hc wl hwl
    · rw [List.mem_singleton.1 hc] at hwl
      cases hwl
  | capturer i =>
    obtain ⟨c, hc, hstep⟩ := Option.bind_eq_some_iff.1 hstep
    exact steady_construct hne h (List.mem_of_getElem? hc) hstep
  | sessionInit =>
    cases hstep
    refine { h with inits := ?_ }
    intro layout hl
    rcases List.mem_append.1 hl with hl | hl
    · exact h.inits layout hl
    · cases List.mem_singleton.1 hl
  | init k ok =>
    obtain ⟨init, hi, hstep⟩ := Option.bind_eq_some_iff.1 hstep
    exact steady_setUp hne h (List.mem_of_getElem? hi) hstep
  | poll available =>
    cases hstep
    exact steady_refresh hne h

/-- How many times the generation was raised, and how many it is going to be. -/
def promotions (s : Desktop) : Nat := s.generation + s.promotionOwed.toNat + s.poll.due.toNat

/-- A poll compares before anything is known of the layout: no init has applied one, no capturer recorded one. -/
def Blind (s : Desktop) (e : Event) : Prop :=
  ∃ available live, e = .poll available ∧ s.poll = .compare live ∧ s.layout.seen = [] ∧ s.layout.baseline = []

theorem promotions_aside (h : Aside s s') : s'.promotions = s.promotions := by
  unfold promotions
  rw [h.generation, h.promotionOwed, h.poll]

theorem edge_steady (h : s.Steady displays) (hne : displays ≠ []) {missing : Bool} :
    s.layout.edge (logicalRectsOf displays) missing s.generation =
      (s.layout.seen.isEmpty && s.layout.baseline.isEmpty && missing) := by
  have hrects : logicalRectsOf displays ≠ [] := fun hnil => hne (logicalRectsOf_eq_nil.1 hnil)
  unfold WaylandLayout.edge
  rw [h.unseen, if_neg (by simp)]
  rcases h.seen with hs | hs
  · rcases h.baseline with hb | hb
    · simp [hs, hb]
    · simp [hs, hb, hrects]
  · simp [hs, hrects]

/-- Of the poll's operations the comparison alone can bring a promotion about. -/
theorem promotions_refresh (hne : displays ≠ []) {available : Bool} (h : s.Steady displays) :
    (s.refresh available s.poll).promotions ≤ s.promotions ∨
      s.Blind (.poll available) ∧ (s.refresh available s.poll).promotions ≤ s.promotions + 1 ∧
        (s.refresh available s.poll).layout.seen = logicalRectsOf displays := by
  cases hp : s.poll with
  | idle =>
    left
    rw [refresh, h.compositor]
    dsimp only
    rw [if_neg (by simpa using hne)]
    simp [promotions, hp, Poll.due]
  | compare live =>
    have hlive : live = logicalRectsOf displays := h.poll live (by rw [hp]; rfl)
    subst hlive
    cases hedge : s.layout.edge (logicalRectsOf displays) s.cache.isNone s.generation with
    | false =>
      left
      simp [refresh, promotions, hp, Poll.due, hedge]
    | true =>
      right
      have hdue : (s.refresh available (.compare (logicalRectsOf displays))).promotions = s.promotions + 1 := by
        simp [refresh, promotions, hp, Poll.due, hedge]
      rw [edge_steady h hne] at hedge
      simp only [Bool.and_eq_true, List.isEmpty_iff] at hedge
      exact ⟨⟨available, _, rfl, hp, hedge.1.1, hedge.1.2⟩, hdue.le, rfl⟩
  | take live liveChanged =>
    left
    simp [refresh, promotions, hp, Poll.due, h.pending]
  | owe live due =>
    left
    have hle : ∀ owed due : Bool, (owed || due).toNat ≤ owed.toNat + due.toNat := by decide
    have := hle s.promotionOwed due
    simp only [refresh, promotions, hp, Poll.due, Bool.toNat_false]
    omega
  | decide live =>
    left
    rw [refresh]
    split
    · rename_i howed
      rw [Bool.and_eq_true] at howed
      simp [promotions, hp, Poll.due, howed.1]
    · simp [promotions, hp, Poll.due]
  | clear live =>
    left
    simp [refresh, promotions, hp, Poll.due]
  | bump live =>
    left
    simp only [refresh, promotions, hp, Poll.due, Bool.toNat_true, Bool.toNat_false]
    omega
  | rebase live =>
    left
    simp [refresh, promotions, hp, Poll.due]
  | publish live =>
    left
    simp [refresh, promotions, hp, Poll.due]

theorem refresh_seen (hne : displays ≠ []) {available : Bool} (h : s.Steady displays)
    (hseen : s.layout.seen = logicalRectsOf displays) :
    (s.refresh available s.poll).layout.seen = logicalRectsOf displays := by
  have hnil : s.layout.seen ≠ [] := by
    rw [hseen]
    exact fun h => hne (logicalRectsOf_eq_nil.1 h)
  cases hp : s.poll with
  | idle =>
    rw [refresh, h.compositor]
    dsimp only
    rwa [if_neg (by simpa using hne)]
  | compare live => exact h.poll live (by rw [hp]; rfl)
  | decide live =>
    rw [refresh]
    split <;> exact hseen
  | rebase live => exact (WaylandLayout.resetBaseline_seen hnil).trans hseen
  | _ => exact hseen

/-- Nothing was promoted, or what the poll compares with is the one layout there is. -/
theorem promotions_step (hne : displays ≠ []) {e : Event} (he : ∀ answer, e ≠ .compositor answer)
    (h : s.Steady displays) (hstep : s.step getOriginalResolution e = some s')
    (hs : s.promotions = 0 ∨ s.layout.seen = logicalRectsOf displays ∧ s.promotions ≤ 1) :
    (s'.promotions = 0 ∨ s'.layout.seen = logicalRectsOf displays ∧ s'.promotions ≤ 1) ∧
      (¬ s.Blind e → s.promotions = 0 → s'.promotions = 0) := by
  by_cases hpoll : ∀ available, e ≠ .poll available
  · have ha := step_aside hpoll hstep
    rw [promotions_aside ha]
    refine ⟨hs.imp_right fun ⟨hseen, hle⟩ => ⟨?_, hle⟩, fun _ h0 => h0⟩
    refine (ha.seen ?_).trans hseen
    rw [hseen]
    exact fun h => hne (logicalRectsOf_eq_nil.1 h)
  · simp only [not_forall, not_not] at hpoll
    obtain ⟨available, rfl⟩ := hpoll
    cases hstep
    have hrefresh : (s.refresh available s.poll).promotions ≤ s.promotions ∨ _ := promotions_refresh hne h
    rcases hrefresh with hle | ⟨hblind, hle, hseen⟩
    · refine ⟨?_, fun _ h0 => Nat.le_zero.1 (hle.trans_eq h0)⟩
      rcases hs with h0 | ⟨hseen, h1⟩
      · exact .inl (Nat.le_zero.1 (hle.trans_eq h0))
      · exact .inr ⟨refresh_seen hne h hseen, hle.trans h1⟩
    · refine ⟨.inr ⟨hseen, ?_⟩, fun hnot => absurd hblind hnot⟩
      rcases hs with h0 | ⟨hsame, -⟩
      · exact hle.trans_eq (by rw [h0])
      · obtain ⟨-, -, -, -, hnil, -⟩ := hblind
        exact absurd (logicalRectsOf_eq_nil.1 (hsame.symm.trans hnil)) hne

end Desktop

section SteadyRuns

variable {s : Desktop} {getOriginalResolution : List Char → Nat → Nat → Int32 × Int32}
variable {displays : List WaylandDisplayInfo} {h : List (Desktop × Event)}

/-- Where the compositor answers with the same displays throughout a run, whatever is built, cleared and polled in
it, the capturers are torn down once at most; and never, if an init had applied its layout or a capturer recorded
one whenever a poll compared. -/
theorem steady_layout (hne : displays ≠ [])
    (hx : Exec (fun s => s = { compositor := some displays }) (Desktop.step getOriginalResolution) h s)
    (hsteady : ∀ p ∈ h, ∀ answer, p.2 ≠ .compositor answer) :
    s.generation ≤ 1 ∧ ((∀ p ∈ h, ¬ p.1.Blind p.2) → s.generation = 0) := by
  have hstart : (Desktop.Steady displays { compositor := some displays }) :=
    ⟨rfl, fun _ hc => (by cases hc), .inl rfl, .inl rfl, rfl, rfl, fun _ hc => (by cases hc), fun _ hl => (by cases hl),
      fun _ hl => (by cases hl)⟩
  have hinv : s.Steady displays ∧ (s.promotions = 0 ∨ s.layout.seen = logicalRectsOf displays ∧ s.promotions ≤ 1) ∧
      ((∀ p ∈ h, ¬ p.1.Blind p.2) → s.promotions = 0) := by
    induction hx with
    | start hs =>
      subst hs
      exact ⟨hstart, .inl rfl, fun _ => rfl⟩
    | snoc hx hstep ih =>
      obtain ⟨hs, hcount, hzero⟩ := ih fun p hp => hsteady p (List.mem_cons_of_mem _ hp)
      have he := hsteady _ (List.mem_cons_self ..)
      obtain ⟨hcount', hkeep⟩ := Desktop.promotions_step hne he hs hstep hcount
      refine ⟨Desktop.steady_step hne he hs hstep, hcount', fun hblind => ?_⟩
      exact hkeep (hblind _ (List.mem_cons_self ..)) (hzero fun p hp => hblind p (List.mem_cons_of_mem _ hp))
  obtain ⟨-, hcount, hzero⟩ := hinv
  have hgen : s.generation ≤ s.promotions := (Nat.le_add_right ..).trans (Nat.le_add_right ..)
  refine ⟨?_, fun hblind => Nat.le_zero.1 (hgen.trans_eq (hzero hblind))⟩
  rcases hcount with h0 | ⟨-, h1⟩
  · exact (hgen.trans_eq h0).trans (Nat.zero_le _)
  · exact hgen.trans h1

/-- A poll before anything else: nothing is cached yet, and it promotes. -/
def firstPoll : List Event :=
  [.poll true, .poll true, .poll true, .poll true, .poll true, .poll true, .poll true, .poll true, .poll true]

theorem steady_layout_once : ∃ h s, trace (Desktop.step fun _ _ _ => (0, 0)) upright firstPoll = some (h, s) ∧
    (s.generation ≤ 1 ∧ ((∀ p ∈ h, ¬ p.1.Blind p.2) → s.generation = 0)) ∧ s.generation = 1 := by
  obtain ⟨r, hr⟩ : ∃ r, trace (Desktop.step fun _ _ _ => (0, 0)) upright firstPoll = some r := ⟨_, rfl⟩
  refine ⟨r.1, r.2, hr, ?_, ?_⟩
  · have hx : Exec (fun s => s = upright) (Desktop.step fun _ _ _ => (0, 0)) (r.1 ++ []) r.2 :=
      Exec.trace (.start rfl) hr
    rw [List.append_nil] at hx
    have hne : [turned 0] ≠ [] := by simp
    refine steady_layout hne hx ?_
    intro p hp answer heq
    have hmem := trace_events hr p hp
    rw [heq] at hmem
    simp [firstPoll] at hmem
  · cases hr
    rfl

end SteadyRuns

end FontisRemote.Drm
