import FontisRemote.Video.UserDelay
import Mathlib.Data.List.Induction

/-!
# The baseline of a viewer's delay

`RttCalculator` over a whole run of `update` calls. The samples it holds are the last ones given
(`samples_updates`), and the baseline lies under all of them: a sample below it takes it down at once, and
a climb stops at the lower of the two floors of a full window, so a floor that leaves the window is never
needed to keep it there (`Under.update`).
-/

namespace FontisRemote.Video

namespace RttCalculator

/-! ## One update -/

section Floors

variable {samples : List Nat} {baseline older recent : Nat}

/-- The two floors of a window, and what the climb makes of them. -/
theorem relearn_eq (holder : (samples.take (WINDOW_SAMPLES / 2)).min? = some older)
    (hrecent : (samples.drop (WINDOW_SAMPLES / 2)).min? = some recent) :
    relearn baseline samples =
      if recent > older + 10 then baseline
      else if min older recent - baseline > 0 then
        baseline + clamp 1 MAX_INCREASE_MS ((min older recent - baseline) / 2)
      else baseline := by
  simp only [relearn, holder, hrecent]

theorem clamp_le {rise : Nat} (hrise : rise > 0) : clamp 1 MAX_INCREASE_MS (rise / 2) ≤ rise := by
  unfold clamp MAX_INCREASE_MS
  split_ifs <;> omega

theorem clamp_le_max (rise : Nat) : clamp 1 MAX_INCREASE_MS (rise / 2) ≤ MAX_INCREASE_MS := by
  unfold clamp MAX_INCREASE_MS
  split_ifs <;> omega

/-- The window has samples in both halves, so it has both floors. -/
theorem floors (hfull : ¬samples.length < WINDOW_SAMPLES) :
    ∃ older recent, (samples.take (WINDOW_SAMPLES / 2)).min? = some older ∧
      (samples.drop (WINDOW_SAMPLES / 2)).min? = some recent := by
  have hlen : 20 ≤ samples.length := not_lt.1 hfull
  have htake : samples.take (WINDOW_SAMPLES / 2) ≠ [] := by
    intro hnil
    have hzero := congrArg List.length hnil
    simp only [List.length_take, WINDOW_SAMPLES, List.length_nil] at hzero
    omega
  have hdrop : samples.drop (WINDOW_SAMPLES / 2) ≠ [] := by
    intro hnil
    have hzero := congrArg List.length hnil
    simp only [List.length_drop, WINDOW_SAMPLES, List.length_nil] at hzero
    omega
  obtain ⟨older, holder⟩ := Option.isSome_iff_exists.1 (List.isSome_min?_of_ne_nil htake)
  obtain ⟨recent, hrecent⟩ := Option.isSome_iff_exists.1 (List.isSome_min?_of_ne_nil hdrop)
  exact ⟨older, recent, holder, hrecent⟩

/-- A climb stops at the lower floor, and both floors lie under the samples of their half. -/
theorem relearn_under (hfull : ¬samples.length < WINDOW_SAMPLES) (h : ∀ d ∈ samples, baseline ≤ d) :
    ∀ d ∈ samples, relearn baseline samples ≤ d := by
  obtain ⟨older, recent, holder, hrecent⟩ := floors hfull
  have hfloor : ∀ d ∈ samples, min older recent ≤ d := by
    intro d hd
    rw [← List.take_append_drop (WINDOW_SAMPLES / 2) samples] at hd
    rcases List.mem_append.1 hd with hd | hd
    · exact (min_le_left _ _).trans ((List.min?_eq_some_iff.1 holder).2 d hd)
    · exact (min_le_right _ _).trans ((List.min?_eq_some_iff.1 hrecent).2 d hd)
  intro d hd
  rw [relearn_eq holder hrecent]
  split_ifs with hgrowing hrise
  · exact h d hd
  · have hclimb := clamp_le hrise
    have := hfloor d hd
    omega
  · exact h d hd

theorem relearn_gradual (hfull : ¬samples.length < WINDOW_SAMPLES) :
    relearn baseline samples ≤ baseline + MAX_INCREASE_MS := by
  obtain ⟨older, recent, holder, hrecent⟩ := floors hfull
  rw [relearn_eq holder hrecent]
  split_ifs
  · exact Nat.le_add_right _ _
  · exact Nat.add_le_add_left (clamp_le_max _) _
  · exact Nat.le_add_right _ _

/-- A rising floor may be a growing queue. -/
theorem relearn_rising (holder : (samples.take (WINDOW_SAMPLES / 2)).min? = some older)
    (hrecent : (samples.drop (WINDOW_SAMPLES / 2)).min? = some recent) (hgrowing : older + 10 < recent) :
    relearn baseline samples = baseline := by
  rw [relearn_eq holder hrecent, if_pos hgrowing]

end Floors

variable {c : RttCalculator}

/-- The window after a sample. -/
def slide (samples : List Nat) (delay : Nat) : List Nat :=
  (if samples.length ≥ WINDOW_SAMPLES then samples.tail else samples) ++ [delay]

theorem update_samples (c : RttCalculator) (delay : Nat) : (c.update delay).samples = slide c.samples delay := by
  unfold update slide
  dsimp only
  split_ifs <;> rfl

theorem update_baseline (c : RttCalculator) (delay : Nat) :
    (c.update delay).baseline = some (
      if (slide c.samples delay).length < WINDOW_SAMPLES then min (c.baseline.getD delay) delay
      else relearn (min (c.baseline.getD delay) delay) (slide c.samples delay)) := by
  unfold update slide
  dsimp only
  split_ifs <;> rfl

/-! ## Runs of updates -/

/-- The calculator after these samples, oldest first. -/
def updates (delays : List Nat) : RttCalculator :=
  delays.foldl update {}

theorem updates_snoc (delays : List Nat) (delay : Nat) :
    updates (delays ++ [delay]) = (updates delays).update delay := by
  simp only [updates, List.foldl_append, List.foldl_cons, List.foldl_nil]

/-- The last samples of a history, as many as a window holds. -/
def window (delays : List Nat) : List Nat :=
  delays.drop (delays.length - WINDOW_SAMPLES)

theorem slide_window (delays : List Nat) (delay : Nat) :
    slide (window delays) delay = window (delays ++ [delay]) := by
  simp only [slide, window, List.length_drop, List.length_append, List.length_singleton]
  have hwindow : WINDOW_SAMPLES = 20 := rfl
  by_cases hlong : WINDOW_SAMPLES ≤ delays.length
  · rw [if_pos (by omega), List.tail_drop, List.drop_append_of_le_length (by omega)]
    congr 2
    omega
  · rw [if_neg (by omega)]
    have hzero : delays.length - WINDOW_SAMPLES = 0 := by omega
    have hnext : delays.length + 1 - WINDOW_SAMPLES = 0 := by omega
    rw [hzero, hnext, List.drop_zero, List.drop_zero]

/-- The calculator holds the last samples. -/
theorem samples_updates (delays : List Nat) : (updates delays).samples = window delays := by
  induction delays using List.reverseRecOn with
  | nil => rfl
  | append_singleton delays delay ih => rw [updates_snoc, update_samples, ih, slide_window]

/-- The baseline lies under every sample held. -/
structure Under (c : RttCalculator) : Prop where
  none : c.getRtt = none → c.samples = []
  le : ∀ b, c.getRtt = some b → ∀ d ∈ c.samples, b ≤ d

theorem Under.update (h : c.Under) (delay : Nat) : (c.update delay).Under := by
  have hheld : ∀ d ∈ c.samples, min (c.baseline.getD delay) delay ≤ d := by
    intro d hd
    cases hb : c.baseline with
    | none =>
      rw [h.none hb] at hd
      cases hd
    | some b => exact (min_le_left _ _).trans (h.le b hb d hd)
  have hslide : ∀ d ∈ slide c.samples delay, min (c.baseline.getD delay) delay ≤ d := by
    intro d hd
    unfold slide at hd
    rcases List.mem_append.1 hd with hd | hd
    · split_ifs at hd
      · exact hheld d (List.mem_of_mem_tail hd)
      · exact hheld d hd
    · rw [List.mem_singleton.1 hd]
      exact min_le_right _ _
  constructor
  · intro hnone
    rw [getRtt, update_baseline] at hnone
    cases hnone
  · intro b hb d hd
    rw [update_samples] at hd
    rw [getRtt, update_baseline] at hb
    cases hb
    split_ifs with hshort
    · exact hslide d hd
    · exact relearn_under hshort hslide d hd

theorem under_updates (delays : List Nat) : (updates delays).Under := by
  induction delays using List.reverseRecOn with
  | nil => exact ⟨fun _ => rfl, fun b hb => by cases hb⟩
  | append_singleton delays delay ih =>
    rw [updates_snoc]
    exact ih.update delay

/-- There is a baseline from the first sample on. -/
theorem getRtt_updates (delays : List Nat) : (updates delays).getRtt = none ↔ delays = [] := by
  cases delays using List.reverseRecOn with
  | nil => exact iff_of_true rfl rfl
  | append_singleton delays delay =>
    rw [updates_snoc, getRtt, update_baseline]
    simp

/-- What a sample makes of a baseline: it takes it down to itself, and a climb from there is gradual. -/
theorem update_gradual {b : Nat} (hb : c.getRtt = some b) (delay : Nat) :
    ∃ b', (c.update delay).getRtt = some b' ∧ b' ≤ b + MAX_INCREASE_MS := by
  have hfall : min (c.baseline.getD delay) delay ≤ b := by
    rw [show c.baseline = some b from hb, Option.getD_some]
    exact min_le_left _ _
  refine ⟨_, update_baseline c delay, ?_⟩
  split_ifs with hshort
  · omega
  · have hclimb : relearn (min (c.baseline.getD delay) delay) _ ≤ _ := relearn_gradual hshort
    omega

/-- No climb while the floor of the window is still rising. -/
theorem update_rising {b older recent : Nat} (hb : c.getRtt = some b) (delay : Nat)
    (holder : ((slide c.samples delay).take (WINDOW_SAMPLES / 2)).min? = some older)
    (hrecent : ((slide c.samples delay).drop (WINDOW_SAMPLES / 2)).min? = some recent)
    (hgrowing : older + 10 < recent) : ∃ b', (c.update delay).getRtt = some b' ∧ b' ≤ b := by
  have hfall : min (c.baseline.getD delay) delay ≤ b := by
    rw [show c.baseline = some b from hb, Option.getD_some]
    exact min_le_left _ _
  refine ⟨_, update_baseline c delay, ?_⟩
  split_ifs with hshort
  · exact hfall
  · rw [relearn_rising holder hrecent hgrowing]
    exact hfall

/-- After every sequence of samples but the empty one there is a baseline, and it is at most each of the
last twenty; a further sample raises it by fifty milliseconds at most, and not at all when it fills a window
whose newer half has a floor more than ten milliseconds above the older half's. -/
theorem baseline_under_window (delays : List Nat) (delay : Nat) :
    ((updates delays).getRtt = none ↔ delays = []) ∧
    (∀ b, (updates delays).getRtt = some b → ∀ d ∈ window delays, b ≤ d) ∧
      (∀ b, (updates delays).getRtt = some b →
        ∃ b', (updates (delays ++ [delay])).getRtt = some b' ∧ b' ≤ b + MAX_INCREASE_MS ∧
          ∀ older recent, (window (delays ++ [delay])).length = WINDOW_SAMPLES →
            ((window (delays ++ [delay])).take (WINDOW_SAMPLES / 2)).min? = some older →
            ((window (delays ++ [delay])).drop (WINDOW_SAMPLES / 2)).min? = some recent →
            older + 10 < recent → b' ≤ b) := by
  refine ⟨getRtt_updates delays, ?_, ?_⟩
  · intro b hb d hd
    rw [← samples_updates] at hd
    exact (under_updates delays).le b hb d hd
  · intro b hb
    rw [updates_snoc, ← slide_window, ← samples_updates]
    obtain ⟨b', hb', hgradual⟩ := update_gradual hb delay
    refine ⟨b', hb', hgradual, ?_⟩
    intro older recent _ holder hrecent hgrowing
    obtain ⟨b'', hb'', hle⟩ := update_rising hb delay holder hrecent hgrowing
    rw [hb'] at hb''
    cases hb''
    exact hle

end RttCalculator

end FontisRemote.Video
