import Mathlib.Algebra.Order.Field.Rat
import Mathlib.Data.List.MinMax
import Mathlib.Tactic.Linarith
import Mathlib.Tactic.NormNum
import FontisRemote.Video.Evidence

/-!
# The bitrate ratio in exact numbers

With rationals for ratios a product is what it says. The bounds are then in order and positive, so that
`clamp` has no panic, and a step that is asked for is at most one.
-/

namespace FontisRemote.Video

open FontisRemote.Lib

instance : RatioNumber ℚ where
  decLt := inferInstance
  decLe := inferInstance
  ofU32 n := (n % 2 ^ 32 : Nat)

theorem fmin_eq (a b : ℚ) : fmin a b = min a b := by
  unfold fmin
  split
  · rename_i h
    exact (min_eq_right h.le).symm
  · rename_i h
    exact (min_eq_left (not_lt.mp h)).symm

theorem fmax_eq (a b : ℚ) : fmax a b = max a b := by
  unfold fmax
  split
  · rename_i h
    exact (max_eq_right h.le).symm
  · rename_i h
    exact (max_eq_left (not_lt.mp h)).symm

theorem fclamp_mem {lo hi : ℚ} (h : lo ≤ hi) (v : ℚ) : lo ≤ fclamp lo hi v ∧ fclamp lo hi v ≤ hi := by
  unfold fclamp
  split
  · exact ⟨le_refl lo, h⟩
  · split
    · exact ⟨h, le_refl hi⟩
    · rename_i hlo hhi
      exact ⟨not_lt.mp hlo, not_lt.mp hhi⟩

theorem fclamp_le {lo hi v m : ℚ} (hlo : lo ≤ m) (hv : v ≤ m) : fclamp lo hi v ≤ m := by
  unfold fclamp
  split
  · exact hlo
  · split
    · rename_i hhi
      exact hhi.le.trans hv
    · exact hv

/-! ## What goes into an adjustment -/

theorem Quality.min_le_ratio (q : Quality ℚ) : BR_MIN ≤ q.ratio := by
  cases q with
  | best => decide +kernel
  | balanced => decide +kernel
  | low => decide +kernel
  | custom ratio =>
    obtain ⟨val, v, rfl⟩ := ratio
    exact (fclamp_mem (by decide +kernel) v).1

theorem UserDelay.ratioReduction_mem {d : UserDelay} {factor : ℚ} (h : d.ratioReduction = some factor) :
    0 < factor ∧ factor ≤ 1 := by
  unfold ratioReduction at h
  split at h
  · obtain rfl := Option.some.inj h
    split
    · norm_num
    · split
      · norm_num
      · split
        · split <;> norm_num
        · split <;> norm_num
  · cases h

namespace VideoQoS

variable {qos : VideoQoS ℚ}

/-- The step that is taken is one that a viewer asks for. -/
theorem reduction_mem {factor : ℚ} (h : qos.reduction = some factor) :
    factor ∈ qos.users.filterMap fun p => p.2.delay.ratioReduction := by
  have hmin : (fmin : ℚ → ℚ → ℚ) = min := funext fun a => funext fun b => fmin_eq a b
  unfold reduction at h
  rw [hmin] at h
  split at h
  · cases h
  · rename_i first rest hasked
    rw [hasked]
    exact List.min?_mem h

theorem maxRatio_eq : qos.maxRatio = qos.latestQuality.ratio := by
  have hone : (MAX_BR_MULTIPLE : ℚ) = 1 := by decide +kernel
  unfold maxRatio
  rw [hone]
  exact mul_one _

theorem lower_le (min : ℚ) : qos.lower min ≤ min := by
  unfold lower
  split
  · split
    · rename_i h
      exact h.le
    · exact le_refl min
  · exact le_refl min

theorem lower_mono {s : VideoQoS ℚ} (hbitrate : s.bitrateStore = qos.bitrateStore) (h : s.ratio ≤ qos.ratio)
    (min : ℚ) : s.lower min ≤ qos.lower min := by
  have hdiv : fmax (s.ratio * 1000.0 / ofU32 qos.bitrateStore) BR_MIN_HIGH_RESOLUTION ≤
      fmax (qos.ratio * 1000.0 / ofU32 qos.bitrateStore) (BR_MIN_HIGH_RESOLUTION : ℚ) := by
    rw [fmax_eq, fmax_eq]
    refine max_le_max_right _ (div_le_div_of_nonneg_right ?_ (Nat.cast_nonneg _))
    exact mul_le_mul_of_nonneg_right h (by norm_num)
  unfold lower ratio1mbps
  rw [hbitrate]
  split
  · rename_i ratio hratio
    split at hratio
    · obtain rfl := Option.some.inj hratio
      rename_i hpos
      rw [if_pos hpos]
      dsimp only
      split
      · split
        · exact hdiv
        · rename_i hr _
          exact hr.le
      · rename_i hr
        rw [if_neg fun hs => hr (hdiv.trans_lt hs)]
    · cases hratio
  · rename_i hnone
    split at hnone
    · cases hnone
    · rename_i hpos
      rw [if_neg hpos]

/-- `clamp` has no panic: the bounds are in order. -/
theorem minRatio_le_maxRatio : qos.minRatio ≤ qos.maxRatio := by
  rw [maxRatio_eq]
  unfold minRatio
  cases qos.latestQuality with
  | best =>
    dsimp only
    rw [fmax_eq]
    exact max_le (lower_le _ |>.trans (by decide +kernel)) (by decide +kernel)
  | balanced =>
    dsimp only
    rw [fmax_eq]
    exact max_le (lower_le _ |>.trans (by decide +kernel)) (by decide +kernel)
  | low => exact (by decide +kernel : (BR_MIN_HIGH_RESOLUTION : ℚ) ≤ BR_SPEED)
  | custom ratio =>
    exact (by decide +kernel : (BR_MIN_HIGH_RESOLUTION : ℚ) ≤ BR_MIN).trans (Quality.custom ratio).min_le_ratio

theorem minRatio_pos : 0 < qos.minRatio := by
  have hhigh : (0 : ℚ) < BR_MIN_HIGH_RESOLUTION := by decide +kernel
  unfold minRatio
  cases qos.latestQuality with
  | best =>
    dsimp only
    rw [fmax_eq]
    exact lt_max_of_lt_right (by decide +kernel)
  | balanced =>
    dsimp only
    rw [fmax_eq]
    exact lt_max_of_lt_right hhigh
  | low => exact hhigh
  | custom ratio => exact hhigh

/-- The lower bound comes down with the ratio. -/
theorem minRatio_mono {s : VideoQoS ℚ} (hquality : s.latestQuality = qos.latestQuality)
    (hbitrate : s.bitrateStore = qos.bitrateStore) (h : s.ratio ≤ qos.ratio) :
    s.minRatio ≤ qos.minRatio := by
  unfold minRatio
  rw [hquality]
  cases qos.latestQuality with
  | best =>
    dsimp only
    rw [fmax_eq, fmax_eq]
    exact max_le_max_right _ (lower_mono hbitrate h _)
  | balanced =>
    dsimp only
    rw [fmax_eq, fmax_eq]
    exact max_le_max_right _ (lower_mono hbitrate h _)
  | low => exact le_refl _
  | custom ratio => exact le_refl _

end VideoQoS

end FontisRemote.Video
