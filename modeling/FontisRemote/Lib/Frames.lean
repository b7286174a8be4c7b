import Mathlib.Algebra.Order.Ring.Int
import Mathlib.Data.List.Basic
import Mathlib.Data.List.Range

/-!
# Frames

A list put together from numbered pieces: what stands at a place of it is found in the piece with that number.
-/

namespace FontisRemote.Lib

variable {α : Type}

theorem filterMap_range_get {f : Nat → Option α} {w : Nat} (hf : ∀ i, i < w → ∃ x, f i = some x) :
    ((List.range w).filterMap f).length = w ∧ ∀ i, i < w → ((List.range w).filterMap f)[i]? = f i := by
  induction w with
  | zero => exact ⟨rfl, fun i hi => absurd hi (Nat.not_lt_zero i)⟩
  | succ w ih =>
    obtain ⟨x, hx⟩ := hf w (Nat.lt_succ_self w)
    obtain ⟨hlen, hget⟩ := ih fun i hi => hf i (Nat.lt_succ_of_lt hi)
    rw [List.range_succ, List.filterMap_append, List.filterMap_cons, List.filterMap_nil, hx]
    refine ⟨by rw [List.length_append, hlen, List.length_singleton], fun i hi => ?_⟩
    rcases Nat.lt_succ_iff_lt_or_eq.1 hi with hlt | rfl
    · rw [List.getElem?_append_left (by omega), hget i hlt]
    · rw [List.getElem?_append_right (by omega), hlen, Nat.sub_self, hx]
      rfl

theorem flatMap_range_get {f : Nat → List α} {n w : Nat} (hf : ∀ k, k < n → (f k).length = w) :
    ((List.range n).flatMap f).length = n * w ∧
      ∀ k i, k < n → i < w → ((List.range n).flatMap f)[k * w + i]? = (f k)[i]? := by
  induction n with
  | zero => exact ⟨by simp, fun k i hk => absurd hk (Nat.not_lt_zero k)⟩
  | succ n ih =>
    obtain ⟨hlen, hget⟩ := ih fun k hk => hf k (Nat.lt_succ_of_lt hk)
    rw [List.range_succ, List.flatMap_append, List.flatMap_singleton]
    refine ⟨by rw [List.length_append, hlen, hf n (Nat.lt_succ_self n), Nat.succ_mul], fun k i hk hi => ?_⟩
    rcases Nat.lt_succ_iff_lt_or_eq.1 hk with hlt | rfl
    · have hmul := Nat.mul_le_mul_right w (Nat.succ_le_of_lt hlt)
      rw [Nat.succ_mul] at hmul
      rw [List.getElem?_append_left (by omega), hget k i hlt hi]
    · rw [List.getElem?_append_right (by omega), hlen, Nat.add_sub_cancel_left]

theorem mapM_eq_filterMap {β γ : Type} {f : β → Option γ} {l : List β} (h : ∀ b ∈ l, ∃ x, f b = some x) :
    l.mapM f = some (l.filterMap f) := by
  induction l with
  | nil => rfl
  | cons b l ih =>
    obtain ⟨x, hx⟩ := h b List.mem_cons_self
    rw [List.mapM_cons, hx, ih fun b' hb => h b' (List.mem_cons_of_mem _ hb), List.filterMap_cons, hx]
    rfl

end FontisRemote.Lib
