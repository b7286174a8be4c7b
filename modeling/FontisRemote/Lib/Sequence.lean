import Mathlib.Algebra.Order.Ring.Int
import Mathlib.Data.List.Basic

/-!
# Gaps in a numbered stream

The numbers taken from a stream are increasing. The one at a place differs from the one that was due there
exactly when a number after all earlier ones and before it is missing.
-/

namespace FontisRemote.Lib

/-- The number due after these: one more than the last, or zero. -/
def nextDue (l : List Nat) : Nat :=
  (l.getLast?.map (· + 1)).getD 0

theorem nextDue_concat (l : List Nat) (n : Nat) : nextDue (l ++ [n]) = n + 1 := by
  unfold nextDue
  rw [List.getLast?_concat]
  rfl

theorem lt_nextDue {l : List Nat} (h : l.Pairwise (· < ·)) {n : Nat} (hn : n ∈ l) : n < nextDue l := by
  obtain rfl | ⟨init, last, rfl⟩ := l.eq_nil_or_concat
  · cases hn
  · rw [List.concat_eq_append] at h hn ⊢
    rw [nextDue_concat]
    obtain hinit | hlast := List.mem_append.mp hn
    · have hlt := (List.pairwise_append.mp h).2.2 n hinit last (List.mem_singleton_self last)
      omega
    · rw [List.mem_singleton.mp hlast]
      omega

theorem nextDue_le {l : List Nat} {m : Nat} (h : ∀ n ∈ l, n < m) : nextDue l ≤ m := by
  obtain rfl | ⟨init, last, rfl⟩ := l.eq_nil_or_concat
  · exact Nat.zero_le m
  · rw [List.concat_eq_append] at h ⊢
    rw [nextDue_concat]
    exact h last (List.mem_append_right init (List.mem_singleton_self last))

section Gap

variable {before after : List Nat} {n : Nat}

theorem nextDue_le_of_pairwise (h : (before ++ n :: after).Pairwise (· < ·)) : nextDue before ≤ n :=
  nextDue_le fun q hq => (List.pairwise_append.mp h).2.2 q hq n (List.mem_cons_self ..)

/-- A number that was not due: the one that was is missing. -/
theorem exists_gap (h : (before ++ n :: after).Pairwise (· < ·)) (hne : n ≠ nextDue before) :
    ∃ m, m < n ∧ (∀ q ∈ before, q < m) ∧ m ∉ before ++ n :: after := by
  obtain ⟨hbefore, hrest, -⟩ := List.pairwise_append.mp h
  obtain ⟨hafter, -⟩ := List.pairwise_cons.mp hrest
  have hdue : nextDue before ≤ n := nextDue_le_of_pairwise h
  refine ⟨nextDue before, by omega, fun q hq => lt_nextDue hbefore hq, fun hmem => ?_⟩
  obtain hmem | hmem := List.mem_append.mp hmem
  · exact Nat.lt_irrefl _ (lt_nextDue hbefore hmem)
  · obtain heq | hmem := List.mem_cons.mp hmem
    · exact hne heq.symm
    · have hgt := hafter _ hmem
      omega

theorem ne_nextDue_of_gap {m : Nat} (hlt : m < n) (habove : ∀ q ∈ before, q < m) : n ≠ nextDue before := by
  have hle : nextDue before ≤ m := nextDue_le habove
  omega

end Gap

end FontisRemote.Lib
