import Mathlib.Data.List.DropRight

/-!
# Lists without near repeats

Of a log only the last entries are remembered, and what is among them is not entered again. An entry then comes again
only after as many others (`Spaced`).
-/

namespace FontisRemote.Lib

variable {α : Type} {n : Nat} {l : List α} {x : α}

def Spaced (n : Nat) (l : List α) : Prop :=
  ∀ i j x, i < j → j ≤ i + n → l[i]? = some x → l[j]? ≠ some x

theorem Spaced.nil : Spaced n ([] : List α) := by
  intro i j x _ _ hi
  cases hi

theorem mem_rtake_of_getElem? {i : Nat} (hi : l[i]? = some x) (hn : l.length ≤ i + n) : x ∈ l.rtake n := by
  refine List.mem_iff_getElem?.2 ⟨i - (l.length - n), ?_⟩
  rw [List.rtake, List.getElem?_drop, ← hi]
  congr 1
  omega

theorem Spaced.append_singleton (h : Spaced n l) (hx : x ∉ l.rtake n) : Spaced n (l ++ [x]) := by
  intro i j y hij hn hi hj
  have hlt := (List.getElem?_eq_some_iff.1 hj).1
  rw [List.length_append, List.length_singleton] at hlt
  rw [List.getElem?_append_left (by omega)] at hi
  by_cases hend : j < l.length
  · rw [List.getElem?_append_left hend] at hj
    exact h i j y hij hn hi hj
  · have hlast : j = l.length := by omega
    subst hlast
    rw [List.getElem?_concat_length] at hj
    obtain rfl := Option.some.inj hj
    exact hx (mem_rtake_of_getElem? hi hn)

/-- What is remembered after one more entry. -/
theorem rtake_append_singleton (hn : 0 < n) (l : List α) (x : α) :
    (l ++ [x]).rtake n = (if n ≤ (l.rtake n).length then (l.rtake n).drop 1 else l.rtake n) ++ [x] := by
  simp only [List.rtake, List.length_drop, List.length_append, List.length_singleton, List.drop_drop]
  rw [List.drop_append_of_le_length (by omega)]
  split
  · congr 2
    omega
  · congr 2
    omega

end FontisRemote.Lib
