import Mathlib.Algebra.Order.Ring.Int
import Mathlib.Data.List.Basic
import Mathlib.Data.List.Nodup

/-!
# Slots

A list whose places are addressed by number: threads, objects, entries of a table. The lemmas say what is
found at a place after one place was written or one was added.
-/

namespace FontisRemote.Lib

variable {α : Type} {l : List α} {i : Nat} {a b x : α}

theorem countP_set_add (P : α → Bool) (h : l[i]? = some a) :
    (l.set i b).countP P + (P a).toNat = l.countP P + (P b).toNat := by
  induction l generalizing i with
  | nil => cases h
  | cons y l ih =>
    cases i with
    | zero =>
      cases h
      simp only [List.set_cons_zero, List.countP_cons]
      cases P a <;> cases P b <;> simp
    | succ i =>
      have hi := ih (i := i) h
      simp only [List.set_cons_succ, List.countP_cons]
      omega

theorem countP_modify {P : α → Bool} {f : α → α} (h : ∀ y, P (f y) = P y) :
    (l.modify i f).countP P = l.countP P := by
  induction l generalizing i with
  | nil => simp
  | cons y l ih =>
    cases i with
    | zero => simp only [List.modify_zero_cons, List.countP_cons, h]
    | succ i => simp only [List.modify_succ_cons, List.countP_cons, ih]

theorem mem_set_of_ne (h : l[i]? = some a) (hx : x ∈ l) (hne : x ≠ a) : x ∈ l.set i b := by
  obtain ⟨k, hk⟩ := List.mem_iff_getElem?.1 hx
  refine List.mem_iff_getElem?.2 ⟨k, ?_⟩
  rw [List.getElem?_set_ne]
  · exact hk
  · rintro rfl
    rw [h] at hk
    exact hne (Option.some.inj hk).symm

theorem getElem?_modify_eq_some {f : α → α} {p q : Nat} (h : (l.modify p f)[q]? = some x) :
    ∃ y, l[q]? = some y ∧ x = if p = q then f y else y := by
  rw [List.getElem?_modify] at h
  obtain ⟨y, hy, heq⟩ := Option.map_eq_some_iff.1 h
  exact ⟨y, hy, heq.symm⟩

theorem getElem?_set_eq_some {q : Nat} (h : (l.set i b)[q]? = some x) : q = i ∧ x = b ∨ q ≠ i ∧ l[q]? = some x := by
  rw [List.getElem?_set] at h
  split at h
  · rename_i hq
    split at h
    · exact .inl ⟨hq.symm, (Option.some.inj h).symm⟩
    · cases h
  · rename_i hq
    exact .inr ⟨fun he => hq he.symm, h⟩

theorem getElem?_append_singleton {q : Nat} (h : (l ++ [a])[q]? = some x) : l[q]? = some x ∨ q = l.length ∧ x = a := by
  rcases Nat.lt_trichotomy q l.length with hlt | rfl | hgt
  · rw [List.getElem?_append_left hlt] at h
    exact .inl h
  · rw [List.getElem?_concat_length] at h
    exact .inr ⟨rfl, (Option.some.inj h).symm⟩
  · have hnone : (l ++ [a])[q]? = none := by
      rw [List.getElem?_eq_none_iff, List.length_append, List.length_singleton]
      omega
    rw [hnone] at h
    cases h

/-- What stands before the last of a list, where that is `x` for the first time or an earlier one. -/
theorem split_snoc {before after : List α} (h : l ++ [a] = before ++ x :: after) :
    (∃ rest, l = before ++ x :: rest) ∨ l = before ∧ a = x := by
  obtain rfl | ⟨after, last, rfl⟩ := List.eq_nil_or_concat after
  · obtain ⟨rfl, hy⟩ := List.append_inj' h rfl
    exact .inr ⟨rfl, (List.cons.inj hy).1⟩
  · rw [List.concat_eq_append, ← List.cons_append, ← List.append_assoc] at h
    exact .inl ⟨after, (List.append_inj' h rfl).1⟩

/-- A place is told by a key that no other place has. -/
theorem index_unique {β : Type} {f : α → β} (hnodup : (l.map f).Nodup) {k : Nat} {y : α}
    (hx : l[i]? = some x) (hy : l[k]? = some y) (h : f x = f y) : i = k := by
  have hi : i < (l.map f).length := by
    rw [List.length_map]
    exact (List.getElem?_eq_some_iff.1 hx).1
  refine (List.getElem?_inj hi hnodup).1 ?_
  rw [List.getElem?_map, List.getElem?_map, hx, hy, Option.map_some, Option.map_some, h]

end FontisRemote.Lib
