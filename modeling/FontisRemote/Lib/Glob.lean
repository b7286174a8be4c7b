import Mathlib.Algebra.Order.Ring.Int
import Mathlib.Data.List.Basic

/-!
# Patterns with wildcards

A pattern is a list of elements, each of which stands for any sequence, for any one letter, or for the
letter itself. What a pattern means is `Matches`; the lemmas are what a matcher needs that reads both lists
from the left and goes back to the last `many` only: elements without a `many` among them use up as many
letters as they are (`Matches.drop_of_fixed`), and letters before a `many` can be left to it
(`matches_many_of_drop`).
-/

namespace FontisRemote.Lib

universe u

variable {α : Type u}

/-- An element of a pattern: any sequence, any one letter, or this letter. -/
inductive Glob (α : Type u)
  | many
  | one
  | lit (a : α)
deriving DecidableEq, Repr

namespace Glob

/-- The text is what the pattern says. -/
inductive Matches : List (Glob α) → List α → Prop
  | nil : Matches [] []
  | many {p : List (Glob α)} {t : List α} (skipped : List α) :
      Matches p t → Matches (.many :: p) (skipped ++ t)
  | one {p : List (Glob α)} {t : List α} (a : α) : Matches p t → Matches (.one :: p) (a :: t)
  | lit {p : List (Glob α)} {t : List α} (a : α) : Matches p t → Matches (.lit a :: p) (a :: t)

/-- The element stands for this one letter. -/
inductive Accepts : Glob α → α → Prop
  | one (a : α) : Accepts .one a
  | lit (a : α) : Accepts (.lit a) a

variable {p q : List (Glob α)} {t : List α} {g : Glob α} {a : α}

theorem matches_nil_iff : Matches ([] : List (Glob α)) t ↔ t = [] := by
  constructor
  · intro h
    cases h
    rfl
  · rintro rfl
    exact .nil

theorem matches_many_iff : Matches (.many :: p) t ↔ ∃ k ≤ t.length, Matches p (t.drop k) := by
  constructor
  · intro h
    cases h with
    | @many _ rest skipped hrest =>
      refine ⟨skipped.length, ?_, ?_⟩
      · simp
      · rwa [List.drop_left]
  · rintro ⟨k, -, hrest⟩
    have h := Matches.many (t.take k) hrest
    rwa [List.take_append_drop] at h

/-- Letters before a `many` can be left to it. -/
theorem matches_many_of_drop {k : Nat} (h : Matches (.many :: p) (t.drop k)) : Matches (.many :: p) t := by
  obtain ⟨n, hn, hrest⟩ := matches_many_iff.1 h
  rw [List.drop_drop] at hrest
  rw [List.length_drop] at hn
  by_cases hk : k + n ≤ t.length
  · exact matches_many_iff.2 ⟨k + n, hk, hrest⟩
  · rw [List.drop_eq_nil_of_le (by omega)] at hrest
    refine matches_many_iff.2 ⟨t.length, le_rfl, ?_⟩
    rwa [List.drop_length]

theorem matches_cons_cons_iff (hg : g ≠ .many) : Matches (g :: p) (a :: t) ↔ g.Accepts a ∧ Matches p t := by
  constructor
  · intro h
    cases g with
    | many => exact absurd rfl hg
    | one =>
      cases h with
      | one _ hrest => exact ⟨.one a, hrest⟩
    | lit b =>
      cases h with
      | lit _ hrest => exact ⟨.lit _, hrest⟩
  · rintro ⟨ha, hrest⟩
    cases ha with
    | one => exact .one a hrest
    | lit => exact .lit a hrest

theorem not_matches_cons_nil (hg : g ≠ .many) : ¬Matches (g :: p) [] := by
  intro h
  cases g with
  | many => exact hg rfl
  | one => cases h
  | lit b => cases h

/-- The empty text is matched by as many `many` as one likes. -/
theorem matches_text_nil_iff : Matches p ([] : List α) ↔ ∀ g ∈ p, g = .many := by
  induction p with
  | nil => simp [matches_nil_iff]
  | cons g p ih =>
    by_cases hg : g = .many
    · subst hg
      simp [matches_many_iff, ih]
    · constructor
      · intro h
        exact absurd h (not_matches_cons_nil hg)
      · intro h
        exact absurd (h g (List.mem_cons_self ..)) hg

/-- Elements without a `many` among them use up as many letters as they are. -/
theorem Matches.drop_of_fixed (hfixed : .many ∉ q) (h : Matches (q ++ p) t) :
    q.length ≤ t.length ∧ Matches p (t.drop q.length) := by
  induction q generalizing t with
  | nil => exact ⟨Nat.zero_le _, h⟩
  | cons g q ih =>
    have hg : g ≠ .many := fun heq => hfixed (heq ▸ List.mem_cons_self ..)
    have hq : .many ∉ q := fun hmem => hfixed (List.mem_cons_of_mem _ hmem)
    cases t with
    | nil => exact absurd h (not_matches_cons_nil hg)
    | cons a t =>
      obtain ⟨hlen, hrest⟩ := ih hq ((matches_cons_cons_iff hg).1 h).2
      exact ⟨Nat.succ_le_succ hlen, hrest⟩

end Glob

end FontisRemote.Lib
