import Mathlib.Algebra.Order.Ring.Int
import Mathlib.Data.List.Basic

/-!
# The most frequent item of a list

`tally` counts the items in the order they first come in, `mostFrequent` takes the first one whose count
is the highest there is.
-/

namespace FontisRemote.Lib

universe u

variable {α : Type u} [DecidableEq α]

/-- One more of an item. -/
def bump : List (α × Nat) → α → List (α × Nat)
  | [], a => [(a, 1)]
  | (b, n) :: counts, a => if b = a then (b, n + 1) :: counts else (b, n) :: bump counts a

def tally (items : List α) : List (α × Nat) :=
  items.foldl bump []

def mostFrequent (items : List α) : Option α :=
  let counts := tally items
  let maxCount := (counts.map Prod.snd).max?.getD 0
  (counts.find? fun p => p.2 == maxCount).map Prod.fst

/-- Each item that occurs has one entry, with the number of times it does. -/
structure Counts (counts : List (α × Nat)) (items : List α) : Prop where
  nodup : (counts.map Prod.fst).Nodup
  mem_iff : ∀ a n, (a, n) ∈ counts ↔ n = items.count a ∧ 0 < n

theorem mem_keys_bump {counts : List (α × Nat)} {a b : α} :
    b ∈ (bump counts a).map Prod.fst ↔ b = a ∨ b ∈ counts.map Prod.fst := by
  induction counts with
  | nil => simp [bump]
  | cons p counts ih =>
    obtain ⟨c, n⟩ := p
    unfold bump
    split
    · rename_i hca
      subst hca
      simp
    · simp only [List.map_cons, List.mem_cons, ih]
      exact or_left_comm

theorem nodup_bump {counts : List (α × Nat)} (h : (counts.map Prod.fst).Nodup) (a : α) :
    ((bump counts a).map Prod.fst).Nodup := by
  induction counts with
  | nil => simp [bump]
  | cons p counts ih =>
    obtain ⟨c, n⟩ := p
    obtain ⟨hnot, hrest⟩ := List.nodup_cons.mp h
    unfold bump
    split
    · exact h
    · rename_i hca
      refine List.nodup_cons.mpr ⟨fun hmem => ?_, ih hrest⟩
      obtain hc | hmem := mem_keys_bump.mp hmem
      · exact hca hc
      · exact hnot hmem

theorem mem_bump_of_ne {counts : List (α × Nat)} {a b : α} {n : Nat} (h : b ≠ a) :
    (b, n) ∈ bump counts a ↔ (b, n) ∈ counts := by
  induction counts with
  | nil => simp [bump, h]
  | cons p counts ih =>
    obtain ⟨c, m⟩ := p
    unfold bump
    split
    · rename_i hca
      subst hca
      simp [h]
    · simp only [List.mem_cons, ih]

theorem mem_bump_self {counts : List (α × Nat)} {a : α} {n : Nat}
    (h : (counts.map Prod.fst).Nodup) :
    (a, n) ∈ bump counts a ↔
      (∃ m, (a, m) ∈ counts ∧ n = m + 1) ∨ (a ∉ counts.map Prod.fst ∧ n = 1) := by
  induction counts with
  | nil => simp [bump]
  | cons p counts ih =>
    obtain ⟨c, m⟩ := p
    obtain ⟨hnot, hrest⟩ := List.nodup_cons.mp h
    unfold bump
    split
    · -- the entry is here, and nowhere further on
      rename_i hca
      subst hca
      have hnone : ∀ k, (c, k) ∉ counts := fun k hk => hnot (List.mem_map.mpr ⟨(c, k), hk, rfl⟩)
      simp [hnone]
    · rename_i hca
      have hac : a ≠ c := fun hac => hca hac.symm
      simp only [List.mem_cons, Prod.mk.injEq, hac, false_and, false_or, ih hrest, List.map_cons]

theorem Counts.snoc {counts : List (α × Nat)} {items : List α} (h : Counts counts items) (a : α) :
    Counts (bump counts a) (items ++ [a]) := by
  refine ⟨nodup_bump h.nodup a, fun b n => ?_⟩
  rw [List.count_append, List.count_singleton]
  by_cases hba : b = a
  · subst hba
    have hkey : b ∉ counts.map Prod.fst ↔ items.count b = 0 := by
      constructor
      · intro hnot
        by_contra hpos
        exact hnot (List.mem_map.mpr ⟨(b, items.count b), (h.mem_iff _ _).mpr ⟨rfl, by omega⟩, rfl⟩)
      · rintro hzero hmem
        obtain ⟨⟨b', m⟩, hp, rfl⟩ := List.mem_map.mp hmem
        obtain ⟨hm, hpos⟩ := (h.mem_iff _ _).mp hp
        rw [hm] at hpos
        exact hpos.ne' hzero
    rw [mem_bump_self h.nodup, hkey]
    simp only [h.mem_iff, beq_self_eq_true, if_true]
    constructor
    · rintro (⟨m, ⟨rfl, hm⟩, rfl⟩ | ⟨hzero, rfl⟩) <;> omega
    · rintro ⟨rfl, -⟩
      by_cases hzero : items.count b = 0
      · exact .inr ⟨hzero, by omega⟩
      · exact .inl ⟨_, ⟨rfl, by omega⟩, rfl⟩
  · have hab : (a == b) = false := beq_false_of_ne fun hab => hba hab.symm
    rw [mem_bump_of_ne hba, h.mem_iff, hab]
    simp

theorem counts_tally (items : List α) : Counts (tally items) items := by
  have hfold : ∀ (counts : List (α × Nat)) (seen rest : List α), Counts counts seen →
      Counts (rest.foldl bump counts) (seen ++ rest) := by
    intro counts seen rest
    induction rest generalizing counts seen with
    | nil =>
      intro h
      rwa [List.append_nil]
    | cons a rest ih =>
      intro h
      have hnext := ih _ _ (h.snoc a)
      rwa [List.append_assoc, List.singleton_append] at hnext
  refine hfold [] [] items ⟨List.nodup_nil, fun a n => ?_⟩
  rw [List.count_nil]
  refine ⟨fun hmem => (List.not_mem_nil hmem).elim, ?_⟩
  rintro ⟨rfl, hpos⟩
  exact absurd hpos (Nat.lt_irrefl 0)

/-- It occurs, and nothing occurs more often. -/
theorem mostFrequent_some {items : List α} {a : α} (h : mostFrequent items = some a) :
    a ∈ items ∧ ∀ b, items.count b ≤ items.count a := by
  have hcounts := counts_tally items
  obtain ⟨⟨a', n⟩, hfind, rfl⟩ := Option.map_eq_some_iff.mp h
  obtain ⟨hn, hpos⟩ := (hcounts.mem_iff _ _).mp (List.mem_of_find?_eq_some hfind)
  have hmax : n = ((tally items).map Prod.snd).max?.getD 0 := by
    simpa using List.find?_some hfind
  refine ⟨List.count_pos_iff.mp (hn ▸ hpos), fun b => ?_⟩
  by_cases hb : items.count b = 0
  · omega
  · have hmem : items.count b ∈ (tally items).map Prod.snd :=
      List.mem_map.mpr ⟨(b, items.count b), (hcounts.mem_iff _ _).mpr ⟨rfl, by omega⟩, rfl⟩
    cases hhighest : ((tally items).map Prod.snd).max? with
    | none =>
      rw [List.max?_eq_none_iff.mp hhighest] at hmem
      cases hmem
    | some top =>
      rw [hhighest, Option.getD_some] at hmax
      have htop := (List.max?_eq_some_iff.mp hhighest).2 _ hmem
      rwa [← hmax, hn] at htop

theorem mostFrequent_none {items : List α} (h : mostFrequent items = none) : items = [] := by
  have hcounts := counts_tally items
  cases items with
  | nil => rfl
  | cons a items =>
    exfalso
    have hmem : (a, (a :: items).count a) ∈ tally (a :: items) :=
      (hcounts.mem_iff _ _).mpr ⟨rfl, List.count_pos_iff.mpr (List.mem_cons_self ..)⟩
    have hnone := List.find?_eq_none.mp (Option.map_eq_none_iff.mp h)
    cases hhighest : ((tally (a :: items)).map Prod.snd).max? with
    | none =>
      rw [List.map_eq_nil_iff.mp (List.max?_eq_none_iff.mp hhighest)] at hmem
      cases hmem
    | some top =>
      obtain ⟨p, hp, rfl⟩ := List.mem_map.mp (List.max?_eq_some_iff.mp hhighest).1
      exact hnone p hp (by simp [hhighest])

end FontisRemote.Lib
