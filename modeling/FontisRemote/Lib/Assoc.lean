import Mathlib.Algebra.Order.Ring.Int
import Mathlib.Data.List.Basic

/-!
# Finite maps as association lists

A `HashMap` whose size is asked for, as a list of pairs. `put` writes or removes one key, so that
`get_put` is the whole specification; `retain` keeps the entries a predicate accepts.
-/

namespace FontisRemote.Lib.Assoc

universe u v

variable {K : Type u} {V : Type v} [DecidableEq K]

/-- The value stored under a key. -/
def get (m : List (K × V)) (k : K) : Option V :=
  match m with
  | [] => none
  | (j, v) :: m => if j = k then some v else get m k

/-- Remove a key. -/
def erase (m : List (K × V)) (k : K) : List (K × V) := m.filter fun p => p.1 ≠ k

/-- Store a value under a key, or remove the key. -/
def put (m : List (K × V)) (k : K) : Option V → List (K × V)
  | none => erase m k
  | some v => (k, v) :: erase m k

/-- Keep the entries the predicate accepts. -/
def retain (m : List (K × V)) (p : K → Bool) : List (K × V) := m.filter fun q => p q.1

@[simp] theorem get_nil (k : K) : get ([] : List (K × V)) k = none := rfl

theorem get_retain (m : List (K × V)) (p : K → Bool) (k : K) :
    get (retain m p) k = if p k then get m k else none := by
  induction m with
  | nil => simp [retain]
  | cons q m ih =>
    obtain ⟨j, v⟩ := q
    unfold retain at ih ⊢
    by_cases hp : p j = true
    · simp only [hp, List.filter_cons_of_pos, get, ih]
      by_cases hj : j = k
      · subst hj
        simp [hp]
      · simp [hj]
    · have hpf : p j = false := by simpa using hp
      simp only [hpf, Bool.false_eq_true, not_false_eq_true, List.filter_cons_of_neg, get, ih]
      by_cases hj : j = k
      · subst hj
        simp [hpf]
      · simp [hj]

theorem get_erase (m : List (K × V)) (k j : K) :
    get (erase m k) j = if j = k then none else get m j := by
  have h := get_retain m (fun i => decide (i ≠ k)) j
  unfold retain at h
  unfold erase
  rw [h]
  by_cases hj : j = k <;> simp [hj]

/-- Writing one key changes that key and no other. -/
theorem get_put (m : List (K × V)) (k j : K) (o : Option V) :
    get (put m k o) j = if j = k then o else get m j := by
  cases o with
  | none => exact get_erase m k j
  | some v =>
    simp only [put, get, get_erase]
    by_cases hj : k = j
    · subst hj
      simp
    · have hj' : ¬ j = k := fun h => hj h.symm
      simp [hj, hj']

theorem mem_put {m : List (K × V)} {k : K} {v : V} {q : K × V} (h : q ∈ put m k (some v)) :
    q = (k, v) ∨ q ∈ m := by
  rcases List.mem_cons.1 h with rfl | h
  · exact .inl rfl
  · exact .inr (List.mem_filter.1 h).1

/-- Change every value. -/
def mapValues (f : K → V → V) (m : List (K × V)) : List (K × V) := m.map fun p => (p.1, f p.1 p.2)

@[simp] theorem get_mapValues (f : K → V → V) (m : List (K × V)) (k : K) :
    get (mapValues f m) k = (get m k).map (f k) := by
  induction m with
  | nil => rfl
  | cons p m ih =>
    obtain ⟨j, v⟩ := p
    simp only [mapValues, List.map_cons, get] at ih ⊢
    by_cases hj : j = k
    · subst hj
      simp
    · simp [hj, ih]

theorem get_eq_none {m : List (K × V)} {k : K} (h : k ∉ m.map Prod.fst) : get m k = none := by
  induction m with
  | nil => rfl
  | cons p m ih =>
    obtain ⟨j, v⟩ := p
    simp only [List.map_cons, List.mem_cons, not_or] at h
    rw [get, if_neg fun hj => h.1 hj.symm]
    exact ih h.2

theorem erase_of_get_none {m : List (K × V)} {k : K} (h : get m k = none) : erase m k = m := by
  induction m with
  | nil => rfl
  | cons p m ih =>
    obtain ⟨j, v⟩ := p
    rw [get] at h
    split at h
    · cases h
    · rename_i hj
      have hkeep : erase ((j, v) :: m) k = (j, v) :: erase m k := List.filter_cons_of_pos (by simpa using hj)
      rw [hkeep, ih h]

theorem mem_of_get {m : List (K × V)} {k : K} {v : V} (h : get m k = some v) : (k, v) ∈ m := by
  induction m with
  | nil => cases h
  | cons p m ih =>
    obtain ⟨j, w⟩ := p
    rw [get] at h
    split at h
    · rename_i hj
      rw [← hj, Option.some.inj h]
      exact List.mem_cons_self ..
    · exact List.mem_cons_of_mem _ (ih h)

theorem get_of_mem {m : List (K × V)} (hm : (m.map Prod.fst).Nodup) {k : K} {v : V}
    (h : (k, v) ∈ m) : get m k = some v := by
  induction m with
  | nil => cases h
  | cons p m ih =>
    obtain ⟨hp, hm⟩ := List.nodup_cons.1 hm
    rw [get]
    obtain rfl | h := List.mem_cons.1 h
    · exact if_pos rfl
    · rw [if_neg]
      · exact ih hm h
      · rintro rfl
        exact hp (List.mem_map.2 ⟨_, h, rfl⟩)

theorem nodup_erase {m : List (K × V)} (h : (m.map Prod.fst).Nodup) (k : K) :
    ((erase m k).map Prod.fst).Nodup :=
  h.sublist (List.filter_sublist.map Prod.fst)

theorem nodup_put {m : List (K × V)} (h : (m.map Prod.fst).Nodup) (k : K) (o : Option V) :
    ((put m k o).map Prod.fst).Nodup := by
  cases o with
  | none => exact nodup_erase h k
  | some v =>
    refine List.nodup_cons.2 ⟨?_, nodup_erase h k⟩
    intro hk
    obtain ⟨q, hq, hqk⟩ := List.mem_map.1 hk
    exact of_decide_eq_true (List.mem_filter.1 hq).2 hqk

/-- A map listed by other keys. -/
theorem get_filterMap (m : List (K × V)) (ks : List K) (k : K) :
    get (ks.filterMap fun j => (get m j).map fun v => (j, v)) k = if k ∈ ks then get m k else none := by
  induction ks with
  | nil => rfl
  | cons j ks ih =>
    cases hj : get m j with
    | none =>
      rw [List.filterMap_cons_none (by rw [hj]; rfl), ih]
      by_cases hk : k = j
      · subst hk
        simp [hj]
      · simp [hk]
    | some v =>
      rw [List.filterMap_cons_some (b := (j, v)) (by rw [hj]; rfl), get, ih]
      by_cases hk : k = j
      · subst hk
        simp [hj]
      · have hk' : ¬ j = k := fun h => hk h.symm
        simp [hk, hk']

/-- Move all entries of one map to another. -/
theorem get_foldr_put {key : V → K} {m : List (K × V)} (hkey : ∀ p ∈ m, key p.2 = p.1) (n : List (K × V)) (k : K) :
    get (m.foldr (fun p acc => put acc (key p.2) (some p.2)) n) k = (get m k).or (get n k) := by
  induction m with
  | nil => rfl
  | cons p m ih =>
    obtain ⟨j, v⟩ := p
    obtain ⟨hj, hm⟩ := List.forall_mem_cons.1 hkey
    dsimp only at hj
    rw [List.foldr_cons, get_put, ih hm, get, hj]
    by_cases hk : k = j
    · subst hk
      simp
    · have hk' : ¬ j = k := fun h => hk h.symm
      simp [hk, hk']

end FontisRemote.Lib.Assoc
