import FontisRemote.Lib.Slots
import Mathlib.Data.List.Induction
import Mathlib.Data.List.Nodup

/-!
# Matching the places of two lists

An assignment is filled one claim at a time: a place of the first list that has none yet takes a place of
the second that is free. `Sound` holds of the empty one and is kept by every such claim, so each place of
the second list is claimed once. The lemmas on `List.zipIdx` are for loops that number what they read.
-/

namespace FontisRemote.Lib

variable {α β : Type}

/-! ## Numbered loops -/

/-- What holds before the first place and is carried over each place holds after the last one. -/
theorem foldl_zipIdx_induction {P : Nat → β → Prop} {f : β → α × Nat → β} {l : List α} {b : β} (hinit : P 0 b)
    (hstep : ∀ i b x, l[i]? = some x → P i b → P (i + 1) (f b (x, i))) :
    P l.length (l.zipIdx.foldl f b) := by
  induction l using List.reverseRecOn with
  | nil => exact hinit
  | append_singleton l x ih =>
    rw [List.zipIdx_append, List.foldl_append, List.length_append, Nat.zero_add]
    refine hstep l.length _ x List.getElem?_concat_length (ih fun i b y hi hb => hstep i b y ?_ hb)
    · rw [List.getElem?_append_left (List.getElem?_eq_some_iff.1 hi).1]
      exact hi

theorem filter_zipIdx_eq_singleton {p : α × Nat → Bool} {l : List α} {x : α} {i : Nat} :
    l.zipIdx.filter p = [(x, i)] ↔
      l[i]? = some x ∧ p (x, i) ∧ ∀ y k, l[k]? = some y → p (y, k) → k = i := by
  constructor
  · intro h
    have hmem : ∀ q, q ∈ l.zipIdx.filter p ↔ q = (x, i) := by
      intro q
      rw [h, List.mem_singleton]
    obtain ⟨hx, hp⟩ := List.mem_filter.1 ((hmem (x, i)).2 rfl)
    refine ⟨List.mk_mem_zipIdx_iff_getElem?.1 hx, hp, fun y k hk hy => ?_⟩
    exact congrArg Prod.snd ((hmem (y, k)).1 (List.mem_filter.2 ⟨List.mk_mem_zipIdx_iff_getElem?.2 hk, hy⟩))
  · rintro ⟨hx, hp, honly⟩
    have hnodup : (l.zipIdx.filter p).Nodup := by
      refine List.Nodup.filter _ (List.Nodup.of_map Prod.snd ?_)
      rw [List.zipIdx_map_snd]
      exact List.nodup_range'
    refine List.perm_singleton.1 ((List.perm_ext_iff_of_nodup hnodup (List.nodup_singleton _)).2 fun q => ?_)
    rw [List.mem_filter, List.mem_singleton]
    constructor
    · rintro ⟨hq, hpq⟩
      have hget := List.mk_mem_zipIdx_iff_getElem?.1 (show (q.1, q.2) ∈ l.zipIdx from hq)
      have hi := honly q.1 q.2 hget hpq
      rw [hi, hx] at hget
      exact Prod.ext (Option.some.inj hget).symm hi
    · rintro rfl
      exact ⟨List.mk_mem_zipIdx_iff_getElem?.2 hx, hp⟩

theorem find?_zipIdx_eq_some {p : α × Nat → Bool} {l : List α} {x : α} {i : Nat}
    (h : l.zipIdx.find? p = some (x, i)) : l[i]? = some x ∧ p (x, i) :=
  ⟨List.mk_mem_zipIdx_iff_getElem?.1 (List.mem_of_find?_eq_some h), List.find?_some h⟩

theorem find?_zipIdx_eq_none {p : α × Nat → Bool} {l : List α} (h : l.zipIdx.find? p = none) {x : α} {i : Nat}
    (hx : l[i]? = some x) : p (x, i) = false := by
  have hnone := List.find?_eq_none.1 h (x, i) (List.mk_mem_zipIdx_iff_getElem?.2 hx)
  exact Bool.eq_false_iff.2 hnone

/-! ## Assignments -/

structure Assignment where
  matched : List (Option Nat)
  taken : List Bool
deriving DecidableEq, Repr

namespace Assignment

def empty (n m : Nat) : Assignment := ⟨List.replicate n none, List.replicate m false⟩

def claim (a : Assignment) (i j : Nat) : Assignment := ⟨a.matched.set i (some j), a.taken.set j true⟩

/-- The places of the second list are taken by what the first ones hold. -/
def ofMatched (matched : List (Option Nat)) (m : Nat) : Assignment :=
  ⟨matched, (matched.filterMap id).foldl (fun taken j => taken.set j true) (List.replicate m false)⟩

def isUnmatched (a : Assignment) (i : Nat) : Bool := a.matched[i]? == some none

def isFree (a : Assignment) (j : Nat) : Bool := a.taken[j]? == some false

def Matches (a : Assignment) (i j : Nat) : Prop := a.matched[i]? = some (some j)

structure Sound (a : Assignment) (n m : Nat) : Prop where
  matched_length : a.matched.length = n
  taken_length : a.taken.length = m
  lt : ∀ {i j}, a.Matches i j → j < m
  free_iff : ∀ {j}, j < m → (a.isFree j ↔ ∀ i, ¬ a.Matches i j)
  injective : ∀ {i k j}, a.Matches i j → a.Matches k j → i = k

variable {a : Assignment} {n m i j k l : Nat}

theorem isUnmatched_iff : a.isUnmatched i ↔ a.matched[i]? = some none := by
  rw [isUnmatched, beq_iff_eq]

theorem isFree_iff : a.isFree j ↔ a.taken[j]? = some false := by
  rw [isFree, beq_iff_eq]

theorem Matches.not_unmatched (h : a.Matches i j) : ¬ a.isUnmatched i := by
  rw [isUnmatched_iff, show a.matched[i]? = some (some j) from h]
  simp

theorem isFree_lt (h : a.isFree j) : j < a.taken.length :=
  (List.getElem?_eq_some_iff.1 (isFree_iff.1 h)).1

theorem isUnmatched_lt (h : a.isUnmatched i) : i < a.matched.length :=
  (List.getElem?_eq_some_iff.1 (isUnmatched_iff.1 h)).1

theorem matches_claim (hi : a.isUnmatched i) : (a.claim i j).Matches k l ↔ a.Matches k l ∨ k = i ∧ l = j := by
  unfold Matches claim
  rw [List.getElem?_set]
  by_cases hk : i = k
  · subst hk
    have hnone := isUnmatched_iff.1 hi
    rw [if_pos rfl, if_pos (isUnmatched_lt hi), hnone]
    simp [eq_comm]
  · rw [if_neg hk]
    simp [Ne.symm hk]

theorem isUnmatched_claim (hi : a.isUnmatched i) : (a.claim i j).isUnmatched k ↔ a.isUnmatched k ∧ k ≠ i := by
  rw [isUnmatched_iff, isUnmatched_iff, claim, List.getElem?_set]
  by_cases hk : i = k
  · subst hk
    rw [if_pos rfl, if_pos (isUnmatched_lt hi)]
    simp
  · rw [if_neg hk]
    simp [Ne.symm hk]

theorem isFree_claim (hj : a.isFree j) : (a.claim i j).isFree l ↔ a.isFree l ∧ l ≠ j := by
  rw [isFree_iff, isFree_iff, claim, List.getElem?_set]
  by_cases hl : j = l
  · subst hl
    rw [if_pos rfl, if_pos (isFree_lt hj)]
    simp
  · rw [if_neg hl]
    simp [Ne.symm hl]

theorem not_matches_empty : ¬ (empty n m).Matches i j := by
  intro h
  rw [Matches, empty, List.getElem?_replicate] at h
  split at h <;> simp at h

namespace Sound

theorem empty (n m : Nat) : (Assignment.empty n m).Sound n m where
  matched_length := List.length_replicate
  taken_length := List.length_replicate
  lt := by
    intro i j h
    exact absurd h not_matches_empty
  free_iff := by
    intro j hj
    rw [isFree_iff, Assignment.empty, List.getElem?_replicate, if_pos hj]
    exact ⟨fun _ i => not_matches_empty, fun _ => rfl⟩
  injective := by
    intro i k j h
    exact absurd h not_matches_empty

theorem claim (h : a.Sound n m) (hi : a.isUnmatched i) (hj : a.isFree j) : (a.claim i j).Sound n m where
  matched_length := by
    rw [Assignment.claim, List.length_set]
    exact h.matched_length
  taken_length := by
    rw [Assignment.claim, List.length_set]
    exact h.taken_length
  lt := by
    intro k l hkl
    rcases (matches_claim hi).1 hkl with hold | ⟨-, rfl⟩
    · exact h.lt hold
    · exact h.taken_length ▸ isFree_lt hj
  free_iff := by
    intro l hl
    rw [isFree_claim hj, h.free_iff hl]
    constructor
    · rintro ⟨hfree, hne⟩ k hkl
      rcases (matches_claim hi).1 hkl with hold | ⟨-, heq⟩
      · exact hfree k hold
      · exact hne heq
    · intro hnone
      refine ⟨fun k hold => hnone k ((matches_claim hi).2 (.inl hold)), ?_⟩
      rintro rfl
      exact hnone i ((matches_claim hi).2 (.inr ⟨rfl, rfl⟩))
  injective := by
    intro k k' l hk hk'
    have hnot := (h.free_iff (h.taken_length ▸ isFree_lt hj)).1 hj
    rcases (matches_claim hi).1 hk with hold | ⟨rfl, rfl⟩ <;>
      rcases (matches_claim hi).1 hk' with hold' | ⟨rfl, heq⟩
    · exact h.injective hold hold'
    · exact absurd (heq ▸ hold) (hnot k)
    · exact absurd hold' (hnot k')
    · rfl

theorem unmatched_of_none (h : a.Sound n m) (hi : i < n) (hnone : ∀ j, ¬ a.Matches i j) : a.isUnmatched i := by
  rw [isUnmatched_iff]
  cases hget : a.matched[i]? with
  | none =>
    rw [List.getElem?_eq_none_iff, h.matched_length] at hget
    omega
  | some o =>
    cases o with
    | none => rfl
    | some j => exact absurd hget (hnone j)

theorem unmatched_iff (h : a.Sound n m) (hi : i < n) : a.isUnmatched i ↔ ∀ j, ¬ a.Matches i j :=
  ⟨fun hun _ hm => hm.not_unmatched hun, h.unmatched_of_none hi⟩

/-- Marking what is held in a fresh list gives the places taken. -/
theorem ofMatched (h : a.Sound n m) : (Assignment.ofMatched a.matched m).Sound n m := by
  have hset : ∀ (js : List Nat) (t : List Bool), (js.foldl (fun taken j => taken.set j true) t).length = t.length ∧
      ∀ l, l < t.length → ((js.foldl (fun taken j => taken.set j true) t)[l]? = some false ↔
        t[l]? = some false ∧ l ∉ js) := by
    intro js
    induction js with
    | nil => simp
    | cons j js ih =>
      intro t
      obtain ⟨hlen, hget⟩ := ih (t.set j true)
      rw [List.length_set] at hlen hget
      refine ⟨hlen, fun l hl => ?_⟩
      rw [List.foldl_cons, hget l hl, List.getElem?_set, List.mem_cons]
      by_cases hj : j = l
      · subst hj
        simp [hl]
      · simp [hj, Ne.symm hj]
  obtain ⟨hlen, hget⟩ := hset (a.matched.filterMap id) (List.replicate m false)
  rw [List.length_replicate] at hlen hget
  refine ⟨h.matched_length, hlen, h.lt, fun {l} hl => ?_, h.injective⟩
  rw [isFree_iff, Assignment.ofMatched, hget l hl, List.getElem?_replicate, if_pos hl, List.mem_filterMap]
  constructor
  · rintro ⟨-, hnot⟩ k hk
    exact hnot ⟨some l, List.mem_of_getElem? hk, rfl⟩
  · intro hnone
    refine ⟨rfl, ?_⟩
    rintro ⟨o, ho, rfl⟩
    obtain ⟨k, hk⟩ := List.mem_iff_getElem?.1 ho
    exact hnone k hk

end Sound

end Assignment

end FontisRemote.Lib
