import Mathlib.Algebra.Order.Ring.Int
import Mathlib.Data.List.Basic

/-!
# Streams of blocks that end in a marked item

A stream without lengths or numbers, in which an item that says so closes the block it is in. `complete`
is the list of the closed blocks and `remainder` what has come since. Both are read off the stream from
the left, one item at a time, so a part of the stream read so far has the first blocks of the whole.
-/

namespace FontisRemote.Lib

universe u

variable {α : Type u} (last : α → Bool)

/-- One more item. -/
def absorb (seen : List (List α) × List α) (item : α) : List (List α) × List α :=
  if last item then (seen.1 ++ [seen.2 ++ [item]], []) else (seen.1, seen.2 ++ [item])

/-- The closed blocks of a stream. -/
def complete (items : List α) : List (List α) :=
  (items.foldl (absorb last) ([], [])).1

/-- The items after the last closed block. -/
def remainder (items : List α) : List α :=
  (items.foldl (absorb last) ([], [])).2

@[simp] theorem complete_nil : complete last ([] : List α) = [] := rfl

@[simp] theorem remainder_nil : remainder last ([] : List α) = [] := rfl

section Snoc

variable {last} {item : α} (items : List α)

theorem complete_snoc_last (h : last item) :
    complete last (items ++ [item]) = complete last items ++ [remainder last items ++ [item]] := by
  simp [complete, remainder, absorb, h]

theorem remainder_snoc_last (h : last item) : remainder last (items ++ [item]) = [] := by
  simp [remainder, absorb, h]

theorem complete_snoc_more (h : last item = false) :
    complete last (items ++ [item]) = complete last items := by
  simp [complete, absorb, h]

theorem remainder_snoc_more (h : last item = false) :
    remainder last (items ++ [item]) = remainder last items ++ [item] := by
  simp [remainder, absorb, h]

end Snoc

/-- What has been read of a stream has the first blocks of it. -/
theorem complete_append (items more : List α) :
    complete last items <+: complete last (items ++ more) := by
  induction more generalizing items with
  | nil => exact ⟨[], by rw [List.append_nil, List.append_nil]⟩
  | cons item more ih =>
    have hstep : complete last items <+: complete last (items ++ [item]) := by
      cases h : last item with
      | true => exact complete_snoc_last items h ▸ List.prefix_append ..
      | false => exact ⟨[], by rw [List.append_nil, complete_snoc_more items h]⟩
    have hrest := ih (items ++ [item])
    rw [List.append_assoc, List.singleton_append] at hrest
    exact hstep.trans hrest

/-- The block a reader is in the middle of is closed later on, or it is the last. -/
theorem remainder_append (items more : List α) :
    (∃ block ∈ complete last (items ++ more), remainder last items <+: block) ∨
      remainder last items <+: remainder last (items ++ more) := by
  induction more generalizing items with
  | nil =>
    rw [List.append_nil]
    exact .inr List.prefix_rfl
  | cons item more ih =>
    have hassoc : items ++ item :: more = (items ++ [item]) ++ more := by simp
    rw [hassoc]
    cases h : last item with
    | true =>
      -- this very item closes the block
      refine .inl ⟨remainder last items ++ [item], ?_, List.prefix_append ..⟩
      refine (complete_append last (items ++ [item]) more).subset ?_
      rw [complete_snoc_last items h]
      exact List.mem_append_right _ (List.mem_singleton_self _)
    | false =>
      have hgrown : remainder last items <+: remainder last (items ++ [item]) :=
        remainder_snoc_more items h ▸ List.prefix_append ..
      obtain ⟨block, hmem, hpre⟩ | hpre := ih (items ++ [item])
      · exact .inl ⟨block, hmem, hgrown.trans hpre⟩
      · exact .inr (hgrown.trans hpre)

end FontisRemote.Lib
