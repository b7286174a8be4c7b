import Mathlib.Algebra.Order.Ring.Int
import Mathlib.Data.List.Basic

/-!
# Operations that can panic

Arithmetic on machine integers that is checked, and slices that must lie within what is sliced: `none`
where the program would panic. The lemmas are the cases in which it does not.
-/

namespace FontisRemote.Lib

variable {α β : Type} {a b bits : Nat}

def checkedAdd (bits a b : Nat) : Option Nat := if a + b < 2 ^ bits then some (a + b) else none

def checkedMul (bits a b : Nat) : Option Nat := if a * b < 2 ^ bits then some (a * b) else none

def checkedSub (a b : Nat) : Option Nat := if b ≤ a then some (a - b) else none

/-- `bytes[start..stop]` -/
def slice (bytes : List α) (start stop : Nat) : Option (List α) :=
  if start ≤ stop ∧ stop ≤ bytes.length then some ((bytes.take stop).drop start) else none

/-- `Buf::advance` -/
def advance (n : Nat) (bytes : List α) : Option (List α) :=
  if n ≤ bytes.length then some (bytes.drop n) else none

/-- What went well is gone on with. -/
theorem some_bind (x : α) (f : α → Option β) : (some x >>= f) = f x := rfl

theorem checkedAdd_of_lt (h : a + b < 2 ^ bits) : checkedAdd bits a b = some (a + b) := if_pos h

theorem checkedMul_of_lt (h : a * b < 2 ^ bits) : checkedMul bits a b = some (a * b) := if_pos h

theorem checkedSub_of_le (h : b ≤ a) : checkedSub a b = some (a - b) := if_pos h

theorem slice_of_le {bytes : List α} {start stop : Nat} (h : start ≤ stop) (hlen : stop ≤ bytes.length) :
    slice bytes start stop = some ((bytes.take stop).drop start) := if_pos ⟨h, hlen⟩

theorem advance_of_le {bytes : List α} {n : Nat} (h : n ≤ bytes.length) :
    advance n bytes = some (bytes.drop n) := if_pos h

end FontisRemote.Lib
