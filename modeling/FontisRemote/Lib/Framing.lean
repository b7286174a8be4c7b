import Mathlib.Algebra.Order.Ring.Int
import Mathlib.Data.Nat.ModEq

/-!
# Fields with their length in front

A field written as its length in digits of a fixed number and then its contents can be told apart from
whatever follows it. `eq_of_digits` recovers a number from its lowest digits, `prefixed_inj` splits a
sequence of such fields.
-/

namespace FontisRemote.Lib

universe u

/-- A number is its digits, as many as it has room for. -/
theorem eq_of_digits {base : Nat} {n m : Nat} (width : Nat) (hn : n < base ^ width)
    (hm : m < base ^ width) (h : ∀ i < width, n / base ^ i % base = m / base ^ i % base) : n = m := by
  induction width generalizing n m with
  | zero =>
    rw [pow_zero, Nat.lt_one_iff] at hn hm
    rw [hn, hm]
  | succ width ih =>
    have hbase : 0 < base := by
      by_contra hb
      obtain rfl : base = 0 := by omega
      simp at hn
    have hdiv : n / base = m / base := by
      refine ih ?_ ?_ fun i hi => ?_
      · exact Nat.div_lt_of_lt_mul (by rwa [pow_succ'] at hn)
      · exact Nat.div_lt_of_lt_mul (by rwa [pow_succ'] at hm)
      · have := h (i + 1) (by omega)
        rwa [pow_succ', ← Nat.div_div_eq_div_mul, ← Nat.div_div_eq_div_mul] at this
    have hmod : n % base = m % base := by simpa using h 0 (by omega)
    rw [← Nat.div_add_mod n base, ← Nat.div_add_mod m base, hdiv, hmod]

/-- A field with a header that says how long it is, followed by anything. -/
theorem prefixed_inj {α : Type u} {header : Nat → List α} {width limit : Nat}
    (hlen : ∀ n, (header n).length = width)
    (hinj : ∀ n m, n < limit → m < limit → header n = header m → n = m) {a b x y : List α}
    (ha : a.length < limit) (hb : b.length < limit)
    (h : header a.length ++ a ++ x = header b.length ++ b ++ y) : a = b ∧ x = y := by
  rw [List.append_assoc, List.append_assoc] at h
  obtain ⟨hhead, hrest⟩ := List.append_inj h (by rw [hlen, hlen])
  exact List.append_inj hrest (hinj _ _ ha hb hhead)

end FontisRemote.Lib
