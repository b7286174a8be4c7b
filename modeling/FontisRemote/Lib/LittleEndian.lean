import Mathlib.Algebra.Order.Ring.Int
import Mathlib.Data.List.Basic

/-!
# Numbers as little-endian bytes
-/

namespace FontisRemote.Lib

/-- The lowest bytes of a number, the lowest first. -/
def leBytes : (width n : Nat) → List UInt8
  | 0, _ => []
  | width + 1, n => UInt8.ofNat n :: leBytes width (n / 256)

def ofLeBytes : List UInt8 → Nat
  | [] => 0
  | b :: bs => b.toNat + 256 * ofLeBytes bs

@[simp] theorem length_leBytes (width n : Nat) : (leBytes width n).length = width := by
  induction width generalizing n with
  | zero => rfl
  | succ width ih => rw [leBytes, List.length_cons, ih]

theorem ofLeBytes_leBytes (width n : Nat) : ofLeBytes (leBytes width n) = n % 256 ^ width := by
  induction width generalizing n with
  | zero => rw [leBytes, ofLeBytes, pow_zero, Nat.mod_one]
  | succ width ih =>
    rw [leBytes, ofLeBytes, ih, UInt8.toNat_ofNat', Nat.pow_succ' (m := 256)]
    exact (Nat.mod_mul (a := 256) (b := 256 ^ width) (x := n)).symm

theorem ofLeBytes_leBytes_of_lt {width n : Nat} (h : n < 256 ^ width) : ofLeBytes (leBytes width n) = n := by
  rw [ofLeBytes_leBytes, Nat.mod_eq_of_lt h]

theorem leBytes_ofLeBytes (bytes : List UInt8) : leBytes bytes.length (ofLeBytes bytes) = bytes := by
  induction bytes with
  | nil => rfl
  | cons b bs ih =>
    have hb : b.toNat < 256 := b.toNat_lt
    have hlow : UInt8.ofNat (b.toNat + 256 * ofLeBytes bs) = b := by
      apply UInt8.toNat_inj.1
      rw [UInt8.toNat_ofNat']
      omega
    have hhigh : (b.toNat + 256 * ofLeBytes bs) / 256 = ofLeBytes bs := by omega
    rw [List.length_cons, leBytes, ofLeBytes, hlow, hhigh, ih]

theorem ofLeBytes_lt (bytes : List UInt8) : ofLeBytes bytes < 256 ^ bytes.length := by
  induction bytes with
  | nil => exact Nat.one_pos
  | cons b bs ih =>
    have hb : b.toNat < 256 := b.toNat_lt
    rw [ofLeBytes, List.length_cons, Nat.pow_succ]
    omega

/-- Zero bytes behind a number say nothing. -/
theorem ofLeBytes_append_zeros (bytes : List UInt8) (n : Nat) :
    ofLeBytes (bytes ++ List.replicate n 0) = ofLeBytes bytes := by
  induction bytes with
  | nil =>
    induction n with
    | zero => rfl
    | succ n ih =>
      have hzero : ofLeBytes (List.replicate n 0) = 0 := ih
      change 0 + 256 * ofLeBytes (List.replicate n 0) = 0
      rw [hzero]
  | cons b bs ih => rw [List.cons_append, ofLeBytes, ofLeBytes, ih]

/-- A number without its trailing zero bytes. -/
theorem ofLeBytes_trim (bytes : List UInt8) :
    ofLeBytes (bytes.take (bytes.length - (bytes.reverse.takeWhile (· == 0)).length)) = ofLeBytes bytes := by
  obtain ⟨front, zeros, hbytes, hzeros⟩ : ∃ front zeros, bytes = front ++ zeros ∧
      zeros.reverse = bytes.reverse.takeWhile (· == 0) := by
    refine ⟨(bytes.reverse.dropWhile (· == 0)).reverse, (bytes.reverse.takeWhile (· == 0)).reverse, ?_,
      List.reverse_reverse _⟩
    rw [← List.reverse_append, List.takeWhile_append_dropWhile, List.reverse_reverse]
  have hall : zeros = List.replicate zeros.length 0 := by
    refine List.eq_replicate_of_mem fun b hb => ?_
    have hmem : b ∈ bytes.reverse.takeWhile (· == 0) := hzeros ▸ List.mem_reverse.2 hb
    exact beq_iff_eq.1 (List.all_eq_true.1 List.all_takeWhile b hmem)
  have hlen : bytes.length - (bytes.reverse.takeWhile (· == 0)).length = front.length := by
    rw [← hzeros, List.length_reverse, hbytes, List.length_append, Nat.add_sub_cancel]
  rw [hlen, hbytes, List.take_left, hall, ofLeBytes_append_zeros]

/-- A number read off the front, and the bytes after it. -/
def getLe (width : Nat) (bytes : List UInt8) : Nat × List UInt8 :=
  (ofLeBytes (bytes.take width), bytes.drop width)

theorem getLe_append {width n : Nat} (h : n < 256 ^ width) (rest : List UInt8) :
    getLe width (leBytes width n ++ rest) = (n, rest) := by
  unfold getLe
  rw [List.take_left' (length_leBytes width n), List.drop_left' (length_leBytes width n),
    ofLeBytes_leBytes_of_lt h]

theorem getLe_lt (width : Nat) (bytes : List UInt8) : (getLe width bytes).1 < 256 ^ width := by
  have hlen : (bytes.take width).length ≤ width := List.length_take_le ..
  exact (ofLeBytes_lt (bytes.take width)).trans_le (Nat.pow_le_pow_right (by decide) hlen)

/-- The numbers of two bytes each; a byte left over is dropped. -/
def leUnits : List UInt8 → List Nat
  | a :: b :: rest => ofLeBytes [a, b] :: leUnits rest
  | _ => []

theorem length_leUnits (bytes : List UInt8) : (leUnits bytes).length = bytes.length / 2 := by
  induction bytes using leUnits.induct with
  | case1 a b rest ih =>
    rw [leUnits, List.length_cons, ih, List.length_cons, List.length_cons]
    omega
  | case2 bytes hshort =>
    obtain _ | ⟨a, _ | ⟨b, rest⟩⟩ := bytes
    · simp [leUnits]
    · simp [leUnits]
    · exact absurd rfl (hshort a b rest)

theorem leUnits_take (bytes : List UInt8) (n : Nat) : leUnits (bytes.take (n * 2)) = (leUnits bytes).take n := by
  induction n generalizing bytes with
  | zero => simp [leUnits]
  | succ n ih =>
    obtain _ | ⟨a, _ | ⟨b, rest⟩⟩ := bytes
    · simp [leUnits]
    · simp [leUnits, Nat.succ_mul]
    · rw [Nat.succ_mul, List.take_succ_cons, List.take_succ_cons, leUnits, leUnits, List.take_succ_cons, ih]

theorem leUnits_flatMap_append {units : List Nat} (h : ∀ u ∈ units, u < 65536) (rest : List UInt8) :
    leUnits (units.flatMap (leBytes 2) ++ rest) = units ++ leUnits rest := by
  induction units with
  | nil => rfl
  | cons u units ih =>
    have hu : ofLeBytes (leBytes 2 u) = u := ofLeBytes_leBytes_of_lt (h u (List.mem_cons_self ..))
    have hrest := ih fun v hv => h v (List.mem_cons_of_mem _ hv)
    rw [List.flatMap_cons, List.append_assoc, List.cons_append, ← hrest]
    change ofLeBytes (leBytes 2 u) :: leUnits _ = _
    rw [hu]
    rfl

end FontisRemote.Lib
