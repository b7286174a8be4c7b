import Mathlib.Algebra.Order.Ring.Int
import Mathlib.Data.List.Basic

/-!
# UTF-16

Text as code units and back. Decoding refuses a surrogate that has no partner.
-/

namespace FontisRemote.Lib

def utf16Units (c : Char) : List Nat :=
  if c.toNat < 0x10000 then [c.toNat]
  else [0xD800 + (c.toNat - 0x10000) / 0x400, 0xDC00 + (c.toNat - 0x10000) % 0x400]

def encodeUtf16 (text : List Char) : List Nat :=
  text.flatMap utf16Units

def isHighSurrogate (u : Nat) : Bool := 0xD800 ≤ u && u < 0xDC00
def isLowSurrogate (u : Nat) : Bool := 0xDC00 ≤ u && u < 0xE000

def decodeUtf16 : List Nat → Option (List Char)
  | [] => some []
  | u :: rest =>
    if isHighSurrogate u then
      match rest with
      | v :: rest =>
        if isLowSurrogate v then
          (decodeUtf16 rest).map (Char.ofNat (0x10000 + (u - 0xD800) * 0x400 + (v - 0xDC00)) :: ·)
        else none
      | [] => none
    else if isLowSurrogate u then none
    else (decodeUtf16 rest).map (Char.ofNat u :: ·)

theorem not_surrogate (c : Char) : isHighSurrogate c.toNat = false ∧ isLowSurrogate c.toNat = false := by
  unfold isHighSurrogate isLowSurrogate
  obtain hlow | ⟨hhigh, -⟩ : c.toNat < 0xD800 ∨ 0xDFFF < c.toNat ∧ c.toNat < 0x110000 := c.valid
  · constructor <;> simp only [Bool.and_eq_false_iff, decide_eq_false_iff_not] <;> omega
  · constructor <;> simp only [Bool.and_eq_false_iff, decide_eq_false_iff_not] <;> omega

theorem toNat_lt (c : Char) : c.toNat < 0x110000 := by
  obtain hlow | ⟨-, hhigh⟩ : c.toNat < 0xD800 ∨ 0xDFFF < c.toNat ∧ c.toNat < 0x110000 := c.valid
  · omega
  · exact hhigh

theorem decodeUtf16_units_append (c : Char) (rest : List Nat) :
    decodeUtf16 (utf16Units c ++ rest) = (decodeUtf16 rest).map (c :: ·) := by
  unfold utf16Units
  split
  · obtain ⟨hhigh, hlow⟩ := not_surrogate c
    rw [List.singleton_append, decodeUtf16.eq_def]
    dsimp only
    rw [hhigh, hlow, if_neg Bool.false_ne_true, if_neg Bool.false_ne_true, Char.ofNat_toNat]
  · rename_i hlarge
    have hlt := toNat_lt c
    have hhigh : isHighSurrogate (0xD800 + (c.toNat - 0x10000) / 0x400) = true := by
      unfold isHighSurrogate
      simp only [Bool.and_eq_true, decide_eq_true_eq]
      omega
    have hlow : isLowSurrogate (0xDC00 + (c.toNat - 0x10000) % 0x400) = true := by
      unfold isLowSurrogate
      simp only [Bool.and_eq_true, decide_eq_true_eq]
      omega
    have hnumber : 0x10000 + (0xD800 + (c.toNat - 0x10000) / 0x400 - 0xD800) * 0x400 +
        (0xDC00 + (c.toNat - 0x10000) % 0x400 - 0xDC00) = c.toNat := by
      omega
    rw [List.cons_append, List.singleton_append, decodeUtf16.eq_def]
    dsimp only
    rw [hhigh, if_pos rfl, hlow, if_pos rfl, hnumber, Char.ofNat_toNat]

theorem decodeUtf16_encodeUtf16 (text : List Char) : decodeUtf16 (encodeUtf16 text) = some text := by
  induction text with
  | nil => rfl
  | cons c text ih =>
    unfold encodeUtf16 at ih ⊢
    rw [List.flatMap_cons, decodeUtf16_units_append, ih, Option.map_some]

theorem lt_of_mem_encodeUtf16 {text : List Char} {u : Nat} (h : u ∈ encodeUtf16 text) : u < 65536 := by
  obtain ⟨c, -, hu⟩ := List.mem_flatMap.mp h
  have hlt := toNat_lt c
  unfold utf16Units at hu
  split at hu
  · rw [List.mem_singleton.mp hu]
    assumption
  · obtain rfl | hu := List.mem_cons.mp hu
    · omega
    · rw [List.mem_singleton.mp hu]
      omega

/-- A zero unit comes from a zero character only. -/
theorem zero_mem_encodeUtf16 {text : List Char} (h : 0 ∈ encodeUtf16 text) : '\x00' ∈ text := by
  obtain ⟨c, hc, hu⟩ := List.mem_flatMap.mp h
  unfold utf16Units at hu
  split at hu
  · have hzero : c.toNat = '\x00'.toNat := (List.mem_singleton.mp hu).symm
    rw [Char.toNat_inj.mp hzero] at hc
    exact hc
  · obtain hu | hu := List.mem_cons.mp hu
    · omega
    · have hu := List.mem_singleton.mp hu
      omega

end FontisRemote.Lib
