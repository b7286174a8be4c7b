import Mathlib.Algebra.Order.Ring.Int
import Mathlib.Data.List.Basic
import Mathlib.Data.Nat.Bitwise

/-!
# UTF-8 by its bytes

The encoding of a character is a lead byte, which says by its high bits how many bytes there are, and
continuation bytes (`IsSequence`). So a prefix of a valid text is a valid text and the beginning of one
more character (`Utf8.split`), which is what a reader needs that meets a text in pieces.
-/

namespace FontisRemote.Lib

/-- A continuation byte. -/
def isContinuation (b : UInt8) : Bool := b &&& 0xC0 == 0x80

/-- How many bytes begin with this lead byte. -/
def sequenceLength (b : UInt8) : Option Nat :=
  if b &&& 0x80 == 0 then some 1
  else if b &&& 0xE0 == 0xC0 then some 2
  else if b &&& 0xF0 == 0xE0 then some 3
  else if b &&& 0xF8 == 0xF0 then some 4
  else none

/-- A lead byte and as many continuation bytes as it asks for, at most three. -/
inductive IsSequence : List UInt8 → Prop
  | intro {lead : UInt8} {tail : List UInt8} : sequenceLength lead = some (tail.length + 1) →
      (∀ b ∈ tail, isContinuation b = true) → tail.length ≤ 3 → IsSequence (lead :: tail)

/-- The encoding of a text. -/
def Utf8 (bytes : List UInt8) : Prop := ∃ text : List Char, bytes = text.flatMap String.utf8EncodeChar

/-- `std::str::from_utf8(..).is_ok()` -/
def fromUtf8 (bytes : List UInt8) : Bool := ByteArray.validateUTF8 bytes.toByteArray

def encodeUtf8 (text : List Char) : List UInt8 := text.flatMap String.utf8EncodeChar

/-- `std::str::from_utf8` -/
def decodeUtf8 (bytes : List UInt8) : Option (List Char) := bytes.toByteArray.utf8Decode?.map Array.toList

section Bytes

theorem masked {m a b d : UInt8} (x : UInt8) (hm : m &&& b = 0) (ha : a &&& b = d) :
    (x &&& m ||| a) &&& b = d := by
  have h : (x &&& m ||| a) &&& b = (x &&& (m &&& b)) ||| (a &&& b) := by
    apply UInt8.toBitVec_inj.1
    simp only [UInt8.toBitVec_and, UInt8.toBitVec_or]
    rw [BitVec.and_or_distrib_right, BitVec.and_assoc]
  rw [h, hm, ha]
  simp

/-- The bits under a mask, seen under a smaller one. -/
theorem and_mask {b m d e k : UInt8} (h : b &&& m = d) (hm : m &&& k = k) (hd : d &&& k = e) :
    b &&& k = e := by
  rw [← hm, ← UInt8.and_assoc, h, hd]

/-- A continuation byte leads nothing. -/
theorem sequenceLength_continuation {b : UInt8} (h : isContinuation b = true) : sequenceLength b = none := by
  have hb : b &&& 0xC0 = 0x80 := beq_iff_eq.1 h
  have h1 : ¬ (b &&& 0x80 == 0) = true := by
    rw [and_mask hb (k := 0x80) rfl rfl]
    decide
  have h2 : ∀ m d : UInt8, m &&& 0xC0 = 0xC0 → d &&& 0xC0 = 0xC0 → ¬ (b &&& m == d) = true := by
    intro m d hm hd he
    have hc := and_mask (beq_iff_eq.1 he) hm hd
    exact absurd (hb.symm.trans hc) (by decide)
  rw [sequenceLength, if_neg h1, if_neg (h2 _ _ rfl rfl), if_neg (h2 _ _ rfl rfl), if_neg (h2 _ _ rfl rfl)]

theorem isContinuation_tail (x : UInt8) : isContinuation (x &&& 0x3f ||| 0x80) = true :=
  beq_iff_eq.2 (masked x rfl rfl)

theorem sequenceLength_ascii {v : UInt32} (h : v ≤ 0x7f) : sequenceLength v.toUInt8 = some 1 := by
  refine if_pos (beq_iff_eq.2 ?_)
  apply UInt8.toNat_inj.1
  have h' : v.toNat ≤ 127 := h
  rw [UInt8.toNat_and, UInt32.toNat_toUInt8, Nat.mod_eq_of_lt (by omega)]
  change v.toNat &&& 2 ^ 7 = 0
  rw [Nat.and_two_pow, Nat.testBit_lt_two_pow (by omega)]
  rfl

theorem sequenceLength_two (x : UInt8) : sequenceLength (x &&& 0x1f ||| 0xc0) = some 2 := by
  unfold sequenceLength
  rw [masked x (d := 0x80) rfl rfl, masked x (d := 0xC0) rfl rfl]
  rfl

theorem sequenceLength_three (x : UInt8) : sequenceLength (x &&& 0x0f ||| 0xe0) = some 3 := by
  unfold sequenceLength
  rw [masked x (d := 0x80) rfl rfl, masked x (d := 0xE0) rfl rfl, masked x (d := 0xE0) rfl rfl]
  rfl

theorem sequenceLength_four (x : UInt8) : sequenceLength (x &&& 0x07 ||| 0xf0) = some 4 := by
  unfold sequenceLength
  rw [masked x (d := 0x80) rfl rfl, masked x (d := 0xE0) rfl rfl, masked x (d := 0xF0) rfl rfl,
    masked x (d := 0xF0) rfl rfl]
  rfl

theorem isSequence_utf8EncodeChar (c : Char) : IsSequence (String.utf8EncodeChar c) := by
  obtain h | h | h | h := c.utf8Size_eq
  · rw [String.utf8EncodeChar_eq_singleton h]
    exact ⟨sequenceLength_ascii (Char.utf8Size_eq_one_iff.1 h), by simp, by simp⟩
  · rw [String.utf8EncodeChar_eq_cons_cons h]
    exact ⟨sequenceLength_two _, by simp [isContinuation_tail], by simp⟩
  · rw [String.utf8EncodeChar_eq_cons_cons_cons h]
    exact ⟨sequenceLength_three _, by simp [isContinuation_tail], by simp⟩
  · rw [String.utf8EncodeChar_eq_cons_cons_cons_cons h]
    exact ⟨sequenceLength_four _, by simp [isContinuation_tail], by simp⟩

end Bytes

theorem fromUtf8_iff {bytes : List UInt8} : fromUtf8 bytes = true ↔ Utf8 bytes := by
  unfold fromUtf8
  rw [ByteArray.validateUTF8_eq_true_iff]
  constructor
  · rintro ⟨text, htext⟩
    refine ⟨text, ?_⟩
    have h := congrArg (fun a : ByteArray => a.data.toList) htext
    simpa [List.utf8Encode] using h
  · rintro ⟨text, rfl⟩
    exact ⟨text, rfl⟩

theorem decodeUtf8_encodeUtf8 (text : List Char) : decodeUtf8 (encodeUtf8 text) = some text := by
  have h : text.utf8Encode.utf8Decode? = some text.toArray := List.utf8Decode?_utf8Encode
  unfold decodeUtf8 encodeUtf8
  rw [List.utf8Encode] at h
  rw [h, Option.map_some]

theorem decodeUtf8_eq_some {bytes : List UInt8} {text : List Char} :
    decodeUtf8 bytes = some text ↔ bytes = encodeUtf8 text := by
  constructor
  · intro h
    obtain ⟨chars, hchars, rfl⟩ := Option.map_eq_some_iff.1 h
    have hback : chars.toList.utf8Encode = bytes.toByteArray := by
      simpa [hchars] using ByteArray.utf8Encode_get_utf8Decode? (h := Option.isSome_of_eq_some hchars)
    have hdata := congrArg (fun a : ByteArray => a.data.toList) hback
    simpa [List.utf8Encode, encodeUtf8] using hdata.symm
  · rintro rfl
    exact decodeUtf8_encodeUtf8 text

/-! ## A text in pieces -/

section Pieces

variable {bytes more : List UInt8}

theorem Utf8.nil : Utf8 [] := ⟨[], rfl⟩

theorem Utf8.append (h : Utf8 bytes) (hmore : Utf8 more) : Utf8 (bytes ++ more) := by
  obtain ⟨text, rfl⟩ := h
  obtain ⟨rest, rfl⟩ := hmore
  exact ⟨text ++ rest, List.flatMap_append.symm⟩

/-- A byte below 128 is a character by itself. -/
theorem Utf8.of_ascii (h : ∀ b ∈ bytes, b < 128) : Utf8 bytes := by
  induction bytes with
  | nil => exact .nil
  | cons b bytes ih =>
    have hb : b.toNat < 128 := h b (List.mem_cons_self ..)
    have hval : b.toUInt32.toNat = b.toNat := UInt8.toNat_toUInt32 b
    let c : Char := ⟨b.toUInt32, Or.inl (by omega)⟩
    have hchar : String.utf8EncodeChar c = [b] := by
      rw [String.utf8EncodeChar_eq_singleton]
      · exact congrArg (fun x => [x]) (UInt8.toUInt8_toUInt32 b)
      · rw [Char.utf8Size_eq_one_iff, UInt32.le_iff_toNat_le]
        change b.toUInt32.toNat ≤ 127
        omega
    have hrest : Utf8 bytes := ih fun x hx => h x (List.mem_cons_of_mem _ hx)
    have hone : Utf8 [b] := ⟨[c], by simp [hchar]⟩
    exact hone.append hrest

/-- The beginning of a text is a text and a part of the encoding of one more character. -/
theorem Utf8.split (h : Utf8 (bytes ++ more)) :
    ∃ text part, bytes = text ++ part ∧ Utf8 text ∧ Utf8 (part ++ more) ∧
      (part = [] ∨ ∃ rest, rest ≠ [] ∧ IsSequence (part ++ rest)) := by
  obtain ⟨text, htext⟩ := h
  induction text generalizing bytes with
  | nil =>
    obtain ⟨rfl, rfl⟩ := List.append_eq_nil_iff.1 htext
    exact ⟨[], [], rfl, .nil, .nil, .inl rfl⟩
  | cons c text ih =>
    rw [List.flatMap_cons] at htext
    obtain ⟨tail, hbytes, hmore⟩ | ⟨rest, hc, hmore⟩ := List.append_eq_append_iff.1 htext
    · -- the piece ends in this character
      cases tail with
      | nil =>
        rw [List.append_nil] at hbytes
        refine ⟨bytes, [], (List.append_nil _).symm, ⟨[c], ?_⟩, ⟨text, ?_⟩, .inl rfl⟩
        · simp [hbytes]
        · simpa using hmore
      | cons b tail =>
        refine ⟨[], bytes, rfl, .nil, ⟨c :: text, ?_⟩, .inr ⟨b :: tail, List.cons_ne_nil _ _, ?_⟩⟩
        · rw [hmore, List.flatMap_cons, ← List.append_assoc, hbytes]
        · rw [← hbytes]
          exact isSequence_utf8EncodeChar c
    · obtain ⟨front, part, rfl, ⟨t, ht⟩, hpart, hlast⟩ := ih hmore.symm
      refine ⟨String.utf8EncodeChar c ++ front, part, ?_, ⟨c :: t, ?_⟩, hpart, hlast⟩
      · rw [hc, List.append_assoc]
      · rw [List.flatMap_cons, ht]

/-- A text is empty or ends in the encoding of a character. -/
theorem Utf8.last (h : Utf8 bytes) :
    bytes = [] ∨ ∃ front last, bytes = front ++ last ∧ IsSequence last := by
  obtain ⟨text, rfl⟩ := h
  obtain rfl | ⟨front, c, rfl⟩ := List.eq_nil_or_concat text
  · exact .inl rfl
  · refine .inr ⟨front.flatMap String.utf8EncodeChar, String.utf8EncodeChar c, ?_,
      isSequence_utf8EncodeChar c⟩
    rw [List.concat_eq_append, List.flatMap_append, List.flatMap_singleton]

end Pieces

end FontisRemote.Lib
