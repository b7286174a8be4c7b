import FontisRemote.Lib.Utf8
import FontisRemote.Terminal.OutputBuffer

/-!
# Chunks that do not cut a character

The reader thread hands on what it reads from the terminal in chunks (`Utf8ChunkAccumulator`), and holds
back the first bytes of a character whose rest has not been read. Nothing is lost or reordered and at most
three bytes are held; and of a valid UTF-8 stream every chunk is valid by itself (`chunks_lossless`).
-/

namespace FontisRemote.Terminal

open FontisRemote.Lib

/-- The backward scan: the bytes before, newest first, and how many are behind them. -/
def scan (len : Nat) : Bytes → Nat → Nat
  | [], _ => len
  | b :: before, behind =>
    if b &&& 0x80 = 0 then len
    else if b &&& 0xC0 = 0x80 then scan len before (behind + 1)
    else
      match sequenceLength b with
      | none => len
      | some seqLen => if seqLen ≤ behind + 1 then len else len - (behind + 1)

def findUtf8SplitPoint (buf : Bytes) : Nat := scan buf.length (buf.reverse.take 3) 0

/-- `remainder` is what is held back. -/
structure Utf8ChunkAccumulator where
  remainder : Bytes
deriving DecidableEq

namespace Utf8ChunkAccumulator

def default : Utf8ChunkAccumulator := ⟨[]⟩

variable (acc : Utf8ChunkAccumulator)

def pushChunk (data : Bytes) : Option Bytes × Utf8ChunkAccumulator :=
  if data.isEmpty then (none, acc)
  else
    let hadRemainder := !acc.remainder.isEmpty
    let data := acc.remainder ++ data
    let split := findUtf8SplitPoint data
    if split = data.length then (some data, ⟨[]⟩)
    -- what is before is no text, so what is behind is no beginning of a character
    else if !hadRemainder && decide (0 < split) && !fromUtf8 (data.take split) then (some data, ⟨[]⟩)
    else (if (data.take split).isEmpty then none else some (data.take split), ⟨data.drop split⟩)

def finish : Option Bytes × Utf8ChunkAccumulator :=
  if acc.remainder.isEmpty then (none, acc) else (some acc.remainder, ⟨[]⟩)

/-- The values that a sequence of chunks gives, and what is held back then. -/
def pushAll : Utf8ChunkAccumulator → List Bytes → List Bytes × Utf8ChunkAccumulator
  | acc, [] => ([], acc)
  | acc, data :: chunks =>
    let (value, acc) := acc.pushChunk data
    let (values, acc) := acc.pushAll chunks
    (value.toList ++ values, acc)

end Utf8ChunkAccumulator

/-! ## Where a chunk is cut -/

section Scan

variable {len behind : Nat} {buf : Bytes}

theorem scan_bounds (l : Bytes) (behind : Nat) (h : behind + l.length ≤ len) :
    len ≤ scan len l behind + (behind + l.length) ∧ scan len l behind ≤ len := by
  induction l generalizing behind with
  | nil => exact ⟨Nat.le_add_right _ _, Nat.le_refl _⟩
  | cons b before ih =>
    rw [List.length_cons] at h ⊢
    have hmore := ih (behind + 1) (by omega)
    unfold scan
    split
    · omega
    split
    · omega
    split
    · omega
    · split <;> omega

theorem findUtf8SplitPoint_bounds (buf : Bytes) :
    buf.length ≤ findUtf8SplitPoint buf + 3 ∧ findUtf8SplitPoint buf ≤ buf.length := by
  have hlen : (buf.reverse.take 3).length ≤ buf.length := by simp
  have h := scan_bounds (buf.reverse.take 3) 0 (by omega : 0 + _ ≤ buf.length)
  have h3 : (buf.reverse.take 3).length ≤ 3 := List.length_take_le 3 _
  unfold findUtf8SplitPoint
  omega

/-- Continuation bytes are passed by. -/
theorem scan_tail {tail : Bytes} (h : ∀ b ∈ tail, isContinuation b = true) (before : Bytes) :
    scan len (tail ++ before) behind = scan len before (behind + tail.length) := by
  induction tail generalizing behind with
  | nil => rfl
  | cons b tail ih =>
    have hb : b &&& 0xC0 = 0x80 := eq_of_beq (h b (List.mem_cons_self ..))
    have hne : b &&& 0x80 ≠ 0 := by
      rw [and_mask hb (k := 0x80) rfl rfl]
      decide
    rw [List.cons_append, scan, if_neg hne, if_pos hb, ih fun c hc => h c (List.mem_cons_of_mem b hc)]
    congr 1
    rw [List.length_cons]
    omega

/-- The scan stops at a lead byte. -/
theorem scan_lead {lead : UInt8} {n : Nat} (h : sequenceLength lead = some n) (before : Bytes) :
    scan len (lead :: before) behind = if n ≤ behind + 1 then len else len - (behind + 1) := by
  unfold scan
  split
  · rename_i hz
    have hn : n = 1 := by
      rw [sequenceLength, if_pos (beq_iff_eq.2 hz)] at h
      exact (Option.some.inj h).symm
    rw [if_pos (by omega)]
  split
  · rename_i hc
    rw [sequenceLength_continuation (beq_iff_eq.2 hc)] at h
    cases h
  · rw [h]

/-- A text with the beginning of one more character is cut in front of that. -/
theorem split_part {text part rest : Bytes} (hne : part ≠ []) (hrest : rest ≠ [])
    (h : IsSequence (part ++ rest)) : findUtf8SplitPoint (text ++ part) = text.length := by
  generalize hw : part ++ rest = w at h
  obtain ⟨hlead, htail, hthree⟩ := h
  rename_i lead tail
  obtain ⟨b, part, rfl⟩ := List.exists_cons_of_ne_nil hne
  rw [List.cons_append, List.cons.injEq] at hw
  obtain ⟨rfl, rfl⟩ := hw
  rw [List.length_append] at hlead hthree
  have hpos : 0 < rest.length := List.length_pos_iff.2 hrest
  have hcont : ∀ c ∈ part.reverse, isContinuation c = true := fun c hc =>
    htail c (List.mem_append_left rest (List.mem_reverse.1 hc))
  have htake : ((text ++ b :: part).reverse.take 3) =
      part.reverse ++ b :: text.reverse.take (2 - part.length) := by
    have hlen : part.reverse.length ≤ 3 := by rw [List.length_reverse]; omega
    rw [List.reverse_append, List.reverse_cons, List.append_assoc, List.take_append,
      List.take_of_length_le hlen, List.singleton_append, List.length_reverse]
    obtain ⟨k, hk⟩ : ∃ k, 3 - part.length = k + 1 := ⟨2 - part.length, by omega⟩
    rw [hk, List.take_succ_cons, show k = 2 - part.length by omega]
  rw [findUtf8SplitPoint, htake, scan_tail hcont, scan_lead hlead, List.length_reverse, List.length_append,
    List.length_cons, if_neg (by omega)]
  omega

/-- A text is not cut. -/
theorem split_text {text : Bytes} (h : Utf8 text) : findUtf8SplitPoint text = text.length := by
  obtain rfl | ⟨front, last, rfl, hlast⟩ := h.last
  · rfl
  obtain ⟨hlead, htail, hthree⟩ := hlast
  rename_i lead tail
  have hcont : ∀ c ∈ tail.reverse, isContinuation c = true := fun c hc => htail c (List.mem_reverse.1 hc)
  have hrev : (front ++ lead :: tail).reverse = tail.reverse ++ lead :: front.reverse := by simp
  rw [findUtf8SplitPoint, hrev, List.take_append, List.length_reverse]
  obtain hlt | heq : tail.length < 3 ∨ tail.length = 3 := by omega
  · obtain ⟨k, hk⟩ : ∃ k, 3 - tail.length = k + 1 := ⟨2 - tail.length, by omega⟩
    rw [List.take_of_length_le (by rw [List.length_reverse]; omega), hk, List.take_succ_cons,
      scan_tail hcont, scan_lead hlead, List.length_reverse, if_pos (by omega)]
  · -- four bytes: only continuation bytes are looked at
    rw [heq, List.take_of_length_le (by rw [List.length_reverse]; omega), Nat.sub_self, List.take_zero,
      scan_tail hcont]
    rfl

end Scan

/-! ## Every way of cutting the stream -/

namespace Utf8ChunkAccumulator

section Push

variable (acc : Utf8ChunkAccumulator) (data : Bytes)

/-- A push keeps all bytes in order. -/
theorem pushChunk_bytes :
    (acc.pushChunk data).1.getD [] ++ (acc.pushChunk data).2.remainder = acc.remainder ++ data := by
  unfold pushChunk
  split
  · rename_i hempty
    rw [List.isEmpty_iff.1 hempty, List.append_nil]
    rfl
  dsimp only
  split
  · simp
  split
  · simp
  · have htake := List.take_append_drop (findUtf8SplitPoint (acc.remainder ++ data)) (acc.remainder ++ data)
    split
    · rename_i hnone
      rwa [List.isEmpty_iff.1 hnone] at htake
    · exact htake

theorem pushChunk_remainder (h : acc.remainder.length ≤ 3) :
    (acc.pushChunk data).2.remainder.length ≤ 3 := by
  have hbounds := findUtf8SplitPoint_bounds (acc.remainder ++ data)
  unfold pushChunk
  split
  · exact h
  dsimp only
  split
  · simp
  split
  · simp
  · simp only [List.length_drop]
    omega

variable {acc data}

/-- Of a valid text, with more of it to come, a push gives a text and holds what begins the rest. -/
theorem pushChunk_text {more : Bytes} (h : Utf8 (acc.remainder ++ (data ++ more))) :
    (∀ value ∈ (acc.pushChunk data).1, Utf8 value) ∧ Utf8 ((acc.pushChunk data).2.remainder ++ more) := by
  unfold pushChunk
  split
  · rename_i hempty
    rw [List.isEmpty_iff.1 hempty] at h
    exact ⟨by simp, h⟩
  dsimp only
  rw [← List.append_assoc] at h
  obtain ⟨text, part, hdata, htext, hpart, hlast⟩ := h.split
  rw [hdata]
  obtain rfl | ⟨rest, hrest, hseq⟩ := hlast
  · rw [List.append_nil, if_pos (split_text htext)]
    refine ⟨fun value hvalue => ?_, hpart⟩
    rwa [← Option.some.inj hvalue]
  by_cases hne : part = []
  · subst hne
    rw [List.append_nil, if_pos (split_text htext)]
    refine ⟨fun value hvalue => ?_, hpart⟩
    rwa [← Option.some.inj hvalue]
  · have hpos : 0 < part.length := List.length_pos_iff.2 hne
    rw [split_part hne hrest hseq, if_neg (by rw [List.length_append]; omega), List.take_left,
      fromUtf8_iff.2 htext, Bool.not_true, Bool.and_false, if_neg Bool.false_ne_true, List.drop_left]
    refine ⟨fun value hvalue => ?_, hpart⟩
    split at hvalue
    · cases hvalue
    · rwa [← Option.some.inj hvalue]

theorem finish_bytes : acc.finish.1.getD [] = acc.remainder := by
  unfold finish
  split
  · rename_i hempty
    exact (List.isEmpty_iff.1 hempty).symm
  · rfl

end Push

section Runs

variable {acc : Utf8ChunkAccumulator}

theorem pushAll_bytes (chunks : List Bytes) :
    (acc.pushAll chunks).1.flatten ++ (acc.pushAll chunks).2.remainder = acc.remainder ++ chunks.flatten := by
  induction chunks generalizing acc with
  | nil => simp [pushAll]
  | cons data chunks ih =>
    have hpush := acc.pushChunk_bytes data
    have hflat : ∀ o : Option Bytes, o.toList.flatten = o.getD [] := by
      intro o
      cases o <;> simp
    rw [pushAll, List.flatten_append, List.append_assoc, ih, hflat, ← List.append_assoc, hpush,
      List.flatten_cons, List.append_assoc]

theorem pushAll_remainder (h : acc.remainder.length ≤ 3) (chunks : List Bytes) :
    (acc.pushAll chunks).2.remainder.length ≤ 3 := by
  induction chunks generalizing acc with
  | nil => exact h
  | cons data chunks ih => exact ih (acc.pushChunk_remainder data h)

theorem pushAll_text {chunks : List Bytes} (h : Utf8 (acc.remainder ++ chunks.flatten)) :
    ∀ value ∈ (acc.pushAll chunks).1, Utf8 value := by
  induction chunks generalizing acc with
  | nil =>
    intro value hvalue
    cases hvalue
  | cons data chunks ih =>
    obtain ⟨hvalue, hrest⟩ := pushChunk_text h
    intro value hmem
    obtain hmem | hmem := List.mem_append.1 hmem
    · exact hvalue value (Option.mem_toList.1 hmem)
    · exact ih hrest value hmem

end Runs

/-- Whatever way a stream is cut, what the pushes and the final `finish` give is the stream, never more than
three bytes are held back, and the pushes of a valid text give valid texts. -/
theorem chunks_lossless (chunks : List Bytes) :
    (default.pushAll chunks).1.flatten ++ (default.pushAll chunks).2.finish.1.getD [] = chunks.flatten ∧
    (default.pushAll chunks).2.remainder.length ≤ 3 ∧
    (fromUtf8 chunks.flatten = true → ∀ value ∈ (default.pushAll chunks).1, fromUtf8 value = true) := by
  refine ⟨?_, ?_, fun htext value hvalue => ?_⟩
  · rw [finish_bytes]
    exact pushAll_bytes chunks
  · have hnone : default.remainder.length ≤ 3 := Nat.zero_le 3
    exact pushAll_remainder hnone chunks
  · have hall : Utf8 (default.remainder ++ chunks.flatten) := fromUtf8_iff.1 htext
    exact fromUtf8_iff.2 (pushAll_text hall value hvalue)

end Utf8ChunkAccumulator

end FontisRemote.Terminal
