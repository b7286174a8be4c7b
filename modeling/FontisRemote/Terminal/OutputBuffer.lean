import Mathlib.Algebra.Order.Ring.Int
import Mathlib.Data.List.Basic

/-!
# The scrollback of a terminal

`OutputBuffer` keeps the last output of a session in lines, and drops the oldest when there is too
much. Its lines are always a suffix of all that was appended (`append_suffix`), and `get_recent`
gives a suffix of its lines (`getRecent_suffix`): what it hands out may begin late, but has no hole.
-/

namespace FontisRemote.Terminal

abbrev Bytes := List UInt8

def maxOutputBufferSize : Nat := 1024 * 1024
def maxBufferLines : Nat := 10000

def newline : UInt8 := 10

structure OutputBuffer where
  lines : List Bytes
  totalSize : Nat
  lastLineIncomplete : Bool
deriving DecidableEq

/-! ## Lines of a text -/

/-- The lines that the pieces between newlines add: each but the last gets its newline back, and an
empty last piece is no line. -/
def linesOf (endsWithNewline : Bool) : List Bytes → List Bytes
  | [] => []
  | [last] =>
    if last.isEmpty then [] else [if endsWithNewline then last ++ [newline] else last]
  | line :: rest => (line ++ [newline]) :: linesOf endsWithNewline rest

def endsWithNewline (data : Bytes) : Bool := decide (data.getLast? = some newline)

section Lines

variable {b : UInt8} {rest : Bytes}

/-- A text that ends with a newline still does without its first byte, unless that was the newline. -/
theorem endsWithNewline_tail (h : endsWithNewline (b :: rest) = true) (hb : b ≠ newline) :
    endsWithNewline rest = true := by
  cases rest with
  | nil =>
    have hlast : b = newline := by simpa [endsWithNewline] using h
    exact absurd hlast hb
  | cons c rest => simpa [endsWithNewline] using h

theorem splitOn_length_ne_one {data : Bytes} (h : endsWithNewline data = true) :
    (data.splitOn newline).length ≠ 1 := by
  induction data with
  | nil => cases h
  | cons b rest ih =>
    rw [List.splitOn_cons_eq_if_modifyHead]
    split
    · have hpos : 0 < (rest.splitOn newline).length := List.length_pos_iff.2 (List.splitOn_ne_nil newline rest)
      rw [List.length_cons]
      omega
    · rename_i hb
      rw [List.length_modifyHead]
      exact ih (endsWithNewline_tail h (by simpa using hb))

theorem flatten_linesOf_modifyHead {ends : Bool} {pieces : List Bytes} (h : pieces ≠ [])
    (hends : ends = true → pieces.length ≠ 1) :
    (linesOf ends (pieces.modifyHead (List.cons b))).flatten = b :: (linesOf ends pieces).flatten := by
  cases pieces with
  | nil => exact absurd rfl h
  | cons line more =>
    cases more with
    | nil =>
      cases ends with
      | true => exact absurd rfl (hends rfl)
      | false => cases line <;> simp [linesOf, List.modifyHead]
    | cons next more => simp [linesOf, List.modifyHead]

/-- The lines of a text are the text. -/
theorem flatten_linesOf {ends : Bool} {data : Bytes}
    (h : ends = true → data = [] ∨ endsWithNewline data = true) :
    (linesOf ends (data.splitOn newline)).flatten = data := by
  induction data with
  | nil => simp [linesOf]
  | cons b rest ih =>
    rw [List.splitOn_cons_eq_if_modifyHead]
    split
    · rename_i hb
      have hrest : ends = true → rest = [] ∨ endsWithNewline rest = true := by
        intro he
        cases rest with
        | nil => exact .inl rfl
        | cons c rest =>
          obtain h | h := h he
          · cases h
          · exact .inr (by simpa [endsWithNewline] using h)
      obtain ⟨piece, pieces, hp⟩ := List.exists_cons_of_ne_nil (List.splitOn_ne_nil newline rest)
      have hb' : b = newline := by simpa using hb
      have hih := ih hrest
      rw [hp] at hih ⊢
      simp only [linesOf, List.flatten_cons, List.nil_append, List.singleton_append, hih, hb']
    · rename_i hb
      have hb' : b ≠ newline := by simpa using hb
      have htail : ends = true → endsWithNewline rest = true := by
        intro he
        obtain h | h := h he
        · cases h
        · exact endsWithNewline_tail h hb'
      rw [flatten_linesOf_modifyHead (List.splitOn_ne_nil newline rest)
        fun he => splitOn_length_ne_one (htail he), ih fun he => .inr (htail he)]

end Lines

/-! ## Appending -/

namespace OutputBuffer

def new : OutputBuffer := ⟨[], 0, false⟩

/-- All that is kept. -/
def text (b : OutputBuffer) : Bytes := b.lines.flatten

/-- The loop that drops the oldest lines while there is too much. -/
def trim : List Bytes → Nat → Bool → OutputBuffer
  | [], total, incomplete =>
    if maxOutputBufferSize < total then new else ⟨[], total, incomplete⟩
  | removed :: lines, total, incomplete =>
    if maxOutputBufferSize < total ∨ maxBufferLines < lines.length + 1 then
      -- the source recounts where the total would go below zero
      let total := if total < removed.length then (lines.map List.length).sum else total - removed.length
      trim lines total (incomplete && !lines.isEmpty)
    else ⟨removed :: lines, total, incomplete⟩

/-- New lines are pushed behind those there are, and the oldest dropped. -/
def push (b : OutputBuffer) (remaining : Bytes) : OutputBuffer :=
  let ends := endsWithNewline remaining
  let pieces := remaining.splitOn newline
  let added := linesOf ends pieces
  let incomplete := b.lastLineIncomplete || (!ends && !(pieces.getLastD []).isEmpty)
  trim (b.lines ++ added) (b.totalSize + (added.map List.length).sum) incomplete

def append (b : OutputBuffer) (data : Bytes) : OutputBuffer :=
  if data.isEmpty then b
  else if b.lastLineIncomplete then
    match b.lines.getLast? with
    | none => b.push data
    | some lastLine =>
      match data.findIdx? (· == newline) with
      | some newlinePos =>
        let start := newlinePos + 1
        push ⟨b.lines.dropLast ++ [lastLine ++ data.take start], b.totalSize + start, false⟩ (data.drop start)
      -- still no newline: the last line grows, and nothing is dropped
      | none => ⟨b.lines.dropLast ++ [lastLine ++ data], b.totalSize + data.length, true⟩
  else b.push data

section Append

variable (b : OutputBuffer)

theorem trim_suffix (lines : List Bytes) (total : Nat) (incomplete : Bool) :
    (trim lines total incomplete).text <:+ lines.flatten := by
  induction lines generalizing total incomplete with
  | nil =>
    unfold trim
    split <;> exact List.suffix_refl []
  | cons removed lines ih =>
    unfold trim
    split
    · exact (ih _ _).trans (List.suffix_append removed lines.flatten)
    · exact List.suffix_refl _

theorem push_suffix (remaining : Bytes) : (b.push remaining).text <:+ b.text ++ remaining := by
  have hlines : (linesOf (endsWithNewline remaining) (remaining.splitOn newline)).flatten = remaining :=
    flatten_linesOf .inr
  have htrim := trim_suffix (b.lines ++ linesOf (endsWithNewline remaining) (remaining.splitOn newline))
  rw [List.flatten_append, hlines] at htrim
  exact htrim _ _

/-- The text with more at the end of the last line. -/
theorem flatten_grow {lines : List Bytes} {lastLine : Bytes} (h : lines.getLast? = some lastLine)
    (more : Bytes) : (lines.dropLast ++ [lastLine ++ more]).flatten = lines.flatten ++ more := by
  obtain ⟨front, rfl⟩ := List.getLast?_eq_some_iff.1 h
  simp

theorem append_suffix (data : Bytes) : (b.append data).text <:+ b.text ++ data := by
  unfold append
  split
  · rename_i hempty
    rw [List.isEmpty_iff.1 hempty]
    exact ⟨[], (List.append_nil b.text).symm⟩
  split
  · split
    · exact b.push_suffix data
    · rename_i lastLine hlast
      split
      · rename_i newlinePos _
        have hpush := push_suffix ⟨b.lines.dropLast ++ [lastLine ++ data.take (newlinePos + 1)],
          b.totalSize + (newlinePos + 1), false⟩ (data.drop (newlinePos + 1))
        simp only [text, flatten_grow hlast] at hpush
        rwa [List.append_assoc, List.take_append_drop] at hpush
      · rw [text, flatten_grow hlast]
        exact List.suffix_refl _
  · exact b.push_suffix data

/-- Chunks appended one after the other. -/
def appendAll (chunks : List Bytes) : OutputBuffer := chunks.foldl append b

theorem appendAll_suffix (chunks : List Bytes) :
    (b.appendAll chunks).text <:+ b.text ++ chunks.flatten := by
  unfold appendAll
  induction chunks generalizing b with
  | nil => simp
  | cons data chunks ih =>
    obtain ⟨front, hfront⟩ := b.append_suffix data
    have hmore : (b.append data).text ++ chunks.flatten <:+ b.text ++ (data ++ chunks.flatten) := by
      refine ⟨front, ?_⟩
      rw [← List.append_assoc, hfront, List.append_assoc]
    exact (ih _).trans hmore

end Append

/-! ## Recent output -/

/-- Skip continuation bytes of UTF-8 at the front, at most so many. -/
def skipContinuation : Nat → Bytes → Bytes
  | n + 1, b :: rest => if b &&& 0b1100_0000 = 0b1000_0000 then skipContinuation n rest else b :: rest
  | _, rest => rest

/-- Whole lines from the newest on, newest first, while they fit. -/
def collect (maxBytes : Nat) : List Bytes → Nat → List Bytes
  | [], _ => []
  | line :: older, size =>
    if maxBytes < size + line.length then
      if size = 0 ∧ maxBytes < line.length then
        let tail := skipContinuation 3 (line.drop (line.length - maxBytes))
        if tail.isEmpty then [] else [tail]
      else []
    else line :: collect maxBytes older (size + line.length)

def getRecent (b : OutputBuffer) (maxBytes : Nat) : Bytes :=
  if maxBytes = 0 then [] else (collect maxBytes b.lines.reverse 0).reverse.flatten

section Recent

theorem skipContinuation_suffix (n : Nat) (rest : Bytes) : skipContinuation n rest <:+ rest := by
  induction n generalizing rest with
  | zero => cases rest <;> exact List.suffix_refl _
  | succ n ih =>
    cases rest with
    | nil => exact List.suffix_refl _
    | cons b rest =>
      unfold skipContinuation
      split
      · exact (ih rest).trans (List.suffix_cons b rest)
      · exact List.suffix_refl _

theorem collect_suffix (maxBytes : Nat) (lines : List Bytes) (size : Nat) :
    (collect maxBytes lines size).reverse.flatten <:+ lines.reverse.flatten := by
  induction lines generalizing size with
  | nil => exact List.suffix_refl _
  | cons line older ih =>
    have hline : line <:+ (line :: older).reverse.flatten := by
      simp [List.suffix_append]
    unfold collect
    split
    · split
      · dsimp only
        split
        · exact List.nil_suffix
        · have htail := (skipContinuation_suffix 3 (line.drop (line.length - maxBytes))).trans
            (List.drop_suffix _ _)
          simpa using htail.trans hline
      · exact List.nil_suffix
    · obtain ⟨front, hfront⟩ := ih (size + line.length)
      refine ⟨front, ?_⟩
      simp only [List.reverse_cons, List.flatten_append, ← List.append_assoc, hfront]

theorem getRecent_suffix (b : OutputBuffer) (maxBytes : Nat) : b.getRecent maxBytes <:+ b.text := by
  unfold getRecent
  split
  · exact List.nil_suffix
  · have h := collect_suffix maxBytes b.lines.reverse 0
    rwa [List.reverse_reverse] at h

end Recent

end OutputBuffer

end FontisRemote.Terminal
