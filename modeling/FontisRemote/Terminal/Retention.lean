import FontisRemote.Terminal.OutputBuffer

/-!
# What the scrollback keeps

`append` keeps the lines of an `OutputBuffer` as lines, and its size as their size (`Inv`), and after the
trimming loop the buffer is within its limits. A chunk that only lengthens the last line returns before that
loop, so the size of a buffer whose terminal prints no newline has no bound: `retained_iff` says at which
chunks the limits hold.
-/

namespace FontisRemote.Terminal

/-- A line that ends in its only newline. -/
def Terminated (line : Bytes) : Prop := ∃ body, line = body ++ [newline] ∧ newline ∉ body

/-- Terminated lines, and behind them the one that is not, if the last line is incomplete. -/
structure Lined (lines : List Bytes) (incomplete : Bool) : Prop where
  front : ∀ line ∈ lines.dropLast, Terminated line
  complete : incomplete = false → ∀ line ∈ lines, Terminated line
  unfinished : incomplete = true → ∃ last, lines.getLast? = some last ∧ last ≠ [] ∧ newline ∉ last

def size (lines : List Bytes) : Nat := (lines.map List.length).sum

/-! ## Lines -/

section Lines

variable {line : Bytes} {lines more : List Bytes} {incomplete : Bool}

theorem not_terminated (h : newline ∉ line) : ¬ Terminated line := by
  rintro ⟨body, rfl, _⟩
  exact h (by simp)

@[simp] theorem size_nil : size [] = 0 := rfl

@[simp] theorem size_cons : size (line :: lines) = line.length + size lines := by
  simp [size]

@[simp] theorem size_append : size (lines ++ more) = size lines + size more := by
  simp [size]

theorem Lined.nil : Lined [] false where
  front _ h := absurd h List.not_mem_nil
  complete _ _ h := absurd h List.not_mem_nil
  unfinished h := absurd h Bool.false_ne_true

theorem Lined.of_complete (h : ∀ line ∈ lines, Terminated line) : Lined lines false where
  front _ hl := h _ ((List.dropLast_sublist lines).subset hl)
  complete _ := h
  unfinished h := absurd h Bool.false_ne_true

/-- An incomplete line behind terminated ones. -/
theorem Lined.of_last (h : ∀ line ∈ lines, Terminated line) (hne : line ≠ []) (hline : newline ∉ line) :
    Lined (lines ++ [line]) true where
  front l hl := h l (by rwa [List.dropLast_concat] at hl)
  complete h := absurd h.symm Bool.false_ne_true
  unfinished _ := ⟨line, List.getLast?_concat, hne, hline⟩

/-- More lines behind lines that are all terminated. -/
theorem Lined.append (h : ∀ line ∈ lines, Terminated line) (hmore : Lined more incomplete) :
    Lined (lines ++ more) incomplete := by
  cases incomplete with
  | false =>
    apply Lined.of_complete
    intro line hline
    obtain hl | hm := List.mem_append.1 hline
    · exact h line hl
    · exact hmore.complete rfl line hm
  | true =>
    obtain ⟨last, hlast, hne, hopen⟩ := hmore.unfinished rfl
    obtain ⟨front, rfl⟩ := List.getLast?_eq_some_iff.1 hlast
    rw [← List.append_assoc]
    refine Lined.of_last (fun line hline => ?_) hne hopen
    obtain hl | hm := List.mem_append.1 hline
    · exact h line hl
    · exact hmore.front line (by rwa [List.dropLast_concat])

/-- The oldest line goes. -/
theorem Lined.tail (h : Lined (line :: lines) incomplete) :
    Lined lines (incomplete && !lines.isEmpty) := by
  cases lines with
  | nil => simpa using Lined.nil
  | cons next rest =>
    refine ⟨fun l hl => ?_, fun hinc l hl => ?_, fun hinc => ?_⟩
    · exact h.front l (List.mem_cons_of_mem line hl)
    · exact h.complete (by simpa using hinc) l (List.mem_cons_of_mem line hl)
    · obtain ⟨last, hlast, hlast'⟩ := h.unfinished (by simpa using hinc)
      exact ⟨last, by rwa [List.getLast?_cons_cons] at hlast, hlast'⟩

theorem newline_notMem_splitOn {data piece : Bytes} (h : piece ∈ data.splitOn newline) :
    newline ∉ piece := by
  induction data generalizing piece with
  | nil =>
    rw [List.splitOn_nil, List.mem_singleton] at h
    rw [h]
    exact List.not_mem_nil
  | cons b rest ih =>
    rw [List.splitOn_cons_eq_if_modifyHead] at h
    obtain ⟨first, pieces, hp⟩ := List.exists_cons_of_ne_nil (List.splitOn_ne_nil newline rest)
    rw [hp] at h ih
    split at h
    · obtain rfl | h := List.mem_cons.1 h
      · exact List.not_mem_nil
      · exact ih h
    · rename_i hb
      rw [List.modifyHead_cons] at h
      obtain rfl | h := List.mem_cons.1 h
      · have hfirst := ih (List.mem_cons_self ..)
        have hb' : newline ≠ b := fun he => hb (beq_iff_eq.2 he.symm)
        simp [hb', hfirst]
      · exact ih (List.mem_cons_of_mem _ h)

/-- The lines of pieces without newlines. -/
theorem lined_linesOf {ends : Bool} {pieces : List Bytes} (h : ∀ piece ∈ pieces, newline ∉ piece) :
    Lined (linesOf ends pieces) (!ends && !(pieces.getLastD []).isEmpty) := by
  fun_induction linesOf ends pieces with
  | case1 => simpa using Lined.nil
  | case2 last hempty => simpa [hempty] using Lined.nil
  | case3 last hempty =>
    have hlast : newline ∉ last := h last (List.mem_singleton_self last)
    cases ends with
    | true =>
      refine Lined.of_complete fun line hline => ?_
      rw [List.mem_singleton.1 hline]
      exact ⟨last, rfl, hlast⟩
    | false =>
      have hne : last ≠ [] := fun he => hempty (List.isEmpty_iff.2 he)
      have hlined : Lined ([] ++ [last]) true := Lined.of_last (by simp) hne hlast
      simpa [hempty] using hlined
  | case4 line rest hrest ih =>
    have hline : ∀ l ∈ [line ++ [newline]], Terminated l := by
      intro l hl
      rw [List.mem_singleton.1 hl]
      exact ⟨line, rfl, h line (List.mem_cons_self ..)⟩
    have hmore := Lined.append hline (ih fun piece hp => h piece (List.mem_cons_of_mem _ hp))
    cases rest with
    | nil => exact (hrest rfl).elim
    | cons next rest => simpa using hmore

end Lines

/-! ## The buffer -/

namespace OutputBuffer

/-- The buffer is as its lines say, and too large only while its last line goes on. -/
structure Inv (b : OutputBuffer) : Prop where
  total : b.totalSize = size b.lines
  lined : Lined b.lines b.lastLineIncomplete
  few : b.lines.length ≤ maxBufferLines
  fits : b.lastLineIncomplete = false → b.totalSize ≤ maxOutputBufferSize

/-- The buffer is within its limits. -/
def Within (b : OutputBuffer) : Prop :=
  b.totalSize ≤ maxOutputBufferSize ∧ b.lines.length ≤ maxBufferLines

section Steps

variable {b : OutputBuffer}

theorem trim_inv {lines : List Bytes} {total : Nat} {incomplete : Bool} (htotal : total = size lines)
    (hlined : Lined lines incomplete) :
    (trim lines total incomplete).Inv ∧ (trim lines total incomplete).Within := by
  induction lines generalizing total incomplete with
  | nil =>
    rw [trim, if_neg (by simp [htotal, maxOutputBufferSize])]
    exact ⟨⟨htotal, hlined, by simp, by simp [htotal]⟩, by simp [htotal, Within]⟩
  | cons removed lines ih =>
    rw [size_cons] at htotal
    unfold trim
    split
    · have hnot : ¬ total < removed.length := by omega
      simp only [if_neg hnot]
      exact ih (by omega) hlined.tail
    · rename_i hroom
      have hwithin : (⟨removed :: lines, total, incomplete⟩ : OutputBuffer).Within := by
        simp only [Within, List.length_cons]
        omega
      exact ⟨⟨by simpa using htotal, hlined, hwithin.2, fun _ => hwithin.1⟩, hwithin⟩

/-- Lines pushed behind terminated ones. -/
theorem push_inv (htotal : b.totalSize = size b.lines) (hlines : ∀ line ∈ b.lines, Terminated line)
    (hopen : b.lastLineIncomplete = false) (remaining : Bytes) :
    (b.push remaining).Inv ∧ (b.push remaining).Within := by
  unfold OutputBuffer.push
  apply trim_inv
  · rw [size_append, ← htotal]
    rfl
  · rw [hopen, Bool.false_or]
    exact Lined.append hlines (lined_linesOf fun _ h => newline_notMem_splitOn h)

theorem size_grow {lines : List Bytes} {lastLine : Bytes} (h : lines.getLast? = some lastLine)
    (more : Bytes) : size (lines.dropLast ++ [lastLine ++ more]) = size lines + more.length := by
  obtain ⟨front, rfl⟩ := List.getLast?_eq_some_iff.1 h
  simp
  omega

/-- The text up to and with its first newline. -/
theorem take_newline {data : Bytes} {pos : Nat} (h : data.findIdx? (· == newline) = some pos) :
    data.take (pos + 1) = data.take pos ++ [newline] ∧ newline ∉ data.take pos ∧ pos < data.length := by
  obtain ⟨hlt, hpos, hbefore⟩ := List.findIdx?_eq_some_iff_getElem.1 h
  refine ⟨?_, ?_, hlt⟩
  · rw [List.take_succ_eq_append_getElem hlt, eq_of_beq hpos]
  · intro hmem
    obtain ⟨i, hi, hget⟩ := List.mem_take_iff_getElem.1 hmem
    exact hbefore i (by omega) (beq_iff_eq.2 hget)

/-- The chunk lengthens the last line, which is as long as the buffer may be. -/
def Overgrows (b : OutputBuffer) (data : Bytes) : Prop :=
  b.lastLineIncomplete = true ∧ newline ∉ data ∧ maxOutputBufferSize < b.totalSize + data.length

/-- The last line goes on, and nothing is dropped. -/
theorem Inv.grow (hb : b.Inv) {lastLine data : Bytes} (hlast : b.lines.getLast? = some lastLine)
    (hopen : b.lastLineIncomplete = true) (hdata : newline ∉ data) :
    Inv ⟨b.lines.dropLast ++ [lastLine ++ data], b.totalSize + data.length, true⟩ := by
  obtain ⟨last, hlast', hne, hnl⟩ := hb.lined.unfinished hopen
  obtain rfl : last = lastLine := Option.some.inj (hlast'.symm.trans hlast)
  refine ⟨?_, ?_, ?_, fun h => absurd h.symm Bool.false_ne_true⟩
  · rw [size_grow hlast, hb.total]
  · refine Lined.of_last hb.lined.front (by simp [hne]) ?_
    rw [List.mem_append, not_or]
    exact ⟨hnl, hdata⟩
  · obtain ⟨front, hfront⟩ := List.getLast?_eq_some_iff.1 hlast
    simpa [hfront] using hb.few

theorem Inv.append (hb : b.Inv) (data : Bytes) :
    (b.append data).Inv ∧ ((b.append data).Within ↔ ¬ b.Overgrows data) := by
  unfold OutputBuffer.append
  split
  · rename_i hempty
    rw [List.isEmpty_iff.1 hempty]
    refine ⟨hb, fun hw hgrow => ?_, fun hnot => ⟨?_, hb.few⟩⟩
    · exact absurd hw.1 (Nat.not_le.2 hgrow.2.2)
    · cases hopen : b.lastLineIncomplete with
      | false => exact hb.fits hopen
      | true => exact Nat.not_lt.1 fun hlt => hnot ⟨hopen, List.not_mem_nil, hlt⟩
  split
  · rename_i hopen
    obtain ⟨last, hlast, hne, hnl⟩ := hb.lined.unfinished hopen
    rw [hlast]
    dsimp only
    split
    · rename_i pos hpos
      obtain ⟨htake, hfirst, hlt⟩ := take_newline hpos
      have hmem : newline ∈ data := List.mem_of_mem_take (i := pos + 1) (by simp [htake])
      have hlines : ∀ line ∈ b.lines.dropLast ++ [last ++ data.take (pos + 1)], Terminated line := by
        intro line hline
        obtain hl | hl := List.mem_append.1 hline
        · exact hb.lined.front line hl
        · rw [List.mem_singleton.1 hl, htake, ← List.append_assoc]
          exact ⟨_, rfl, by simp [hnl, hfirst]⟩
      have hsize := size_grow hlast (data.take (pos + 1))
      rw [List.length_take, Nat.min_eq_left hlt, ← hb.total] at hsize
      have hpush := push_inv (b := ⟨_, _, false⟩) hsize.symm hlines rfl (data.drop (pos + 1))
      exact ⟨hpush.1, fun _ hgrow => hgrow.2.1 hmem, fun _ => hpush.2⟩
    · rename_i hpos
      have hdata : newline ∉ data := by
        intro hmem
        have := List.findIdx?_eq_none_iff.1 hpos newline hmem
        simp at this
      have hgrow := hb.grow hlast hopen hdata
      refine ⟨hgrow, fun hw hover => ?_, fun hnot => ⟨?_, hgrow.few⟩⟩
      · exact absurd hw.1 (Nat.not_le.2 hover.2.2)
      · exact Nat.not_lt.1 fun hlt => hnot ⟨hopen, hdata, hlt⟩
  · rename_i hopen
    have hopen' : b.lastLineIncomplete = false := by simpa using hopen
    have hpush := push_inv hb.total (hb.lined.complete hopen') hopen' data
    exact ⟨hpush.1, fun _ hgrow => absurd hgrow.1 hopen, fun _ => hpush.2⟩

theorem Inv.appendAll (hb : b.Inv) (chunks : List Bytes) : (b.appendAll chunks).Inv := by
  induction chunks generalizing b with
  | nil => exact hb
  | cons data chunks ih => exact ih (hb.append data).1

theorem new_inv : new.Inv where
  total := rfl
  lined := Lined.nil
  few := Nat.zero_le _
  fits _ := Nat.zero_le _

end Steps

/-! ## Every sequence of chunks -/

/-- The buffer after the appended chunks is what the documentation of its fields says. -/
structure Retains (b : OutputBuffer) (appended : Bytes) : Prop where
  total : b.totalSize = size b.lines
  suffix : b.lines.flatten <:+ appended
  front : ∀ line ∈ b.lines.dropLast, Terminated line
  last : b.lastLineIncomplete = true ↔ ∃ line, b.lines.getLast? = some line ∧ ¬ Terminated line
  within : b.Within

theorem Inv.retains {b : OutputBuffer} (hb : b.Inv) {appended : Bytes} (hsuffix : b.text <:+ appended)
    (hwithin : b.Within) : b.Retains appended where
  total := hb.total
  suffix := hsuffix
  front := hb.lined.front
  last := by
    constructor
    · intro hopen
      obtain ⟨last, hlast, _, hnl⟩ := hb.lined.unfinished hopen
      exact ⟨last, hlast, not_terminated hnl⟩
    · rintro ⟨line, hline, hnot⟩
      refine Bool.eq_true_of_not_eq_false fun hopen => ?_
      exact hnot (hb.lined.complete hopen line (List.mem_of_getLast? hline))
  within := hwithin

/-- After a chunk the buffer is as it should be unless the chunk goes on with a last line that, with it,
is longer than the buffer may be. -/
theorem retained_iff (chunks : List Bytes) (data : Bytes) :
    ((new.appendAll chunks).append data).Retains (chunks.flatten ++ data) ↔
      ¬ (new.appendAll chunks).Overgrows data := by
  have hb : (new.appendAll chunks).Inv := new_inv.appendAll chunks
  obtain ⟨hinv, hwithin⟩ := hb.append data
  constructor
  · intro h
    exact hwithin.1 h.within
  · intro hnot
    refine hinv.retains ?_ (hwithin.2 hnot)
    refine (append_suffix _ data).trans ?_
    obtain ⟨front, hfront⟩ := new.appendAll_suffix chunks
    refine ⟨front, ?_⟩
    rw [← List.append_assoc, hfront]
    rfl

/-- A letter, and then a mebibyte of letters. -/
theorem unretained_without_newline :
    ¬ ((new.append [97]).append (List.replicate maxOutputBufferSize 97)).Retains
      ([97] ++ List.replicate maxOutputBufferSize 97) := by
  intro h
  have hfirst : new.append [97] = ⟨[[97]], 1, true⟩ := by decide
  have hgrows : (new.append [97]).Overgrows (List.replicate maxOutputBufferSize 97) := by
    rw [hfirst]
    refine ⟨rfl, fun hmem => ?_, ?_⟩
    · exact absurd (List.eq_of_mem_replicate hmem) (by decide)
    · rw [List.length_replicate]
      exact Nat.lt_add_of_pos_left Nat.one_pos
  exact ((new_inv.append [97]).1.append _).2.1 h.within hgrows

end OutputBuffer

end FontisRemote.Terminal
