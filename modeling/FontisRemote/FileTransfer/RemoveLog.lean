import FontisRemote.Lib.Run
import FontisRemote.FileTransfer.Path
import Mathlib.Logic.Relation

/-!
# The log of removals

`FileRemoveLogControl` of `connection.rs`: removals are held for a second and then reported together, so
that a directory that is emptied and removed shows up as one entry. A removed directory takes the entries
of its direct children with it, and has none itself while its own directory is held.

That is what happens to directories. For files the two paths are passed the other way round: a file is
dropped when the directory lies in it, and one that lies in the directory is kept
(`file_in_directory_stays`). The reports are right in every run that removes no directory beside such a
file (`removals_condensed`).

`turn` numbers the calls; only statements read it.
-/

namespace FontisRemote.FileTransfer

open FontisRemote.Lib

structure FileRemoveFile where
  id : Int
  path : Text
  fileNum : Int
deriving DecidableEq, Repr

structure FileRemoveDir where
  id : Int
  path : Text
  recursive : Bool
deriving DecidableEq, Repr

structure FileActionLog where
  id : Int
  connId : Int
  path : Text
  dir : Bool
deriving DecidableEq, Repr

/-- `ipc::Data::FileTransferLog`. -/
structure FileTransferLog where
  action : String
  log : FileActionLog
deriving DecidableEq, Repr

/-- An entry, with the number of the call it is from. -/
structure Entry (α : Type) where
  turn : Nat
  request : α
deriving DecidableEq, Repr

/-- One second, in nanoseconds. -/
def oneSecond : Nat := 1000000000

section Paths

variable (win : Bool)

/-- What is compared of a prefix. A drive's letter has no case, and a separator is one whichever it is. -/
def Component.comparable : Component → Component
  | .pfx .disk text => .pfx .disk (text.map Char.toUpper)
  | .pfx .verbatim text =>
    .pfx .verbatim (if text.length = 6 && parseDrive (text.drop 4) then text.map Char.toUpper else text)
  | .pfx kind text => .pfx kind (text.map fun c => if c = '/' then '\\' else c)
  | c => c

/-- `PathBuf::from(child).parent() == Some(PathBuf::from(parent))` -/
def directChild (dir child : Text) : Bool :=
  (parent win child).map (·.map Component.comparable) = some ((components win dir).map Component.comparable)

/-- The path lies in the directory, at any depth. -/
def Below (dir child : Text) : Prop :=
  Relation.TransGen (fun d c => directChild win d c = true) dir child

variable {win}

theorem directChild_length {dir child : Text} (h : directChild win dir child = true) :
    (components win dir).length < (components win child).length := by
  obtain ⟨cs, hcs, heq⟩ := Option.map_eq_some_iff.1 (of_decide_eq_true h)
  have hlen := congrArg List.length heq
  rw [List.length_map, List.length_map] at hlen
  unfold parent at hcs
  split at hcs
  case h_4 => cases hcs
  all_goals
    next hlast =>
    have hne : components win child ≠ [] := by
      intro hnil
      rw [hnil] at hlast
      cases hlast
    have hpos := List.length_pos_iff.2 hne
    cases hcs
    rw [List.length_dropLast] at hlen
    omega

theorem directChild_irrefl (path : Text) : directChild win path path = false :=
  Bool.eq_false_iff.2 fun h => lt_irrefl _ (directChild_length h)

theorem Below.length {dir child : Text} (h : Below win dir child) :
    (components win dir).length < (components win child).length := by
  induction h with
  | single hchild => exact directChild_length hchild
  | tail _ hchild ih => exact ih.trans (directChild_length hchild)

end Paths

structure FileRemoveLogControl where
  connId : Int
  instant : Nat
  removedFiles : List (Entry FileRemoveFile) := []
  removedDirs : List (Entry FileRemoveDir) := []
  turn : Nat := 0
deriving DecidableEq, Repr

inductive Removal
  | onRemoveFile (now : Nat) (f : FileRemoveFile)
  | onRemoveDir (now : Nat) (d : FileRemoveDir)
deriving DecidableEq, Repr

def Removal.path : Removal → Text
  | .onRemoveFile _ f => f.path
  | .onRemoveDir _ d => d.path

namespace FileRemoveLogControl

variable (win : Bool) (c : FileRemoveLogControl)

def new (connId : Int) (now : Nat) : FileRemoveLogControl where
  connId := connId
  instant := now

def fileLog (f : FileRemoveFile) : FileTransferLog :=
  ⟨"remove", ⟨f.id, c.connId, f.path, false⟩⟩

def dirLog (d : FileRemoveDir) : FileTransferLog :=
  ⟨"remove", ⟨d.id, c.connId, d.path, true⟩⟩

def onRemoveFile (now : Nat) (f : FileRemoveFile) : Option FileTransferLog × FileRemoveLogControl :=
  (some (c.fileLog f), { c with
    instant := now
    removedFiles := c.removedFiles ++ [⟨c.turn, f⟩]
    turn := c.turn + 1 })

def onRemoveDir (now : Nat) (d : FileRemoveDir) : Option FileTransferLog × FileRemoveLogControl :=
  let files := c.removedFiles.filter fun f => !directChild win f.request.path d.path
  let dirs := c.removedDirs.filter fun x => !directChild win d.path x.request.path
  (some (c.dirLog d), { c with
    instant := now
    removedFiles := files
    removedDirs :=
      if dirs.any fun x => directChild win x.request.path d.path then dirs else dirs ++ [⟨c.turn, d⟩]
    turn := c.turn + 1 })

def onTimer (now : Nat) : List FileTransferLog × FileRemoveLogControl :=
  if (now - c.instant) / oneSecond < 1 then ([], c)
  else
    (c.removedFiles.map (fun f => c.fileLog f.request) ++ c.removedDirs.map (fun d => c.dirLog d.request),
      { c with removedFiles := [], removedDirs := [] })

def step : Removal → Option FileRemoveLogControl
  | .onRemoveFile now f => some (c.onRemoveFile now f).2
  | .onRemoveDir now d => some (c.onRemoveDir win now d).2

def Init (c : FileRemoveLogControl) : Prop :=
  ∃ connId now, c = new connId now

end FileRemoveLogControl

/-! ## What a timer would report -/

/-- An entry that is held: which call it is from, its path and whether it is a directory's. -/
structure Report where
  turn : Nat
  path : Text
  dir : Bool
deriving DecidableEq, Repr

/-- What stands in a log. -/
def FileTransferLog.tells (l : FileTransferLog) : Text × Bool :=
  (l.log.path, l.log.dir)

namespace FileRemoveLogControl

section Reports

variable (c : FileRemoveLogControl)

def reports : List Report :=
  c.removedFiles.map (fun f => ⟨f.turn, f.request.path, false⟩) ++
    c.removedDirs.map (fun d => ⟨d.turn, d.request.path, true⟩)

theorem onTimer_tells {now : Nat} (hdue : oneSecond ≤ now - c.instant) :
    (c.onTimer now).1.map FileTransferLog.tells = c.reports.map fun r => (r.path, r.dir) := by
  have hsecs : ¬(now - c.instant) / oneSecond < 1 := by
    have := Nat.div_le_div_right (c := oneSecond) hdue
    rw [Nat.div_self (by decide)] at this
    omega
  rw [onTimer, if_neg hsecs]
  simp only [reports, List.map_append, List.map_map]
  rfl

theorem mem_reports {r : Report} : r ∈ c.reports ↔
    (∃ f ∈ c.removedFiles, r = ⟨f.turn, f.request.path, false⟩) ∨
      ∃ d ∈ c.removedDirs, r = ⟨d.turn, d.request.path, true⟩ := by
  simp only [reports, List.mem_append, List.mem_map, eq_comm]

end Reports

section Runs

variable {win : Bool} {c : FileRemoveLogControl}

/-- A removed directory is held, or lies in one that is. -/
def Covered (win : Bool) (dirs : List (Entry FileRemoveDir)) (path : Text) : Prop :=
  ∃ x ∈ dirs, x.request.path = path ∨ Below win x.request.path path

/-- The directories held that do not lie directly in this one. -/
def spared (win : Bool) (c : FileRemoveLogControl) (d : FileRemoveDir) : List (Entry FileRemoveDir) :=
  c.removedDirs.filter fun x => !directChild win d.path x.request.path

theorem mem_spared {d : FileRemoveDir} {x : Entry FileRemoveDir} :
    x ∈ c.spared win d ↔ x ∈ c.removedDirs ∧ directChild win d.path x.request.path = false := by
  simp [spared]

/-- A removed directory has an entry unless its own directory has one. -/
theorem onRemoveDir_dirs (win : Bool) (c : FileRemoveLogControl) (now : Nat) (d : FileRemoveDir) :
    ((∃ y ∈ c.spared win d, directChild win y.request.path d.path = true) ∧
        (c.onRemoveDir win now d).2.removedDirs = c.spared win d) ∨
      ((∀ y ∈ c.spared win d, directChild win y.request.path d.path = false) ∧
        (c.onRemoveDir win now d).2.removedDirs = c.spared win d ++ [⟨c.turn, d⟩]) := by
  have hheld : (c.onRemoveDir win now d).2.removedDirs =
      if (c.spared win d).any fun x => directChild win x.request.path d.path then c.spared win d
      else c.spared win d ++ [⟨c.turn, d⟩] := rfl
  rw [hheld]
  split_ifs with hany
  · exact Or.inl ⟨List.any_eq_true.1 hany, rfl⟩
  · refine Or.inr ⟨fun y hy => ?_, rfl⟩
    exact Bool.eq_false_iff.2 fun htrue => hany (List.any_eq_true.2 ⟨y, hy, htrue⟩)

/-- The directory itself is covered after it is removed. -/
theorem covered_self (win : Bool) (c : FileRemoveLogControl) (now : Nat) (d : FileRemoveDir) :
    Covered win (c.onRemoveDir win now d).2.removedDirs d.path := by
  rcases onRemoveDir_dirs win c now d with ⟨⟨y, hy, hchild⟩, heq⟩ | ⟨-, heq⟩
  · rw [heq]
    exact ⟨y, hy, Or.inr (.single hchild)⟩
  · rw [heq]
    exact ⟨⟨c.turn, d⟩, List.mem_append_right _ (List.mem_singleton_self _), Or.inl rfl⟩

/-- What lies under a covered path is covered. -/
theorem Covered.below {dirs : List (Entry FileRemoveDir)} {dir path : Text} (h : Covered win dirs dir)
    (hbelow : Below win dir path) : Covered win dirs path := by
  obtain ⟨x, hx, rfl | hdir⟩ := h
  · exact ⟨x, hx, Or.inr hbelow⟩
  · exact ⟨x, hx, Or.inr (hdir.trans hbelow)⟩

/-- What was covered stays so: an entry that goes lies in the directory that is removed. -/
theorem Covered.onRemoveDir {path : Text} (h : Covered win c.removedDirs path) (now : Nat)
    (d : FileRemoveDir) : Covered win (c.onRemoveDir win now d).2.removedDirs path := by
  obtain ⟨x, hx, hpath⟩ := h
  cases hgoes : directChild win d.path x.request.path with
  | false =>
    have hspared : x ∈ c.spared win d := mem_spared.2 ⟨hx, hgoes⟩
    rcases onRemoveDir_dirs win c now d with ⟨-, heq⟩ | ⟨-, heq⟩
    · rw [heq]
      exact ⟨x, hspared, hpath⟩
    · rw [heq]
      exact ⟨x, List.mem_append_left _ hspared, hpath⟩
  | true =>
    have hbelow : Below win d.path path := by
      rcases hpath with rfl | hpath
      · exact .single hgoes
      · exact .head hgoes hpath
    exact (covered_self win c now d).below hbelow

/-- No file that is held lies directly in a directory that is removed, nor the directory in it. -/
def Apart (win : Bool) (c : FileRemoveLogControl) : Removal → Prop
  | .onRemoveFile _ _ => True
  | .onRemoveDir _ d => ∀ f ∈ c.removedFiles,
      directChild win d.path f.request.path = false ∧ directChild win f.request.path d.path = false

instance (win : Bool) (c : FileRemoveLogControl) : DecidablePred (Apart win c)
  | .onRemoveFile _ _ => isTrue trivial
  | .onRemoveDir _ d => inferInstanceAs (Decidable (∀ f ∈ c.removedFiles,
      directChild win d.path f.request.path = false ∧ directChild win f.request.path d.path = false))

/-- A file in the directory that is removed is kept beside it. -/
theorem file_in_directory_stays {f : Entry FileRemoveFile} (hf : f ∈ c.removedFiles) (now : Nat)
    (d : FileRemoveDir) (hback : directChild win f.request.path d.path = false) :
    f ∈ (c.onRemoveDir win now d).2.removedFiles :=
  List.mem_filter.2 ⟨hf, by rw [hback]; rfl⟩

/-- The entries of a run: all removed files, directories that cover all removed ones, and among the
directories no one in another. -/
structure Inv (win : Bool) (history : List (FileRemoveLogControl × Removal)) (c : FileRemoveLogControl) :
    Prop where
  files : ∀ p ∈ history, ∀ now f, p.2 = .onRemoveFile now f → ∃ e ∈ c.removedFiles, e.request = f
  covered : ∀ p ∈ history, ∀ now d, p.2 = .onRemoveDir now d → Covered win c.removedDirs d.path
  dirTurn : ∀ d ∈ c.removedDirs, d.turn < c.turn
  fileLevel : ∀ f ∈ c.removedFiles, ∀ d ∈ c.removedDirs, f.turn < d.turn →
    directChild win d.request.path f.request.path = false
  dirLevel : ∀ x ∈ c.removedDirs, ∀ d ∈ c.removedDirs, directChild win d.request.path x.request.path = false

section Steps

variable {history : List (FileRemoveLogControl × Removal)} (h : Inv win history c)

include h

theorem Inv.onRemoveFile (now : Nat) (f : FileRemoveFile) :
    Inv win ((c, .onRemoveFile now f) :: history) (c.onRemoveFile now f).2 := by
  refine ⟨?_, ?_, ?_, ?_, h.dirLevel⟩
  · intro p hp now' f' hcall
    rcases List.mem_cons.1 hp with rfl | hp
    · cases hcall
      exact ⟨⟨c.turn, f⟩, List.mem_append_right _ (List.mem_singleton_self _), rfl⟩
    · obtain ⟨e, he, hreq⟩ := h.files p hp now' f' hcall
      exact ⟨e, List.mem_append_left _ he, hreq⟩
  · intro p hp now' d hcall
    rcases List.mem_cons.1 hp with rfl | hp
    · cases hcall
    · exact h.covered p hp now' d hcall
  · intro d hd
    exact (h.dirTurn d hd).trans (Nat.lt_succ_self _)
  · intro e he d hd hturn
    rcases List.mem_append.1 he with he | he
    · exact h.fileLevel e he d hd hturn
    · -- the new entry is younger than every directory
      rw [List.mem_singleton.1 he] at hturn
      exact absurd (h.dirTurn d hd) (not_lt.2 hturn.le)

theorem Inv.onRemoveDir (now : Nat) (d : FileRemoveDir) (hapart : Apart win c (.onRemoveDir now d)) :
    Inv win ((c, .onRemoveDir now d) :: history) (c.onRemoveDir win now d).2 := by
  have hfiles : ∀ f, f ∈ (c.onRemoveDir win now d).2.removedFiles ↔ f ∈ c.removedFiles := by
    intro f
    constructor
    · intro hf
      exact (List.mem_filter.1 hf).1
    · intro hf
      exact file_in_directory_stays hf now d (hapart f hf).2
  have hdirs : ∀ x ∈ (c.onRemoveDir win now d).2.removedDirs, x ∈ c.spared win d ∨ x = ⟨c.turn, d⟩ := by
    intro x hx
    rcases onRemoveDir_dirs win c now d with ⟨-, heq⟩ | ⟨-, heq⟩ <;> rw [heq] at hx
    · exact Or.inl hx
    · exact (List.mem_append.1 hx).imp_right List.mem_singleton.1
  refine ⟨?_, ?_, ?_, ?_, ?_⟩
  · intro p hp now' f hcall
    rcases List.mem_cons.1 hp with rfl | hp
    · cases hcall
    · obtain ⟨e, he, hreq⟩ := h.files p hp now' f hcall
      exact ⟨e, (hfiles e).2 he, hreq⟩
  · intro p hp now' d' hcall
    rcases List.mem_cons.1 hp with rfl | hp
    · cases hcall
      exact covered_self win c now d
    · exact (h.covered p hp now' d' hcall).onRemoveDir now d
  · intro x hx
    rcases hdirs x hx with hx | rfl
    · exact (h.dirTurn x (mem_spared.1 hx).1).trans (Nat.lt_succ_self _)
    · exact Nat.lt_succ_self _
  · intro f hf x hx hturn
    rcases hdirs x hx with hx | rfl
    · exact h.fileLevel f ((hfiles f).1 hf) x (mem_spared.1 hx).1 hturn
    · exact (hapart f ((hfiles f).1 hf)).1
  · rcases onRemoveDir_dirs win c now d with ⟨-, heq⟩ | ⟨hnone, heq⟩ <;> rw [heq]
    · intro x hx y hy
      exact h.dirLevel x (mem_spared.1 hx).1 y (mem_spared.1 hy).1
    · intro x hx y hy
      rcases List.mem_append.1 hx with hx | hx <;> rcases List.mem_append.1 hy with hy | hy
      · exact h.dirLevel x (mem_spared.1 hx).1 y (mem_spared.1 hy).1
      · rw [List.mem_singleton.1 hy]
        exact (mem_spared.1 hx).2
      · rw [List.mem_singleton.1 hx]
        exact hnone y hy
      · rw [List.mem_singleton.1 hx, List.mem_singleton.1 hy]
        exact directChild_irrefl d.path

end Steps

theorem inv_of_exec {history : List (FileRemoveLogControl × Removal)} (hx : Exec Init (step win) history c)
    (hapart : ∀ p ∈ history, Apart win p.1 p.2) : Inv win history c := by
  induction hx with
  | start hinit =>
    obtain ⟨connId, now, rfl⟩ := hinit
    refine ⟨?_, ?_, ?_, ?_, ?_⟩ <;> simp [new]
  | @snoc history c c' e hx hstep ih =>
    have hinv := ih fun p hp => hapart p (List.mem_cons_of_mem _ hp)
    cases e with
    | onRemoveFile now f =>
      cases hstep
      exact hinv.onRemoveFile now f
    | onRemoveDir now d =>
      cases hstep
      exact hinv.onRemoveDir now d (hapart _ (List.mem_cons_self ..))

/-- Every removal is reported, itself or by a directory above it, and nothing that is reported lies
directly in a directory that is reported and was removed after it. -/
structure Condensed (win : Bool) (history : List (FileRemoveLogControl × Removal))
    (c : FileRemoveLogControl) : Prop where
  reported : ∀ p ∈ history, ∃ r ∈ c.reports,
    r.path = p.2.path ∨ r.dir = true ∧ Below win r.path p.2.path
  level : ∀ r ∈ c.reports, ∀ d ∈ c.reports, d.dir = true → r.turn < d.turn →
    directChild win d.path r.path = false

theorem Inv.condensed {history : List (FileRemoveLogControl × Removal)} (h : Inv win history c) :
    Condensed win history c := by
  constructor
  · rintro ⟨c', e⟩ hp
    cases e with
    | onRemoveFile now f =>
      obtain ⟨x, hx, hreq⟩ := h.files _ hp now f rfl
      refine ⟨⟨x.turn, x.request.path, false⟩, (c.mem_reports).2 (Or.inl ⟨x, hx, rfl⟩), Or.inl ?_⟩
      rw [hreq]
      rfl
    | onRemoveDir now d =>
      obtain ⟨x, hx, hpath⟩ := h.covered _ hp now d rfl
      exact ⟨⟨x.turn, x.request.path, true⟩, (c.mem_reports).2 (Or.inr ⟨x, hx, rfl⟩),
        hpath.imp id fun hbelow => ⟨rfl, hbelow⟩⟩
  · intro r hr d hd hdir hturn
    rcases (c.mem_reports).1 hd with ⟨y, hy, rfl⟩ | ⟨y, hy, rfl⟩
    · cases hdir
    · rcases (c.mem_reports).1 hr with ⟨x, hx, rfl⟩ | ⟨x, hx, rfl⟩
      · exact h.fileLevel x hx y hy hturn
      · exact h.dirLevel x hx y hy

/-- In every run of removals in which no directory is removed beside a held file that lies directly in it
or that it lies in, a timer that is due reports every removal once and at the right level. -/
theorem removals_condensed {history : List (FileRemoveLogControl × Removal)}
    (hx : Exec Init (step win) history c) (hapart : ∀ p ∈ history, Apart win p.1 p.2) {now : Nat}
    (hdue : oneSecond ≤ now - c.instant) :
    (c.onTimer now).1.map FileTransferLog.tells = (c.reports.map fun r => (r.path, r.dir)) ∧
      Condensed win history c :=
  ⟨c.onTimer_tells hdue, (inv_of_exec hx hapart).condensed⟩

end Runs

/-! A directory that is emptied and removed, and a file beside it. -/

theorem removals_condensed_emptied : ∃ history c,
    trace (step false) (new 7 0) [.onRemoveDir 0 ⟨1, "d/e".toList, false⟩, .onRemoveFile 1 ⟨1, "g".toList, 0⟩,
      .onRemoveDir 2 ⟨2, "d".toList, false⟩] = some (history, c) ∧
    c.reports = [⟨1, "g".toList, false⟩, ⟨2, "d".toList, true⟩] ∧
    (c.onTimer (2 + oneSecond)).1.map FileTransferLog.tells = (c.reports.map fun r => (r.path, r.dir)) ∧
      Condensed false history c := by
  refine ⟨_, _, rfl, by decide +kernel, ?_⟩
  exact removals_condensed (.snoc (.snoc (.snoc (.start ⟨7, 0, rfl⟩) rfl) rfl) rfl) (by decide +kernel)
    (by decide +kernel)

/-! A file that was in the directory is reported beside it, and one that the directory was in is not
reported at all. -/

theorem file_reported_beside_directory :
    (∃ history c, Exec Init (step false) history c ∧
      history.map (·.2) = [.onRemoveDir 1 ⟨1, "d".toList, true⟩, .onRemoveFile 0 ⟨1, "d/f".toList, 0⟩] ∧
      c.reports = [⟨0, "d/f".toList, false⟩, ⟨1, "d".toList, true⟩] ∧ ¬Condensed false history c) ∧
    ∃ history c, Exec Init (step false) history c ∧
      history.map (·.2) = [.onRemoveDir 1 ⟨1, "a/b".toList, true⟩, .onRemoveFile 0 ⟨1, "a".toList, 0⟩] ∧
      c.reports = [⟨1, "a/b".toList, true⟩] ∧ ¬Condensed false history c := by
  constructor
  · refine ⟨_, _, .snoc (.snoc (.start ⟨7, 0, rfl⟩) rfl) rfl, rfl, by decide +kernel, fun h => ?_⟩
    have hlevel := h.level ⟨0, "d/f".toList, false⟩ (by decide +kernel) ⟨1, "d".toList, true⟩ (by decide +kernel)
      rfl (by decide)
    exact absurd hlevel (by decide +kernel)
  · refine ⟨_, _, .snoc (.snoc (.start ⟨7, 0, rfl⟩) rfl) rfl, rfl, by decide +kernel, fun h => ?_⟩
    obtain ⟨r, hr, hpath⟩ := h.reported _ (List.mem_cons_of_mem _ (List.mem_singleton_self _))
    have hall : ∀ r ∈ ([⟨1, "a/b".toList, true⟩] : List Report), r.path ≠ "a".toList ∧
        ¬(components false r.path).length < (components false "a".toList).length := by decide +kernel
    obtain ⟨hne, hlen⟩ := hall r hr
    rcases hpath with heq | ⟨-, hbelow⟩
    · exact hne heq
    · exact hlen hbelow.length

end FileRemoveLogControl

end FontisRemote.FileTransfer
