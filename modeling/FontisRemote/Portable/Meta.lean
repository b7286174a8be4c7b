import FontisRemote.Portable.Reader
import FontisRemote.FileTransfer.Path
import Mathlib.Data.List.DropRight

/-!
# The notes of an extraction

`meta.toml` of `main.rs`: the timestamp of the packer and the paths that a package put into the directory, a line each.
The file is plain text that a user can write to, and what it says is deleted, so each path is taken apart into plain
names before it is used.
-/

namespace FontisRemote.Portable

open FontisRemote.Connection (trim isWhiteSpace)
open FontisRemote.FileTransfer (Component components)

def META_LINE_PREFIX_TIMESTAMP : Text := "timestamp = ".toList
def META_LINE_PREFIX_FILE : Text := "file = ".toList

/-! ## Lines -/

/-- A line without the carriage return at its end. -/
def stripCr (line : Text) : Text := if line.getLast? = some '\r' then line.dropLast else line

/-- `str::lines`, with the part of the line read so far. -/
def linesFrom (line : Text) : Text → List Text
  | [] => if line = [] then [] else [line]
  | c :: cs => if c = '\n' then stripCr line :: linesFrom [] cs else linesFrom (line ++ [c]) cs

def lines (text : Text) : List Text := linesFrom [] text

/-- `str::strip_prefix` -/
def stripPrefix (pre text : Text) : Option Text := if pre.isPrefixOf text then some (text.drop pre.length) else none

/-- `str::replace` with nothing. -/
def removeAll (pattern : Text) : Text → Text
  | [] => []
  | c :: cs =>
    if pattern.isPrefixOf (c :: cs) ∧ pattern ≠ [] then removeAll pattern (cs.drop (pattern.length - 1))
    else c :: removeAll pattern cs
termination_by text => text.length

/-- `str::parse::<u64>` -/
def parseU64 (text : Text) : Option Nat :=
  let digits := if text.head? = some '+' then text.drop 1 else text
  if digits ≠ [] ∧ digits.all Char.isDigit then
    let n := Nat.ofDigitChars 10 digits 0
    if n < 2 ^ 64 then some n else none
  else none

/-- The timestamp of the first line that has one. -/
def readTimestamp (content : Text) : Option Nat :=
  (lines content).findSome? fun line =>
    if META_LINE_PREFIX_TIMESTAMP.isPrefixOf line then parseU64 (removeAll META_LINE_PREFIX_TIMESTAMP line) else none

/-- What `write_meta` writes. -/
def metaContent (ts : Nat) (packagePaths : List Text) : Text :=
  META_LINE_PREFIX_TIMESTAMP ++ Nat.toDigits 10 ts ++ ['\n'] ++
    packagePaths.flatMap fun path => META_LINE_PREFIX_FILE ++ path ++ ['\n']

/-- What `previous_package_files` finds in a file it can read. -/
def packageFilesOf (content : Text) : List Text :=
  ((lines content).filterMap (stripPrefix META_LINE_PREFIX_FILE)).map trim

/-! ## Paths -/

/-- The loop of `resolve_within` over the components. -/
def resolveComponents : List Component → Option (List Text)
  | [] => some []
  | .normal part :: rest => if ':' ∈ part then none else (resolveComponents rest).map (part :: ·)
  | .curDir :: rest => resolveComponents rest
  | _ :: _ => none

/-- `resolve_within`: the names that lead to a path from the directory. -/
def resolveWithin (relative : Text) : Option (List Text) :=
  match resolveComponents (components true (replaceBackslash relative)) with
  | some [] => none
  | path => path

/-! ## What is written is read -/

/-- A path that a line can hold. -/
structure Listable (path : Text) : Prop where
  newline : '\n' ∉ path
  trimmed : trim path = path

theorem linesFrom_line {line more : Text} (h : '\n' ∉ more) (rest : Text) :
    linesFrom line (more ++ '\n' :: rest) = stripCr (line ++ more) :: linesFrom [] rest := by
  induction more generalizing line with
  | nil => rw [List.nil_append, linesFrom, if_pos rfl, List.append_nil]
  | cons c more ih =>
    have hc : c ≠ '\n' := fun heq => h (heq ▸ List.mem_cons_self)
    have hmore : '\n' ∉ more := fun hmem => h (List.mem_cons_of_mem _ hmem)
    rw [List.cons_append, linesFrom, if_neg hc, ih hmore, List.append_assoc, List.singleton_append]

theorem not_mem_lines {line text : Text} (h : '\n' ∉ line) : ∀ l ∈ linesFrom line text, '\n' ∉ l := by
  induction text generalizing line with
  | nil =>
    intro l hl
    rw [linesFrom] at hl
    split at hl
    · cases hl
    · rw [List.mem_singleton] at hl
      exact hl ▸ h
  | cons c text ih =>
    intro l hl
    rw [linesFrom] at hl
    split at hl
    · obtain rfl | hl := List.mem_cons.1 hl
      · intro hmem
        unfold stripCr at hmem
        split at hmem
        · exact h ((List.dropLast_sublist line).mem hmem)
        · exact h hmem
      · exact ih (List.not_mem_nil) l hl
    · next hc =>
      refine ih ?_ l hl
      rw [List.mem_append, List.mem_singleton]
      rintro (hmem | heq)
      · exact h hmem
      · exact hc heq.symm

theorem trim_subset (text : Text) : trim text ⊆ text := by
  intro c hc
  have h₁ := List.mem_reverse.1 hc
  have h₂ := List.mem_reverse.1 ((List.dropWhile_sublist isWhiteSpace).mem h₁)
  exact (List.dropWhile_sublist isWhiteSpace).mem h₂

/-- What is left of a prefix that the whole does not begin with. -/
theorem dropWhile_prefix {p : Char → Bool} {x y : Text} (hpre : x <+: y) (hy : y.dropWhile p = y) : x.dropWhile p = x := by
  rw [List.dropWhile_eq_self_iff] at hy ⊢
  intro hlen
  rw [List.IsPrefix.getElem hpre hlen]
  exact hy (Nat.lt_of_lt_of_le hlen hpre.length_le)

theorem trim_trim (text : Text) : trim (trim text) = trim text := by
  have hfront : (trim text).dropWhile isWhiteSpace = trim text := by
    apply dropWhile_prefix (y := text.dropWhile isWhiteSpace)
    · rw [← List.reverse_suffix, trim, List.reverse_reverse]
      exact List.dropWhile_suffix isWhiteSpace
    · exact List.dropWhile_idempotent isWhiteSpace _
  rw [trim, hfront, trim, List.reverse_reverse, List.dropWhile_idempotent]

theorem getLast?_trim (text : Text) : (trim text).getLast? ≠ some '\r' := by
  have h := List.head?_dropWhile_not isWhiteSpace (text.dropWhile isWhiteSpace).reverse
  rw [trim, List.getLast?_reverse]
  intro hcr
  rw [hcr] at h
  exact Bool.noConfusion h

theorem stripCr_eq {line : Text} (h : line.getLast? ≠ some '\r') : stripCr line = line := if_neg h

theorem Listable.stripCr_line {path : Text} (h : Listable path) :
    stripCr (META_LINE_PREFIX_FILE ++ path) = META_LINE_PREFIX_FILE ++ path := by
  apply stripCr_eq
  rw [List.getLast?_append]
  cases hlast : path.getLast? with
  | none => decide
  | some c =>
    have hne := getLast?_trim path
    rw [h.trimmed, hlast] at hne
    exact hne

/-- The paths are among the lines behind those that are no paths. -/
theorem packageFilesOf_files {paths : List Text} (h : ∀ path ∈ paths, Listable path) :
    packageFilesOf (paths.flatMap fun path => META_LINE_PREFIX_FILE ++ path ++ ['\n']) = paths := by
  unfold packageFilesOf lines
  induction paths with
  | nil => rfl
  | cons path paths ih =>
    obtain ⟨hpath, hpaths⟩ := List.forall_mem_cons.1 h
    have hline : '\n' ∉ META_LINE_PREFIX_FILE ++ path := by
      rw [List.mem_append]
      rintro (hmem | hmem)
      · revert hmem
        decide
      · exact hpath.newline hmem
    have hpre : META_LINE_PREFIX_FILE.isPrefixOf (META_LINE_PREFIX_FILE ++ path) = true :=
      List.isPrefixOf_iff_prefix.2 (List.prefix_append _ _)
    rw [List.flatMap_cons, List.append_assoc, List.singleton_append, linesFrom_line hline, List.nil_append,
      hpath.stripCr_line, List.filterMap_cons, stripPrefix, if_pos hpre, List.drop_left, List.map_cons, ih hpaths,
      hpath.trimmed]

theorem packageFilesOf_metaContent (ts : Nat) {paths : List Text} (h : ∀ path ∈ paths, Listable path) :
    packageFilesOf (metaContent ts paths) = paths := by
  have hdigits : '\n' ∉ META_LINE_PREFIX_TIMESTAMP ++ Nat.toDigits 10 ts := by
    rw [List.mem_append]
    rintro (hmem | hmem)
    · revert hmem
      decide
    · have hdigit := Nat.isDigit_of_mem_toDigits (by decide) (by decide) hmem
      revert hdigit
      decide
  have hskip : ∀ line : Text, stripPrefix META_LINE_PREFIX_FILE (stripCr (META_LINE_PREFIX_TIMESTAMP ++ line)) = none := by
    intro line
    unfold stripCr
    split
    · cases line with
      | nil => rfl
      | cons c line => rfl
    · rfl
  have hfiles := packageFilesOf_files h
  unfold packageFilesOf lines at hfiles ⊢
  rw [metaContent, List.append_assoc, List.singleton_append, linesFrom_line hdigits, List.nil_append,
    List.filterMap_cons, hskip, hfiles]

/-- Whatever the file holds, each path found in it can be written back. -/
theorem listable_of_mem {content path : Text} (h : path ∈ packageFilesOf content) : Listable path := by
  obtain ⟨found, hfound, rfl⟩ := List.mem_map.1 h
  obtain ⟨line, hline, hstrip⟩ := List.mem_filterMap.1 hfound
  refine ⟨fun hmem => ?_, trim_trim found⟩
  unfold stripPrefix at hstrip
  split at hstrip
  · obtain rfl := Option.some.inj hstrip
    exact not_mem_lines List.not_mem_nil line hline ((List.drop_sublist _ _).mem (trim_subset _ hmem))
  · cases hstrip

end FontisRemote.Portable
