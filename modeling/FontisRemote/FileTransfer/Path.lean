import Mathlib.Algebra.Order.Ring.Int
import Mathlib.Data.List.Basic

/-!
# Paths and the names of entries

A path is its text. `components`, `push` and `parent` follow the standard library's `Path`, on Unix
(`win = false`) and on Windows, where a path can begin with a drive, a share or a verbatim prefix.
Over them stand the checks a transfer makes before it uses a name that the peer sent:
`validateFileNameNoTraversal` on the text and `validateNoSymlinkComponents` on its components.
-/

namespace FontisRemote.FileTransfer

abbrev Text := List Char

section Parsing

variable (win : Bool)

def isSep (c : Char) : Bool := c == '/' || (win && c == '\\')

def mainSep : Char := if win then '\\' else '/'

/-- The beginning that Windows gives a path of its own: how it is marked and how long it is. -/
inductive PrefixKind
  | verbatim
  | device
  | unc
  | disk
deriving DecidableEq, Repr

/-- The text up to the next separator. A verbatim path knows the backslash only. -/
def nextComponent (verbatim : Bool) (s : Text) : Text :=
  s.takeWhile fun c => !(if verbatim then c == '\\' else isSep true c)

def parseDrive : Text → Bool
  | c :: d :: _ => c.isAlpha && d == ':'
  | _ => false

/-- `parse_prefix` of the standard library, with the length of what it finds. -/
def parsePrefix (s : Text) : Option (PrefixKind × Nat) :=
  if !win then none
  else if (s.take 2).all (isSep true) && 2 ≤ s.length then
    let rest := s.drop 4
    if s.take 4 = ['\\', '\\', '?', '\\'] then
      if rest.take 4 = ['U', 'N', 'C', '\\'] then
        let server := nextComponent true (rest.drop 4)
        let share := nextComponent true (rest.drop (5 + server.length))
        some (.verbatim, 8 + server.length + if share = [] then 0 else 1 + share.length)
      else
        some (.verbatim, 4 + (nextComponent true rest).length)
    else if (s[2]? = some '.') && s[3]?.any (isSep true) then
      some (.device, 4 + (nextComponent false rest).length)
    else
      let server := nextComponent false (s.drop 2)
      let share := nextComponent false (s.drop (3 + server.length))
      if server = [] || share = [] then none
      else some (.unc, 3 + server.length + share.length)
  else if parseDrive s then some (.disk, 2)
  else none

inductive Component
  | pfx (kind : PrefixKind) (text : Text)
  | rootDir
  | curDir
  | parentDir
  | normal (seg : Text)
deriving DecidableEq, Repr

def isVerbatim (s : Text) : Bool :=
  match parsePrefix win s with
  | some (.verbatim, _) => true
  | _ => false

/-- What follows the prefix. -/
def afterPrefix (s : Text) : Text :=
  match parsePrefix win s with
  | some (_, n) => s.drop n
  | none => s

/-- Whether the path starts at a root; every prefix but a drive's implies one. -/
def hasRoot (s : Text) : Bool :=
  match parsePrefix win s with
  | some (.disk, _) | none => (afterPrefix win s).head?.any (isSep win)
  | some _ => true

/-- A path's segments, the empty ones left out. -/
def segments (s : Text) : List Text :=
  ((afterPrefix win s).splitOnP fun c => if isVerbatim win s then c == '\\' else isSep win c).filter (· ≠ [])

/-- A segment as a component. A dot is dropped, except in a verbatim path. -/
def component? (verbatim : Bool) (seg : Text) : Option Component :=
  if seg = ['.'] then if verbatim then some .curDir else none
  else if seg = ['.', '.'] then some .parentDir
  else some (.normal seg)

/-- Whether the path begins with a dot that stands for the current directory. -/
def leadingDot (s : Text) : Bool :=
  !isVerbatim win s && !hasRoot win s && (segments win s).head? = some ['.'] &&
    (afterPrefix win s).head? = some '.'

/-- `Path::components`. -/
def components (s : Text) : List Component :=
  (match parsePrefix win s with
    | some (kind, n) => [.pfx kind (s.take n)]
    | none => []) ++
  (if hasRoot win s then [.rootDir] else []) ++
  (if leadingDot win s then [.curDir] else []) ++
  (segments win s).filterMap (component? (isVerbatim win s))

/-- `Path::parent`, by its components. -/
def parent (s : Text) : Option (List Component) :=
  match (components win s).getLast? with
  | some (.normal _) | some .curDir | some .parentDir => some (components win s).dropLast
  | _ => none

/-- `Path::file_name`. -/
def fileName (s : Text) : Option Text :=
  match (components win s).getLast? with
  | some (.normal seg) => some seg
  | _ => none

/-- How a component is written. -/
def Component.text : Component → Text
  | .pfx _ text => text
  | .rootDir => ['\\']
  | .curDir => ['.']
  | .parentDir => ['.', '.']
  | .normal seg => seg

/-- Add a component to a verbatim path, which is kept normalized. -/
def pushVerbatim (buf : List Component) : Component → List Component
  | .rootDir => buf.take 1 ++ [.rootDir]
  | .curDir => buf
  | .parentDir =>
    match buf.getLast? with
    | some (.normal _) => buf.dropLast
    | _ => buf
  | c => buf ++ [c]

/-- Write out the components of a verbatim path. -/
def renderVerbatim (needSep : Bool) : List Component → Text
  | [] => []
  | c :: rest =>
    let needsNext := match c with
      | .rootDir => false
      | .pfx kind text => kind ≠ .disk && text ≠ []
      | _ => true
    (if needSep && c ≠ .rootDir then ['\\'] else []) ++ c.text ++ renderVerbatim needsNext rest

/-- `PathBuf::push`, as a function of the two texts. -/
def push (base path : Text) : Text :=
  let needSep := base.getLast?.any (fun c => !isSep win c) && parsePrefix win base ≠ some (.disk, base.length)
  if (if win then (parsePrefix win path).isSome else hasRoot win path) then path
  else if isVerbatim win base && path ≠ [] then
    renderVerbatim false ((components win path).foldl pushVerbatim (components win base))
  else if hasRoot win path then
    base.take (base.length - (afterPrefix win base).length) ++ path
  else if needSep then base ++ mainSep win :: path
  else base ++ path

/-- `TransferJob::join`. -/
def join (p name : Text) : Text := if name = [] then p else push win p name

end Parsing

/-! ## Checks on a name -/

/-- What `symlink_metadata` says about a path. -/
inductive LStat
  | found (isSymlink : Bool)
  | notFound
  | failed (err : String)
deriving DecidableEq, Repr

structure FileEntry where
  name : Text
  size : Nat
  modifiedTime : Nat
deriving DecidableEq, Repr

section Checks

variable (win : Bool) (lstat : Text → LStat)

def validateFileNameNoTraversal (name : Text) : Except String Unit :=
  if name.any (· == '\x00') then .error "file name contains null bytes"
  else if ((name.splitOnP (isSep win)).filter (· ≠ [])).any (· == ['.', '.']) then
    .error "path traversal detected in file name"
  else if win && parseDrive name then .error "absolute path detected in file name"
  else if name.head?.any (isSep win) then .error "absolute path detected in file name"
  else .ok ()

/-- The name check of each entry, the first offending one refused. -/
def validateNames : List FileEntry → Except String Unit
  | [] => .ok ()
  | file :: files =>
    if file.name = [] then .error "empty file name in multi-file transfer"
    else
      match validateFileNameNoTraversal win file.name with
      | .error err => .error err
      | .ok () => validateNames files

def validateTransferFileNames (files : List FileEntry) : Except String Unit :=
  if files.length = 1 ∧ (files.head?.any fun f => f.name = []) then .ok ()
  else validateNames win files

/-- The walk of `validate_no_symlink_components` from a path over components. -/
def walkNoSymlink (current : Text) : List Component → Except String Unit
  | [] => .ok ()
  | .normal seg :: rest =>
    let current := push win current seg
    match lstat current with
    | .found true => .error "symlink path component is not allowed"
    | .found false | .notFound => walkNoSymlink current rest
    | .failed err =>
      .error ("failed to validate path component '" ++ String.ofList current ++ "': " ++ err)
  | .curDir :: rest => walkNoSymlink current rest
  | _ :: _ => .error "invalid file name component"

def validateNoSymlinkComponents (base name : Text) : Except String Unit :=
  if name = [] then .ok () else walkNoSymlink win lstat base (components win name)

def joinValidatedPath (base name : Text) : Except String Text :=
  match validateFileNameNoTraversal win name with
  | .error err => .error err
  | .ok () =>
    match validateNoSymlinkComponents win lstat base name with
    | .error err => .error err
    | .ok () => .ok (join win base name)

/-- The symlink check of every entry. -/
def validateNoSymlinks (base : Text) : List FileEntry → Except String Unit
  | [] => .ok ()
  | file :: files =>
    match validateNoSymlinkComponents win lstat base file.name with
    | .error err => .error err
    | .ok () => validateNoSymlinks base files

end Checks

/-! ## Texts put together -/

/-- Text without a separator goes to the last piece. -/
theorem splitOnP_append_plain {α : Type*} {p : α → Bool} (a : List α) {b : List α} (hb : ∀ x ∈ b, p x = false) :
    ∃ ini last, a.splitOnP p = ini ++ [last] ∧ (a ++ b).splitOnP p = ini ++ [last ++ b] := by
  induction a with
  | nil => exact ⟨[], [], List.splitOnP_nil, List.splitOnP_eq_singleton hb⟩
  | cons x a ih =>
    obtain ⟨ini, last, ha, hab⟩ := ih
    simp only [List.cons_append, List.splitOnP_cons_eq_if_modifyHead, ha, hab]
    by_cases hx : p x = true
    · exact ⟨[] :: ini, last, by simp [hx], by simp [hx]⟩
    · cases ini with
      | nil => exact ⟨[], x :: last, by simp [hx], by simp [hx]⟩
      | cons i ini => exact ⟨(x :: i) :: ini, last, by simp [hx], by simp [hx]⟩

/-- No piece has a separator in it. -/
theorem not_mem_of_mem_splitOnP {α : Type*} {p : α → Bool} {text seg : List α} (h : seg ∈ text.splitOnP p) :
    ∀ c ∈ seg, p c = false := by
  induction text generalizing seg with
  | nil =>
    rw [List.splitOnP_nil] at h
    obtain rfl := List.mem_singleton.mp h
    simp
  | cons c text ih =>
    rw [List.splitOnP_cons_eq_if_modifyHead] at h
    split at h
    · obtain rfl | h := List.mem_cons.mp h
      · simp
      · exact ih h
    · rename_i hc
      cases hsplit : text.splitOnP p with
      | nil => exact absurd hsplit (List.splitOnP_ne_nil p text)
      | cons first rest =>
        rw [hsplit] at h ih
        obtain rfl | h := List.mem_cons.mp h
        · intro d hd
          obtain rfl | hd := List.mem_cons.mp hd
          · simpa using hc
          · exact ih (List.mem_cons_self ..) d hd
        · exact ih (List.mem_cons_of_mem _ h)

section Names

variable {win : Bool} {name : Text}

/-- What the check on the text of a name leaves. -/
theorem validateFileNameNoTraversal_ok (h : validateFileNameNoTraversal win name = .ok ()) :
    '\x00' ∉ name ∧ ['.', '.'] ∉ name.splitOnP (isSep win) ∧ (win = true → parseDrive name = false) ∧
      name.head?.any (isSep win) = false := by
  unfold validateFileNameNoTraversal at h
  split_ifs at h with hnul hdots hdrive hsep
  refine ⟨fun hmem => hnul ?_, fun hmem => hdots ?_, fun hwin => ?_, by simpa using hsep⟩
  · exact List.any_eq_true.2 ⟨'\x00', hmem, by decide⟩
  · refine List.any_eq_true.2 ⟨['.', '.'], List.mem_filter.2 ⟨hmem, by decide⟩, by decide⟩
  · simpa [hwin] using hdrive

/-- A text that starts with neither a separator nor a drive has no prefix. -/
theorem parsePrefix_eq_none (hdrive : win = true → parseDrive name = false)
    (hsep : name.head?.any (isSep win) = false) : parsePrefix win name = none := by
  unfold parsePrefix
  cases hwin : win with
  | false => rfl
  | true =>
    subst hwin
    have hall : ((name.take 2).all (isSep true) && decide (2 ≤ name.length)) = false := by
      cases name with
      | nil => rfl
      | cons c rest =>
        have hc : isSep true c = false := by simpa using hsep
        simp [hc]
    simp only [Bool.not_true, Bool.false_eq_true, if_false, hall, hdrive rfl]

/-- The components of a text without a prefix and a root. -/
theorem components_eq (hpfx : parsePrefix win name = none) (hsep : name.head?.any (isSep win) = false) :
    components win name = (if leadingDot win name then [.curDir] else []) ++
      (segments win name).filterMap (component? false) := by
  have hverbatim : isVerbatim win name = false := by simp [isVerbatim, hpfx]
  have hroot : hasRoot win name = false := by
    simp only [hasRoot, hpfx, afterPrefix]
    exact hsep
  simp [components, hpfx, hroot, hverbatim]

theorem segments_eq (hpfx : parsePrefix win name = none) :
    segments win name = (name.splitOnP (isSep win)).filter (· ≠ []) := by
  have hverbatim : isVerbatim win name = false := by simp [isVerbatim, hpfx]
  simp [segments, hverbatim, afterPrefix, hpfx]

end Names

end FontisRemote.FileTransfer
