import FontisRemote.Portable.Blob
import FontisRemote.Connection.Wildcard

/-!
# The payload of a packer

A packer holds two blobs: the generic one, compiled in once for a release, and the package of a customer, put into its
resources afterwards. `BinaryReader::new` folds the package into the generic files. `toLowercase` is the Unicode
mapping of `str::to_lowercase`, about which nothing is assumed.
-/

namespace FontisRemote.Portable

open FontisRemote.Connection (trim)

/-- `path.replace('\\', "/")` -/
def replaceBackslash (path : Text) : Text := path.map fun c => if c = '\\' then '/' else c

/-- `path.trim_start_matches("./")` -/
def trimStartCurDir : Text → Text
  | '.' :: '/' :: rest => trimStartCurDir rest
  | path => path

structure BinaryReader where
  files : List BinaryData
  exe : Text
  /-- The paths of the package, for the sweep of the files that a later one drops. -/
  packagePaths : List Text

section Reader

variable (toLowercase : Text → Text)

def normalizePath (path : Text) : Text := toLowercase (trimStartCurDir (replaceBackslash path))

/-- The generic executable under the name that the package decides. -/
def renamed (genericExe exe : Text) (file : BinaryData) : BinaryData :=
  if genericExe ≠ [] ∧ normalizePath toLowercase exe ≠ normalizePath toLowercase genericExe ∧
      normalizePath toLowercase file.path = normalizePath toLowercase genericExe then
    { file with path := exe }
  else file

def merge (embedded package : List BinaryData × Text) : List BinaryData × Text :=
  let exe := if package.2 = [] then embedded.2 else package.2
  let files := embedded.1.map (renamed toLowercase embedded.2 exe)
  let files :=
    if package.1 = [] then files
    else
      let overridden := package.1.map fun file => normalizePath toLowercase file.path
      files.filter (fun file => !overridden.contains (normalizePath toLowercase file.path)) ++ package.1
  (files, exe)

def parsePackageBlob : Option Bytes → Except String (List BinaryData × Text)
  | none => .ok ([], [])
  | some blob =>
    match parse blob with
    | none => .error "RDPKG resource is invalid"
    | some package => if trim package.2 = [] then .error "RDPKG resource has no executable" else .ok package

def readEmbedded (binData : Bytes) : Except String (List BinaryData × Text) :=
  match parse binData with
  | none => .error "bin file is not valid!"
  | some embedded => .ok embedded

/-- `BinaryReader::new` -/
def BinaryReader.new (binData : Bytes) (resource : Option Bytes) : Except String BinaryReader := do
  let package ← parsePackageBlob resource
  let packagePaths := package.1.map BinaryData.path
  let embedded ← readEmbedded binData
  let (files, exe) := merge toLowercase embedded package
  return ⟨files, exe, packagePaths⟩

/-! ## What is folded -/

variable {toLowercase}

theorem new_eq_ok {binData : Bytes} {resource : Option Bytes} {reader : BinaryReader} :
    BinaryReader.new toLowercase binData resource = .ok reader ↔
      ∃ embedded package, parse binData = some embedded ∧ parsePackageBlob resource = .ok package ∧
        reader = ⟨(merge toLowercase embedded package).1, (merge toLowercase embedded package).2,
          package.1.map BinaryData.path⟩ := by
  unfold BinaryReader.new readEmbedded
  simp only [bind_eq_ok]
  constructor
  · rintro ⟨package, hpackage, embedded, hembedded, h⟩
    split at hembedded
    · cases hembedded
    · next found hfound =>
      obtain rfl := Except.ok.inj hembedded
      exact ⟨found, package, hfound, hpackage, (Except.ok.inj h).symm⟩
  · rintro ⟨embedded, package, hembedded, hpackage, rfl⟩
    exact ⟨package, hpackage, embedded, by rw [hembedded], rfl⟩

end Reader

end FontisRemote.Portable
