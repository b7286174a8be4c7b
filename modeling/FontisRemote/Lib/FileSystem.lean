import Mathlib.Algebra.Order.Ring.Int
import Mathlib.Data.List.Basic
import Mathlib.Logic.Function.Basic

/-!
# A file system

Paths are lists of names. A path stands for a file, by its number, or for a directory; the contents
belong to the number, so that a file which is open keeps them when its path is renamed or removed, and
two paths can share them.
-/

namespace FontisRemote.Lib

inductive Node
  | file (ino : Nat)
  | dir
deriving DecidableEq, Repr

structure FileSystem (N β : Type) where
  node : List N → Option Node
  data : Nat → List β
  /-- No file has this number yet, or a higher one. -/
  fresh : Nat

/-- Contents overwritten from a position on, with a gap filled up. -/
def overwrite {β : Type} [Inhabited β] (old : List β) (pos : Nat) (new : List β) : List β :=
  old.take pos ++ List.replicate (pos - old.length) default ++ new ++ old.drop (pos + new.length)

@[simp] theorem overwrite_nil {β : Type} [Inhabited β] (old : List β) {pos : Nat} (h : pos ≤ old.length) :
    overwrite old pos [] = old := by
  simp [overwrite, Nat.sub_eq_zero_of_le h]

/-- Writing at the end appends. -/
theorem overwrite_at_end {β : Type} [Inhabited β] (old new : List β) :
    overwrite old old.length new = old ++ new := by
  simp [overwrite]

namespace FileSystem

variable {N β : Type} [DecidableEq N]

def isDir (fs : FileSystem N β) (k : List N) : Prop := k = [] ∨ fs.node k = some .dir

instance (fs : FileSystem N β) (k : List N) : Decidable (fs.isDir k) :=
  inferInstanceAs (Decidable (_ ∨ _))

def setNode (fs : FileSystem N β) (k : List N) (n : Option Node) : FileSystem N β :=
  { fs with node := Function.update fs.node k n }

def setData (fs : FileSystem N β) (ino : Nat) (d : List β) : FileSystem N β :=
  { fs with data := Function.update fs.data ino d }

/-- The file at a path. -/
def fileAt (fs : FileSystem N β) (k : List N) : Option Nat :=
  match fs.node k with
  | some (.file ino) => some ino
  | _ => none

/-- What is at a path, read as a file. -/
def contents (fs : FileSystem N β) (k : List N) : Option (List β) := (fs.fileAt k).map fs.data

/-- A new file, in a directory. -/
def newFile (fs : FileSystem N β) (k : List N) : FileSystem N β :=
  { (fs.setNode k (some (.file fs.fresh))).setData fs.fresh [] with fresh := fs.fresh + 1 }

/-- Open a file, or make a new one. -/
def openCreate (fs : FileSystem N β) (k : List N) : Option (Nat × FileSystem N β) :=
  match fs.node k with
  | some (.file ino) => some (ino, fs)
  | some .dir => none
  | none => if k ≠ [] ∧ fs.isDir k.dropLast then some (fs.fresh, fs.newFile k) else none

/-- The same with what was in the file thrown away. -/
def create (fs : FileSystem N β) (k : List N) : Option (Nat × FileSystem N β) :=
  (fs.openCreate k).map fun r => (r.1, r.2.setData r.1 [])

def remove (fs : FileSystem N β) (k : List N) : Option (FileSystem N β) :=
  match fs.node k with
  | some (.file _) => some (fs.setNode k none)
  | _ => none

/-- Move a file over whatever file is at the other path, or a directory where nothing is. -/
def rename (fs : FileSystem N β) (src dst : List N) : Option (FileSystem N β) :=
  match fs.node src, fs.node dst with
  | some (.file ino), some (.file _) => some ((fs.setNode src none).setNode dst (some (.file ino)))
  | some (.file ino), none =>
    if dst ≠ [] ∧ fs.isDir dst.dropLast then some ((fs.setNode src none).setNode dst (some (.file ino))) else none
  | some .dir, none =>
    if dst ≠ [] ∧ fs.isDir dst.dropLast ∧ ¬ src <+: dst then
      some { fs with node := fun k =>
        if dst <+: k then fs.node (src ++ k.drop dst.length) else if src <+: k then none else fs.node k }
    else none
  | _, _ => none

/-- Make the directories of a path, each in the one before it, until a file is in the way. -/
def mkdirs (fs : FileSystem N β) (done : List N) : List N → FileSystem N β
  | [] => fs
  | name :: rest =>
    match fs.node (done ++ [name]) with
    | some (.file _) => fs
    | some .dir => mkdirs fs (done ++ [name]) rest
    | none => mkdirs (fs.setNode (done ++ [name]) (some .dir)) (done ++ [name]) rest

end FileSystem

end FontisRemote.Lib
