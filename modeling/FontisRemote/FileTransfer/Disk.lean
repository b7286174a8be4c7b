import FontisRemote.Lib.FileSystem
import FontisRemote.FileTransfer.Job

/-!
# The machine's disk

A `Host` over a file system: the paths of a job are read as on Unix, without symlinks. What may go
wrong in one call is a parameter (`Faults`); where nothing does, an operation fails only for what is at
the path.
-/

namespace FontisRemote.FileTransfer

open FontisRemote.Lib

/-- Files, and when each was last modified. -/
structure Disk where
  fs : FileSystem Text UInt8
  mtime : Nat → Nat

/-- An open file and where it stands. -/
structure Handle where
  ino : Nat
  pos : Nat
  writable : Bool
deriving DecidableEq, Repr

/-- The operations that fail in a call; of a write, how much gets in before it does. -/
structure Faults where
  openFile : Bool := false
  create : Bool := false
  sync : Bool := false
  remove : Bool := false
  rename : Bool := false
  write : Option Nat := none
deriving DecidableEq

/-- The names a path goes through. -/
def pathKey (t : Text) : List Text := (segments false t).filter (· ≠ ['.'])

/-- A path that ends in a separator or a dot can only be a directory. -/
def mustDir (t : Text) : Bool :=
  t.getLast?.any (isSep false) || (segments false t).getLast? = some ['.']

/-- How blocks are compressed and digests are written. -/
structure Codec where
  compress : Bytes → Bytes
  decompress : Bytes → Bytes
  writeDigest : FileDigest → Bytes
  readDigest : Bytes → Option FileDigest

namespace Disk

/-- Nothing is below a file. -/
def throughFile (d : Disk) (k : List Text) : Bool :=
  k.inits.dropLast.any fun k => (d.fs.fileAt k).isSome

def lstat (t : Text) (d : Disk) : LStat :=
  match d.fs.node (pathKey t) with
  | some _ => .found false
  | none => if d.throughFile (pathKey t) then .failed "Not a directory (os error 20)" else .notFound

def isFile (t : Text) (d : Disk) : Bool := (d.fs.fileAt (pathKey t)).isSome && !mustDir t

def pathExists (t : Text) (d : Disk) : Bool := d.isFile t || decide (d.fs.isDir (pathKey t))

/-- An operation that makes a file, unless it fails or the path cannot be one. -/
def making (fault : Bool) (t : Text) (d : Disk) (res : Option (Nat × FileSystem Text UInt8)) :
    Except String Handle × Disk :=
  if fault then (.error "No space left on device (os error 28)", d)
  else if mustDir t then (.error "Is a directory (os error 21)", d)
  else
    match res with
    | some (ino, fs) => (.ok ⟨ino, 0, true⟩, { d with fs := fs })
    | none => (.error "No such file or directory (os error 2)", d)

/-- Write to an open file where it stands. -/
def write (d : Disk) (h : Handle) (bytes : Bytes) : Disk :=
  { d with fs := d.fs.setData h.ino (overwrite (d.fs.data h.ino) h.pos bytes) }

/-- The file operations. -/
def host (c : Codec) (f : Faults) : Host Disk Handle where
  win := false
  compress := c.compress
  decompress := c.decompress
  openFile t d :=
    if f.openFile || mustDir t then (.error "Permission denied (os error 13)", d)
    else
      match d.fs.fileAt (pathKey t) with
      | some ino => (.ok ⟨ino, 0, false⟩, d)
      | none => (.error "No such file or directory (os error 2)", d)
  read h n d :=
    if h.writable then (.error "Bad file descriptor (os error 9)", h, d)
    else
      let bytes := ((d.fs.data h.ino).drop h.pos).take n
      (.ok bytes, { h with pos := h.pos + bytes.length }, d)
  metadata h d := .ok (d.mtime h.ino, (d.fs.data h.ino).length)
  pathExists := pathExists
  lstat := lstat
  openWrite t d := making f.create t d (d.fs.openCreate (pathKey t))
  create t d := making f.create t d (d.fs.create (pathKey t))
  seek h offset d := (.ok { h with pos := offset }, d)
  writeAll h bytes d :=
    if !h.writable then (.error "Bad file descriptor (os error 9)", h, d)
    else
      match f.write with
      | none => (.ok (), { h with pos := h.pos + bytes.length }, d.write h bytes)
      | some n =>
        (.error "No space left on device (os error 28)", { h with pos := h.pos + (bytes.take n).length },
          d.write h (bytes.take n))
  syncAll _ d := if f.sync then (.error "Input/output error (os error 5)", d) else (.ok (), d)
  rename src dst d :=
    if f.rename || mustDir src || mustDir dst then d
    else { d with fs := (d.fs.rename (pathKey src) (pathKey dst)).getD d.fs }
  removeFile t d :=
    if f.remove || mustDir t then (.error "Permission denied (os error 13)", d)
    else
      match d.fs.remove (pathKey t) with
      | some fs => (.ok (), { d with fs := fs })
      | none => (.error "No such file or directory (os error 2)", d)
  createDirAll comps d :=
    { d with fs := d.fs.mkdirs [] (comps.filterMap fun
        | .normal seg => some seg
        | .parentDir => some ['.', '.']
        | _ => none) }
  setFileMtime t time d :=
    match d.fs.fileAt (pathKey t) with
    | some ino => { d with mtime := Function.update d.mtime ino time }
    | none => d
  writeDigest t digest d :=
    match making f.create t d (d.fs.create (pathKey t)) with
    | (.ok h, d) => d.write h (c.writeDigest digest)
    | (.error _, d) => d
  readDigest t d := if mustDir t then none else (d.fs.contents (pathKey t)).bind c.readDigest
  isFile := isFile
  stat t d :=
    match d.fs.fileAt (pathKey t) with
    | some ino => .ok (d.mtime ino, 0, (d.fs.data ino).length)
    | none => .error "No such file or directory (os error 2)"

end Disk

end FontisRemote.FileTransfer
