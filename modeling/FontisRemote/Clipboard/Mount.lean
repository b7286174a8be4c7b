import FontisRemote.Clipboard.FuseTree

/-!
# An untrusted list, mounted

`lookup` and `readdir` of `FuseServer`, which index the vector by the inodes they find in it. A list from
the peer goes through `parse_file_descriptors` and `build_tree` before they see it.
-/

namespace FontisRemote.Clipboard

open FontisRemote.Lib
open FontisRemote.FileTransfer

def MAX_NAME_LEN : Nat := 255

inductive Errno
  | ENAMETOOLONG
  | ENOENT
  | ENOTDIR
  | EBADF
deriving DecidableEq, Repr

structure FuseServer where
  /-- How many lists have been loaded. -/
  generation : Nat := 0
  files : List FuseNode := []

namespace FuseServer

variable (server : FuseServer)

/-- `files.get(inode as usize - 1)`, with the subtraction of a release build. -/
def entry (inode : Nat) : Option FuseNode :=
  server.files[(inode + (2 ^ 64 - 1)) % 2 ^ 64]?

def findChild (name : Text) : List Nat → Option (Except Errno (InodeAttributes × Nat))
  | [] => some (.error .ENOENT)
  | inode :: inodes => do
    let child ← FuseNode.at? server.files inode
    if child.name = name then some (.ok (child.attributes, server.generation)) else findChild name inodes

/-- The attributes of a child and the generation of the tree. -/
def lookup (parent : Nat) (name : Text) : Option (Except Errno (InodeAttributes × Nat)) :=
  if MAX_NAME_LEN < (String.ofList name).utf8ByteSize then some (.error .ENAMETOOLONG)
  else
    match server.entry parent with
    | none => some (.error .ENOENT)
    | some parentEntry =>
      if parentEntry.attributes.kind ≠ .directory then some (.error .ENOTDIR)
      else server.findChild name parentEntry.children

/-- What a directory is listed as: inode, kind and name. -/
abbrev DirEntry := Nat × FileType × Text

def childEntries : List Nat → Option (List DirEntry)
  | [] => some []
  | inode :: inodes => do
    let child ← FuseNode.at? server.files inode
    let entries ← childEntries inodes
    some ((inode, child.attributes.kind, child.name) :: entries)

/-- The entries from the offset on, as many as the reply has room for, each with the offset after it. -/
def readdir (ino fh : Nat) (offset : Int) (room : Nat) : Option (Except Errno (List (DirEntry × Nat))) :=
  match server.entry ino with
  | none => some (.error .ENOENT)
  | some entry =>
    if fh ∉ entry.fileHandlers then some (.error .EBADF)
    else if entry.attributes.kind ≠ .directory then some (.error .ENOTDIR)
    else do
      let children ← server.childEntries entry.children
      let dots := (ino, .directory, ['.']) ::
        (entry.parent.map fun parent => (parent, .directory, ['.', '.'])).toList
      let entries := (dots ++ children).zipIdx 1
      some (.ok ((entries.drop (offset % 2 ^ 64).toNat).take room))

end FuseServer

/-! ## Looking into it -/

namespace FuseServer

open FuseNode

variable {server : FuseServer} {files : List FileDescription} {tree : List FuseNode}

theorem at?_server (hserver : server.files.map closed = tree) {inode : Nat} (h1 : 1 ≤ inode)
    (hle : inode ≤ tree.length) : (at? server.files inode).isSome = true := by
  rw [← hserver, List.length_map] at hle
  unfold at?
  rw [checkedSub_of_le h1, Option.bind_some, List.getElem?_eq_getElem (by omega)]
  rfl

/-- The children of an entry are there. -/
theorem entry_children (h : IsTree files tree) (hserver : server.files.map closed = tree) {inode : Nat}
    {node : FuseNode} (hentry : server.entry inode = some node) :
    ∀ child ∈ node.children, (at? server.files child).isSome = true := by
  intro child hchild
  have hget : tree[(inode + (2 ^ 64 - 1)) % 2 ^ 64]? = some node.closed := by
    rw [← hserver, List.getElem?_map]
    unfold entry at hentry
    rw [hentry]
    rfl
  obtain ⟨h2, hle⟩ := h.child hget (show child ∈ node.closed.children from hchild)
  exact at?_server hserver (by omega) hle

theorem findChild_isSome (name : Text) {inodes : List Nat}
    (h : ∀ inode ∈ inodes, (at? server.files inode).isSome = true) :
    (server.findChild name inodes).isSome = true := by
  induction inodes with
  | nil => rfl
  | cons inode inodes ih =>
    obtain ⟨child, hchild⟩ := Option.isSome_iff_exists.mp (h inode (List.mem_cons_self ..))
    unfold findChild
    rw [hchild, some_bind]
    split
    · rfl
    · exact ih fun i hi => h i (List.mem_cons_of_mem _ hi)

theorem childEntries_isSome {inodes : List Nat}
    (h : ∀ inode ∈ inodes, (at? server.files inode).isSome = true) :
    ∃ entries, server.childEntries inodes = some entries := by
  induction inodes with
  | nil => exact ⟨[], rfl⟩
  | cons inode inodes ih =>
    obtain ⟨child, hchild⟩ := Option.isSome_iff_exists.mp (h inode (List.mem_cons_self ..))
    obtain ⟨entries, hentries⟩ := ih fun i hi => h i (List.mem_cons_of_mem _ hi)
    refine ⟨(inode, child.attributes.kind, child.name) :: entries, ?_⟩
    unfold childEntries
    rw [hchild, some_bind, hentries]
    rfl

theorem lookup_isSome (h : IsTree files tree) (hserver : server.files.map closed = tree) (parent : Nat)
    (name : Text) : (server.lookup parent name).isSome = true := by
  unfold lookup
  split
  · rfl
  · split
    · rfl
    · rename_i hentry
      split
      · rfl
      · exact findChild_isSome name (entry_children h hserver hentry)

theorem readdir_isSome (h : IsTree files tree) (hserver : server.files.map closed = tree) (ino fh : Nat)
    (offset : Int) (room : Nat) : (server.readdir ino fh offset room).isSome = true := by
  unfold readdir
  split
  · rfl
  · rename_i hentry
    split
    · rfl
    · split
      · rfl
      · obtain ⟨entries, hentries⟩ := childEntries_isSome (entry_children h hserver hentry)
        rw [hentries, some_bind]
        rfl

end FuseServer

/-- Whatever the bytes: they are read without a panic, and a list that is accepted has relative names of
normal components and is built into a tree, in which every file has one place under an earlier directory,
whatever handles are open on it. Where the directories of the list come first, the names on the way down
make up each file's name. -/
theorem untrusted_list_contained (fileDescriptorPdu : List UInt8) (connId now : Int) :
    parseFileDescriptors? fileDescriptorPdu connId = some (parseFileDescriptors fileDescriptorPdu connId) ∧
    ∀ files, parseFileDescriptors fileDescriptorPdu connId = .ok files →
      (∀ desc ∈ files, ∃ segs, segs ≠ [] ∧ components false desc.name = segs.map .normal) ∧
      ∃ tree, FuseNode.buildTree now files = some (.ok tree) ∧ tree.length = files.length + 1 ∧
        (∀ (i : Nat) (node : FuseNode), tree[i]? = some node → node.attributes.inode = i + 1) ∧
        (∀ (i : Nat) (node : FuseNode), tree[i + 1]? = some node →
          node.index = i ∧ components false node.name = [.normal node.name] ∧
          ∃ p parent, node.parent = some (p + 1) ∧ p ≤ i ∧ tree[p]? = some parent ∧
            parent.attributes.kind = .directory ∧
            ∀ (j : Nat) (other : FuseNode), tree[j]? = some other →
              other.children.count (i + 2) = if j = p then 1 else 0) ∧
        (∀ (j : Nat) (other : FuseNode), tree[j]? = some other →
          ∀ inode ∈ other.children, 2 ≤ inode ∧ inode ≤ tree.length) ∧
        (∀ i, i < tree.length → ∃ names, FuseNode.pathOf tree i (i + 1) = some names) ∧
        (∀ server : FuseServer, server.files.map FuseNode.closed = tree →
          (∀ parent name, (server.lookup parent name).isSome = true) ∧
          ∀ ino fh offset room, (server.readdir ino fh offset room).isSome = true) ∧
        (FuseNode.ParentsFirst files → ∀ i desc, files[i]? = some desc →
          ∃ names, FuseNode.pathOf tree (i + 1) (i + 2) = some names ∧
            ['/'].intercalate names = desc.name) := by
  refine ⟨parseFileDescriptors?_eq fileDescriptorPdu connId, fun files hfiles => ?_⟩
  have hvalid := valid_of_parse hfiles
  obtain ⟨tree, hbuild, htree, hnames⟩ := FuseNode.buildTree_spec now hvalid
  refine ⟨fun desc hdesc => ⟨pieces desc.name, pieces_ne_nil _, components_of_valid (hvalid desc hdesc)⟩,
    tree, hbuild, htree.length, fun i node hnode => htree.inode hnode, fun i node hnode => ?_,
    fun j other hother inode hinode => htree.child hother hinode,
    fun i hi => htree.reaches_root hi (Nat.le_refl i), fun server hserver => ?_,
    fun hfirst i desc hdesc => ?_⟩
  · have hlt : i < files.length := by
      have := (List.getElem?_eq_some_iff.mp hnode).1
      have := htree.length
      omega
    obtain ⟨node', hnode', hdescribes⟩ := htree.node i files[i] (List.getElem?_eq_getElem hlt)
    rw [hnode] at hnode'
    obtain rfl := Option.some.inj hnode'
    have hplain := pieces_plain (hvalid files[i] (List.getElem_mem hlt)) node.name
      (List.mem_of_getLast? hdescribes.name)
    obtain ⟨p, parent, hparent, hle, hget, hkind⟩ := htree.parent i node hnode
    refine ⟨hdescribes.index, hplain.components, p, parent, hparent, hle, hget, hkind,
      fun j other hother => ?_⟩
    rw [htree.count_children hnode hother, hparent]
    simp [eq_comm]
  · exact ⟨FuseServer.lookup_isSome htree hserver, FuseServer.readdir_isSome htree hserver⟩
  · exact ⟨pieces desc.name, hnames hfirst i desc hdesc, intercalate_pieces desc.name⟩

end FontisRemote.Clipboard
