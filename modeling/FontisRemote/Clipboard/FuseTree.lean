import Mathlib.Data.List.Nodup
import FontisRemote.Clipboard.Reading
import FontisRemote.Lib.Assoc
import FontisRemote.Lib.Slots

/-!
# The tree that is mounted

`FuseNode::build_tree` of `fuse/cs.rs` turns the peer's list into a vector of nodes. Three numbers stand for
a file: its position in the list, its position in the vector, which has the root in front, and its inode,
which counts from `FUSE_ROOT_ID`. A parent is found by its path among the directories so far, and where
there is none it is the root.

An index that is out of range makes the source panic, as does a subtraction below zero: `none` here.
-/

namespace FontisRemote.Clipboard

open FontisRemote.Lib
open FontisRemote.FileTransfer

def FUSE_ROOT_ID : Nat := 1

structure InodeAttributes where
  inode : Nat
  size : UInt64
  lastModified : Int
  lastMetadataChanged : Int
  creationTime : Int
  kind : FileType
  perm : UInt16
deriving DecidableEq, Repr

structure FuseNode where
  connId : Int
  clipDataId : Int32
  /-- In the peer's list. -/
  index : Nat
  parent : Option Nat
  name : Text
  attributes : InodeAttributes
  children : List Nat
  fileHandlers : List Nat
deriving DecidableEq, Repr

namespace FuseNode

/-- The root has the time at which it was made. -/
def newRoot (now : Int) : FuseNode where
  connId := 0
  clipDataId := 0
  index := 0
  parent := none
  name := ['/']
  attributes := {
    inode := FUSE_ROOT_ID
    size := 0
    lastModified := now
    lastMetadataChanged := now
    creationTime := now
    kind := .directory
    perm := PERM_RWX }
  children := []
  fileHandlers := []

def fromDescription (inode : Nat) (desc : FileDescription) : Option FuseNode :=
  (checkedSub inode 2).map fun index => {
    connId := desc.connId
    clipDataId := desc.clipDataId
    index := index
    parent := none
    name := desc.name
    attributes := {
      inode := inode
      size := desc.size
      lastModified := desc.lastModified
      lastMetadataChanged := desc.lastMetadataChanged
      creationTime := desc.creationTime
      kind := desc.kind
      perm := desc.perm }
    children := []
    fileHandlers := [] }

def addChild (node : FuseNode) (inode : Nat) : FuseNode :=
  { node with children := node.children ++ [inode] }

/-- Without its open handles, which come and go. -/
def closed (node : FuseNode) : FuseNode :=
  { node with fileHandlers := [] }

/-- `tree_list[inode as usize - 1]` -/
def at? (tree : List FuseNode) (inode : Nat) : Option FuseNode :=
  (checkedSub inode 1).bind fun i => tree[i]?

/-- The nodes and the directories by their paths, which are equal when their components are. -/
structure Building where
  treeList : List FuseNode
  subRootMap : List (List Component × Nat)

def Building.start (now : Int) : Building where
  treeList := [newRoot now]
  subRootMap := [([], FUSE_ROOT_ID), ([.rootDir], FUSE_ROOT_ID)]

def Building.parentInode (b : Building) (name : Text) : Nat :=
  match FileTransfer.parent false name with
  | some path => (Assoc.get b.subRootMap path).getD FUSE_ROOT_ID
  | none => FUSE_ROOT_ID

def Building.addFile (b : Building) (file : FileDescription) : Option (Except CliprdrError Building) := do
  let inode := b.treeList.length + FUSE_ROOT_ID
  let parentInode := b.parentInode file.name
  let i ← checkedSub parentInode 1
  let parentNode ← b.treeList[i]?
  let treeList := b.treeList.set i (parentNode.addChild inode)
  match fileName false file.name with
  | none => some (.error (.fileError file.name ("invalid file name " ++ String.ofList file.name)))
  | some baseName =>
    let subRootMap :=
      if file.kind = .directory then Assoc.put b.subRootMap (components false file.name) (some inode)
      else b.subRootMap
    let fuseNode ← fromDescription inode { file with name := baseName }
    some (.ok {
      treeList := treeList ++ [{ fuseNode with parent := some parentInode }]
      subRootMap := subRootMap })

def Building.addFiles (b : Building) : List FileDescription → Option (Except CliprdrError Building)
  | [] => some (.ok b)
  | file :: files => do
    match ← b.addFile file with
    | .error error => some (.error error)
    | .ok b => b.addFiles files

def buildTree (now : Int) (files : List FileDescription) : Option (Except CliprdrError (List FuseNode)) :=
  ((Building.start now).addFiles files).map fun
    | .error error => .error error
    | .ok b => .ok b.treeList

/-- The names from the root down to a node, in so many steps up. -/
def pathOf (tree : List FuseNode) : (steps : Nat) → (inode : Nat) → Option (List Text)
  | 0, inode => (at? tree inode).bind fun node => if node.parent.isNone then some [] else none
  | steps + 1, inode =>
    (at? tree inode).bind fun node =>
      match node.parent with
      | none => some []
      | some parent => (pathOf tree steps parent).map (· ++ [node.name])

/-- Every file's directory is listed before it. -/
def ParentsFirst (files : List FileDescription) : Prop :=
  ∀ (i : Nat) (desc : FileDescription), files[i]? = some desc →
    FileTransfer.parent false desc.name = some [] ∨
    ∃ (j : Nat) (dir : FileDescription), j < i ∧ files[j]? = some dir ∧ dir.kind = .directory ∧
      FileTransfer.parent false desc.name = some (components false dir.name)

/-! ## One file more -/

section Grow

variable {tree : List FuseNode} {p i inode : Nat} {node new : FuseNode}

/-- A node is put at the end, and under its parent. -/
def grow (tree : List FuseNode) (p : Nat) (inode : Nat) (new : FuseNode) : List FuseNode :=
  tree.modify p (·.addChild inode) ++ [new]

theorem length_grow : (grow tree p inode new).length = tree.length + 1 := by
  unfold grow
  rw [List.length_append, List.length_modify]
  rfl

theorem grow_new : (grow tree p inode new)[tree.length]? = some new := by
  unfold grow
  rw [List.getElem?_append_right (by rw [List.length_modify]), List.length_modify, Nat.sub_self]
  rfl

theorem grow_old (h : tree[i]? = some node) :
    (grow tree p inode new)[i]? = some (if p = i then node.addChild inode else node) := by
  have hi : i < tree.length := (List.getElem?_eq_some_iff.mp h).1
  unfold grow
  rw [List.getElem?_append_left (by rw [List.length_modify]; exact hi), List.getElem?_modify, h]
  rfl

theorem grow_cases (h : (grow tree p inode new)[i]? = some node) :
    i = tree.length ∧ node = new ∨
      ∃ old, tree[i]? = some old ∧ node = if p = i then old.addChild inode else old := by
  have hi : i < tree.length + 1 := by
    have hgrown := (List.getElem?_eq_some_iff.mp h).1
    rwa [length_grow] at hgrown
  obtain hlt | rfl := Nat.lt_succ_iff_lt_or_eq.mp hi
  · have hold : tree[i]? = some tree[i] := List.getElem?_eq_getElem hlt
    rw [grow_old hold] at h
    exact .inr ⟨tree[i], hold, (Option.some.inj h).symm⟩
  · rw [grow_new] at h
    exact .inl ⟨rfl, (Option.some.inj h).symm⟩

/-- A new child is all that an old node gets. -/
theorem addChild_frame (c : Prop) [Decidable c] :
    (if c then node.addChild inode else node).parent = node.parent ∧
      (if c then node.addChild inode else node).name = node.name ∧
      (if c then node.addChild inode else node).index = node.index ∧
      (if c then node.addChild inode else node).attributes = node.attributes := by
  split
  · exact ⟨rfl, rfl, rfl, rfl⟩
  · exact ⟨rfl, rfl, rfl, rfl⟩

/-- The inodes of the nodes under one. -/
def childInodes (tree : List FuseNode) (j : Nat) : List Nat :=
  ((List.range tree.length).filter fun i => (tree[i]?).any fun node => node.parent = some (j + 1)).map (· + 1)

theorem childInodes_grow (hparent : new.parent = some (p + 1)) (j : Nat) :
    childInodes (grow tree p inode new) j =
      childInodes tree j ++ if p = j then [tree.length + 1] else [] := by
  have hold : ∀ i ∈ List.range tree.length,
      ((grow tree p inode new)[i]?).any (fun node => node.parent = some (j + 1)) =
        (tree[i]?).any fun node => node.parent = some (j + 1) := by
    intro i hi
    have hlt : i < tree.length := List.mem_range.mp hi
    have hget : tree[i]? = some tree[i] := List.getElem?_eq_getElem hlt
    rw [grow_old hget, hget, Option.any_some, Option.any_some, (addChild_frame _).1]
  have hnew : ((grow tree p inode new)[tree.length]?).any (fun node => node.parent = some (j + 1)) =
      decide (p = j) := by
    rw [grow_new, Option.any_some, hparent]
    simp
  unfold childInodes
  rw [length_grow, List.range_succ, List.filter_append, List.filter_congr hold, List.map_append,
    List.filter_singleton, hnew]
  by_cases hpj : p = j
  · rw [if_pos hpj, decide_eq_true hpj]
    rfl
  · rw [if_neg hpj, decide_eq_false hpj]
    rfl

end Grow

/-! ## The list as a tree -/

/-- What the node of a file has of it. -/
structure Describes (i : Nat) (desc : FileDescription) (node : FuseNode) : Prop where
  index : node.index = i
  connId : node.connId = desc.connId
  clipDataId : node.clipDataId = desc.clipDataId
  attributes : node.attributes = {
    inode := i + 2
    size := desc.size
    lastModified := desc.lastModified
    lastMetadataChanged := desc.lastMetadataChanged
    creationTime := desc.creationTime
    kind := desc.kind
    perm := desc.perm }
  name : (pieces desc.name).getLast? = some node.name

/-- The nodes are the root and one for each file, in order, each under an earlier directory that has it
among its children. -/
structure IsTree (files : List FileDescription) (tree : List FuseNode) : Prop where
  length : tree.length = files.length + 1
  root : ∃ root, tree[0]? = some root ∧ root.parent = none ∧ root.attributes.inode = FUSE_ROOT_ID ∧
    root.attributes.kind = .directory
  node : ∀ i desc, files[i]? = some desc → ∃ node, tree[i + 1]? = some node ∧ Describes i desc node
  parent : ∀ i node, tree[i + 1]? = some node → ∃ p parent, node.parent = some (p + 1) ∧ p ≤ i ∧
    tree[p]? = some parent ∧ parent.attributes.kind = .directory
  children : ∀ j node, tree[j]? = some node → node.children = childInodes tree j

/-- What the map leads to are directories. -/
def ToDirectories (b : Building) : Prop :=
  ∀ key inode, Assoc.get b.subRootMap key = some inode →
    ∃ p node, inode = p + 1 ∧ b.treeList[p]? = some node ∧ node.attributes.kind = .directory

theorem childInodes_length {files : List FileDescription} {tree : List FuseNode} (h : IsTree files tree) :
    childInodes tree tree.length = [] := by
  unfold childInodes
  rw [List.map_eq_nil_iff, List.filter_eq_nil_iff]
  intro i hi hany
  have hlt : i < tree.length := List.mem_range.mp hi
  obtain ⟨node, hnode, hparent⟩ := (Option.any_eq_true _ _).mp hany
  have hparent : node.parent = some (tree.length + 1) := of_decide_eq_true hparent
  cases i with
  | zero =>
    obtain ⟨root, hroot, hnone, -⟩ := h.root
    rw [hroot] at hnode
    obtain rfl := Option.some.inj hnode
    rw [hnone] at hparent
    cases hparent
  | succ i =>
    obtain ⟨p, parent, hp, hle, -⟩ := h.parent i node hnode
    rw [hparent] at hp
    have := Option.some.inj hp
    omega

/-- A file is added under a directory there is. -/
theorem IsTree.grow {files : List FileDescription} {tree : List FuseNode} {file : FileDescription} {p : Nat}
    {parentNode new : FuseNode} (h : IsTree files tree) (hp : tree[p]? = some parentNode)
    (hkind : parentNode.attributes.kind = .directory) (hparent : new.parent = some (p + 1))
    (hchildren : new.children = []) (hnew : Describes files.length file new) :
    IsTree (files ++ [file]) (grow tree p (tree.length + 1) new) := by
  have hplt : p < tree.length := (List.getElem?_eq_some_iff.mp hp).1
  refine ⟨?_, ?_, fun i desc hdesc => ?_, fun i node hnode => ?_, fun j node hnode => ?_⟩
  · rw [length_grow, h.length, List.length_append]
    rfl
  · obtain ⟨root, hroot, hnone, hinode, hdir⟩ := h.root
    have hframe : (if p = 0 then root.addChild (tree.length + 1) else root).parent = root.parent ∧
        _ ∧ _ ∧ (if p = 0 then root.addChild (tree.length + 1) else root).attributes = root.attributes :=
      addChild_frame (p = 0)
    obtain ⟨hparent', -, -, hattributes⟩ := hframe
    refine ⟨_, grow_old hroot, hparent'.trans hnone, ?_, ?_⟩
    · rw [hattributes]
      exact hinode
    · rw [hattributes]
      exact hdir
  · by_cases hi : i < files.length
    · rw [List.getElem?_append_left hi] at hdesc
      obtain ⟨node, hnode, hdescribes⟩ := h.node i desc hdesc
      refine ⟨_, grow_old hnode, ?_⟩
      split
      · exact ⟨hdescribes.index, hdescribes.connId, hdescribes.clipDataId, hdescribes.attributes,
          hdescribes.name⟩
      · exact hdescribes
    · have hlast : i = files.length := by
        have := (List.getElem?_eq_some_iff.mp hdesc).1
        rw [List.length_append, List.length_singleton] at this
        omega
      subst hlast
      rw [List.getElem?_append_right (Nat.le_refl _), Nat.sub_self] at hdesc
      obtain rfl := Option.some.inj hdesc
      refine ⟨new, ?_, hnew⟩
      rw [← h.length]
      exact grow_new
  · have hkept : ∀ (q : Nat) (parent : FuseNode), tree[q]? = some parent →
        parent.attributes.kind = .directory → ∃ parent' : FuseNode,
          (FuseNode.grow tree p (tree.length + 1) new)[q]? = some parent' ∧
          parent'.attributes.kind = .directory := by
      intro q parent hq hdir
      refine ⟨_, grow_old hq, ?_⟩
      rw [(addChild_frame _).2.2.2]
      exact hdir
    obtain ⟨hlast, rfl⟩ | ⟨old, hold, rfl⟩ := grow_cases hnode
    · obtain ⟨parent', hget, hdir⟩ := hkept p parentNode hp hkind
      exact ⟨p, parent', hparent, by omega, hget, hdir⟩
    · obtain ⟨q, parent, hq, hle, hget, hdir⟩ := h.parent i old hold
      obtain ⟨parent', hget', hdir'⟩ := hkept q parent hget hdir
      exact ⟨q, parent', (addChild_frame _).1.trans hq, hle, hget', hdir'⟩
  · rw [childInodes_grow hparent]
    obtain ⟨rfl, rfl⟩ | ⟨old, hold, rfl⟩ := grow_cases hnode
    · rw [childInodes_length h, if_neg (by omega), hchildren]
      rfl
    · rw [← h.children j old hold]
      split
      · rfl
      · rw [List.append_nil]

/-! ## Every list -/

section Names

variable {name : Text} (h : validateFileName name = .ok ())

include h

theorem parent_of_valid :
    FileTransfer.parent false name = some ((pieces name).dropLast.map .normal) := by
  have hseg := List.getLast?_eq_some_getLast (pieces_ne_nil name)
  unfold FileTransfer.parent
  rw [components_of_valid h, List.getLast?_map, hseg, List.map_dropLast]
  rfl

theorem fileName_of_valid : fileName false name = (pieces name).getLast? := by
  have hseg := List.getLast?_eq_some_getLast (pieces_ne_nil name)
  unfold fileName
  rw [components_of_valid h, List.getLast?_map, hseg]
  rfl

end Names

section Building

variable {b : Building} {files : List FileDescription} {file : FileDescription}

/-- The file found its parent: under it, the file's node is put at the end. -/
structure Added (b : Building) (files : List FileDescription) (file : FileDescription) (p : Nat)
    (parentNode new : FuseNode) : Prop where
  inode : b.parentInode file.name = p + 1
  found : b.treeList[p]? = some parentNode
  kind : parentNode.attributes.kind = .directory
  parent : new.parent = some (p + 1)
  children : new.children = []
  describes : Describes files.length file new
  adds : b.addFile file = some (.ok {
    treeList := grow b.treeList p (b.treeList.length + 1) new
    subRootMap :=
      if file.kind = .directory then
        Assoc.put b.subRootMap (components false file.name) (some (b.treeList.length + 1))
      else b.subRootMap })

theorem parentInode_directory (h : IsTree files b.treeList) (hdirs : ToDirectories b) (name : Text) :
    ∃ p node, b.parentInode name = p + 1 ∧ b.treeList[p]? = some node ∧
      node.attributes.kind = .directory := by
  obtain ⟨root, hroot, -, -, hkind⟩ := h.root
  unfold Building.parentInode
  split
  · rename_i path _
    cases hget : Assoc.get b.subRootMap path with
    | none => exact ⟨0, root, rfl, hroot, hkind⟩
    | some inode => exact hdirs path inode hget
  · exact ⟨0, root, rfl, hroot, hkind⟩

theorem addFile_spec (h : IsTree files b.treeList) (hdirs : ToDirectories b)
    (hvalid : validateFileName file.name = .ok ()) :
    ∃ p parentNode new, Added b files file p parentNode new := by
  obtain ⟨p, parentNode, hinode, hget, hkind⟩ := parentInode_directory h hdirs file.name
  obtain ⟨base, hbase⟩ : ∃ base, (pieces file.name).getLast? = some base :=
    ⟨_, List.getLast?_eq_some_getLast (pieces_ne_nil file.name)⟩
  have hset : b.treeList.set p (parentNode.addChild (b.treeList.length + 1)) =
      b.treeList.modify p (·.addChild (b.treeList.length + 1)) := by
    refine List.ext_getElem? fun i => ?_
    rw [List.getElem?_set, List.getElem?_modify]
    split
    · rename_i hi
      rw [← hi, hget, if_pos (List.getElem?_eq_some_iff.mp hget).1]
      rfl
    · simp
  obtain ⟨fuseNode, hfuse⟩ : ∃ fuseNode, fromDescription (b.treeList.length + 1) { file with name := base } =
      some fuseNode := by
    unfold fromDescription
    rw [checkedSub_of_le (by have := h.length; omega)]
    exact ⟨_, rfl⟩
  have hfields : fuseNode.children = [] ∧
      Describes files.length file { fuseNode with parent := some (p + 1) } := by
    unfold fromDescription at hfuse
    rw [checkedSub_of_le (by have := h.length; omega)] at hfuse
    obtain rfl := Option.some.inj hfuse
    refine ⟨rfl, ⟨?_, rfl, rfl, ?_, hbase⟩⟩
    · dsimp only
      have := h.length
      omega
    · dsimp only
      rw [h.length]
  refine ⟨p, parentNode, { fuseNode with parent := some (p + 1) }, hinode, hget, hkind, rfl, hfields.1,
    hfields.2, ?_⟩
  unfold Building.addFile
  dsimp only
  rw [hinode, checkedSub_of_le (Nat.le_add_left 1 p), some_bind, Nat.add_sub_cancel, hget, some_bind,
    fileName_of_valid hvalid, hbase]
  dsimp only
  rw [show b.treeList.length + FUSE_ROOT_ID = b.treeList.length + 1 from rfl, hfuse, some_bind, hset]
  rfl

theorem Added.toDirectories {p : Nat} {parentNode new : FuseNode} (h : IsTree files b.treeList)
    (hdirs : ToDirectories b) (hadded : Added b files file p parentNode new) :
    ∃ b', b.addFile file = some (.ok b') ∧ IsTree (files ++ [file]) b'.treeList ∧ ToDirectories b' := by
  refine ⟨_, hadded.adds,
    h.grow hadded.found hadded.kind hadded.parent hadded.children hadded.describes, fun key inode hkey => ?_⟩
  have hkept : ∀ inode, Assoc.get b.subRootMap key = some inode → ∃ q node, inode = q + 1 ∧
      (grow b.treeList p (b.treeList.length + 1) new)[q]? = some node ∧
        node.attributes.kind = .directory := by
    intro inode hget
    obtain ⟨q, node, hq, hnode, hkind⟩ := hdirs key inode hget
    refine ⟨q, _, hq, grow_old hnode, ?_⟩
    rw [(addChild_frame _).2.2.2]
    exact hkind
  dsimp only at hkey ⊢
  split at hkey
  · rename_i hdirectory
    rw [Assoc.get_put] at hkey
    split at hkey
    · obtain rfl := Option.some.inj hkey
      refine ⟨b.treeList.length, new, rfl, grow_new, ?_⟩
      rw [hadded.describes.attributes]
      exact hdirectory
    · exact hkept inode hkey
  · exact hkept inode hkey

end Building

/-! ## Paths -/

section Paths

variable {tree : List FuseNode} {files : List FileDescription} {p inode steps : Nat} {node new : FuseNode}
  {names : List Text}

theorem at?_succ (i : Nat) : at? tree (i + 1) = tree[i]? := by
  unfold at?
  rw [checkedSub_of_le (Nat.le_add_left 1 i), Option.bind_some, Nat.add_sub_cancel]

theorem at?_grow (h : at? tree inode = some node) (c : Nat) :
    ∃ node', at? (grow tree p c new) inode = some node' ∧ node'.parent = node.parent ∧ node'.name = node.name := by
  obtain ⟨i, hi, hget⟩ := Option.bind_eq_some_iff.mp h
  refine ⟨_, Option.bind_eq_some_iff.mpr ⟨i, hi, grow_old hget⟩, ?_, ?_⟩
  · exact (addChild_frame _).1
  · exact (addChild_frame _).2.1

/-- Nodes that are added later change no path. -/
theorem pathOf_grow (h : pathOf tree steps inode = some names) (c : Nat) :
    pathOf (grow tree p c new) steps inode = some names := by
  induction steps generalizing inode names with
  | zero =>
    obtain ⟨node, hnode, hroot⟩ := Option.bind_eq_some_iff.mp h
    obtain ⟨node', hnode', hparent, -⟩ := at?_grow hnode c
    refine Option.bind_eq_some_iff.mpr ⟨node', hnode', ?_⟩
    rw [hparent]
    exact hroot
  | succ steps ih =>
    obtain ⟨node, hnode, hpath⟩ := Option.bind_eq_some_iff.mp h
    obtain ⟨node', hnode', hparent, hname⟩ := at?_grow hnode c
    refine Option.bind_eq_some_iff.mpr ⟨node', hnode', ?_⟩
    rw [hparent, hname]
    cases hup : node.parent with
    | none =>
      rw [hup] at hpath
      exact hpath
    | some parent =>
      rw [hup] at hpath
      obtain ⟨above, habove, rfl⟩ := Option.map_eq_some_iff.mp hpath
      dsimp only
      rw [ih habove]
      rfl

/-- From every node the root is reached. -/
theorem IsTree.reaches_root (h : IsTree files tree) {i : Nat} (hi : i < tree.length) (hsteps : i ≤ steps) :
    ∃ names, pathOf tree steps (i + 1) = some names := by
  induction steps generalizing i with
  | zero =>
    obtain rfl := Nat.le_zero.mp hsteps
    obtain ⟨root, hroot, hnone, -⟩ := h.root
    refine ⟨[], ?_⟩
    unfold pathOf
    rw [at?_succ, hroot, Option.bind_some, hnone]
    rfl
  | succ steps ih =>
    unfold pathOf
    cases i with
    | zero =>
      obtain ⟨root, hroot, hnone, -⟩ := h.root
      refine ⟨[], ?_⟩
      rw [at?_succ, hroot, Option.bind_some, hnone]
    | succ i =>
      have hget : tree[i + 1]? = some tree[i + 1] := List.getElem?_eq_getElem hi
      obtain ⟨p, parent, hparent, hle, hp, -⟩ := h.parent i _ hget
      obtain ⟨above, habove⟩ := ih (List.getElem?_eq_some_iff.mp hp).1 (by omega)
      refine ⟨above ++ [tree[i + 1].name], ?_⟩
      rw [at?_succ, hget, Option.bind_some, hparent]
      dsimp only
      rw [habove]
      rfl

/-- With the directories first, the paths are the names. -/
structure Named (files : List FileDescription) (b : Building) : Prop where
  path : ∀ key inode, Assoc.get b.subRootMap key = some inode → key = [.rootDir] ∨
    ∃ names, key = names.map .normal ∧
      ∀ steps, inode ≤ steps + 1 → pathOf b.treeList steps inode = some names
  top : (Assoc.get b.subRootMap []).isSome = true
  listed : ∀ dir ∈ files, dir.kind = .directory →
    (Assoc.get b.subRootMap (components false dir.name)).isSome = true
  node : ∀ i desc, files[i]? = some desc →
    ∀ steps, i + 1 ≤ steps → pathOf b.treeList steps (i + 2) = some (pieces desc.name)

variable {b : Building} {file : FileDescription} {parentNode : FuseNode}

/-- The path of the parent of a file whose directory is there. -/
theorem Named.above (hnamed : Named files b) (hadded : Added b files file p parentNode new)
    (hvalid : validateFileName file.name = .ok ())
    (hfirst : FileTransfer.parent false file.name = some [] ∨ ∃ dir ∈ files, dir.kind = .directory ∧
      FileTransfer.parent false file.name = some (components false dir.name)) (hsteps : p ≤ steps) :
    pathOf b.treeList steps (p + 1) = some (pieces file.name).dropLast := by
  have hparent := parent_of_valid hvalid
  have hthere : (Assoc.get b.subRootMap ((pieces file.name).dropLast.map .normal)).isSome = true := by
    obtain hroot | ⟨dir, hdir, hkind, hpath⟩ := hfirst
    · rw [hparent] at hroot
      rw [Option.some.inj hroot]
      exact hnamed.top
    · rw [hparent] at hpath
      rw [Option.some.inj hpath]
      exact hnamed.listed dir hdir hkind
  obtain ⟨inode, hget⟩ := Option.isSome_iff_exists.mp hthere
  have hinode : inode = p + 1 := by
    have hfound := hadded.inode
    unfold Building.parentInode at hfound
    rw [hparent] at hfound
    dsimp only at hfound
    rw [hget] at hfound
    exact hfound
  subst hinode
  obtain hroot | ⟨names, hnames, hpath⟩ := hnamed.path _ _ hget
  · cases hsegs : (pieces file.name).dropLast with
    | nil =>
      rw [hsegs] at hroot
      cases hroot
    | cons seg segs =>
      rw [hsegs] at hroot
      have := (List.cons.inj hroot).1
      cases this
  · have hinj : Function.Injective Component.normal := fun a b hab => Component.normal.inj hab
    rw [hpath steps (by omega), List.map_injective_iff.mpr hinj hnames]

theorem Named.add (h : IsTree files b.treeList) (hnamed : Named files b)
    (hadded : Added b files file p parentNode new) (hvalid : validateFileName file.name = .ok ())
    (hfirst : FileTransfer.parent false file.name = some [] ∨ ∃ dir ∈ files, dir.kind = .directory ∧
      FileTransfer.parent false file.name = some (components false dir.name)) :
    ∀ b', b.addFile file = some (.ok b') → Named (files ++ [file]) b' := by
  intro b' hb'
  rw [hadded.adds] at hb'
  obtain rfl := Except.ok.inj (Option.some.inj hb')
  have hplt : p < b.treeList.length := (List.getElem?_eq_some_iff.mp hadded.found).1
  have hself : ∀ steps, b.treeList.length ≤ steps →
      pathOf (grow b.treeList p (b.treeList.length + 1) new) steps (b.treeList.length + 1) =
        some (pieces file.name) := by
    intro steps hsteps
    obtain ⟨steps, rfl⟩ : ∃ n, steps = n + 1 := Nat.exists_eq_add_one.mpr (by omega)
    unfold pathOf
    rw [at?_succ, grow_new, Option.bind_some, hadded.parent]
    dsimp only
    rw [pathOf_grow (hnamed.above hadded hvalid hfirst (by omega)), Option.map_some,
      List.dropLast_append_getLast? _ hadded.describes.name]
  refine ⟨fun key inode hkey => ?_, ?_, fun dir hdir hkind => ?_, fun i desc hdesc steps hsteps => ?_⟩
  · have hkept : ∀ inode, Assoc.get b.subRootMap key = some inode → key = [.rootDir] ∨
        ∃ names, key = names.map .normal ∧ ∀ steps, inode ≤ steps + 1 →
          pathOf (grow b.treeList p (b.treeList.length + 1) new) steps inode = some names := by
      intro inode hget
      obtain hroot | ⟨names, hnames, hpath⟩ := hnamed.path key inode hget
      · exact .inl hroot
      · exact .inr ⟨names, hnames, fun steps hsteps => pathOf_grow (hpath steps hsteps) _⟩
    dsimp only at hkey ⊢
    split at hkey
    · rw [Assoc.get_put] at hkey
      split at hkey
      · rename_i hsame
        obtain rfl := Option.some.inj hkey
        refine .inr ⟨pieces file.name, ?_, fun steps hsteps => hself steps (by omega)⟩
        rw [hsame, components_of_valid hvalid]
      · exact hkept inode hkey
    · exact hkept inode hkey
  · dsimp only
    split
    · rw [Assoc.get_put]
      split
      · rfl
      · exact hnamed.top
    · exact hnamed.top
  · dsimp only
    obtain hold | hnew := List.mem_append.mp hdir
    · split
      · rw [Assoc.get_put]
        split
        · rfl
        · exact hnamed.listed dir hold hkind
      · exact hnamed.listed dir hold hkind
    · obtain rfl := List.mem_singleton.mp hnew
      rw [if_pos hkind, Assoc.get_put, if_pos rfl]
      rfl
  · by_cases hi : i < files.length
    · rw [List.getElem?_append_left hi] at hdesc
      exact pathOf_grow (hnamed.node i desc hdesc steps hsteps) _
    · have hlast : i = files.length := by
        have := (List.getElem?_eq_some_iff.mp hdesc).1
        rw [List.length_append, List.length_singleton] at this
        omega
      subst hlast
      rw [List.getElem?_append_right (Nat.le_refl _), Nat.sub_self] at hdesc
      obtain rfl := Option.some.inj hdesc
      have hlen := h.length
      have hpath := hself steps (by omega)
      rw [hlen] at hpath
      rw [hlen]
      exact hpath

end Paths

/-! ## The whole list -/

section Lists

variable {files more : List FileDescription} {tree : List FuseNode} {b : Building}

theorem addFiles_spec (h : IsTree files b.treeList) (hdirs : ToDirectories b)
    (hvalid : ∀ desc ∈ more, validateFileName desc.name = .ok ()) :
    ∃ b', b.addFiles more = some (.ok b') ∧ IsTree (files ++ more) b'.treeList ∧
      (ParentsFirst (files ++ more) → Named files b → Named (files ++ more) b') := by
  induction more generalizing files b with
  | nil =>
    rw [List.append_nil]
    exact ⟨b, rfl, h, fun _ hnamed => hnamed⟩
  | cons file more ih =>
    have hfile := hvalid file (List.mem_cons_self ..)
    obtain ⟨p, parentNode, new, hadded⟩ := addFile_spec h hdirs hfile
    obtain ⟨b₁, hb₁, htree, hdirs₁⟩ := hadded.toDirectories h hdirs
    obtain ⟨b', hb', htree', hnamed'⟩ := ih htree hdirs₁ fun desc hdesc =>
      hvalid desc (List.mem_cons_of_mem _ hdesc)
    have hsplit : files ++ [file] ++ more = files ++ file :: more := by simp
    rw [hsplit] at htree' hnamed'
    refine ⟨b', ?_, htree', fun hfirst hnamed => hnamed' hfirst ?_⟩
    · unfold Building.addFiles
      rw [hb₁, some_bind]
      exact hb'
    · refine hnamed.add h hadded hfile ?_ b₁ hb₁
      have hget : (files ++ file :: more)[files.length]? = some file := by
        rw [List.getElem?_append_right (Nat.le_refl _), Nat.sub_self]
        rfl
      obtain hroot | ⟨j, dir, hj, hdir, hkind, hpath⟩ := hfirst _ _ hget
      · exact .inl hroot
      · rw [List.getElem?_append_left hj] at hdir
        exact .inr ⟨dir, List.mem_of_getElem? hdir, hkind, hpath⟩

theorem isTree_start (now : Int) : IsTree [] (Building.start now).treeList := by
  refine ⟨rfl, ⟨newRoot now, rfl, rfl, rfl, rfl⟩, fun i desc hdesc => ?_, fun i node hnode => ?_,
    fun j node hnode => ?_⟩
  · cases hdesc
  · cases hnode
  · cases j with
    | zero =>
      obtain rfl := Option.some.inj hnode
      rfl
    | succ j => cases hnode

theorem start_cases {now : Int} {key : List Component} {inode : Nat}
    (h : Assoc.get (Building.start now).subRootMap key = some inode) :
    inode = FUSE_ROOT_ID ∧ (key = [] ∨ key = [.rootDir]) := by
  dsimp only [Building.start, Assoc.get] at h
  split at h
  · rename_i hkey
    exact ⟨(Option.some.inj h).symm, .inl hkey.symm⟩
  · split at h
    · rename_i hkey
      exact ⟨(Option.some.inj h).symm, .inr hkey.symm⟩
    · cases h

theorem toDirectories_start (now : Int) : ToDirectories (Building.start now) := by
  intro key inode hkey
  obtain ⟨rfl, -⟩ := start_cases hkey
  exact ⟨0, newRoot now, rfl, rfl, rfl⟩

theorem named_start (now : Int) : Named [] (Building.start now) := by
  refine ⟨fun key inode hkey => ?_, rfl, by simp, fun i desc hdesc => by cases hdesc⟩
  obtain ⟨rfl, rfl | hroot⟩ := start_cases hkey
  · refine .inr ⟨[], rfl, fun steps _ => ?_⟩
    cases steps <;> rfl
  · exact .inl hroot

/-- What is accepted is built. -/
theorem buildTree_spec (now : Int) (hvalid : ∀ desc ∈ files, validateFileName desc.name = .ok ()) :
    ∃ tree, buildTree now files = some (.ok tree) ∧ IsTree files tree ∧
      (ParentsFirst files → ∀ i desc, files[i]? = some desc →
        pathOf tree (i + 1) (i + 2) = some (pieces desc.name)) := by
  obtain ⟨b', hb', htree, hnamed⟩ := addFiles_spec (isTree_start now) (toDirectories_start now) hvalid
  rw [List.nil_append] at htree hnamed
  refine ⟨b'.treeList, ?_, htree, fun hfirst i desc hdesc => ?_⟩
  · unfold buildTree
    rw [hb']
    rfl
  · exact (hnamed hfirst (named_start now)).node i desc hdesc _ (Nat.le_refl _)

/-- A node is a child of its parent, once, and of no other. -/
theorem IsTree.count_children (h : IsTree files tree) {i j : Nat} {node other : FuseNode}
    (hnode : tree[i + 1]? = some node) (hother : tree[j]? = some other) :
    other.children.count (i + 2) = if node.parent = some (j + 1) then 1 else 0 := by
  have hlt : i + 1 < tree.length := (List.getElem?_eq_some_iff.mp hnode).1
  rw [h.children j other hother]
  have hnodup : (childInodes tree j).Nodup :=
    List.Nodup.map (fun a b hab => Nat.succ.inj hab) (List.nodup_range.filter _)
  have hmem : i + 2 ∈ childInodes tree j ↔ node.parent = some (j + 1) := by
    unfold childInodes
    constructor
    · intro hmem
      obtain ⟨k, hk, hki⟩ := List.mem_map.mp hmem
      obtain rfl : k = i + 1 := by omega
      have hany := (List.mem_filter.mp hk).2
      rw [hnode, Option.any_some] at hany
      exact of_decide_eq_true hany
    · intro hparent
      refine List.mem_map.mpr ⟨i + 1, List.mem_filter.mpr ⟨List.mem_range.mpr hlt, ?_⟩, rfl⟩
      rw [hnode, Option.any_some]
      exact decide_eq_true hparent
  split
  · rename_i hparent
    exact List.count_eq_one_of_mem hnodup (hmem.mpr hparent)
  · rename_i hparent
    exact List.count_eq_zero.mpr fun hin => hparent (hmem.mp hin)

theorem IsTree.child (h : IsTree files tree) {j inode : Nat} {other : FuseNode}
    (hother : tree[j]? = some other) (hchild : inode ∈ other.children) : 2 ≤ inode ∧ inode ≤ tree.length := by
  rw [h.children j other hother] at hchild
  obtain ⟨i, hi, rfl⟩ := List.mem_map.mp hchild
  obtain ⟨hlt, hany⟩ := List.mem_filter.mp hi
  have hlt : i < tree.length := List.mem_range.mp hlt
  cases i with
  | zero =>
    -- the root is nobody's child
    obtain ⟨root, hroot, hnone, -⟩ := h.root
    rw [hroot, Option.any_some, hnone] at hany
    cases of_decide_eq_true hany
  | succ i => omega

theorem IsTree.inode (h : IsTree files tree) {i : Nat} {node : FuseNode} (hnode : tree[i]? = some node) :
    node.attributes.inode = i + 1 := by
  cases i with
  | zero =>
    obtain ⟨root, hroot, -, hinode, -⟩ := h.root
    rw [hroot] at hnode
    obtain rfl := Option.some.inj hnode
    exact hinode
  | succ i =>
    have hlt : i < files.length := by
      have := (List.getElem?_eq_some_iff.mp hnode).1
      have := h.length
      omega
    obtain ⟨node', hnode', hdescribes⟩ := h.node i files[i] (List.getElem?_eq_getElem hlt)
    rw [hnode] at hnode'
    obtain rfl := Option.some.inj hnode'
    rw [hdescribes.attributes]

end Lists

end FuseNode

end FontisRemote.Clipboard
