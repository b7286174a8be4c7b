import FontisRemote.Clipboard.Mount
import FontisRemote.Clipboard.ServFiles

/-!
# Open files of the mount

The calls of the kernel on the handles of `FuseServer`, and the loop in which a read waits for its bytes. A read
sends its request under a random stream id and takes the replies of every peer as they come: those under another id
are passed over, those that report a failure have it send the request again, a few times.

A node keeps its handles sorted, so that the source can search them by halving.
-/

namespace FontisRemote.Clipboard

open FontisRemote.Lib
open FontisRemote.FileTransfer (Text)

def READ_RETRY : Nat := 3

/-- A number as `i32`, with the same bits. -/
def asI32 (n : Int) : Int := n.bmod (2 ^ 32)

/-- `ClipboardFile::FileContentsRequest` -/
structure ContentsRequest where
  streamId : Int
  listIndex : Int
  dwFlags : Int
  nPositionLow : Int
  nPositionHigh : Int
  cbRequested : Int
  haveClipDataId : Bool
  clipDataId : Int32
deriving DecidableEq, Repr

/-- A range of the file at an index of a list. -/
def contentsRequest (index : Nat) (clipDataId : Int32) (offset : Int) (size : Nat) (streamId : Int) :
    ContentsRequest where
  streamId := streamId
  listIndex := asI32 index
  dwFlags := 2
  nPositionLow := asI32 (offset % 2 ^ 32)
  nPositionHigh := asI32 (offset / 2 ^ 32)
  cbRequested := asI32 size
  haveClipDataId := true
  clipDataId := clipDataId

/-- `ClipboardFile::FileContentsResponse` -/
structure ContentsResponse where
  msgFlags : Nat
  streamId : Int
  requestedData : List UInt8
deriving DecidableEq, Repr

/-- What the kernel is told. `EBUSY` is never: no code marks an entry for collection. -/
inductive ReadErrno
  | ENOENT
  | ENOTDIR
  | ENFILE
  | EBADF
  | EIO
deriving DecidableEq, Repr

namespace FuseNode

variable (node : FuseNode)

def haveHandler (fh : Nat) : Bool := node.fileHandlers.contains fh

def addHandler (fh : Nat) : FuseNode := { node with fileHandlers := node.fileHandlers ++ [fh] }

def unregisterHandler (fh : Nat) : FuseNode := { node with fileHandlers := node.fileHandlers.filter (· ≠ fh) }

end FuseNode

/-- A server, with the counter of its handles. -/
structure OpenServer where
  server : FuseServer := {}
  fileHandleCounter : Nat := 0

namespace OpenServer

variable (s : OpenServer)

/-- Where an inode is in the vector. -/
def slot (ino : Nat) : Nat := (ino + (2 ^ 64 - 1)) % 2 ^ 64

def setEntry (ino : Nat) (node : FuseNode) : OpenServer :=
  { s with server := { s.server with files := s.server.files.set (slot ino) node } }

/-- A handle for an entry of this kind. -/
def openKind (kind : FileType) (wrong : ReadErrno) (ino : Nat) : Except ReadErrno Nat × OpenServer :=
  match s.server.entry ino with
  | none => (.error .ENOENT, s)
  | some entry =>
    if entry.attributes.kind ≠ kind then (.error wrong, s)
    else
      let fh := s.fileHandleCounter
      (.ok fh, { s.setEntry ino (entry.addHandler fh) with fileHandleCounter := fh + 1 })

def opendir (ino : Nat) : Except ReadErrno Nat × OpenServer := s.openKind .directory .ENOTDIR ino

def openFile (ino : Nat) : Except ReadErrno Nat × OpenServer := s.openKind .file .ENFILE ino

def release (ino fh : Nat) : Except ReadErrno Unit × OpenServer :=
  match s.server.entry ino with
  | none => (.error .ENOENT, s)
  | some entry =>
    if !entry.haveHandler fh then (.error .EBADF, s)
    else (.ok (), s.setEntry ino (entry.unregisterHandler fh))

def releasedir (ino fh : Nat) : Except ReadErrno Unit × OpenServer :=
  match s.server.entry ino with
  | none => (.error .ENOENT, s)
  | some entry =>
    if entry.attributes.kind ≠ .directory then (.error .ENOTDIR, s)
    else s.release ino fh

/-- The entry a read is of. -/
def readable (ino fh : Nat) : Except ReadErrno FuseNode :=
  match s.server.entry ino with
  | none => .error .ENOENT
  | some entry =>
    if !entry.haveHandler fh then .error .EBADF
    else if entry.attributes.kind ≠ .file then .error .ENFILE
    else .ok entry

/-- Without a list there is the root, from the first call of the kernel on. -/
def init (now : Int) : OpenServer :=
  if s.server.files = [] then { s with server := { s.server with files := [FuseNode.newRoot now] } } else s

/-- The nodes are others, and no handle is open on them. -/
def loadFileList (now : Int) (files : List FileDescription) : Option (Except CliprdrError OpenServer) :=
  (FuseNode.buildTree now files).map fun
    | .error error => .error error
    | .ok tree => .ok { s with server := { generation := s.server.generation + 1, files := tree } }

end OpenServer

/-- A list that was loaded, and the tree it was built into. -/
structure Mount where
  connId : Int
  pdu : List UInt8
  tree : List FuseNode

/-- A handle that was given out, with the node in the vector and the list that was loaded then. -/
structure Opened where
  fh : Nat
  slot : Nat
  mount : Option Mount

/-- `FuseContext` -/
structure FuseContext where
  fs : OpenServer := {}
  connId : Int := 0
  mounted : Option Mount := none
  opened : List Opened := []

inductive FuseContext.Event
  | init (now : Int)
  /-- `format_data_response_to_urls` -/
  | load (formatData : List UInt8) (connId now : Int)
  /-- `empty_local_files` -/
  | empty (connId now : Int)
  | opendir (ino : Nat)
  | openFile (ino : Nat)
  | release (ino fh : Nat)
  | releasedir (ino fh : Nat)

namespace FuseContext

variable (c : FuseContext)

/-- A handle that was given out, or not. -/
def withOpened (ino : Nat) : Except ReadErrno Nat × OpenServer → FuseContext
  | (.ok fh, fs) => { c with fs := fs, opened := ⟨fh, OpenServer.slot ino, c.mounted⟩ :: c.opened }
  | (.error _, fs) => { c with fs := fs }

def step : Event → Option FuseContext
  | .init now => some { c with fs := c.fs.init now }
  | .load formatData connId now =>
    match parseFileDescriptors formatData connId with
    | .error _ => some c
    | .ok files => (c.fs.loadFileList now files).map fun
      | .error _ => c
      | .ok fs => { c with fs := fs, connId := connId, mounted := some ⟨connId, formatData, fs.server.files⟩ }
  | .empty connId now =>
    if connId ≠ 0 ∧ c.connId ≠ connId then some c
    else (c.fs.loadFileList now []).map fun
      | .error _ => c
      | .ok fs => { c with fs := fs, mounted := none }
  | .opendir ino => some (c.withOpened ino (c.fs.opendir ino))
  | .openFile ino => some (c.withOpened ino (c.fs.openFile ino))
  | .release ino fh => some { c with fs := (c.fs.release ino fh).2 }
  | .releasedir ino fh => some { c with fs := (c.fs.releasedir ino fh).2 }

end FuseContext

/-- A read that waits for its bytes. -/
structure Reading where
  ino : Nat
  fh : Nat
  offset : Int
  size : Nat
  connId : Int
  request : ContentsRequest
  retryTimes : Nat := 0

/-- What a reply does to a read. -/
inductive Turn
  | waiting
  /-- The request is sent again. -/
  | again (reading : Reading)
  | failed
  | data (bytes : List UInt8)

def Reading.take (r : Reading) (reply : ContentsResponse) (sendOk : Bool) : Turn :=
  if reply.streamId ≠ r.request.streamId then .waiting
  else if reply.msgFlags &&& 1 = 0 then
    if READ_RETRY < r.retryTimes + 1 then .failed
    else if sendOk then .again { r with retryTimes := r.retryTimes + 1 }
    else .failed
  else .data reply.requestedData

namespace Reading

variable {r r' : Reading} {reply : ContentsResponse} {sendOk : Bool} {bytes : List UInt8}

theorem take_again (h : r.take reply sendOk = .again r') : r' = { r with retryTimes := r.retryTimes + 1 } := by
  unfold take at h
  split at h
  · cases h
  · split at h
    · split at h
      · cases h
      · split at h
        · cases h
          rfl
        · cases h
    · cases h

/-- The bytes come with a reply on the stream that reports no failure. -/
theorem take_data (h : r.take reply sendOk = .data bytes) :
    reply.streamId = r.request.streamId ∧ reply.msgFlags &&& 1 ≠ 0 ∧ bytes = reply.requestedData := by
  unfold take at h
  split at h
  · cases h
  · rename_i hstream
    split at h
    · split at h
      · cases h
      · split at h <;> cases h
    · rename_i hflag
      cases h
      exact ⟨not_not.1 hstream, hflag, rfl⟩

end Reading

/-! ## What a handle is of -/

/-- What was loaded came from the PDU. -/
def Mount.Loaded (m : Mount) : Prop :=
  ∃ now files, parseFileDescriptors m.pdu m.connId = .ok files ∧ FuseNode.buildTree now files = some (.ok m.tree)

namespace FuseContext

variable {c c' : FuseContext}

/-- A handle is on the node it was given out for, of the list that is loaded. -/
structure Sound (c : FuseContext) : Prop where
  bare : c.mounted = none → ∀ node ∈ c.fs.server.files, node.attributes.kind = .directory
  mounted : ∀ m, c.mounted = some m → m.Loaded ∧ c.fs.server.files.map FuseNode.closed = m.tree
  loaded : ∀ o ∈ c.opened, ∀ m, o.mount = some m → m.Loaded
  given : ∀ i node, c.fs.server.files[i]? = some node → ∀ fh ∈ node.fileHandlers, ⟨fh, i, c.mounted⟩ ∈ c.opened
  fresh : ∀ o ∈ c.opened, o.fh < c.fs.fileHandleCounter
  nodup : (c.opened.map Opened.fh).Nodup
  sorted : ∀ node ∈ c.fs.server.files, node.fileHandlers.Pairwise (· < ·)

/-- A tree with no open handle takes the place of the one there is. -/
theorem Sound.replace (h : c.Sound) (server : FuseServer) {connId : Int} (mounted : Option Mount)
    (hclosed : ∀ node ∈ server.files, node.fileHandlers = [])
    (hbare : mounted = none → ∀ node ∈ server.files, node.attributes.kind = .directory)
    (hmounted : ∀ m, mounted = some m → m.Loaded ∧ server.files = m.tree) :
    Sound { c with fs := { c.fs with server := server }, connId := connId, mounted := mounted } := by
  refine ⟨hbare, fun m hm => ?_, h.loaded, fun i node hi fh hfh => ?_, h.fresh, h.nodup, fun node hnode => ?_⟩
  · obtain ⟨hload, htree⟩ := hmounted m hm
    refine ⟨hload, ?_⟩
    rw [← htree]
    have hid : ∀ node ∈ server.files, node.closed = id node := by
      intro node hnode
      unfold FuseNode.closed
      rw [← hclosed node hnode]
      rfl
    exact (List.map_congr_left hid).trans (List.map_id _)
  · rw [hclosed node (List.mem_of_getElem? hi)] at hfh
    cases hfh
  · rw [hclosed node hnode]
    exact List.Pairwise.nil

/-- A node is written that differs in its handles only. -/
theorem set_closed {files : List FuseNode} {i : Nat} {node new : FuseNode} (hi : files[i]? = some node)
    (hsame : new.closed = node.closed) : (files.set i new).map FuseNode.closed = files.map FuseNode.closed := by
  rw [List.map_set, hsame]
  have hget : (files.map FuseNode.closed)[i]? = some node.closed := by rw [List.getElem?_map, hi, Option.map_some]
  obtain ⟨hlt, heq⟩ := List.getElem?_eq_some_iff.1 hget
  rw [← heq]
  exact List.set_getElem_self hlt

theorem Sound.setEntry (h : c.Sound) {ino counter : Nat} {node : FuseNode} (new : FuseNode) (opened : List Opened)
    (hentry : c.fs.server.entry ino = some node) (hsame : new.closed = node.closed)
    (hcounter : c.fs.fileHandleCounter ≤ counter)
    (hopened : ∀ o ∈ opened, o.fh = c.fs.fileHandleCounter ∧ c.fs.fileHandleCounter < counter ∧ o.mount = c.mounted)
    (hone : opened.length ≤ 1)
    (hgiven : ∀ fh ∈ new.fileHandlers, fh ∈ node.fileHandlers ∨ ⟨fh, OpenServer.slot ino, c.mounted⟩ ∈ opened)
    (hsorted : new.fileHandlers.Pairwise (· < ·)) :
    Sound { c with
      fs := { c.fs.setEntry ino new with fileHandleCounter := counter }
      opened := opened ++ c.opened } := by
  have hslot : c.fs.server.files[OpenServer.slot ino]? = some node := hentry
  have hkind : new.attributes.kind = node.attributes.kind := congrArg (fun n => n.attributes.kind) hsame
  refine ⟨fun hnone n hn => ?_, fun m hm => ?_, fun o ho m hm => ?_, fun i n hi fh hfh => ?_, fun o ho => ?_, ?_,
    fun n hn => ?_⟩
  · rcases List.mem_or_eq_of_mem_set hn with hold | rfl
    · exact h.bare hnone n hold
    · exact hkind.trans (h.bare hnone node (List.mem_of_getElem? hslot))
  · obtain ⟨hload, htree⟩ := h.mounted m hm
    exact ⟨hload, (set_closed hslot hsame).trans htree⟩
  · rcases List.mem_append.1 ho with hnew | hold
    · exact (h.mounted m ((hopened o hnew).2.2.symm.trans hm)).1
    · exact h.loaded o hold m hm
  · rcases getElem?_set_eq_some hi with ⟨hik, hnew⟩ | ⟨-, hi⟩
    · rw [← hik] at hgiven hslot
      rw [hnew] at hfh
      rcases hgiven fh hfh with hold | hnew
      · exact List.mem_append_right _ (h.given _ node hslot fh hold)
      · exact List.mem_append_left _ hnew
    · exact List.mem_append_right _ (h.given i n hi fh hfh)
  · rcases List.mem_append.1 ho with hnew | hold
    · obtain ⟨hfh, hlt, -⟩ := hopened o hnew
      exact hfh.trans_lt hlt
    · exact (h.fresh o hold).trans_le hcounter
  · rw [List.map_append]
    refine List.nodup_append.2 ⟨?_, h.nodup, ?_⟩
    · match opened, hone with
      | [], _ => exact List.nodup_nil
      | [o], _ => exact List.nodup_singleton _
    · intro a ha b hb hab
      obtain ⟨o, ho, rfl⟩ := List.mem_map.1 ha
      obtain ⟨o', ho', rfl⟩ := List.mem_map.1 hb
      have hlt := h.fresh o' ho'
      rw [← hab, (hopened o ho).1] at hlt
      exact Nat.lt_irrefl _ hlt
  · rcases List.mem_or_eq_of_mem_set hn with hold | rfl
    · exact h.sorted n hold
    · exact hsorted

theorem Sound.openKind (h : c.Sound) (kind : FileType) (wrong : ReadErrno) (ino : Nat) :
    (c.withOpened ino (c.fs.openKind kind wrong ino)).Sound := by
  unfold OpenServer.openKind
  split
  · exact h
  · rename_i entry hentry
    split
    · exact h
    · have hmem := List.mem_of_getElem? (show c.fs.server.files[OpenServer.slot ino]? = some entry from hentry)
      have hbelow : ∀ fh ∈ entry.fileHandlers, fh < c.fs.fileHandleCounter :=
        fun fh hfh => h.fresh _ (h.given _ entry hentry fh hfh)
      refine h.setEntry (entry.addHandler c.fs.fileHandleCounter)
        [⟨c.fs.fileHandleCounter, OpenServer.slot ino, c.mounted⟩] hentry rfl (Nat.le_succ _) ?_ (Nat.le_refl _) ?_ ?_
      · intro o ho
        rw [List.mem_singleton.1 ho]
        exact ⟨rfl, Nat.lt_succ_self _, rfl⟩
      · intro fh hfh
        rcases List.mem_append.1 hfh with hold | hnew
        · exact .inl hold
        · right
          rw [List.mem_singleton.1 hnew]
          exact List.mem_singleton_self _
      · refine List.pairwise_append.2 ⟨h.sorted entry hmem, List.pairwise_singleton _ _, ?_⟩
        intro a ha b hb
        rw [List.mem_singleton.1 hb]
        exact hbelow a ha

theorem Sound.release (h : c.Sound) (ino fh : Nat) : Sound { c with fs := (c.fs.release ino fh).2 } := by
  unfold OpenServer.release
  split
  · exact h
  · rename_i entry hentry
    split
    · exact h
    · have hmem := List.mem_of_getElem? (show c.fs.server.files[OpenServer.slot ino]? = some entry from hentry)
      refine h.setEntry (entry.unregisterHandler fh) [] hentry rfl (Nat.le_refl _) (fun o ho => by cases ho)
        (Nat.zero_le _) ?_ ?_
      · exact fun fh' hfh' => .inl (List.mem_of_mem_filter hfh')
      · exact (h.sorted entry hmem).filter _

/-- Nothing is open in a tree that was just built. -/
theorem buildTree_closed {now : Int} {files : List FileDescription} {tree : List FuseNode}
    (h : FuseNode.buildTree now files = some (.ok tree)) : ∀ node ∈ tree, node.fileHandlers = [] := by
  have hadd : ∀ {files : List FileDescription} {b b' : FuseNode.Building},
      (∀ node ∈ b.treeList, node.fileHandlers = []) → b.addFiles files = some (.ok b') →
      ∀ node ∈ b'.treeList, node.fileHandlers = [] := by
    intro files
    induction files with
    | nil =>
      intro b b' hb heq
      cases heq
      exact hb
    | cons file files ih =>
      intro b b' hb heq
      unfold FuseNode.Building.addFiles at heq
      obtain ⟨r, hr, heq⟩ := Option.bind_eq_some_iff.1 heq
      cases r with
      | error error => cases heq
      | ok b₁ =>
        refine ih ?_ heq
        unfold FuseNode.Building.addFile at hr
        obtain ⟨i, -, hr⟩ := Option.bind_eq_some_iff.1 hr
        obtain ⟨parentNode, hparent, hr⟩ := Option.bind_eq_some_iff.1 hr
        dsimp only at hr
        split at hr
        · cases hr
        · obtain ⟨fuseNode, hnode, hr⟩ := Option.bind_eq_some_iff.1 hr
          cases hr
          obtain ⟨index, -, rfl⟩ := Option.map_eq_some_iff.1 hnode
          intro node hmem
          rcases List.mem_append.1 hmem with hold | hnew
          · rcases List.mem_or_eq_of_mem_set hold with hold | rfl
            · exact hb node hold
            · exact hb parentNode (List.mem_of_getElem? hparent)
          · rw [List.mem_singleton.1 hnew]
  obtain ⟨r, hr, heq⟩ := Option.map_eq_some_iff.1 h
  cases r with
  | error error => cases heq
  | ok b =>
    cases heq
    refine hadd ?_ hr
    intro node hnode
    rw [List.mem_singleton.1 hnode]
    rfl

theorem sound_step (h : c.Sound) {e : Event} (hstep : c.step e = some c') : c'.Sound := by
  cases e with
  | init now =>
    cases hstep
    unfold OpenServer.init
    split
    · rename_i hnone
      refine h.replace ⟨_, [FuseNode.newRoot now]⟩ c.mounted ?_ ?_ ?_
      · intro node hnode
        rw [List.mem_singleton.1 hnode]
        rfl
      · intro _ node hnode
        rw [List.mem_singleton.1 hnode]
        rfl
      · -- A tree that was built has its root.
        intro m hm
        obtain ⟨⟨now, files, hparse, hbuild⟩, htree⟩ := h.mounted m hm
        rw [hnone] at htree
        obtain ⟨tree, htree', hist, -⟩ := FuseNode.buildTree_spec now (valid_of_parse hparse)
        rw [hbuild] at htree'
        cases htree'
        have hlen := hist.length
        rw [← htree] at hlen
        cases hlen
    · exact h
  | load formatData connId now =>
    simp only [step] at hstep
    split at hstep
    · cases hstep
      exact h
    · rename_i files hparse
      obtain ⟨r, hr, rfl⟩ := Option.map_eq_some_iff.1 hstep
      obtain ⟨built, hbuild, rfl⟩ := Option.map_eq_some_iff.1 hr
      cases built with
      | error error => exact h
      | ok tree =>
        refine h.replace ⟨_, tree⟩ (some _) (buildTree_closed hbuild) (fun hm => by cases hm) fun m hm => ?_
        cases hm
        exact ⟨⟨now, files, hparse, hbuild⟩, rfl⟩
  | empty connId now =>
    simp only [step] at hstep
    split at hstep
    · cases hstep
      exact h
    · obtain ⟨r, hr, rfl⟩ := Option.map_eq_some_iff.1 hstep
      obtain ⟨built, hbuild, rfl⟩ := Option.map_eq_some_iff.1 hr
      cases built with
      | error error => exact h
      | ok tree =>
        refine h.replace ⟨_, tree⟩ none (buildTree_closed hbuild) (fun _ node hnode => ?_) (fun m hm => by cases hm)
        cases hbuild
        rw [List.mem_singleton.1 hnode]
        rfl
  | opendir ino =>
    cases hstep
    exact h.openKind .directory .ENOTDIR ino
  | openFile ino =>
    cases hstep
    exact h.openKind .file .ENFILE ino
  | release ino fh =>
    cases hstep
    exact h.release ino fh
  | releasedir ino fh =>
    cases hstep
    unfold OpenServer.releasedir
    split
    · exact h
    · split
      · exact h
      · exact h.release ino fh

/-- The kernel and `empty_local_files` bring no list. -/
def Event.brings : Event → Bool
  | .load _ _ _ => true
  | _ => false

theorem mounted_step {e : Event} (hstep : c.step e = some c') (hnone : e.brings = false) {m : Mount}
    (hm : c'.mounted = some m) : c.mounted = some m := by
  have hopen : ∀ {ino : Nat} {r : Except ReadErrno Nat × OpenServer}, (c.withOpened ino r).mounted = c.mounted := by
    intro ino r
    rcases r with ⟨error | fh, fs⟩ <;> rfl
  cases e with
  | load formatData connId now => cases hnone
  | empty connId now =>
    simp only [step] at hstep
    split at hstep
    · cases hstep
      exact hm
    · obtain ⟨r, -, rfl⟩ := Option.map_eq_some_iff.1 hstep
      cases r with
      | error error => exact hm
      | ok fs => cases hm
  | opendir ino =>
    cases hstep
    exact hopen.symm.trans hm
  | openFile ino =>
    cases hstep
    exact hopen.symm.trans hm
  | _ =>
    cases hstep
    exact hm

theorem mounted_load {formatData : List UInt8} {connId now : Int}
    (hstep : c.step (.load formatData connId now) = some c') {m : Mount} (hm : c'.mounted = some m) :
    c.mounted = some m ∨ m.connId = connId ∧ m.pdu = formatData := by
  simp only [step] at hstep
  split at hstep
  · cases hstep
    exact .inl hm
  · obtain ⟨r, -, rfl⟩ := Option.map_eq_some_iff.1 hstep
    cases r with
    | error error => exact .inl hm
    | ok fs =>
      cases hm
      exact .inr ⟨rfl, rfl⟩

theorem opened_step {e : Event} (hstep : c.step e = some c') : c.opened ⊆ c'.opened := by
  have hopen : ∀ {ino : Nat} {r : Except ReadErrno Nat × OpenServer}, c.opened ⊆ (c.withOpened ino r).opened := by
    intro ino r
    rcases r with ⟨error | fh, fs⟩
    · exact List.Subset.refl _
    · exact List.subset_cons_self ..
  cases e with
  | load formatData connId now =>
    simp only [step] at hstep
    split at hstep
    · cases hstep
      exact List.Subset.refl _
    · obtain ⟨r, -, rfl⟩ := Option.map_eq_some_iff.1 hstep
      cases r <;> exact List.Subset.refl _
  | empty connId now =>
    simp only [step] at hstep
    split at hstep
    · cases hstep
      exact List.Subset.refl _
    · obtain ⟨r, -, rfl⟩ := Option.map_eq_some_iff.1 hstep
      cases r <;> exact List.Subset.refl _
  | opendir ino =>
    cases hstep
    exact hopen
  | openFile ino =>
    cases hstep
    exact hopen
  | _ =>
    cases hstep
    exact List.Subset.refl _

theorem sound_start : ({} : FuseContext).Sound :=
  ⟨fun _ node hnode => (by cases hnode), fun m hm => (by cases hm), fun o ho => (by cases ho),
    fun i node hi => (by cases hi), fun o ho => (by cases ho), List.nodup_nil, fun node hnode => (by cases hnode)⟩

/-! ## What a read is of -/

theorem parseRecords_from {connId : Int} {clipDataId : Int32} {count : Nat} {bytes : List UInt8}
    {files : List FileDescription} (h : parseRecords connId clipDataId count bytes = .ok files) :
    ∀ desc ∈ files, desc.connId = connId ∧ desc.clipDataId = clipDataId := by
  induction count generalizing bytes files with
  | zero =>
    cases h
    intro desc hdesc
    cases hdesc
  | succ count ih =>
    unfold parseRecords at h
    split at h
    · cases h
    · rename_i desc rest hrecord
      split at h
      · cases h
      · rename_i more hmore
        cases h
        intro d hd
        rcases List.mem_cons.1 hd with rfl | hd
        · unfold parseFileDescriptor at hrecord
          dsimp only at hrecord
          split at hrecord
          · cases hrecord
          · split at hrecord
            · cases hrecord
            · split at hrecord
              · cases hrecord
              · cases hrecord
                exact ⟨rfl, rfl⟩
        · exact ih hmore d hd

/-- Every description has the connection it came over and the id of its list. -/
theorem parse_from {pdu : List UInt8} {connId : Int} {files : List FileDescription}
    (h : parseFileDescriptors pdu connId = .ok files) :
    ∀ desc ∈ files, desc.connId = connId ∧ desc.clipDataId = fileListId pdu := by
  unfold parseFileDescriptors at h
  dsimp only at h
  split at h
  · cases h
  · split at h
    · cases h
      intro desc hdesc
      cases hdesc
    · split at h
      · cases h
      · exact parseRecords_from h

theorem length_tree {pdu : List UInt8} {connId now : Int} {files : List FileDescription} {tree : List FuseNode}
    (hparse : parseFileDescriptors pdu connId = .ok files) (hbuild : FuseNode.buildTree now files = some (.ok tree)) :
    tree.length = files.length + 1 := by
  obtain ⟨tree', htree', hist, -⟩ := FuseNode.buildTree_spec now (valid_of_parse hparse)
  rw [hbuild] at htree'
  cases htree'
  exact hist.length

/-- A file that can be read is one of the list that is loaded, and the handle was given out for it. -/
theorem Sound.readable (h : c.Sound) {ino fh : Nat} {entry : FuseNode} (hread : c.fs.readable ino fh = .ok entry) :
    ∃ m i, c.mounted = some m ∧ OpenServer.slot ino = i + 1 ∧ i + 1 < m.tree.length ∧ entry.index = i ∧
      entry.connId = m.connId ∧ entry.clipDataId = fileListId m.pdu ∧
      ⟨fh, OpenServer.slot ino, some m⟩ ∈ c.opened := by
  unfold OpenServer.readable at hread
  split at hread
  · cases hread
  · rename_i node hentry
    split at hread
    · cases hread
    · rename_i hhandle
      split at hread
      · cases hread
      · rename_i hkind
        cases hread
        have hkind : entry.attributes.kind = .file := not_not.1 hkind
        have hfh : fh ∈ entry.fileHandlers := by
          rw [Bool.not_eq_true', Bool.not_eq_false] at hhandle
          exact List.contains_iff_mem.1 hhandle
        have hslot : c.fs.server.files[OpenServer.slot ino]? = some entry := hentry
        have hopened := h.given _ entry hslot fh hfh
        cases hm : c.mounted with
        | none =>
          have hdir := h.bare hm entry (List.mem_of_getElem? hslot)
          rw [hkind] at hdir
          cases hdir
        | some m =>
          rw [hm] at hopened
          obtain ⟨⟨now, files, hparse, hbuild⟩, htree⟩ := h.mounted m hm
          obtain ⟨tree, htree', hist, -⟩ := FuseNode.buildTree_spec now (valid_of_parse hparse)
          rw [hbuild] at htree'
          cases htree'
          have hget : m.tree[OpenServer.slot ino]? = some entry.closed := by
            rw [← htree, List.getElem?_map, hslot, Option.map_some]
          cases hi : OpenServer.slot ino with
          | zero =>
            -- The root is a directory.
            obtain ⟨root, hroot, -, -, hdir⟩ := hist.root
            rw [hi, hroot] at hget
            rw [Option.some.inj hget] at hdir
            exact absurd (hkind.symm.trans hdir) (by decide)
          | succ i =>
            rw [hi] at hget hopened
            have hlt : i < files.length := by
              have hlt := (List.getElem?_eq_some_iff.1 hget).1
              rw [hist.length] at hlt
              omega
            obtain ⟨node, hnode, hdesc⟩ := hist.node i files[i] (List.getElem?_eq_getElem hlt)
            rw [hget] at hnode
            cases hnode
            obtain ⟨hconn, hid⟩ := parse_from hparse files[i] (List.getElem_mem hlt)
            exact ⟨m, i, rfl, rfl, (List.getElem?_eq_some_iff.1 hget).1, hdesc.index, hdesc.connId.trans hconn,
              hdesc.clipDataId.trans hid, hopened⟩

end FuseContext

end FontisRemote.Clipboard
