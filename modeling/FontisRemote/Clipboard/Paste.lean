import FontisRemote.Clipboard.Handles
import FontisRemote.Clipboard.Origin

/-!
# Pasting files

Machines copy files and serve them, and one mounts the list it was sent last and reads the files out of it. What
they send each other is lost, late or out of order as it may be; a reply may come when its read has long given up.

Where lists do not share an id nor reads a stream, and no file changes its content, a read that succeeds has the bytes
of the file that its handle was opened on: of that list, however many were copied and loaded since.
-/

namespace FontisRemote.Clipboard

open FontisRemote.Lib
open FontisRemote.FileTransfer (Text)

variable {Machine : Type} {Handle : Text → Type}

/-- A read that succeeded. -/
structure Done where
  ino : Nat
  fh : Nat
  offset : Int
  size : Nat
  bytes : List UInt8
deriving DecidableEq, Repr

/-- The machines that copied files, and what was sent over the connections. -/
structure Wire (Machine : Type) (Handle : Text → Type) where
  peer : Machine → ServFiles Handle := fun _ => {}
  made : Machine → List (Listed Handle) := fun _ => []
  /-- `FormatDataResponse` -/
  offers : List (Int × List UInt8) := []
  asked : List (Int × ContentsRequest) := []
  answered : List (Int × ContentsResponse) := []
  /-- The streams of the reads that were begun. -/
  streams : List Int := []

structure Paste (Machine : Type) (Handle : Text → Type) where
  wire : Wire Machine Handle := {}
  context : FuseContext := {}
  rx : List ContentsResponse := []
  reading : Option Reading := none
  done : List Done := []

inductive PasteEvent (Machine : Type) (Handle : Text → Type)
  /-- What else a machine does with its files. -/
  | peer (m : Machine) (e : ServFiles.Event Handle)
  /-- It answers a `FormatDataRequest` of the connection. -/
  | offer (connId : Int)
  /-- It answers a `FileContentsRequest`. -/
  | serve (connId : Int) (request : ContentsRequest) (disk : Disk Handle)
  | load (connId : Int) (formatData : List UInt8) (now : Int)
  /-- A call of the kernel, or `empty_local_files`. -/
  | context (e : FuseContext.Event)
  | read (ino fh : Nat) (offset : Int) (size : Nat) (streamId : Int) (sendOk : Bool)
  /-- `handle_file_content_response` -/
  | receive (connId : Int) (response : ContentsResponse)
  /-- The read takes the next reply. -/
  | take (sendOk : Bool)
  | timeout

/-- The response that is sent for a result, if one is. -/
def toResponse (streamId : Int) : Except CliprdrError ClipboardFile → Option ContentsResponse
  | .ok (.fileContentsResponse flags streamId data) => some ⟨flags, streamId, data⟩
  | .ok (.files _) => none
  | .error _ => some ⟨2, streamId, []⟩

def ContentsRequest.event (r : ContentsRequest) (disk : Disk Handle) (connId : Int) : ServFiles.Event Handle :=
  .readFileContents disk connId r.streamId r.listIndex r.dwFlags r.nPositionLow r.nPositionHigh r.cbRequested
    (if r.haveClipDataId then some r.clipDataId else none)

/-- What a machine answers to a request. -/
def ContentsRequest.answers (r : ContentsRequest) (disk : Disk Handle) (connId : Int) (p : ServFiles Handle) :
    List (Except CliprdrError ClipboardFile) × ServFiles Handle :=
  p.readFileContents disk connId r.streamId r.listIndex r.dwFlags r.nPositionLow r.nPositionHigh r.cbRequested
    (if r.haveClipDataId then some r.clipDataId else none)

namespace Wire

variable [DecidableEq Machine] (w : Wire Machine Handle)

def setPeer (m : Machine) (p : ServFiles Handle) : Wire Machine Handle :=
  { w with
    peer := Function.update w.peer m p
    made := Function.update w.made m ((w.peer m).listed p ++ w.made m) }

/-- An empty list is answered with a failure. -/
def offer (connId : Int) (formatData : List UInt8) : Wire Machine Handle :=
  if formatData = [] then w else { w with offers := (connId, formatData) :: w.offers }

def respond (connId streamId : Int) (results : List (Except CliprdrError ClipboardFile)) : Wire Machine Handle :=
  { w with answered := (results.filterMap (toResponse streamId)).map (connId, ·) ++ w.answered }

end Wire

namespace Paste

variable [DecidableEq Machine] (host : Int → Machine) (theirs : Int → Int) (s : Paste Machine Handle)

/-- A connection leads to the machine `host` and has the id `theirs` there. The server is locked while a read waits. -/
def step : PasteEvent Machine Handle → Option (Paste Machine Handle)
  | .peer m e => ((s.wire.peer m).step e).map fun p => { s with wire := s.wire.setPeer m p }
  | .offer connId =>
    let sent := (s.wire.peer (host connId)).getFileListPdu (theirs connId)
    some { s with wire := (s.wire.setPeer (host connId) sent.2).offer connId sent.1 }
  | .serve connId request disk =>
    if (connId, request) ∈ s.wire.asked then
      let answers := request.answers disk (theirs connId) (s.wire.peer (host connId))
      some { s with wire := (s.wire.setPeer (host connId) answers.2).respond connId request.streamId answers.1 }
    else none
  | .load connId formatData now =>
    if s.reading.isNone ∧ connId ≠ 0 ∧ (connId, formatData) ∈ s.wire.offers then
      (s.context.step (.load formatData connId now)).map fun c => { s with context := c }
    else none
  | .context e =>
    if s.reading.isNone ∧ e.brings = false then (s.context.step e).map fun c => { s with context := c } else none
  | .read ino fh offset size streamId sendOk =>
    if s.reading.isNone ∧ -2 ^ 63 ≤ offset ∧ offset < 2 ^ 63 ∧ size < 2 ^ 32 then
      match s.context.fs.readable ino fh with
      | .error _ => some s
      | .ok entry =>
        let request := contentsRequest entry.index entry.clipDataId offset size streamId
        if sendOk then
          some { s with
            wire := { s.wire with
              asked := (entry.connId, request) :: s.wire.asked
              streams := streamId :: s.wire.streams }
            reading := some {
              ino := ino
              fh := fh
              offset := offset
              size := size
              connId := entry.connId
              request := request } }
        else some s
    else none
  | .receive connId response =>
    if (connId, response) ∈ s.wire.answered then some { s with rx := s.rx ++ [response] } else none
  | .take sendOk =>
    match s.reading, s.rx with
    | some r, reply :: rx =>
      match r.take reply sendOk with
      | .waiting => some { s with rx := rx }
      | .again r =>
        some { s with
          rx := rx
          reading := some r
          wire := { s.wire with asked := (r.connId, r.request) :: s.wire.asked } }
      | .failed => some { s with rx := rx, reading := none }
      | .data bytes =>
        some { s with rx := rx, reading := none, done := ⟨r.ino, r.fh, r.offset, r.size, bytes⟩ :: s.done }
    | _, _ => none
  | .timeout => if s.reading.isSome then some { s with reading := none } else none

def Init (s : Paste Machine Handle) : Prop := s = {}

end Paste

/-! ## The request on the wire -/

theorem asI32_mod (n : Int) : asI32 n % 2 ^ 32 = n % 2 ^ 32 := Int.bmod_emod

theorem range_of_flags {streamId listIndex dwFlags low high cbRequested : Int} (h : dwFlags = 2) :
    ServFiles.fileContentsRequest streamId listIndex dwFlags low high cbRequested =
      .ok (.range streamId (listIndex % 2 ^ 64).toNat ((high % 2 ^ 32).toNat * 2 ^ 32 + (low % 2 ^ 32).toNat)
        (cbRequested % 2 ^ 32).toNat) := by
  subst h
  unfold ServFiles.fileContentsRequest
  dsimp only
  rw [if_neg (by decide), if_pos rfl]

/-- The halves of an offset are put together again. -/
theorem contentsRequest_range {index size : Nat} {id : Int32} {offset streamId : Int} {r : ContentsRequest}
    (hr : r = contentsRequest index id offset size streamId) (hsize : size < 2 ^ 32) :
    ServFiles.fileContentsRequest r.streamId r.listIndex r.dwFlags r.nPositionLow r.nPositionHigh r.cbRequested =
      .ok (.range r.streamId (asI32 index % 2 ^ 64).toNat (offset % 2 ^ 64).toNat size) := by
  have hlow : r.nPositionLow % 2 ^ 32 = offset % 2 ^ 32 := by
    rw [hr]
    unfold contentsRequest
    rw [asI32_mod]
    omega
  have hhigh : r.nPositionHigh % 2 ^ 32 = offset / 2 ^ 32 % 2 ^ 32 := by
    rw [hr]
    unfold contentsRequest
    rw [asI32_mod]
  have hoffset : (r.nPositionHigh % 2 ^ 32).toNat * 2 ^ 32 + (r.nPositionLow % 2 ^ 32).toNat =
      (offset % 2 ^ 64).toNat := by
    rw [hlow, hhigh]
    omega
  have hlength : (r.cbRequested % 2 ^ 32).toNat = size := by
    rw [hr]
    unfold contentsRequest
    rw [asI32_mod]
    omega
  have hindex : r.listIndex = asI32 index := by
    rw [hr]
    dsimp only [contentsRequest]
  rw [range_of_flags (congrArg ContentsRequest.dwFlags hr), hoffset, hlength, hindex]

/-- An index that is in a list short enough to be sent is the one that was meant. -/
theorem index_of_asI32 {i n : Nat} (hi : i < 2 ^ 32) (hn : n < 2 ^ 32) (hlt : (asI32 i % 2 ^ 64).toNat < n) :
    (asI32 i % 2 ^ 64).toNat = i := by
  unfold asI32 at hlt ⊢
  rw [Int.bmod_def] at hlt ⊢
  split at hlt
  · rename_i hlow
    rw [if_pos hlow]
    omega
  · omega

/-- What is read from the PDU of a list are its files. -/
theorem Listed.Built.parsed {l : Listed Handle} (h : l.Built) {pdu : List UInt8} {connId : Int}
    {files : List FileDescription} (hpdu : l.pdu = pdu) (hparse : parseFileDescriptors pdu connId = .ok files) :
    l.files.length < 2 ^ 32 ∧ files = l.files.map (described connId l.id) := by
  obtain ⟨nonce, hbuilt⟩ := h
  obtain ⟨-, records, heq, hwritten⟩ := buildFileListPdu_ok hbuilt
  rw [← hpdu, heq] at hparse
  obtain ⟨hshort, hrecords⟩ := (parseFileDescriptors_pdu hwritten connId).1 hparse
  refine ⟨hshort, ?_⟩
  rw [hwritten.parse_ok hrecords, Listed.id, heq]

/-! ## What is on the wire -/

namespace Wire

variable {host : Int → Machine} {content : Machine → Text → List UInt8} {pos : {path : Text} → Handle path → Nat}
  {w w' : Wire Machine Handle}

/-- These bytes answer a request: a list with its id, a file at its index, a range of that. -/
def Served (host : Int → Machine) (content : Machine → Text → List UInt8) (w : Wire Machine Handle) (connId : Int)
    (r : ContentsRequest) (data : List UInt8) : Prop :=
  ∃ fileIdx offset length, ServFiles.fileContentsRequest r.streamId r.listIndex r.dwFlags r.nPositionLow
      r.nPositionHigh r.cbRequested = .ok (.range r.streamId fileIdx offset length) ∧
    ∃ l ∈ w.made (host connId), l.id = r.clipDataId ∧
      ∃ file, l.files[fileIdx]? = some file ∧ file.Slice (content (host connId)) offset length data

structure Sound (host : Int → Machine) (content : Machine → Text → List UInt8)
    (pos : {path : Text} → Handle path → Nat) (w : Wire Machine Handle) : Prop where
  origin : ∀ m, (w.peer m).Origin pos (w.made m)
  offered : ∀ o ∈ w.offers, ∃ l ∈ w.made (host o.1), l.pdu = o.2
  asked : ∀ a ∈ w.asked, a.2.streamId ∈ w.streams ∧ a.2.dwFlags = 2 ∧ a.2.haveClipDataId = true
  unique : ∀ a ∈ w.asked, ∀ b ∈ w.asked, a.2.streamId = b.2.streamId → a = b
  answered : ∀ a ∈ w.answered, a.2.msgFlags &&& 1 ≠ 0 → ∃ r, (a.1, r) ∈ w.asked ∧ r.streamId = a.2.streamId ∧
    w.Served host content a.1 r a.2.requestedData

/-- Neither lists nor reads share their numbers. -/
structure Distinct (w : Wire Machine Handle) : Prop where
  lists : ∀ m, (w.peer m).built.Nodup
  streams : w.streams.Nodup

/-- What was made, offered and asked stays so. -/
structure Le (w w' : Wire Machine Handle) : Prop where
  made : ∀ m, w.made m ⊆ w'.made m
  offers : w.offers ⊆ w'.offers
  asked : w.asked ⊆ w'.asked
  answered : w.answered ⊆ w'.answered

theorem Le.refl (w : Wire Machine Handle) : w.Le w :=
  ⟨fun _ => List.Subset.refl _, List.Subset.refl _, List.Subset.refl _, List.Subset.refl _⟩

theorem Le.trans {w'' : Wire Machine Handle} (h : w.Le w') (h' : w'.Le w'') : w.Le w'' :=
  ⟨fun m => List.Subset.trans (h.made m) (h'.made m), List.Subset.trans h.offers h'.offers,
    List.Subset.trans h.asked h'.asked, List.Subset.trans h.answered h'.answered⟩

theorem Served.mono {connId : Int} {r : ContentsRequest} {data : List UInt8} (h : w.Served host content connId r data)
    (hle : ∀ m, w.made m ⊆ w'.made m) : w'.Served host content connId r data := by
  obtain ⟨fileIdx, offset, length, hr, l, hl, hfile⟩ := h
  exact ⟨fileIdx, offset, length, hr, l, hle _ hl, hfile⟩

/-- A list that is offered is one that was made. -/
theorem Sound.offer (h : w.Sound host content pos) {connId : Int} {formatData : List UInt8}
    (hoffer : formatData ≠ [] → ∃ l ∈ w.made (host connId), l.pdu = formatData) :
    (w.offer connId formatData).Sound host content pos := by
  unfold Wire.offer
  split
  · exact h
  · rename_i hsome
    refine ⟨h.origin, fun o ho => ?_, h.asked, h.unique, h.answered⟩
    rcases List.mem_cons.1 ho with rfl | ho
    · exact hoffer hsome
    · exact h.offered o ho

theorem le_offer (connId : Int) (formatData : List UInt8) : w.Le (w.offer connId formatData) := by
  unfold Wire.offer
  split
  · exact .refl w
  · exact ⟨fun _ => List.Subset.refl _, List.subset_cons_self .., List.Subset.refl _, List.Subset.refl _⟩

theorem Distinct.of_offer {connId : Int} {formatData : List UInt8} (h : (w.offer connId formatData).Distinct) :
    w.Distinct := by
  unfold Wire.offer at h
  split at h
  · exact h
  · exact ⟨h.lists, h.streams⟩

theorem le_respond (connId streamId : Int) (results : List (Except CliprdrError ClipboardFile)) :
    w.Le (w.respond connId streamId results) :=
  ⟨fun _ => List.Subset.refl _, List.Subset.refl _, List.Subset.refl _, List.subset_append_right ..⟩

theorem Sound.respond (h : w.Sound host content pos) {connId streamId : Int}
    {results : List (Except CliprdrError ClipboardFile)}
    (hserved : ∀ response ∈ results.filterMap (toResponse streamId), response.msgFlags &&& 1 ≠ 0 →
      ∃ r, (connId, r) ∈ w.asked ∧ r.streamId = response.streamId ∧
        w.Served host content connId r response.requestedData) :
    (w.respond connId streamId results).Sound host content pos := by
  refine ⟨h.origin, h.offered, h.asked, h.unique, fun a ha hflag => ?_⟩
  rcases List.mem_append.1 ha with hnew | hold
  · obtain ⟨response, hmem, rfl⟩ := List.mem_map.1 hnew
    exact hserved response hmem hflag
  · exact h.answered a hold hflag

/-- A request goes out on a stream of its own. -/
theorem Sound.ask (h : w.Sound host content pos) {connId : Int} {r : ContentsRequest} (hflags : r.dwFlags = 2)
    (hid : r.haveClipDataId = true) (hnew : r.streamId ∉ w.streams) :
    Sound host content pos { w with asked := (connId, r) :: w.asked, streams := r.streamId :: w.streams } := by
  refine ⟨h.origin, h.offered, fun a ha => ?_, fun a ha b hb hab => ?_, fun a ha hflag => ?_⟩
  · rcases List.mem_cons.1 ha with rfl | ha
    · exact ⟨List.mem_cons_self .., hflags, hid⟩
    · obtain ⟨hstream, hrest⟩ := h.asked a ha
      exact ⟨List.mem_cons_of_mem _ hstream, hrest⟩
  · rcases List.mem_cons.1 ha with rfl | ha <;> rcases List.mem_cons.1 hb with rfl | hb
    · rfl
    · exact absurd (hab ▸ (h.asked b hb).1) hnew
    · exact absurd (hab ▸ (h.asked a ha).1) hnew
    · exact h.unique a ha b hb hab
  · obtain ⟨r', hr', hrest⟩ := h.answered a ha hflag
    exact ⟨r', List.mem_cons_of_mem _ hr', hrest⟩

/-- A request that was sent is sent again. -/
theorem Sound.repeat (h : w.Sound host content pos) {a : Int × ContentsRequest} (ha : a ∈ w.asked) :
    Sound host content pos { w with asked := a :: w.asked } := by
  have hmem : ∀ b, b ∈ a :: w.asked → b ∈ w.asked := by
    intro b hb
    rcases List.mem_cons.1 hb with rfl | hb
    · exact ha
    · exact hb
  refine ⟨h.origin, h.offered, fun b hb => h.asked b (hmem b hb),
    fun b hb d hd => h.unique b (hmem b hb) d (hmem d hd), fun b hb hflag => ?_⟩
  obtain ⟨r, hr, hrest⟩ := h.answered b hb hflag
  exact ⟨r, List.mem_cons_of_mem _ hr, hrest⟩

variable [DecidableEq Machine]

theorem made_setPeer (m m' : Machine) (p : ServFiles Handle) : w.made m' ⊆ (w.setPeer m p).made m' := by
  intro l hl
  show l ∈ Function.update w.made m _ m'
  by_cases hm : m' = m
  · subst hm
    rw [Function.update_self]
    exact List.mem_append_right _ hl
  · rw [Function.update_of_ne hm]
    exact hl

theorem le_setPeer (m : Machine) (p : ServFiles Handle) : w.Le (w.setPeer m p) :=
  ⟨fun m' => made_setPeer m m' p, List.Subset.refl _, List.Subset.refl _, List.Subset.refl _⟩

theorem Sound.setPeer (h : w.Sound host content pos) {m : Machine} {p : ServFiles Handle}
    (hp : p.Origin pos ((w.peer m).listed p ++ w.made m)) : (w.setPeer m p).Sound host content pos := by
  refine ⟨fun m' => ?_, fun o ho => ?_, h.asked, h.unique, fun a ha hflag => ?_⟩
  · show (Function.update w.peer m p m').Origin pos (Function.update w.made m _ m')
    by_cases hm : m' = m
    · subst hm
      rw [Function.update_self, Function.update_self]
      exact hp
    · rw [Function.update_of_ne hm, Function.update_of_ne hm]
      exact h.origin m'
  · obtain ⟨l, hl, hpdu⟩ := h.offered o ho
    exact ⟨l, made_setPeer m _ p hl, hpdu⟩
  · obtain ⟨r, hr, hstream, hserved⟩ := h.answered a ha hflag
    exact ⟨r, hr, hstream, hserved.mono fun m' => made_setPeer m m' p⟩

theorem Distinct.of_setPeer {m : Machine} {p : ServFiles Handle} (h : (w.setPeer m p).Distinct)
    (hsub : (w.peer m).built.Sublist p.built) : w.Distinct := by
  refine ⟨fun m' => ?_, h.streams⟩
  have hnodup : (Function.update w.peer m p m').built.Nodup := h.lists m'
  by_cases hm : m' = m
  · subst hm
    rw [Function.update_self] at hnodup
    exact hsub.nodup hnodup
  · rw [Function.update_of_ne hm] at hnodup
    exact hnodup

end Wire

/-! ## What is read -/

namespace Paste

variable {host : Int → Machine} {theirs : Int → Int} {content : Machine → Text → List UInt8}
  {pos : {path : Text} → Handle path → Nat} {s s' : Paste Machine Handle}

/-- The bytes are those of the file the handle was opened on, in the list that was loaded then. -/
def Delivered (host : Int → Machine) (content : Machine → Text → List UInt8) (s : Paste Machine Handle) (d : Done) :
    Prop :=
  ∃ m i l file, ⟨d.fh, OpenServer.slot d.ino, some m⟩ ∈ s.context.opened ∧ OpenServer.slot d.ino = i + 1 ∧
    l ∈ s.wire.made (host m.connId) ∧ l.pdu = m.pdu ∧ l.files[i]? = some file ∧
    file.Slice (content (host m.connId)) (d.offset % 2 ^ 64).toNat d.size d.bytes

/-- A read that waits has asked for the file its handle is of. -/
structure Awaits (s : Paste Machine Handle) (r : Reading) (m : Mount) (i : Nat) (streamId : Int) : Prop where
  opened : ⟨r.fh, OpenServer.slot r.ino, some m⟩ ∈ s.context.opened
  slot : OpenServer.slot r.ino = i + 1
  connId : r.connId = m.connId
  request : r.request = contentsRequest i (fileListId m.pdu) r.offset r.size streamId
  size : r.size < 2 ^ 32
  asked : (r.connId, r.request) ∈ s.wire.asked
  offered : (m.connId, m.pdu) ∈ s.wire.offers
  loaded : m.Loaded
  node : i + 1 < m.tree.length

structure Inv (host : Int → Machine) (content : Machine → Text → List UInt8)
    (pos : {path : Text} → Handle path → Nat) (s : Paste Machine Handle) : Prop where
  wire : s.wire.Sound host content pos
  context : s.context.Sound
  mounted : ∀ m, s.context.mounted = some m → (m.connId, m.pdu) ∈ s.wire.offers
  rx : ∀ response ∈ s.rx, ∃ connId, (connId, response) ∈ s.wire.answered
  reading : ∀ r, s.reading = some r → ∃ m i streamId, s.Awaits r m i streamId
  done : ∀ d ∈ s.done, s.Delivered host content d

theorem Awaits.mono {r : Reading} {m : Mount} {i : Nat} {streamId : Int} (h : s.Awaits r m i streamId)
    (hwire : s.wire.Le s'.wire) (hopened : s.context.opened ⊆ s'.context.opened) : s'.Awaits r m i streamId :=
  { h with opened := hopened h.opened, asked := hwire.asked h.asked, offered := hwire.offers h.offered }

theorem Delivered.mono {d : Done} (h : s.Delivered host content d) (hwire : s.wire.Le s'.wire)
    (hopened : s.context.opened ⊆ s'.context.opened) : s'.Delivered host content d := by
  obtain ⟨m, i, l, file, hd, hslot, hl, hrest⟩ := h
  exact ⟨m, i, l, file, hopened hd, hslot, hwire.made _ hl, hrest⟩

/-- The wire goes on, and the read waits or has nothing to do with it. -/
theorem Inv.wired (h : s.Inv host content pos) {wire : Wire Machine Handle} (hwire : wire.Sound host content pos)
    (hle : s.wire.Le wire) : Inv host content pos { s with wire := wire } := by
  refine ⟨hwire, h.context, fun m hm => hle.offers (h.mounted m hm), fun response hr => ?_, fun r hr => ?_,
    fun d hd => (h.done d hd).mono hle (List.Subset.refl _)⟩
  · obtain ⟨connId, hanswered⟩ := h.rx response hr
    exact ⟨connId, hle.answered hanswered⟩
  · obtain ⟨m, i, streamId, hawaits⟩ := h.reading r hr
    exact ⟨m, i, streamId, hawaits.mono hle (List.Subset.refl _)⟩

/-- Some replies are taken, and the read waits on or is over. -/
theorem Inv.received (h : s.Inv host content pos) {rx : List ContentsResponse} {reading : Option Reading}
    {done : List Done} (hrx : ∀ response ∈ rx, ∃ connId, (connId, response) ∈ s.wire.answered)
    (hreading : ∀ r, reading = some r → ∃ m i streamId, s.Awaits r m i streamId)
    (hdone : ∀ d ∈ done, s.Delivered host content d) :
    Inv host content pos { s with rx := rx, reading := reading, done := done } := by
  refine ⟨h.wire, h.context, h.mounted, hrx, fun r hr => ?_, fun d hd => ?_⟩
  · obtain ⟨m, i, streamId, hawaits⟩ := hreading r hr
    exact ⟨m, i, streamId, hawaits.mono (.refl _) (List.Subset.refl _)⟩
  · exact (hdone d hd).mono (.refl _) (List.Subset.refl _)

/-- What the kernel does to the mount, while no read waits. -/
theorem Inv.called (h : s.Inv host content pos) {e : FuseContext.Event} {c : FuseContext} (hnone : s.reading.isNone)
    (hstep : s.context.step e = some c) (hmounted : ∀ m, c.mounted = some m → (m.connId, m.pdu) ∈ s.wire.offers) :
    Inv host content pos { s with context := c } := by
  refine ⟨h.wire, FuseContext.sound_step h.context hstep, hmounted, h.rx, fun r hr => ?_, fun d hd => ?_⟩
  · have hsome : s.reading = some r := hr
    rw [hsome] at hnone
    cases hnone
  · exact (h.done d hd).mono (.refl _) (FuseContext.opened_step hstep)

/-- A reply on the stream of the read that waits, which reports no failure, has its bytes. -/
theorem Inv.data (h : s.Inv host content pos) (hlists : ∀ m, (s.wire.peer m).built.Nodup) {r : Reading}
    {reply : ContentsResponse} (hr : s.reading = some r) (hreply : reply ∈ s.rx)
    (hstream : reply.streamId = r.request.streamId) (hflag : reply.msgFlags &&& 1 ≠ 0) :
    s.Delivered host content ⟨r.ino, r.fh, r.offset, r.size, reply.requestedData⟩ := by
  obtain ⟨m, i, streamId, hawaits⟩ := h.reading r hr
  obtain ⟨connId, hanswered⟩ := h.rx reply hreply
  obtain ⟨request, hasked, hsame, hserved⟩ := h.wire.answered _ hanswered hflag
  -- The stream is that of one request.
  have hone := h.wire.unique _ hasked _ hawaits.asked (hsame.trans hstream)
  obtain ⟨rfl, rfl⟩ := Prod.mk.inj hone
  obtain ⟨fileIdx, offset, length, hrange, l, hl, hid, file, hfile, hslice⟩ := hserved
  obtain ⟨l', hl', hpdu⟩ := h.wire.offered _ hawaits.offered
  have hreq := hawaits.request
  rw [hawaits.connId] at hl hslice
  -- The id is that of one list.
  have hll : l = l' := by
    have hnodup : ((s.wire.made (host m.connId)).map Listed.id).Nodup := by
      rw [(h.wire.origin (host m.connId)).ids]
      exact hlists _
    refine List.inj_on_of_nodup_map hnodup hl hl' ?_
    rw [hid, hreq]
    show fileListId m.pdu = fileListId l'.pdu
    rw [hpdu]
  subst hll
  rw [contentsRequest_range hreq hawaits.size] at hrange
  obtain ⟨-, hidx, hoff, hlen⟩ := FileContentsRequest.range.inj (Except.ok.inj hrange)
  obtain ⟨now, files, hparse, hbuild⟩ := hawaits.loaded
  obtain ⟨hshort, hfiles⟩ := ((h.wire.origin _).built l hl).parsed hpdu hparse
  have hnode := hawaits.node
  rw [FuseContext.length_tree hparse hbuild, hfiles, List.length_map] at hnode
  have hlt : fileIdx < l.files.length := (List.getElem?_eq_some_iff.1 hfile).1
  have hindex : fileIdx = i := hidx ▸ index_of_asI32 (by omega) hshort (hidx ▸ hlt)
  rw [hindex] at hfile
  rw [← hoff, ← hlen] at hslice
  exact ⟨m, i, l, file, hawaits.opened, hawaits.slot, hl, hpdu, hfile, hslice⟩

theorem inv_start : Inv host content pos ({} : Paste Machine Handle) :=
  ⟨⟨fun _ => ServFiles.origin_init, fun o ho => (by cases ho), fun a ha => (by cases ha), fun a ha => (by cases ha),
    fun a ha => (by cases ha)⟩, FuseContext.sound_start, fun m hm => (by cases hm), fun r hr => (by cases hr),
    fun r hr => (by cases hr), fun d hd => (by cases hd)⟩

/-- The answers to a request of a read are the bytes it asked for. -/
theorem served_results (h : s.wire.Sound host content pos) {connId : Int} {request : ContentsRequest}
    {disk : Disk Handle} (hdisk : disk.Keeps (content (host connId)) pos) (hasked : (connId, request) ∈ s.wire.asked)
    {response : ContentsResponse} (hflag : response.msgFlags &&& 1 ≠ 0)
    (hresponse : response ∈
      (request.answers disk (theirs connId) (s.wire.peer (host connId))).1.filterMap (toResponse request.streamId)) :
    request.streamId = response.streamId ∧ s.wire.Served host content connId request response.requestedData := by
  obtain ⟨result, hmem, hresult⟩ := List.mem_filterMap.1 hresponse
  obtain ⟨-, hflags, hid⟩ := h.asked _ hasked
  have hrange : ServFiles.fileContentsRequest request.streamId request.listIndex request.dwFlags
      request.nPositionLow request.nPositionHigh request.cbRequested = _ := range_of_flags hflags
  rw [ContentsRequest.answers, if_pos hid, ServFiles.readFileContents, hrange] at hmem
  dsimp only at hmem
  cases result with
  | error error =>
    -- A failure is reported as one.
    cases hresult
    exact absurd (show 2 &&& 1 = 0 from rfl) hflag
  | ok clip =>
    cases clip with
    | files files => cases hresult
    | fileContentsResponse flags streamId data =>
      cases hresult
      obtain ⟨hstream, l, hl, hlid, file, hfile, hslice⟩ := (h.origin (host connId)).response hdisk hmem
      exact ⟨hstream.symm, _, _, _, hrange, l, hl, hlid, file, hfile, hslice⟩

/-! ## Every step -/

section Steps

variable [DecidableEq Machine] {e : PasteEvent Machine Handle}

/-- The files of a machine keep their content. -/
def Keeps (host : Int → Machine) (content : Machine → Text → List UInt8) (pos : {path : Text} → Handle path → Nat) :
    PasteEvent Machine Handle → Prop
  | .peer m e => e.Keeps (content m) pos
  | .serve connId _ disk => disk.Keeps (content (host connId)) pos
  | _ => True

/-- Answering is a step of the machine. -/
theorem answers_step (r : ContentsRequest) (disk : Disk Handle) (connId : Int) (p : ServFiles Handle) :
    p.step (r.event disk connId) = some (r.answers disk connId p).2 := rfl

theorem distinct_step (hstep : s.step host theirs e = some s') (h : s'.wire.Distinct) : s.wire.Distinct := by
  cases e with
  | peer m e =>
    obtain ⟨p, hp, rfl⟩ := Option.map_eq_some_iff.1 hstep
    exact h.of_setPeer (ServFiles.built_step hp)
  | offer connId =>
    have hstep' : (s.wire.peer (host connId)).step (.getFileListPdu (theirs connId)) =
        some ((s.wire.peer (host connId)).getFileListPdu (theirs connId)).2 := rfl
    have hbuilt := ServFiles.built_step hstep'
    obtain rfl := Option.some.inj hstep
    exact h.of_offer.of_setPeer hbuilt
  | serve connId request disk =>
    simp only [step] at hstep
    split at hstep
    · obtain rfl := Option.some.inj hstep
      exact Wire.Distinct.of_setPeer ⟨h.lists, h.streams⟩ (ServFiles.built_step (answers_step request disk _ _))
    · cases hstep
  | load connId formatData now =>
    simp only [step] at hstep
    split at hstep
    · obtain ⟨c, -, rfl⟩ := Option.map_eq_some_iff.1 hstep
      exact h
    · cases hstep
  | context e =>
    simp only [step] at hstep
    split at hstep
    · obtain ⟨c, -, rfl⟩ := Option.map_eq_some_iff.1 hstep
      exact h
    · cases hstep
  | read ino fh offset size streamId sendOk =>
    simp only [step] at hstep
    split at hstep
    · split at hstep
      · cases hstep
        exact h
      · split at hstep
        · cases hstep
          exact ⟨h.lists, (List.nodup_cons.1 h.streams).2⟩
        · cases hstep
          exact h
    · cases hstep
  | receive connId response =>
    simp only [step] at hstep
    split at hstep
    · cases hstep
      exact h
    · cases hstep
  | take sendOk =>
    simp only [step] at hstep
    split at hstep
    · split at hstep <;>
      · cases hstep
        exact ⟨h.lists, h.streams⟩
    · cases hstep
  | timeout =>
    simp only [step] at hstep
    split at hstep
    · cases hstep
      exact h
    · cases hstep

theorem inv_step (h : s.Inv host content pos) (hkeeps : Keeps host content pos e)
    (hstep : s.step host theirs e = some s') (hdistinct : s'.wire.Distinct) : s'.Inv host content pos := by
  have hlists := (distinct_step hstep hdistinct).lists
  cases e with
  | peer m e =>
    obtain ⟨p, hp, rfl⟩ := Option.map_eq_some_iff.1 hstep
    exact h.wired (h.wire.setPeer ((h.wire.origin m).step hkeeps hp)) (Wire.le_setPeer m p)
  | offer connId =>
    have hstep' : (s.wire.peer (host connId)).step (.getFileListPdu (theirs connId)) =
        some ((s.wire.peer (host connId)).getFileListPdu (theirs connId)).2 := rfl
    have hkeeps' : ServFiles.Event.Keeps (content (host connId)) pos
        (.getFileListPdu (theirs connId) : ServFiles.Event Handle) := trivial
    have hheld := (h.wire.origin (host connId)).held _ (List.mem_cons_self ..)
    have hpdu : ((s.wire.peer (host connId)).getFileListPdu (theirs connId)).1 =
        (s.wire.peer (host connId)).current.filesPdu := by
      unfold ServFiles.getFileListPdu
      split <;> rfl
    obtain rfl := Option.some.inj hstep
    refine h.wired ((h.wire.setPeer ((h.wire.origin _).step hkeeps' hstep')).offer fun hsome => ?_)
      ((Wire.le_setPeer _ _).trans (Wire.le_offer _ _))
    rw [hpdu] at hsome ⊢
    rcases hheld.1 with ⟨-, hnone⟩ | ⟨l, hl, hlpdu, -⟩
    · exact absurd hnone hsome
    · exact ⟨l, Wire.made_setPeer _ _ _ hl, hlpdu.symm⟩
  | serve connId request disk =>
    simp only [step] at hstep
    split at hstep
    · rename_i hasked
      have horigin := (h.wire.origin (host connId)).step (e := request.event disk (theirs connId)) hkeeps
        (answers_step request disk _ _)
      obtain rfl := Option.some.inj hstep
      refine h.wired ((h.wire.setPeer horigin).respond fun response hresponse hflag => ?_)
        ((Wire.le_setPeer _ _).trans (Wire.le_respond _ _ _))
      obtain ⟨hstream, hserved⟩ := served_results h.wire hkeeps hasked hflag hresponse
      exact ⟨request, hasked, hstream, hserved.mono fun m => Wire.made_setPeer _ _ _⟩
    · cases hstep
  | load connId formatData now =>
    simp only [step] at hstep
    split at hstep
    · rename_i hguard
      obtain ⟨c, hc, rfl⟩ := Option.map_eq_some_iff.1 hstep
      refine h.called hguard.1 hc fun m hm => ?_
      rcases FuseContext.mounted_load hc hm with hold | ⟨hconn, hpdu⟩
      · exact h.mounted m hold
      · rw [hconn, hpdu]
        exact hguard.2.2
    · cases hstep
  | context e =>
    simp only [step] at hstep
    split at hstep
    · rename_i hguard
      obtain ⟨c, hc, rfl⟩ := Option.map_eq_some_iff.1 hstep
      exact h.called hguard.1 hc fun m hm => h.mounted m (FuseContext.mounted_step hc hguard.2 hm)
    · cases hstep
  | read ino fh offset size streamId sendOk =>
    simp only [step] at hstep
    split at hstep
    · rename_i hguard
      split at hstep
      · cases hstep
        exact h
      · rename_i entry hentry
        split at hstep
        · cases hstep
          obtain ⟨m, i, hm, hslot, hnode, hindex, hconn, hid, hopened⟩ := h.context.readable hentry
          have hnew : streamId ∉ s.wire.streams := (List.nodup_cons.1 hdistinct.streams).1
          have hwire : Wire.Sound host content pos { s.wire with
              asked := (entry.connId, contentsRequest entry.index entry.clipDataId offset size streamId) ::
                s.wire.asked
              streams := streamId :: s.wire.streams } := h.wire.ask rfl rfl hnew
          have hinv := h.wired hwire
            ⟨fun _ => List.Subset.refl _, List.Subset.refl _, List.subset_cons_self .., List.Subset.refl _⟩
          refine hinv.received hinv.rx (fun r hr => ?_) hinv.done
          cases hr
          refine ⟨m, i, streamId, hopened, hslot, hconn, ?_, hguard.2.2.2, List.mem_cons_self .., h.mounted m hm,
            (h.context.mounted m hm).1, hnode⟩
          rw [hindex, hid]
        · cases hstep
          exact h
    · cases hstep
  | receive connId response =>
    simp only [step] at hstep
    split at hstep
    · rename_i hanswered
      cases hstep
      refine h.received (fun r hr => ?_) h.reading h.done
      rcases List.mem_append.1 hr with hr | hr
      · exact h.rx r hr
      · rw [List.mem_singleton.1 hr]
        exact ⟨connId, hanswered⟩
    · cases hstep
  | take sendOk =>
    simp only [step] at hstep
    split at hstep
    · rename_i r reply rx hr hrx
      have hrest : ∀ response ∈ rx, ∃ connId, (connId, response) ∈ s.wire.answered :=
        fun response hmem => h.rx response (hrx ▸ List.mem_cons_of_mem _ hmem)
      obtain ⟨m, i, streamId, hawaits⟩ := h.reading r hr
      split at hstep
      · cases hstep
        exact h.received hrest h.reading h.done
      · rename_i again hturn
        obtain rfl := Reading.take_again hturn
        cases hstep
        have hinv := (h.received hrest h.reading h.done).wired (h.wire.repeat hawaits.asked)
          ⟨fun _ => List.Subset.refl _, List.Subset.refl _, List.subset_cons_self .., List.Subset.refl _⟩
        refine hinv.received hrest (fun r' hr' => ?_) hinv.done
        cases hr'
        exact ⟨m, i, streamId, { hawaits with asked := List.mem_cons_of_mem _ hawaits.asked }⟩
      · cases hstep
        exact h.received hrest (fun r hr => by cases hr) h.done
      · rename_i bytes hturn
        obtain ⟨hstream, hflag, rfl⟩ := Reading.take_data hturn
        cases hstep
        refine h.received hrest (fun r hr => by cases hr) fun d hd => ?_
        rcases List.mem_cons.1 hd with rfl | hd
        · exact h.data hlists hr (hrx ▸ List.mem_cons_self ..) hstream hflag
        · exact h.done d hd
    · cases hstep
  | timeout =>
    simp only [step] at hstep
    split at hstep
    · cases hstep
      exact h.received h.rx (fun r hr => by cases hr) h.done
    · cases hstep

theorem inv_of_exec {history : List (Paste Machine Handle × PasteEvent Machine Handle)}
    (hx : Exec Init (step host theirs) history s) (hkeeps : ∀ p ∈ history, Keeps host content pos p.2)
    (hdistinct : s.wire.Distinct) : s.Inv host content pos := by
  induction hx with
  | start hs =>
    subst hs
    exact inv_start
  | snoc hx hstep ih =>
    have hbefore := ih (fun p hp => hkeeps p (List.mem_cons_of_mem _ hp)) (distinct_step hstep hdistinct)
    exact inv_step hbefore (hkeeps _ (List.mem_cons_self ..)) hstep hdistinct

end Steps

/-- The names on the way down to a file are its name in the list, where that has the directories first. -/
theorem named (h : s.Inv host content pos) {o : Opened} (ho : o ∈ s.context.opened) {m : Mount}
    (hm : o.mount = some m) {l : Listed Handle} (hl : l ∈ s.wire.made (host m.connId)) (hpdu : l.pdu = m.pdu)
    (hfirst : FuseNode.ParentsFirst (l.files.map (described m.connId l.id))) {i : Nat} {file : LocalFile Handle}
    (hfile : l.files[i]? = some file) : ∃ names, FuseNode.pathOf m.tree (i + 1) (i + 2) = some names ∧
      ['/'].intercalate names = slashed file.descriptorName := by
  obtain ⟨now, files, hparse, hbuild⟩ := h.context.loaded o ho m hm
  obtain ⟨-, rfl⟩ := ((h.wire.origin _).built l hl).parsed hpdu hparse
  obtain ⟨tree, htree, -, hpath⟩ := FuseNode.buildTree_spec now (valid_of_parse hparse)
  rw [hbuild] at htree
  cases htree
  have hdesc : (l.files.map (described m.connId l.id))[i]? = some (described m.connId l.id file) := by
    rw [List.getElem?_map, hfile, Option.map_some]
  exact ⟨_, hpath hfirst i _ hdesc, intercalate_pieces _⟩

section Pasted

variable [DecidableEq Machine]

/-- Over every run in which no file changes its content and neither lists nor reads share a number: the bytes of a
read that succeeded are those of the file its handle was opened on, in the list that was loaded then; a handle is
given out once, and those of a node are sorted, which is what looking for one by halves needs; and a file is found
under the name it has in its list. -/
theorem paste_reads {history : List (Paste Machine Handle × PasteEvent Machine Handle)}
    (hx : Exec Init (step host theirs) history s) (hkeeps : ∀ p ∈ history, Keeps host content pos p.2)
    (hlists : ∀ m, (s.wire.peer m).built.Nodup) (hstreams : s.wire.streams.Nodup) :
    (∀ d ∈ s.done, s.Delivered host content d) ∧
    (∀ o ∈ s.context.opened, ∀ o' ∈ s.context.opened, o.fh = o'.fh → o = o') ∧
    (∀ node ∈ s.context.fs.server.files, node.fileHandlers.Pairwise (· < ·)) ∧
    (∀ o ∈ s.context.opened, ∀ m l i file, o.mount = some m → l ∈ s.wire.made (host m.connId) → l.pdu = m.pdu →
      l.files[i]? = some file → FuseNode.ParentsFirst (l.files.map (described m.connId l.id)) →
      ∃ names, FuseNode.pathOf m.tree (i + 1) (i + 2) = some names ∧
        ['/'].intercalate names = slashed file.descriptorName) := by
  have hinv := inv_of_exec hx hkeeps ⟨hlists, hstreams⟩
  refine ⟨hinv.done, fun o ho o' ho' heq => ?_, hinv.context.sorted, ?_⟩
  · exact List.inj_on_of_nodup_map hinv.context.nodup ho ho' heq
  · intro o ho m l i file hm hl hpdu hfile hfirst
    exact named hinv ho hm hl hpdu hfirst hfile

end Pasted

/-! A file is copied and read from its second byte on; then another is copied and loaded under the same inode, and
read, while the first handle is no longer one of the new tree. -/

def bytesOf (path : Text) : List UInt8 := if path = ['g'] then [120, 121] else [97, 98, 99]

/-- A disk with one file, a handle being the position in it. -/
def oneFile (name : Text) : Disk fun _ => Nat where
  fingerprint _ := {}
  constructFileList _ := .ok [{ ClipFiles.threeBytesFile with
    path := name, name := name, descriptorName := name, size := (bytesOf name).length.toUInt64 }]
  isDir _ := false
  isFile _ := true
  openFile _ := .ok 0
  metadata := fun {path} _ => some ((bytesOf path).length, some 0)
  seek _ n := .ok n
  readExact := fun {path} handle n =>
    if handle + n ≤ (bytesOf path).length then .ok (((bytesOf path).drop handle).take n, handle + n)
    else .error "failed to fill whole buffer"

theorem oneFile_keeps (name : Text) : (oneFile name).Keeps bytesOf (fun handle => handle) where
  openFile := by
    rintro path handle h
    cases h
    rfl
  seek := by
    rintro path handle handle' n h
    cases h
    rfl
  readExact := by
    rintro path handle handle' n bytes h
    simp only [oneFile] at h
    split_ifs at h with hlen
    cases h
    refine ⟨rfl, ?_, rfl⟩
    rw [List.length_take, List.length_drop]
    omega

def firstFiles : ServFiles fun _ => Nat :=
  (({} : ServFiles _).syncFiles (oneFile ['f']) [['f']] (Vector.replicate 16 7)).2

def laterFiles : ServFiles fun _ => Nat :=
  (firstFiles.syncFiles (oneFile ['g']) [['g']] (Vector.replicate 16 8)).2

def pasteEvents : List (PasteEvent Unit fun _ => Nat) :=
  [.peer () (.syncFiles (oneFile ['f']) [['f']] (Vector.replicate 16 7)), .offer 1,
    .load 1 firstFiles.current.filesPdu 0, .context (.openFile 2), .read 2 0 1 5 7 true,
    .serve 1 (contentsRequest 0 firstFiles.current.id 1 5 7) (oneFile ['f']), .receive 1 ⟨1, 7, [98, 99]⟩, .take true,
    .peer () (.syncFiles (oneFile ['g']) [['g']] (Vector.replicate 16 8)), .offer 1,
    .load 1 laterFiles.current.filesPdu 1, .context (.openFile 2), .read 2 1 0 5 8 true,
    .serve 1 (contentsRequest 0 laterFiles.current.id 0 5 8) (oneFile ['g']), .receive 1 ⟨1, 8, [120, 121]⟩,
    .take true, .read 2 0 0 2 9 true]

theorem paste_runs : (trace (step (fun _ => ()) fun c => c) {} pasteEvents).isSome = true := by
  decide +kernel

theorem pasteEvents_keep : ∀ e ∈ pasteEvents, Keeps (fun _ => ()) (fun _ => bytesOf) (fun handle => handle) e := by
  have hcopied : ∀ name, ∀ fileList, (oneFile name).constructFileList [name] = .ok fileList →
      ∀ file ∈ fileList, file.handle = none ∧ file.offset = 0 := by
    intro name fileList hlist file hfile
    cases hlist
    rw [List.mem_singleton.1 hfile]
    exact ⟨rfl, rfl⟩
  simp only [pasteEvents, List.forall_mem_cons]
  exact ⟨hcopied ['f'], trivial, trivial, trivial, trivial, oneFile_keeps ['f'], trivial, trivial, hcopied ['g'],
    trivial, trivial, trivial, trivial, oneFile_keeps ['g'], trivial, trivial, trivial, fun e he => by cases he⟩

theorem paste_reads_both : ∃ s : Paste Unit fun _ => Nat,
    s.done = [⟨2, 1, 0, 5, [120, 121]⟩, ⟨2, 0, 1, 5, [98, 99]⟩] ∧
    ∀ d ∈ s.done, s.Delivered (fun _ => ()) (fun _ => bytesOf) d := by
  have hstart : Exec Init (step (fun _ => ()) fun c => c) [] ({} : Paste Unit fun _ => Nat) := .start rfl
  have hx := hstart.trace (Option.some_get paste_runs).symm
  rw [List.append_nil] at hx
  have hevents := trace_events (Option.some_get paste_runs).symm
  refine ⟨_, ?_, (paste_reads hx (fun p hp => pasteEvents_keep p.2 (hevents p hp)) ?_ ?_).1⟩
  · decide +kernel
  · intro m
    cases m
    decide +kernel
  · decide +kernel

end Paste

end FontisRemote.Clipboard
