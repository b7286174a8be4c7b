import FontisRemote.Clipboard.Contents
import FontisRemote.Lib.Run

/-!
# Clipboards kept the same, without an echo

Either side reads its clipboard when the system says that it changed, sends what it reads, and sets its clipboard
to what it is sent. What it sets carries a marker, `dyn.com.rustdesk.owner`, and nothing that carries the marker of
either side is sent when the system reports the change. At the start of a session the client sends what it holds
whatever the marker.

`arboard` is outside: what was set is found when it is read, and nothing else is. Whether the peer takes several
items at once is decided by its version (`is_support_multi_clipboard`) and given here for each side. The steps are
those of two parties and of the users at them; an update runs on a thread of its own, so that they may be taken out
of order.
-/

namespace FontisRemote.Clipboard

open FontisRemote.Lib

/-- `arboard::ClipboardFormat` -/
inductive ClipboardFormat
  | text
  | html
  | rtf
  | imageRgba
  | imagePng
  | imageSvg
  | fileUrl
  | special (name : Utf8Text)
deriving DecidableEq

theorem valid_of_ascii {bytes : List UInt8} (h : bytes.all (· < 128) = true) : fromUtf8 bytes = true :=
  fromUtf8_iff.2 (.of_ascii fun b hb => of_decide_eq_true (List.all_eq_true.1 h b hb))

/-- `"dyn.com.rustdesk.owner"` -/
def RUSTDESK_CLIPBOARD_OWNER_FORMAT : Utf8Text where
  bytes := "dyn.com.rustdesk.owner".toList.map fun c => c.toNat.toUInt8
  valid := valid_of_ascii rfl

/-- `"XML Spreadsheet"` -/
def CLIPBOARD_FORMAT_EXCEL_XML_SPREADSHEET : Utf8Text where
  bytes := "XML Spreadsheet".toList.map fun c => c.toNat.toUInt8
  valid := valid_of_ascii rfl

def CLIPBOARD_GET_MAX_RETRY : Nat := 3

/-- The system clipboard. A marker that is set last is found among what is read. -/
structure Arboard (Board : Type) where
  getFormats : Board → List ClipboardFormat → List ClipboardData
  setFormats : Board → List ClipboardData → Option Board
  only_set : ∀ board data set, setFormats board data = some set →
    ∀ formats, ∀ d ∈ getFormats set formats, d = .none ∨ d ∈ data
  last_set : ∀ board data name content set, setFormats board (data ++ [.special name content]) = some set →
    ∀ formats, .special name ∈ formats → .special name content ∈ getFormats set formats

inductive ClipboardSide
  | host
  | client
deriving DecidableEq, Repr

namespace ClipboardSide

def other : ClipboardSide → ClipboardSide
  | host => client
  | client => host

def getOwnerData : ClipboardSide → List UInt8
  | host => [0b01]
  | client => [0b10]

/-- The same for either side. -/
def isOwner (_ : ClipboardSide) : List UInt8 → Bool
  | [] => false
  | b :: _ => b &&& 0b11 != 0

theorem isOwner_getOwnerData (side marked : ClipboardSide) : side.isOwner marked.getOwnerData = true := by
  cases marked <;> rfl

end ClipboardSide

def ownerMarker (side : ClipboardSide) : ClipboardData := .special RUSTDESK_CLIPBOARD_OWNER_FORMAT side.getOwnerData

def appendOwnerMarker (data : List ClipboardData) (side : ClipboardSide) : List ClipboardData :=
  data ++ [ownerMarker side]

/-- The second filter of `get_formats_filter`: no marker, no empty text. -/
def ClipboardData.synchronized : ClipboardData → Bool
  | .special name _ => name != RUSTDESK_CLIPBOARD_OWNER_FORMAT
  | .text s => !s.bytes.isEmpty
  | _ => true

def ClipboardData.marks (side : ClipboardSide) : ClipboardData → Bool
  | .special name data => name == RUSTDESK_CLIPBOARD_OWNER_FORMAT && side.isOwner data
  | _ => false

def ClipboardData.isFileUrl : ClipboardData → Bool
  | .fileUrl _ => true
  | _ => false

/-! ## Reading and setting -/

section Context

variable {Board : Type} (arboard : Arboard Board) (zstd : Zstd) (unixFileCopyPaste : Bool)

def supportedFormats : List ClipboardFormat :=
  [.text, .html, .rtf, .imageRgba, .imagePng, .imageSvg] ++ (if unixFileCopyPaste then [.fileUrl] else []) ++
    [.special CLIPBOARD_FORMAT_EXCEL_XML_SPREADSHEET, .special RUSTDESK_CLIPBOARD_OWNER_FORMAT]

/-- `ClipboardContext::get_formats`, where this many tries find the clipboard occupied. -/
def getFormats (board : Board) (occupied : Nat) (formats : List ClipboardFormat) : Option (List ClipboardData) :=
  if occupied < CLIPBOARD_GET_MAX_RETRY then
    some ((arboard.getFormats board formats).filter fun c => c != .none)
  else none

def getFormatsFilter (board : Board) (occupied : Nat) (formats : List ClipboardFormat) (side : ClipboardSide)
    (force : Bool) : Option (List ClipboardData) :=
  (getFormats arboard board occupied formats).map fun data =>
    if data.isEmpty then data
    else if !force && data.any (ClipboardData.marks side) then []
    else data.filter ClipboardData.synchronized

/-- `ClipboardContext::get` -/
def get (board : Board) (occupied : Nat) (side : ClipboardSide) (force : Bool) : Option (List ClipboardData) :=
  (getFormatsFilter arboard board occupied (supportedFormats unixFileCopyPaste) side force).map fun data =>
    if unixFileCopyPaste && data.any ClipboardData.isFileUrl then [] else data

def readClipboardMessage (board : Board) (occupied : Nat) (side : ClipboardSide) (force : Bool) :
    Option (List ProtoClipboard) :=
  match get arboard unixFileCopyPaste board occupied side force with
  | some content => if !content.isEmpty then some (createMultiClipboards zstd content) else none
  | none => none

/-- The board after `update_clipboard`; a board that could not be set stays. -/
def updateClipboard (board : Board) (multiClipboards : List ProtoClipboard) (side : ClipboardSide) : Board :=
  let toUpdateData := fromMultiClipboards zstd multiClipboards
  if toUpdateData.isEmpty then board
  else (arboard.setFormats board (appendOwnerMarker toUpdateData side)).getD board

end Context

/-- What is put on the wire: several items, or one text for a peer that takes one. -/
inductive Union
  | clipboard (c : ProtoClipboard)
  | multiClipboards (cs : List ProtoClipboard)
deriving DecidableEq

namespace Union

def items : Union → List ProtoClipboard
  | clipboard c => [c]
  | multiClipboards cs => cs

def firstText (cs : List ProtoClipboard) : Option ProtoClipboard := cs.find? fun c => c.format == some .text

/-- `get_msg_if_not_support_multi_clip`, and the message itself where that gives none. -/
def outgoing (supportsMulti : Bool) (cs : List ProtoClipboard) : Union :=
  if supportsMulti then .multiClipboards cs
  else ((firstText cs).map Union.clipboard).getD (.multiClipboards cs)

/-- `get_current_clipboard_msg`, from the message that was read. -/
def initial (supportsMulti : Bool) (cs : List ProtoClipboard) : Option Union :=
  if cs.isEmpty then none
  else if supportsMulti then some (.multiClipboards cs)
  else (firstText cs).map Union.clipboard

theorem items_outgoing {supportsMulti : Bool} {cs : List ProtoClipboard} {c : ProtoClipboard}
    (h : c ∈ (outgoing supportsMulti cs).items) : c ∈ cs := by
  unfold outgoing at h
  split at h
  · exact h
  · cases hf : firstText cs with
    | none =>
      rw [hf] at h
      exact h
    | some first =>
      rw [hf] at h
      rw [List.mem_singleton.1 h]
      exact List.mem_of_find?_eq_some hf

theorem items_initial {supportsMulti : Bool} {cs : List ProtoClipboard} {msg : Union} {c : ProtoClipboard}
    (hmsg : initial supportsMulti cs = some msg) (h : c ∈ msg.items) : c ∈ cs := by
  unfold initial at hmsg
  split at hmsg
  · cases hmsg
  · split at hmsg
    · cases hmsg
      exact h
    · obtain ⟨first, hf, rfl⟩ := Option.map_eq_some_iff.1 hmsg
      rw [List.mem_singleton.1 h]
      exact List.mem_of_find?_eq_some hf

end Union

/-! ## Two sides -/

structure Party (Board : Type) where
  board : Board
  /-- What the users at this side had on their clipboard, the first included. -/
  copied : List Board
  /-- What this side sent as it changed, newest first. -/
  sent : List Union := []
  /-- Sent by the other side and not applied yet. -/
  incoming : List Union := []

structure Session (Board : Type) where
  party : ClipboardSide → Party Board

inductive SyncEvent (Board : Type)
  /-- A program at this side sets the clipboard. -/
  | copy (side : ClipboardSide) (board : Board)
  /-- The listener of this side is told of a change; `skip` where the host leaves out what it typed itself. -/
  | changed (side : ClipboardSide) (occupied : Nat) (skip : Bool)
  /-- The client sends what it holds at the start. -/
  | initial (occupied : Nat)
  /-- The update with this message runs at this side. -/
  | update (side : ClipboardSide) (k : Nat)

namespace Session

variable {Board : Type} (arboard : Arboard Board) (zstd : Zstd) (unixFileCopyPaste : Bool)
variable (supportsMulti : ClipboardSide → Bool)

def set (s : Session Board) (side : ClipboardSide) (p : Party Board) : Session Board where
  party x := if x = side then p else s.party x

def deliver (s : Session Board) (side : ClipboardSide) (msg : Union) : Session Board :=
  s.set side { s.party side with incoming := (s.party side).incoming ++ [msg] }

def step (s : Session Board) : SyncEvent Board → Option (Session Board)
  | .copy side board =>
    some (s.set side { s.party side with board := board, copied := board :: (s.party side).copied })
  | .changed side occupied skip =>
    match readClipboardMessage arboard zstd unixFileCopyPaste (s.party side).board occupied side false with
    | some cs =>
      if skip then some s
      else
        let msg := Union.outgoing (supportsMulti side.other) cs
        some ((s.set side { s.party side with sent := msg :: (s.party side).sent }).deliver side.other msg)
    | none => some s
  | .initial occupied =>
    match (readClipboardMessage arboard zstd unixFileCopyPaste (s.party .client).board occupied .client true).bind
      (Union.initial (supportsMulti .host)) with
    | some msg => some (s.deliver .host msg)
    | none => some s
  | .update side k =>
    match (s.party side).incoming[k]? with
    | some msg =>
      some (s.set side
        { s.party side with
          board := updateClipboard arboard zstd (s.party side).board msg.items side
          incoming := (s.party side).incoming.eraseIdx k })
    | none => none

def Init (s : Session Board) : Prop :=
  ∀ side, (s.party side).copied = [(s.party side).board] ∧ (s.party side).sent = [] ∧ (s.party side).incoming = []

end Session

/-! ## Reading what was set -/

section Reads

variable {Board : Type} {arboard : Arboard Board} {zstd : Zstd} {unixFileCopyPaste : Bool}
variable {board set : Board} {data content : List ClipboardData} {side : ClipboardSide} {force : Bool} {occupied : Nat}

theorem owner_supported : .special RUSTDESK_CLIPBOARD_OWNER_FORMAT ∈ supportedFormats unixFileCopyPaste :=
  List.mem_append_right _ (List.mem_cons_of_mem _ (List.mem_cons_self ..))

/-- What is read for sending is on the board, is no marker and no empty text. -/
theorem mem_of_get (h : get arboard unixFileCopyPaste board occupied side force = some content) :
    ∀ d ∈ content, d ∈ arboard.getFormats board (supportedFormats unixFileCopyPaste) ∧ d ≠ .none ∧
      d.synchronized = true := by
  intro d hd
  obtain ⟨filtered, hf, rfl⟩ := Option.map_eq_some_iff.1 h
  have hd' : d ∈ filtered := by
    split at hd
    · cases hd
    · exact hd
  obtain ⟨read, hr, rfl⟩ := Option.map_eq_some_iff.1 hf
  obtain ⟨hocc, hread⟩ := Option.ite_none_right_eq_some.1 hr
  cases hread
  split at hd'
  · rename_i hempty
    rw [List.isEmpty_iff.1 hempty] at hd'
    cases hd'
  · split at hd'
    · cases hd'
    · obtain ⟨hmem, hsync⟩ := List.mem_filter.1 hd'
      obtain ⟨hmem, hne⟩ := List.mem_filter.1 hmem
      exact ⟨hmem, by simpa using hne, hsync⟩

theorem marks_ownerMarker (reader : ClipboardSide) : (ownerMarker side).marks reader = true := by
  rw [ownerMarker, ClipboardData.marks, beq_self_eq_true, Bool.true_and]
  exact ClipboardSide.isOwner_getOwnerData reader side

/-- What carries a marker is not sent when the system reports a change. -/
theorem read_marked (h : arboard.setFormats board (appendOwnerMarker data side) = some set)
    (reader : ClipboardSide) : readClipboardMessage arboard zstd unixFileCopyPaste set occupied reader false = none := by
  have hmarker : ownerMarker side ∈ arboard.getFormats set (supportedFormats unixFileCopyPaste) :=
    arboard.last_set _ _ _ _ _ h _ owner_supported
  have hread : ownerMarker side ∈
      (arboard.getFormats set (supportedFormats unixFileCopyPaste)).filter fun c => c != .none :=
    List.mem_filter.2 ⟨hmarker, rfl⟩
  have hempty : ∀ content, get arboard unixFileCopyPaste set occupied reader false = some content → content = [] := by
    intro content hget
    obtain ⟨filtered, hf, rfl⟩ := Option.map_eq_some_iff.1 hget
    obtain ⟨read, hr, rfl⟩ := Option.map_eq_some_iff.1 hf
    obtain ⟨-, hr⟩ := Option.ite_none_right_eq_some.1 hr
    cases hr
    have hany := List.any_eq_true.2 ⟨_, hread, marks_ownerMarker reader⟩
    have hne : ¬ ((arboard.getFormats set (supportedFormats unixFileCopyPaste)).filter fun c => c != .none).isEmpty =
        true := by
      intro he
      rw [List.isEmpty_iff.1 he] at hread
      cases hread
    rw [if_neg hne, Bool.not_false, Bool.true_and, if_pos hany]
    exact ite_self _
  unfold readClipboardMessage
  split
  · rename_i content hget
    rw [hempty content hget]
    rfl
  · rfl

theorem items_of_read {cs : List ProtoClipboard}
    (h : readClipboardMessage arboard zstd unixFileCopyPaste board occupied side force = some cs) :
    ∀ c ∈ cs, ∃ d ∈ arboard.getFormats board (supportedFormats unixFileCopyPaste), d ≠ .none ∧
      d.synchronized = true ∧ clipboardDataToProto zstd d = some c := by
  unfold readClipboardMessage at h
  split at h
  · rename_i content hget
    split at h
    · cases h
      intro c hc
      obtain ⟨d, hd, hdc⟩ := List.mem_filterMap.1 hc
      obtain ⟨hmem, hne, hsync⟩ := mem_of_get hget d hd
      exact ⟨d, hmem, hne, hsync, hdc⟩
    · cases h
  · cases h

end Reads

/-! ## Where everything comes from -/

namespace Session

variable {Board : Type} {arboard : Arboard Board} {zstd : Zstd} {unixFileCopyPaste : Bool}
variable {supportsMulti : ClipboardSide → Bool} {s s' : Session Board} {side : ClipboardSide}

/-- Some user at either side had this item on the clipboard. -/
def FromCopy (arboard : Arboard Board) (s : Session Board) (d : ClipboardData) : Prop :=
  ∃ side, ∃ b ∈ (s.party side).copied, (∃ formats, d ∈ arboard.getFormats b formats) ∧ d ≠ .none ∧
    d.synchronized = true

/-- What the users have on their clipboards can be sent. -/
def CopiesSendable (arboard : Arboard Board) (zstd : Zstd) (s : Session Board) : Prop :=
  ∀ side, ∀ b ∈ (s.party side).copied, ∀ formats, ∀ d ∈ arboard.getFormats b formats, d.Sendable zstd

/-- A board that an update left: items that come from a user, and the marker. -/
def Synced (arboard : Arboard Board) (s : Session Board) (side : ClipboardSide) (b : Board) : Prop :=
  ∃ before data, arboard.setFormats before (appendOwnerMarker data side) = some b ∧
    ∀ d ∈ data, FromCopy arboard s d

/-- The items of a message come from a user. -/
def ItemsFromCopy (arboard : Arboard Board) (zstd : Zstd) (s : Session Board) (msg : Union) : Prop :=
  ∀ c ∈ msg.items, ∃ d, FromCopy arboard s d ∧ clipboardDataToProto zstd d = some c

/-- What a side sent when its clipboard changed is what a user at that side had on it. -/
def SentOwn (arboard : Arboard Board) (zstd : Zstd) (unixFileCopyPaste : Bool) (supportsMulti : ClipboardSide → Bool)
    (s : Session Board) (side : ClipboardSide) (msg : Union) : Prop :=
  ∃ b ∈ (s.party side).copied, ∃ occupied cs,
    readClipboardMessage arboard zstd unixFileCopyPaste b occupied side false = some cs ∧
      msg = Union.outgoing (supportsMulti side.other) cs

structure Traced (arboard : Arboard Board) (zstd : Zstd) (unixFileCopyPaste : Bool)
    (supportsMulti : ClipboardSide → Bool) (s : Session Board) : Prop where
  board : ∀ side, (s.party side).board ∈ (s.party side).copied ∨ Synced arboard s side (s.party side).board
  incoming : ∀ side, ∀ msg ∈ (s.party side).incoming, ItemsFromCopy arboard zstd s msg
  sent : ∀ side, ∀ msg ∈ (s.party side).sent, SentOwn arboard zstd unixFileCopyPaste supportsMulti s side msg

section Grows

variable (hle : ∀ side, ∀ b ∈ (s.party side).copied, b ∈ (s'.party side).copied)

include hle

theorem FromCopy.mono {d : ClipboardData} (h : FromCopy arboard s d) : FromCopy arboard s' d := by
  obtain ⟨side, b, hb, hd⟩ := h
  exact ⟨side, b, hle side b hb, hd⟩

theorem Synced.mono {b : Board} (h : Synced arboard s side b) : Synced arboard s' side b := by
  obtain ⟨before, data, hset, hd⟩ := h
  exact ⟨before, data, hset, fun d hmem => (hd d hmem).mono hle⟩

theorem ItemsFromCopy.mono {msg : Union} (h : ItemsFromCopy arboard zstd s msg) :
    ItemsFromCopy arboard zstd s' msg := by
  intro c hc
  obtain ⟨d, hd, hdc⟩ := h c hc
  exact ⟨d, hd.mono hle, hdc⟩

theorem SentOwn.mono {msg : Union} (h : SentOwn arboard zstd unixFileCopyPaste supportsMulti s side msg) :
    SentOwn arboard zstd unixFileCopyPaste supportsMulti s' side msg := by
  obtain ⟨b, hb, hread⟩ := h
  exact ⟨b, hle side b hb, hread⟩

end Grows

@[simp] theorem party_set_self {p : Party Board} : (s.set side p).party side = p := if_pos rfl

theorem party_set_of_ne {p : Party Board} {x : ClipboardSide} (h : x ≠ side) : (s.set side p).party x = s.party x :=
  if_neg h

theorem copied_set {p : Party Board} (h : ∀ b ∈ (s.party side).copied, b ∈ p.copied) :
    ∀ x, ∀ b ∈ (s.party x).copied, b ∈ ((s.set side p).party x).copied := by
  intro x b hb
  by_cases hx : x = side
  · subst hx
    rw [party_set_self]
    exact h b hb
  · rwa [party_set_of_ne hx]

/-- A step only adds to what the users had on their clipboards. -/
def Grown (s s' : Session Board) : Prop := ∀ x, ∀ b ∈ (s.party x).copied, b ∈ (s'.party x).copied

/-- The one party that a step writes is traced again, and the other with it. -/
theorem Traced.set {p : Party Board} (h : Traced arboard zstd unixFileCopyPaste supportsMulti s)
    (hle : ∀ b ∈ (s.party side).copied, b ∈ p.copied)
    (hboard : Grown s (s.set side p) → p.board ∈ p.copied ∨ Synced arboard (s.set side p) side p.board)
    (hincoming : Grown s (s.set side p) → ∀ msg ∈ p.incoming, ItemsFromCopy arboard zstd (s.set side p) msg)
    (hsent : Grown s (s.set side p) →
      ∀ msg ∈ p.sent, SentOwn arboard zstd unixFileCopyPaste supportsMulti (s.set side p) side msg) :
    Traced arboard zstd unixFileCopyPaste supportsMulti (s.set side p) := by
  have hgrown : Grown s (s.set side p) := copied_set hle
  refine ⟨fun x => ?_, fun x => ?_, fun x => ?_⟩ <;> by_cases hx : x = side
  · subst hx
    rw [party_set_self]
    exact hboard hgrown
  · rw [party_set_of_ne hx]
    exact (h.board x).imp_right (Synced.mono hgrown)
  · subst hx
    rw [party_set_self]
    exact hincoming hgrown
  · rw [party_set_of_ne hx]
    exact fun msg hmsg => (h.incoming x msg hmsg).mono hgrown
  · subst hx
    rw [party_set_self]
    exact hsent hgrown
  · rw [party_set_of_ne hx]
    exact fun msg hmsg => (h.sent x msg hmsg).mono hgrown

/-- What the update puts on the board comes from a user, where all that the message carries was sendable. -/
theorem synced_update (hsend : CopiesSendable arboard zstd s) {msg : Union} (hmsg : ItemsFromCopy arboard zstd s msg)
    (board : Board) :
    updateClipboard arboard zstd board msg.items side = board ∨
      Synced arboard s side (updateClipboard arboard zstd board msg.items side) := by
  unfold updateClipboard
  dsimp only
  split
  · exact .inl rfl
  · cases hset : arboard.setFormats board (appendOwnerMarker (fromMultiClipboards zstd msg.items) side) with
    | none => exact .inl rfl
    | some set =>
      refine .inr ⟨board, fromMultiClipboards zstd msg.items, hset, ?_⟩
      intro d hd
      obtain ⟨c, hc, hfrom⟩ := List.mem_filterMap.1 hd
      obtain ⟨e, he, hec⟩ := hmsg c hc
      have hsendable : e.Sendable zstd := by
        obtain ⟨x, b, hb, ⟨formats, hmem⟩, -⟩ := he
        exact hsend x b hb formats e hmem
      rw [fromClipboard_toProto hsendable hec] at hfrom
      exact Option.some.inj hfrom ▸ he

/-- What is read off a traced board, by force or not, comes from a user. -/
theorem itemsFromCopy_of_read (h : Traced arboard zstd unixFileCopyPaste supportsMulti s) {occupied : Nat}
    {force : Bool} {cs : List ProtoClipboard}
    (hread : readClipboardMessage arboard zstd unixFileCopyPaste (s.party side).board occupied side force = some cs) :
    ∀ c ∈ cs, ∃ d, FromCopy arboard s d ∧ clipboardDataToProto zstd d = some c := by
  intro c hc
  obtain ⟨d, hmem, hne, hsync, hdc⟩ := items_of_read hread c hc
  refine ⟨d, ?_, hdc⟩
  rcases h.board side with hcopied | ⟨before, data, hset, hdata⟩
  · exact ⟨side, _, hcopied, ⟨_, hmem⟩, hne, hsync⟩
  · rcases arboard.only_set _ _ _ hset _ d hmem with hnone | hd
    · exact absurd hnone hne
    · rcases List.mem_append.1 hd with hd | hd
      · exact hdata d hd
      · -- The marker itself is filtered out.
        rw [List.mem_singleton.1 hd] at hsync
        simp [ownerMarker, ClipboardData.synchronized] at hsync

theorem traced_deliver {msg : Union} (h : Traced arboard zstd unixFileCopyPaste supportsMulti s)
    (hmsg : ItemsFromCopy arboard zstd s msg) :
    Traced arboard zstd unixFileCopyPaste supportsMulti (s.deliver side msg) := by
  refine h.set (fun _ hb => hb) (fun hgrown => ?_) (fun hgrown m hm => ?_) fun hgrown m hm => ?_
  · exact (h.board side).imp_right (Synced.mono hgrown)
  · rcases List.mem_append.1 hm with hm | hm
    · exact (h.incoming side m hm).mono hgrown
    · rw [List.mem_singleton.1 hm]
      exact hmsg.mono hgrown
  · exact (h.sent side m hm).mono hgrown

/-- What is sent as a clipboard changes was read off a board without a marker, so off one that a user left. -/
theorem traced_changed (h : Traced arboard zstd unixFileCopyPaste supportsMulti s) {occupied : Nat}
    {cs : List ProtoClipboard}
    (hread : readClipboardMessage arboard zstd unixFileCopyPaste (s.party side).board occupied side false = some cs) :
    Traced arboard zstd unixFileCopyPaste supportsMulti ((s.set side
      { s.party side with
        sent := Union.outgoing (supportsMulti side.other) cs :: (s.party side).sent }).deliver side.other
          (Union.outgoing (supportsMulti side.other) cs)) := by
  have hown : (s.party side).board ∈ (s.party side).copied := by
    rcases h.board side with hcopied | ⟨before, data, hset, -⟩
    · exact hcopied
    · rw [read_marked hset] at hread
      cases hread
  generalize hmsg : Union.outgoing (supportsMulti side.other) cs = msg
  have hitems : ItemsFromCopy arboard zstd s msg := by
    intro c hc
    exact itemsFromCopy_of_read h hread c (Union.items_outgoing (hmsg ▸ hc))
  generalize hp : { s.party side with sent := msg :: (s.party side).sent } = p
  have hgrown : Grown s (s.set side p) := copied_set (by subst hp; exact fun _ hb => hb)
  refine traced_deliver (h.set (by subst hp; exact fun _ hb => hb) (fun _ => ?_) (fun _ m hm => ?_) fun _ m hm => ?_)
    (hitems.mono hgrown)
  · subst hp
    exact .inl hown
  · have hm' : m ∈ (s.party side).incoming := by
      subst hp
      exact hm
    exact (h.incoming side m hm').mono hgrown
  · have hm' : m = msg ∨ m ∈ (s.party side).sent := by
      subst hp
      exact List.mem_cons.1 hm
    rcases hm' with rfl | hm'
    · exact ⟨_, hgrown side _ hown, occupied, cs, hread, hmsg.symm⟩
    · exact (h.sent side m hm').mono hgrown

theorem traced_update (hsend : CopiesSendable arboard zstd s)
    (h : Traced arboard zstd unixFileCopyPaste supportsMulti s) {msg : Union} (hmsg : msg ∈ (s.party side).incoming)
    (k : Nat) :
    Traced arboard zstd unixFileCopyPaste supportsMulti (s.set side
      { s.party side with
        board := updateClipboard arboard zstd (s.party side).board msg.items side
        incoming := (s.party side).incoming.eraseIdx k }) := by
  generalize hnew : updateClipboard arboard zstd (s.party side).board msg.items side = new
  refine h.set (fun _ hb => hb) (fun hgrown => ?_) (fun hgrown m hm => ?_) fun hgrown m hm => ?_
  · rcases synced_update hsend (h.incoming side msg hmsg) (s.party side).board with hsame | hsynced
    · obtain rfl := hsame.symm.trans hnew
      exact (h.board side).imp_right (Synced.mono hgrown)
    · rw [hnew] at hsynced
      exact .inr (hsynced.mono hgrown)
  · exact (h.incoming side m (List.mem_of_mem_eraseIdx hm)).mono hgrown
  · exact (h.sent side m hm).mono hgrown

theorem traced_step {e : SyncEvent Board} (hsend : CopiesSendable arboard zstd s)
    (h : Traced arboard zstd unixFileCopyPaste supportsMulti s)
    (hstep : s.step arboard zstd unixFileCopyPaste supportsMulti e = some s') :
    Traced arboard zstd unixFileCopyPaste supportsMulti s' := by
  cases e with
  | copy side board =>
    cases hstep
    refine h.set (fun _ hb => List.mem_cons_of_mem _ hb) (fun _ => .inl (List.mem_cons_self ..)) ?_ ?_
    · exact fun hgrown m hm => (h.incoming side m hm).mono hgrown
    · exact fun hgrown m hm => (h.sent side m hm).mono hgrown
  | changed side occupied skip =>
    rw [step] at hstep
    split at hstep
    · rename_i cs hread
      split at hstep
      · cases hstep
        exact h
      · cases hstep
        exact traced_changed h hread
    · cases hstep
      exact h
  | initial occupied =>
    rw [step] at hstep
    split at hstep
    · rename_i msg hmsg
      cases hstep
      obtain ⟨cs, hread, hinitial⟩ := Option.bind_eq_some_iff.1 hmsg
      refine traced_deliver h ?_
      intro c hc
      exact itemsFromCopy_of_read h hread c (Union.items_initial hinitial hc)
    · cases hstep
      exact h
  | update side k =>
    rw [step] at hstep
    split at hstep
    · rename_i msg hmsg
      cases hstep
      exact traced_update hsend h (List.mem_of_getElem? hmsg) k
    · cases hstep

/-- What users had on their clipboards is not forgotten. -/
theorem copied_step {e : SyncEvent Board} (hstep : s.step arboard zstd unixFileCopyPaste supportsMulti e = some s') :
    Grown s s' := by
  cases e with
  | copy side board =>
    cases hstep
    exact copied_set fun _ hb => List.mem_cons_of_mem _ hb
  | changed side occupied skip =>
    rw [step] at hstep
    split at hstep
    · split at hstep
      · cases hstep
        exact fun _ _ hb => hb
      · cases hstep
        intro x b hb
        refine copied_set ?_ x b (copied_set ?_ x b hb)
        · exact fun _ hb => hb
        · exact fun _ hb => hb
    · cases hstep
      exact fun _ _ hb => hb
  | initial occupied =>
    rw [step] at hstep
    split at hstep
    · cases hstep
      exact copied_set fun _ hb => hb
    · cases hstep
      exact fun _ _ hb => hb
  | update side k =>
    rw [step] at hstep
    split at hstep
    · cases hstep
      exact copied_set fun _ hb => hb
    · cases hstep

end Session

section Runs

variable {Board : Type} {arboard : Arboard Board} {zstd : Zstd} {unixFileCopyPaste : Bool}
variable {supportsMulti : ClipboardSide → Bool} {h : List (Session Board × SyncEvent Board)} {s : Session Board}

/-- Clipboard synchronization makes no echo and nothing up. In every run, in which users copy at both sides, changes
are reported, messages cross and updates run out of order: what a side sends as its clipboard changes is what a user
at that side had on it, and never what the other side sent; and all that an update puts on a board, its marker apart,
some user had on a clipboard at one of the sides, byte for byte. -/
theorem clipboard_sync_traced (hx : Exec Session.Init (Session.step arboard zstd unixFileCopyPaste supportsMulti) h s)
    (hsend : Session.CopiesSendable arboard zstd s) (side : ClipboardSide) :
    (∀ msg ∈ (s.party side).sent, Session.SentOwn arboard zstd unixFileCopyPaste supportsMulti s side msg) ∧
      ((s.party side).board ∈ (s.party side).copied ∨
        ∀ formats, ∀ d ∈ arboard.getFormats (s.party side).board formats,
          d = .none ∨ d = ownerMarker side ∨ Session.FromCopy arboard s d) := by
  have htraced : Session.Traced arboard zstd unixFileCopyPaste supportsMulti s := by
    induction hx with
    | start hi =>
      refine ⟨fun x => .inl ?_, fun x m hm => ?_, fun x m hm => ?_⟩
      · rw [(hi x).1]
        exact List.mem_cons_self ..
      · rw [(hi x).2.2] at hm
        cases hm
      · rw [(hi x).2.1] at hm
        cases hm
    | snoc hx hstep ih =>
      have hle := Session.copied_step hstep
      have hsend' := fun x b hb => hsend x b (hle x b hb)
      exact Session.traced_step hsend' (ih hsend') hstep
  refine ⟨htraced.sent side, (htraced.board side).imp_right ?_⟩
  rintro ⟨before, data, hset, hdata⟩ formats d hd
  rcases arboard.only_set _ _ _ hset formats d hd with hnone | hmem
  · exact .inl hnone
  · rcases List.mem_append.1 hmem with hmem | hmem
    · exact .inr (.inr (hdata d hmem))
    · exact .inr (.inl (List.mem_singleton.1 hmem))

/-- The format an item is found under. -/
def ClipboardData.format : ClipboardData → Option ClipboardFormat
  | .text _ => some .text
  | .html _ => some .html
  | .rtf _ => some .rtf
  | .rgba _ _ _ => some .imageRgba
  | .png _ => some .imagePng
  | .svg _ => some .imageSvg
  | .fileUrl _ => some .fileUrl
  | .special name _ => some (.special name)
  | .none => Option.none

/-- The item of a format that was set last. -/
def lookup (board : List ClipboardData) (format : ClipboardFormat) : ClipboardData :=
  (board.reverse.find? fun d => d.format == some format).getD .none

theorem lookup_mem {board : List ClipboardData} {formats : List ClipboardFormat} {d : ClipboardData}
    (h : d ∈ formats.map (lookup board)) : d = .none ∨ d ∈ board := by
  obtain ⟨format, -, rfl⟩ := List.mem_map.1 h
  unfold lookup
  cases hf : board.reverse.find? fun d => d.format == some format with
  | none => exact .inl rfl
  | some found => exact .inr (List.mem_reverse.1 (List.mem_of_find?_eq_some hf))

/-- A board that keeps what it is given. -/
def listBoard : Arboard (List ClipboardData) where
  getFormats board formats := formats.map (lookup board)
  setFormats _ data := some data
  only_set := by
    rintro board data set h formats d hd
    cases h
    exact lookup_mem hd
  last_set := by
    rintro board data name content set h formats hmem
    cases h
    refine List.mem_map.2 ⟨_, hmem, ?_⟩
    simp [lookup, ClipboardData.format]

/-- A codec that makes nothing shorter. -/
def stored : Zstd where
  compress := some
  decode := some
  restores _ _ h := h.symm

/-- The client copies an image, it is sent and set at the host, and the host is told of the change. -/
def imageCopied : List (SyncEvent (List ClipboardData)) :=
  [.copy .client [.png [1, 2]], .changed .client 0 false, .update .host 0, .changed .host 0 false]

theorem clipboard_sync_traced_image : ∃ r,
    trace (Session.step listBoard stored true fun _ => true) ⟨fun _ => ⟨[], [[]], [], []⟩⟩ imageCopied = some r ∧
    (∀ msg ∈ (r.2.party .host).sent,
      Session.SentOwn listBoard stored true (fun _ => true) r.2 .host msg) ∧
    ((r.2.party .host).board ∈ (r.2.party .host).copied ∨
      ∀ formats, ∀ d ∈ listBoard.getFormats (r.2.party .host).board formats,
        d = .none ∨ d = ownerMarker .host ∨ Session.FromCopy listBoard r.2 d) := by
  obtain ⟨r, hr⟩ : ∃ r, trace (Session.step listBoard stored true fun _ => true) ⟨fun _ => ⟨[], [[]], [], []⟩⟩
      imageCopied = some r := ⟨_, rfl⟩
  have hx : Exec Session.Init _ (r.1 ++ []) r.2 := Exec.trace (.start fun _ => ⟨rfl, rfl, rfl⟩) hr
  rw [List.append_nil] at hx
  refine ⟨r, hr, clipboard_sync_traced hx ?_ .host⟩
  have hcopied : ∀ side, ∀ b ∈ (r.2.party side).copied, b = [] ∨ b = [.png [1, 2]] := by
    intro side b hb
    cases hr
    cases side
    · exact .inl (List.mem_singleton.1 hb)
    · rcases List.mem_cons.1 hb with rfl | hb
      · exact .inr rfl
      · exact .inl (List.mem_singleton.1 hb)
  intro side b hb formats d hd
  rcases lookup_mem hd with rfl | hd
  · trivial
  · rcases hcopied side b hb with rfl | rfl
    · cases hd
    · rw [List.mem_singleton.1 hd]
      trivial

end Runs

end FontisRemote.Clipboard
