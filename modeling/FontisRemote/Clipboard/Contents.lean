import FontisRemote.Lib.Checked
import FontisRemote.Lib.Utf8
import Mathlib.Data.List.Basic

/-!
# Clipboard contents on the wire

`clipboard.rs`, module `proto`: what is read off the system clipboard is sent item by item, compressed where that
makes it shorter, and turned back where it arrives. Files have a service of their own and are not sent here.

A text is its UTF-8 bytes. The codec is outside: it either compresses or reports an error, and decodes what it
compressed to what it was. An enumeration value this build does not know is `none`.
-/

namespace FontisRemote.Clipboard

open FontisRemote.Lib

/-- A `String`. -/
structure Utf8Text where
  bytes : List UInt8
  valid : fromUtf8 bytes = true
deriving DecidableEq

/-- `arboard::ClipboardData` -/
inductive ClipboardData
  | text (s : Utf8Text)
  | html (s : Utf8Text)
  | rtf (s : Utf8Text)
  | rgba (width height : Nat) (bytes : List UInt8)
  | png (bytes : List UInt8)
  | svg (s : Utf8Text)
  | fileUrl (urls : List Utf8Text)
  | special (name : Utf8Text) (data : List UInt8)
  | none
deriving DecidableEq

inductive ProtoFormat
  | text
  | rtf
  | html
  | imageRgba
  | imagePng
  | imageSvg
  | special
deriving DecidableEq, Repr

/-- The message `Clipboard`. -/
structure ProtoClipboard where
  compress : Bool
  content : List UInt8
  width : Int32 := 0
  height : Int32 := 0
  format : Option ProtoFormat
  specialName : List UInt8 := []
deriving DecidableEq

/-- The codec. -/
structure Zstd where
  compress : List UInt8 → Option (List UInt8)
  decode : List UInt8 → Option (List UInt8)
  restores : ∀ data compressed, compress data = some compressed → decode compressed = some data

def MAX_DECOMPRESSED_SIZE : Nat := 256 * 1024 * 1024

namespace Zstd

variable (zstd : Zstd)

/-- An error leaves nothing. -/
def compressFunc (data : List UInt8) : List UInt8 := (zstd.compress data).getD []

def decompress (data : List UInt8) : List UInt8 :=
  match zstd.decode data with
  | some output => if MAX_DECOMPRESSED_SIZE < output.length then [] else output
  | none => []

/-- The flag and the content that are sent for these bytes. -/
def packed (data : List UInt8) : Bool × List UInt8 :=
  let compressed := zstd.compressFunc data
  if compressed.length < data.length then (true, compressed) else (false, data)

/-- The bytes that are taken from a flag and a content. -/
def unpacked (compress : Bool) (content : List UInt8) : List UInt8 :=
  if compress then zstd.decompress content else content

end Zstd

def validRgbaDimensions (width height : Int32) (dataLen : Nat) : Option (Nat × Nat) :=
  if width < 0 ∨ height < 0 then none
  else if width = 0 ∨ height = 0 then none
  else do
    let area ← checkedMul 64 width.toInt.toNat height.toInt.toNat
    let expectedLen ← checkedMul 64 area 4
    if dataLen = expectedLen then some (width.toInt.toNat, height.toInt.toNat) else none

/-! ## To the wire and back -/

section Wire

variable (zstd : Zstd)

def plainToProto (s : Utf8Text) (format : ProtoFormat) : ProtoClipboard where
  compress := (zstd.packed s.bytes).1
  content := (zstd.packed s.bytes).2
  format := some format

def specialToProto (d : List UInt8) (s : Utf8Text) : ProtoClipboard where
  compress := (zstd.packed d).1
  content := (zstd.packed d).2
  format := some .special
  specialName := s.bytes

def clipboardDataToProto : ClipboardData → Option ProtoClipboard
  | .text s => some (plainToProto zstd s .text)
  | .rtf s => some (plainToProto zstd s .rtf)
  | .html s => some (plainToProto zstd s .html)
  | .rgba width height bytes =>
    some
      { compress := (zstd.packed bytes).1
        content := (zstd.packed bytes).2
        width := Int32.ofNat width
        height := Int32.ofNat height
        format := some .imageRgba }
  | .png bytes => some { compress := false, content := bytes, format := some .imagePng }
  | .svg s =>
    some { compress := (zstd.packed s.bytes).1, content := (zstd.packed s.bytes).2, format := some .imageSvg }
  | .special s d => some (specialToProto zstd d s)
  | .fileUrl _ => none
  | .none => none

def createMultiClipboards (vecData : List ClipboardData) : List ProtoClipboard :=
  vecData.filterMap (clipboardDataToProto zstd)

/-- `String::from_utf8(..).ok()` -/
def utf8Text? (bytes : List UInt8) : Option Utf8Text :=
  if h : fromUtf8 bytes = true then some ⟨bytes, h⟩ else none

def emptyText : Utf8Text := ⟨[], fromUtf8_iff.2 .nil⟩

def fromClipboard (clipboard : ProtoClipboard) : Option ClipboardData :=
  let data := zstd.unpacked clipboard.compress clipboard.content
  match clipboard.format with
  | some .text => (utf8Text? data).map .text
  | some .rtf => (utf8Text? data).map .rtf
  | some .html => (utf8Text? data).map .html
  | some .imageRgba =>
    (validRgbaDimensions clipboard.width clipboard.height data.length).map fun dims =>
      .rgba dims.1 dims.2 data
  | some .imagePng => some (.png data)
  | some .imageSvg => some (.svg ((utf8Text? data).getD emptyText))
  | some .special => (utf8Text? clipboard.specialName).map fun name => .special name data
  | none => none

def fromMultiClipboards (multiClipboards : List ProtoClipboard) : List ClipboardData :=
  multiClipboards.filterMap (fromClipboard zstd)

end Wire

/-! ## What arrives as it was sent -/

section RoundTrip

variable {zstd : Zstd} {data : List UInt8} {s : Utf8Text}

/-- The bytes are decoded again if the codec took them and they are not too many. -/
def Zstd.Carries (zstd : Zstd) (data : List UInt8) : Prop :=
  (zstd.compress data).isSome = true ∧ data.length ≤ MAX_DECOMPRESSED_SIZE

/-- What is sent of this item and not lost: the bytes are carried, an image has the bytes of its size and
the size fits. -/
def ClipboardData.Sendable (zstd : Zstd) : ClipboardData → Prop
  | .text s => zstd.Carries s.bytes
  | .html s => zstd.Carries s.bytes
  | .rtf s => zstd.Carries s.bytes
  | .rgba width height bytes =>
    zstd.Carries bytes ∧ 0 < width ∧ width < 2 ^ 31 ∧ 0 < height ∧ height < 2 ^ 31 ∧ bytes.length = width * height * 4
  | .png _ => True
  | .svg s => zstd.Carries s.bytes
  | .fileUrl _ => True
  | .special _ data => zstd.Carries data
  | .none => True

theorem unpacked_packed (h : zstd.Carries data) :
    zstd.unpacked (zstd.packed data).1 (zstd.packed data).2 = data := by
  obtain ⟨hsome, hlen⟩ := h
  obtain ⟨compressed, hc⟩ := Option.isSome_iff_exists.1 hsome
  unfold Zstd.packed Zstd.unpacked
  dsimp only
  split
  · rw [if_pos rfl, Zstd.compressFunc, hc, Option.getD_some, Zstd.decompress, zstd.restores data compressed hc]
    exact if_neg (Nat.not_lt.2 hlen)
  · exact if_neg Bool.false_ne_true

theorem utf8Text?_bytes : utf8Text? s.bytes = some s := dif_pos s.valid

theorem validRgbaDimensions_ofNat {width height : Nat} (hw : 0 < width) (hw' : width < 2 ^ 31) (hh : 0 < height)
    (hh' : height < 2 ^ 31) :
    validRgbaDimensions (Int32.ofNat width) (Int32.ofNat height) (width * height * 4) = some (width, height) := by
  have htoInt : ∀ {n : Nat}, n < 2 ^ 31 → (Int32.ofNat n).toInt = n := fun h => Int32.toInt_ofNat_of_lt h
  have hpos : ∀ {n : Nat}, 0 < n → n < 2 ^ 31 → ¬ Int32.ofNat n < 0 ∧ Int32.ofNat n ≠ 0 := by
    intro n h0 h
    constructor
    · rw [Int32.lt_iff_toInt_lt, htoInt h]
      simp
    · intro he
      have := congrArg Int32.toInt he
      rw [htoInt h] at this
      simp at this
      omega
  have harea : width * height < 2 ^ 62 := by
    calc width * height < 2 ^ 31 * 2 ^ 31 := Nat.mul_lt_mul'' hw' hh'
      _ = 2 ^ 62 := rfl
  unfold validRgbaDimensions
  rw [if_neg (by simp [hpos hw hw', hpos hh hh']), if_neg (by simp [hpos hw hw', hpos hh hh']), htoInt hw', htoInt hh',
    Int.toNat_natCast, Int.toNat_natCast, checkedMul_of_lt (by omega), some_bind, checkedMul_of_lt (by omega), some_bind,
    if_pos rfl]

/-- An item that is sent arrives as it was. -/
theorem fromClipboard_toProto {d : ClipboardData} {c : ProtoClipboard} (h : d.Sendable zstd)
    (hc : clipboardDataToProto zstd d = some c) : fromClipboard zstd c = some d := by
  cases d with
  | text s =>
    cases hc
    rw [fromClipboard, plainToProto, unpacked_packed h]
    simp [utf8Text?_bytes]
  | html s =>
    cases hc
    rw [fromClipboard, plainToProto, unpacked_packed h]
    simp [utf8Text?_bytes]
  | rtf s =>
    cases hc
    rw [fromClipboard, plainToProto, unpacked_packed h]
    simp [utf8Text?_bytes]
  | rgba width height bytes =>
    cases hc
    obtain ⟨hbytes, hw, hw', hh, hh', hlen⟩ := h
    rw [fromClipboard]
    dsimp only
    rw [unpacked_packed hbytes, hlen, validRgbaDimensions_ofNat hw hw' hh hh', Option.map_some]
  | png bytes =>
    cases hc
    rfl
  | svg s =>
    cases hc
    rw [fromClipboard, unpacked_packed h]
    simp [utf8Text?_bytes]
  | special name data =>
    cases hc
    rw [fromClipboard, specialToProto, unpacked_packed h]
    simp [utf8Text?_bytes]
  | fileUrl urls => cases hc
  | none => cases hc

end RoundTrip

end FontisRemote.Clipboard
