import Mathlib.Data.List.Infix
import Mathlib.Data.List.Perm.Basic
import FontisRemote.Lib.Assoc
import FontisRemote.Lib.Run
import FontisRemote.Lib.Tally

/-!
# The negotiated codec

`Encoder` of the capture library keeps one codec format for all video services. `update` chooses it
anew, from what the peers can decode and prefer, whenever a peer comes, goes or changes its mind; a video
thread that sets up its encoder reads it, works out a configuration and writes the format of that back
(`set_fallback`), because the hardware may not do what was chosen; and an encoder that cannot be made
sets it to VP9.

A step is a region of code under one lock. `update` holds the lock of `PEER_DECODINGS` to its end.
-/

namespace FontisRemote.Video

open FontisRemote.Lib

inductive CodecFormat
  | vp8
  | vp9
  | av1
  | h264
  | h265
  | unknown
deriving DecidableEq, Repr

/-- `PreferCodec`, or a number that is none of them. -/
inductive PreferCodec
  | auto
  | vp9
  | h264
  | h265
  | vp8
  | av1
  | unrecognized (n : Int)
deriving DecidableEq, Repr

structure SupportedDecoding where
  abilityVp9 : Int := 0
  abilityH264 : Int := 0
  abilityH265 : Int := 0
  abilityVp8 : Int := 0
  abilityAv1 : Int := 0
  prefer : PreferCodec := .auto
deriving DecidableEq, Repr

def SupportedDecoding.ability (decoding : SupportedDecoding) : CodecFormat → Int
  | .vp8 => decoding.abilityVp8
  | .vp9 => decoding.abilityVp9
  | .av1 => decoding.abilityAv1
  | .h264 => decoding.abilityH264
  | .h265 => decoding.abilityH265
  | .unknown => 0

inductive EncodingUpdate
  | update (id : Int) (decoding : SupportedDecoding)
  | remove (id : Int)
  | newOnlyVP9 (id : Int)
  | check
deriving DecidableEq, Repr

/-- What `update` finds out about the machine and its options. -/
structure Machine where
  disableAv1 : Bool
  /-- The option is not `N`. -/
  av1Test : Bool
  /-- `enable_vram_option`, and an encoder for the format is available. -/
  vram : CodecFormat → Bool
  /-- `enable_hwcodec_option`, and there is an encoder for the format. -/
  hwcodec : CodecFormat → Bool
  totalMemory : Nat

/-! ## The choice -/

abbrev Decodings := List (Int × SupportedDecoding)

namespace Decodings

variable (machine : Machine) (decodings : Decodings)

/-- There are peers and all of them decode the format. -/
def allDecode (format : CodecFormat) : Bool :=
  decide (decodings.length > 0) && decodings.all fun p => decide (p.2.ability format > 0)

def vp8Useable : Bool :=
  allDecode decodings .vp8

def av1Useable : Bool :=
  allDecode decodings .av1 && !machine.disableAv1

/-- `h264vram_encoding` or `h264hw_encoding`, and the same for the other format that only hardware
encodes. -/
def hardwareEncoding (format : CodecFormat) : Bool :=
  (machine.vram format && allDecode decodings format) ||
    (machine.hwcodec format && allDecode decodings format)

/-- `h264_useable` and `h265_useable`. -/
def hardwareUseable (format : CodecFormat) : Bool :=
  allDecode decodings format && hardwareEncoding machine decodings format

/-- The preferences that are counted. -/
def useable : PreferCodec → Bool
  | .vp9 => true
  | .vp8 => vp8Useable decodings
  | .av1 => av1Useable machine decodings
  | .h264 => hardwareUseable machine decodings .h264
  | .h265 => hardwareUseable machine decodings .h265
  | .auto => false
  | .unrecognized _ => false

/-- `auto_codec` before the memory is looked at: h265 > h264 > av1/vp9. -/
def bestCodec : CodecFormat :=
  if hardwareUseable machine decodings .h265 then .h265
  else if hardwareUseable machine decodings .h264 then .h264
  else if av1Useable machine decodings && machine.av1Test then .av1
  else .vp9

/-- `auto_codec`. -/
def autoCodec : CodecFormat :=
  let codec := bestCodec machine decodings
  if (codec = .vp9 ∨ codec = .av1) ∧ vp8Useable decodings ∧
      machine.totalMemory ≤ 4 * 1024 * 1024 * 1024 then .vp8
  else codec

/-- The format for the peers, which are counted in some order. -/
def choose (order : Decodings) : CodecFormat :=
  let preferences :=
    (order.filter fun p => useable machine decodings p.2.prefer).map fun p => p.2.prefer
  match (mostFrequent preferences).getD .auto with
  | .vp8 => .vp8
  | .vp9 => .vp9
  | .av1 => .av1
  | .h264 => if hardwareEncoding machine decodings .h264 then .h264 else autoCodec machine decodings
  | .h265 => if hardwareEncoding machine decodings .h265 then .h265 else autoCodec machine decodings
  | .auto => autoCodec machine decodings
  | .unrecognized _ => autoCodec machine decodings

end Decodings

/-! ## A configuration -/

inductive EncoderCfg
  | vp8
  | vp9
  | aom
  | hwram (name : List Char)
  /-- With the format of its feature. -/
  | vram (dataFormat : CodecFormat)
deriving DecidableEq, Repr

/-- What `set_fallback` makes of the name of a hardware encoder. -/
def hwFormat (name : List Char) : CodecFormat :=
  let name := name.map Char.toLower
  if "vp8".toList <:+: name then .vp8
  else if "vp9".toList <:+: name then .vp9
  else if "av1".toList <:+: name then .av1
  else if "h264".toList <:+: name then .h264
  else .h265

namespace EncoderCfg

def format : EncoderCfg → CodecFormat
  | .vp8 => .vp8
  | .vp9 => .vp9
  | .aom => .av1
  | .hwram name => hwFormat name
  | .vram dataFormat => dataFormat

/-- An encoder of this kind that cannot be made has the format set to VP9. -/
def isHardware : EncoderCfg → Bool
  | .hwram _ => true
  | .vram _ => true
  | _ => false

/-- `get_encoder_config`, given whether the device has a feature for the format and the name of the other
hardware encoder. The features are filtered by their format. -/
def forCodec (vram : Bool) (hw : Option (List Char)) (negotiated : CodecFormat) : EncoderCfg :=
  match negotiated with
  | .h264 => if vram then .vram .h264 else (hw.map .hwram).getD .vp9
  | .h265 => if vram then .vram .h265 else (hw.map .hwram).getD .vp9
  | .vp8 => .vp8
  | .vp9 => .vp9
  | .av1 => .aom
  | .unknown => .vp9

end EncoderCfg

/-! ## The video threads -/

/-- Where a video thread is in `setup_encoder`; `retry` in the second one, after the first failed. -/
inductive Setup
  | idle
  /-- It has its configuration, `set_fallback` has not looked at the format yet. -/
  | configured (cfg : EncoderCfg) (retry : Bool)
  /-- `set_fallback` has seen another format and is about to write. -/
  | writing (cfg : EncoderCfg) (retry : Bool)
  /-- `Encoder::new` is still to come. -/
  | creating (cfg : EncoderCfg) (retry : Bool)
  /-- The first setup has failed, `set_fallback` with VP9 is to come. -/
  | failed
  | writingVp9
  /-- The second setup is to come. -/
  | retrying
deriving DecidableEq, Repr

/-- The format whose write-back is still to come. -/
def Setup.pending : Setup → Option CodecFormat
  | .configured cfg _ => some cfg.format
  | .writing cfg _ => some cfg.format
  | _ => none

structure Negotiation where
  /-- `PEER_DECODINGS`. -/
  decodings : Decodings := []
  /-- `ENCODE_CODEC_FORMAT`. -/
  format : CodecFormat := .vp9
  threads : Nat → Setup := fun _ => .idle

/-- What the peer of an update is entered with. -/
def EncodingUpdate.decoding : EncodingUpdate → Option SupportedDecoding
  | .update _ decoding => some decoding
  | .newOnlyVP9 _ => some { abilityVp9 := 1 }
  | _ => none

namespace Negotiation

inductive Event
  /-- `Encoder::update`; the peers are counted in the order in which the map is iterated. -/
  | update (update : EncodingUpdate) (machine : Machine) (order : Decodings)
  /-- A thread works out its configuration for the format it reads. -/
  | configure (t : Nat) (vram : Bool) (hw : CodecFormat → Option (List Char))
  /-- The first lock of `set_fallback`, -/
  | compare (t : Nat)
  /-- and the second. -/
  | writeBack (t : Nat)
  /-- `Encoder::new`. -/
  | create (t : Nat) (ok : Bool)

variable (s : Negotiation)

def setThread (t : Nat) (setup : Setup) : Negotiation :=
  { s with threads := Function.update s.threads t setup }

/-- The peers after an update. -/
def updated : EncodingUpdate → Decodings
  | .update id decoding => Assoc.put s.decodings id (some decoding)
  | .remove id => Assoc.erase s.decodings id
  | .newOnlyVP9 id => Assoc.put s.decodings id (some { abilityVp9 := 1 })
  | .check => s.decodings

def configure (t : Nat) (vram : Bool) (hw : CodecFormat → Option (List Char)) (retry : Bool) :
    Negotiation :=
  s.setThread t (.configured (EncoderCfg.forCodec vram (hw s.format) s.format) retry)

def step : Event → Option Negotiation
  | .update update machine order =>
    if order.Perm (s.updated update) then
      some { s with
        decodings := s.updated update
        format := (s.updated update).choose machine order }
    else none
  | .configure t vram hw =>
    match s.threads t with
    | .idle => some (s.configure t vram hw false)
    | .retrying => some (s.configure t vram hw true)
    | _ => none
  | .compare t =>
    match s.threads t with
    | .configured cfg retry =>
      some (s.setThread t (if s.format = cfg.format then .creating cfg retry else .writing cfg retry))
    | .failed => some (s.setThread t (if s.format = .vp9 then .retrying else .writingVp9))
    | _ => none
  | .writeBack t =>
    match s.threads t with
    | .writing cfg retry => some { s.setThread t (.creating cfg retry) with format := cfg.format }
    | .writingVp9 => some { s.setThread t .retrying with format := .vp9 }
    | _ => none
  | .create t ok =>
    match s.threads t with
    | .creating cfg retry =>
      if ok then some (s.setThread t .idle)
      else
        some { s.setThread t (if retry then .idle else .failed) with
          format := if cfg.isHardware then .vp9 else s.format }
    | _ => none

/-! ## What is claimed -/

/-- Every peer decodes the format. -/
def Decodable : Prop :=
  ∀ p ∈ s.decodings, 0 < p.2.ability s.format

end Negotiation

/-- The format of an explicit preference. -/
def PreferCodec.format : PreferCodec → Option CodecFormat
  | .vp9 => some .vp9
  | .h264 => some .h264
  | .h265 => some .h265
  | .vp8 => some .vp8
  | .av1 => some .av1
  | .auto => none
  | .unrecognized _ => none

namespace Decodings

variable (machine : Machine) (decodings : Decodings)

/-- How many peers ask for it. -/
def asking (prefer : PreferCodec) : Nat :=
  decodings.countP fun p => p.2.prefer = prefer

/-- The useable preference that most peers ask for, or the automatic choice where there is none. -/
def Chosen (format : CodecFormat) : Prop :=
  (∃ prefer, useable machine decodings prefer ∧ 0 < decodings.asking prefer ∧
    (∀ other, useable machine decodings other → decodings.asking other ≤ decodings.asking prefer) ∧
    prefer.format = some format) ∨
  ((∀ p ∈ decodings, useable machine decodings p.2.prefer = false) ∧
    format = autoCodec machine decodings)

variable {machine decodings}

theorem decode_of_allDecode {format : CodecFormat} (h : allDecode decodings format) :
    ∀ p ∈ decodings, 0 < p.2.ability format := by
  intro p hp
  unfold allDecode at h
  rw [Bool.and_eq_true, List.all_eq_true] at h
  exact of_decide_eq_true (h.2 p hp)

theorem allDecode_of_hardwareUseable {format : CodecFormat}
    (h : hardwareUseable machine decodings format) : allDecode decodings format := by
  unfold hardwareUseable at h
  rw [Bool.and_eq_true] at h
  exact h.1

/-- Every useable preference is one that all peers decode, as all decode VP9. -/
theorem decode_of_useable (hvp9 : ∀ p ∈ decodings, 0 < p.2.abilityVp9) {prefer : PreferCodec}
    {format : CodecFormat} (h : useable machine decodings prefer) (hformat : prefer.format = some format) :
    ∀ p ∈ decodings, 0 < p.2.ability format := by
  cases prefer with
  | vp9 =>
    cases hformat
    exact hvp9
  | vp8 =>
    cases hformat
    exact decode_of_allDecode h
  | av1 =>
    cases hformat
    simp only [useable, av1Useable, Bool.and_eq_true] at h
    exact decode_of_allDecode h.1
  | h264 =>
    cases hformat
    exact decode_of_allDecode (allDecode_of_hardwareUseable h)
  | h265 =>
    cases hformat
    exact decode_of_allDecode (allDecode_of_hardwareUseable h)
  | auto => cases hformat
  | unrecognized n => cases hformat

theorem decode_bestCodec (hvp9 : ∀ p ∈ decodings, 0 < p.2.abilityVp9) :
    ∀ p ∈ decodings, 0 < p.2.ability (bestCodec machine decodings) := by
  unfold bestCodec
  split
  · rename_i hh265
    exact decode_of_allDecode (allDecode_of_hardwareUseable hh265)
  · split
    · rename_i hh264
      exact decode_of_allDecode (allDecode_of_hardwareUseable hh264)
    · split
      · rename_i hav1
        rw [Bool.and_eq_true, av1Useable, Bool.and_eq_true] at hav1
        exact decode_of_allDecode hav1.1.1
      · exact hvp9

theorem decode_autoCodec (hvp9 : ∀ p ∈ decodings, 0 < p.2.abilityVp9) :
    ∀ p ∈ decodings, 0 < p.2.ability (autoCodec machine decodings) := by
  unfold autoCodec
  dsimp only
  split
  · rename_i hvp8
    exact decode_of_allDecode hvp8.2.1
  · exact decode_bestCodec hvp9

theorem Chosen.decode {format : CodecFormat} (h : Chosen machine decodings format)
    (hvp9 : ∀ p ∈ decodings, 0 < p.2.abilityVp9) : ∀ p ∈ decodings, 0 < p.2.ability format := by
  obtain ⟨prefer, huseable, -, -, hformat⟩ | ⟨-, rfl⟩ := h
  · exact decode_of_useable hvp9 huseable hformat
  · exact decode_autoCodec hvp9

/-- The preferences that are counted, by how many ask for each. -/
theorem count_preferences {order : Decodings} (hperm : order.Perm decodings) {prefer : PreferCodec}
    (h : useable machine decodings prefer) :
    ((order.filter fun p => useable machine decodings p.2.prefer).map fun p => p.2.prefer).count prefer =
      decodings.asking prefer := by
  rw [List.count, List.countP_map, List.countP_filter, asking, ← hperm.countP_eq]
  refine List.countP_congr fun p _ => ?_
  simp only [Function.comp_apply, Bool.and_eq_true, beq_iff_eq, decide_eq_true_eq]
  exact ⟨fun hp => hp.1, fun hp => ⟨hp, hp ▸ h⟩⟩

theorem chosen_choose {order : Decodings} (hperm : order.Perm decodings) :
    Chosen machine decodings (decodings.choose machine order) := by
  unfold choose
  dsimp only
  cases hmost : mostFrequent
      ((order.filter fun p => useable machine decodings p.2.prefer).map fun p => p.2.prefer) with
  | none =>
    refine .inr ⟨fun p hp => ?_, rfl⟩
    have hnil := List.map_eq_nil_iff.mp (mostFrequent_none hmost)
    exact Bool.eq_false_iff.mpr fun huse =>
      List.filter_eq_nil_iff.mp hnil p (hperm.mem_iff.mpr hp) huse
  | some prefer =>
    obtain ⟨hmem, hhighest⟩ := mostFrequent_some hmost
    obtain ⟨p, hp, rfl⟩ := List.mem_map.mp hmem
    have huse : useable machine decodings p.2.prefer := (List.mem_filter.mp hp).2
    have hcount := count_preferences hperm huse
    refine .inl ⟨p.2.prefer, huse, ?_, fun other hother => ?_, ?_⟩
    · rw [← hcount]
      exact List.count_pos_iff.mpr hmem
    · rw [← hcount, ← count_preferences hperm hother]
      exact hhighest other
    · cases hprefer : p.2.prefer with
      | vp8 => rfl
      | vp9 => rfl
      | av1 => rfl
      | h264 =>
        rw [hprefer] at huse
        simp only [useable, hardwareUseable, Bool.and_eq_true] at huse
        simp [PreferCodec.format, huse.2]
      | h265 =>
        rw [hprefer] at huse
        simp only [useable, hardwareUseable, Bool.and_eq_true] at huse
        simp [PreferCodec.format, huse.2]
      | auto =>
        rw [hprefer] at huse
        cases huse
      | unrecognized n =>
        rw [hprefer] at huse
        cases huse

end Decodings

/-! ## Any run -/

/-- The name of a hardware encoder says its format. -/
def Named (hw : CodecFormat → Option (List Char)) : Prop :=
  ∀ name, (hw .h264 = some name → hwFormat name = .h264) ∧ (hw .h265 = some name → hwFormat name = .h265)

/-- A configuration has the format it is for, or VP9. -/
theorem EncoderCfg.format_forCodec {hw : CodecFormat → Option (List Char)} (hnamed : Named hw)
    (vram : Bool) (negotiated : CodecFormat) :
    (forCodec vram (hw negotiated) negotiated).format = negotiated ∨
      (forCodec vram (hw negotiated) negotiated).format = .vp9 := by
  cases negotiated with
  | vp8 => exact .inl rfl
  | vp9 => exact .inl rfl
  | av1 => exact .inl rfl
  | unknown => exact .inr rfl
  | h264 =>
    cases vram with
    | true => exact .inl rfl
    | false =>
      cases hname : hw .h264 with
      | none => exact .inr rfl
      | some name => exact .inl ((hnamed name).1 hname)
  | h265 =>
    cases vram with
    | true => exact .inl rfl
    | false =>
      cases hname : hw .h265 with
      | none => exact .inr rfl
      | some name => exact .inl ((hnamed name).2 hname)

namespace Negotiation

/-- Every peer decodes VP9, and the names of the hardware encoders are what they are. -/
def Assumed : Event → Prop
  | .update update _ _ => ∀ decoding, update.decoding = some decoding → 0 < decoding.abilityVp9
  | .configure _ _ hw => Named hw
  | _ => True

/-- No peer comes in, or changes, that does not decode a format some thread is about to write back. -/
def Meets (s : Negotiation) : Event → Prop
  | .update update _ _ => ∀ decoding, update.decoding = some decoding →
    ∀ t format, (s.threads t).pending = some format → 0 < decoding.ability format
  | _ => True

/-- Every format that is there or on its way is one that all peers decode. -/
structure Safe (s : Negotiation) : Prop where
  vp9 : ∀ p ∈ s.decodings, 0 < p.2.abilityVp9
  format : s.Decodable
  pending : ∀ t format, (s.threads t).pending = some format → ∀ p ∈ s.decodings, 0 < p.2.ability format

variable {s s' : Negotiation}

/-- Whoever is in the map after an update was there before or has come in with it. -/
theorem mem_updated {update : EncodingUpdate} {p : Int × SupportedDecoding}
    (h : p ∈ s.updated update) : p ∈ s.decodings ∨ update.decoding = some p.2 := by
  cases update with
  | update id decoding =>
    obtain rfl | h := Assoc.mem_put h
    · exact .inr rfl
    · exact .inl h
  | newOnlyVP9 id =>
    obtain rfl | h := Assoc.mem_put h
    · exact .inr rfl
    · exact .inl h
  | remove id => exact .inl (List.mem_filter.mp h).1
  | check => exact .inl h

theorem Safe.update (h : s.Safe) {update : EncodingUpdate} {machine : Machine} {order : Decodings}
    (hassumed : Assumed (.update update machine order)) (hmeets : s.Meets (.update update machine order))
    (hperm : order.Perm (s.updated update)) :
    Safe { s with
      decodings := s.updated update
      format := (s.updated update).choose machine order } := by
  have hvp9 : ∀ p ∈ s.updated update, 0 < p.2.abilityVp9 := by
    intro p hp
    obtain hp | hp := mem_updated hp
    · exact h.vp9 p hp
    · exact hassumed p.2 hp
  refine ⟨hvp9, (Decodings.chosen_choose hperm).decode hvp9, fun t format hpending p hp => ?_⟩
  obtain hp | hp := mem_updated hp
  · exact h.pending t format hpending p hp
  · exact hmeets p.2 hp t format hpending

/-- A thread goes on, and may write a format that all peers decode. -/
theorem Safe.setThread (h : s.Safe) (t : Nat) {setup : Setup} {format : CodecFormat}
    (hformat : ∀ p ∈ s.decodings, 0 < p.2.ability format)
    (hpending : ∀ f, setup.pending = some f → ∀ p ∈ s.decodings, 0 < p.2.ability f) :
    Safe { s.setThread t setup with format := format } := by
  refine ⟨h.vp9, hformat, fun u f hf p hp => ?_⟩
  simp only [Negotiation.setThread, Function.update_apply] at hf
  split at hf
  · exact hpending f hf p hp
  · exact h.pending u f hf p hp

theorem Safe.configure (h : s.Safe) (t : Nat) (vram : Bool) {hw : CodecFormat → Option (List Char)}
    (hnamed : Named hw) (retry : Bool) : (s.configure t vram hw retry).Safe := by
  refine h.setThread t h.format fun f hf p hp => ?_
  cases hf
  obtain heq | heq := EncoderCfg.format_forCodec hnamed vram s.format
  · rw [heq]
    exact h.format p hp
  · rw [heq]
    exact h.vp9 p hp

theorem Safe.step (h : s.Safe) {e : Event} (hassumed : Assumed e) (hmeets : s.Meets e)
    (hstep : s.step e = some s') : s'.Safe := by
  cases e with
  | update update machine order =>
    simp only [Negotiation.step] at hstep
    split at hstep <;> cases hstep
    rename_i hperm
    exact h.update hassumed hmeets hperm
  | configure t vram hw =>
    simp only [Negotiation.step] at hstep
    split at hstep <;> cases hstep
    · exact h.configure t vram hassumed false
    · exact h.configure t vram hassumed true
  | compare t =>
    simp only [Negotiation.step] at hstep
    split at hstep <;> cases hstep
    · rename_i cfg retry hthread
      refine h.setThread t h.format fun f hf => ?_
      -- what is to be written is what it was before
      have hf' : f = cfg.format := by
        split at hf <;> cases hf
        rfl
      subst hf'
      exact h.pending t _ (by rw [hthread]; rfl)
    · refine h.setThread t h.format fun f hf => ?_
      split at hf <;> cases hf
  | writeBack t =>
    simp only [Negotiation.step] at hstep
    split at hstep <;> cases hstep
    · rename_i cfg retry hthread
      exact h.setThread t (h.pending t _ (by rw [hthread]; rfl)) nofun
    · exact h.setThread t h.vp9 nofun
  | create t ok =>
    simp only [Negotiation.step] at hstep
    split at hstep
    case h_2 => cases hstep
    rename_i cfg retry hthread
    split at hstep <;> cases hstep
    · exact h.setThread t h.format nofun
    · refine h.setThread t ?_ fun f hf => ?_
      · split
        · exact h.vp9
        · exact h.format
      · split at hf <;> cases hf

/-- Right after an update the format is the one that is claimed. -/
theorem chosen_of_step {update : EncodingUpdate} {machine : Machine} {order : Decodings}
    (hstep : s.step (.update update machine order) = some s') :
    Decodings.Chosen machine s'.decodings s'.format := by
  simp only [Negotiation.step] at hstep
  split at hstep <;> cases hstep
  rename_i hperm
  exact Decodings.chosen_choose hperm

/-- No peer yet. -/
def Init (s : Negotiation) : Prop :=
  s = {}

/-- As long as no peer comes in that does not decode a format on its way back, every peer decodes the
negotiated format; and after each update it is the useable preference of most peers, or the automatic
choice. -/
theorem format_decodable {history : List (Negotiation × Event)}
    (hx : Exec Init Negotiation.step history s) (hassumed : ∀ p ∈ history, Assumed p.2)
    (hmeets : ∀ p ∈ history, p.1.Meets p.2) :
    s.Decodable ∧ ∀ p ∈ history, ∀ update machine order after, p.2 = .update update machine order →
      p.1.step p.2 = some after → Decodings.Chosen machine after.decodings after.format := by
  constructor
  · have hsafe : s.Safe := by
      refine hx.invariant_of (I := Safe) (G := fun s e => Assumed e ∧ s.Meets e) ?_ ?_ fun p hp =>
        ⟨hassumed p hp, hmeets p hp⟩
      · rintro s rfl
        refine ⟨by simp, by simp [Decodable], ?_⟩
        intro t format hpending
        cases hpending
      · rintro s e s' hsafe ⟨hassume, hmeet⟩ hstep
        exact hsafe.step hassume hmeet hstep
    exact hsafe.format
  · rintro ⟨before, e⟩ - update machine order after rfl hstep
    exact chosen_of_step hstep

/-! ## A viewer who joins at the wrong time -/

/-- A machine with a hardware encoder for H264. -/
def encoding : Machine where
  disableAv1 := false
  av1Test := true
  vram _ := false
  hwcodec format := format = .h264
  totalMemory := 8 * 1024 * 1024 * 1024

def encoders : CodecFormat → Option (List Char)
  | .h264 => some "h264_nvenc".toList
  | _ => none

theorem named_encoders : Named encoders := by
  intro name
  refine ⟨fun h => ?_, fun h => by cases h⟩
  cases h
  decide

def viewer : SupportedDecoding where
  abilityVp9 := 1
  abilityH264 := 1
  prefer := .h264

/-- One peer that prefers H264, and a thread that sets up its encoder. -/
theorem format_decodable_one : ∃ history s, Exec Init Negotiation.step history s ∧
    s.format = .h264 ∧ s.decodings = [(1, viewer)] ∧ s.Decodable := by
  have h0 : Exec Init Negotiation.step [] {} := .start rfl
  have h1 := h0.snoc (e := .update (.update 1 viewer) encoding [(1, viewer)]) rfl
  have h2 := h1.snoc (e := .configure 0 false encoders) rfl
  have h3 := h2.snoc (e := .compare 0) rfl
  have h4 := h3.snoc (e := .create 0 true) rfl
  refine ⟨_, _, h4, by decide, by decide, (format_decodable h4 ?_ ?_).1⟩
  · intro p hp
    simp only [List.mem_cons, List.not_mem_nil, or_false] at hp
    obtain rfl | rfl | rfl | rfl := hp
    · trivial
    · trivial
    · exact named_encoders
    · intro decoding h
      cases h
      decide
  · intro p hp
    simp only [List.mem_cons, List.not_mem_nil, or_false] at hp
    obtain rfl | rfl | rfl | rfl := hp
    · trivial
    · trivial
    · trivial
    · intro decoding _ t format hpending
      cases hpending

/-- A peer that decodes VP9 only comes in after the thread has read the format and before it writes it
back. When the encoder is there, the format is one that this peer does not decode. -/
theorem joined_before_write_back : ∃ history s, Exec Init Negotiation.step history s ∧
    (∀ p ∈ history, Assumed p.2) ∧ (∀ t, s.threads t = .idle) ∧ s.format = .h264 ∧ ¬ s.Decodable := by
  have h0 : Exec Init Negotiation.step [] {} := .start rfl
  have h1 := h0.snoc (e := .update (.update 1 viewer) encoding [(1, viewer)]) rfl
  have h2 := h1.snoc (e := .configure 0 false encoders) rfl
  have h3 := h2.snoc
    (e := .update (.newOnlyVP9 2) encoding [(2, { abilityVp9 := 1 }), (1, viewer)]) rfl
  have h4 := h3.snoc (e := .compare 0) rfl
  have h5 := h4.snoc (e := .writeBack 0) rfl
  have h6 := h5.snoc (e := .create 0 true) rfl
  refine ⟨_, _, h6, ?_, fun t => ?_, by decide, fun hdecodable => ?_⟩
  · intro p hp
    simp only [List.mem_cons, List.not_mem_nil, or_false] at hp
    obtain rfl | rfl | rfl | rfl | rfl | rfl := hp
    · trivial
    · trivial
    · trivial
    · intro decoding h
      cases h
      decide
    · exact named_encoders
    · intro decoding h
      cases h
      decide
  · simp [setThread, configure]
  · have hpeer := hdecodable (2, { abilityVp9 := 1 }) (by decide)
    exact absurd hpeer (by decide)

end Negotiation

end FontisRemote.Video
