import FontisRemote.Audio.Resampler
import FontisRemote.Lib.Frames
import Mathlib.Data.List.Induction

/-!
# Resampling does not depend on the chunks

Output frame `k` lies at `k * input` of the whole stream, in units of a frame divided by the output rate, so
`next_position` is that less what was discarded. How many frames are written and how many discarded after a
chunk depends on how many frames came in altogether, and not on how they came.

The position is an unsigned number of 64 bits that is added to after the frame is written. `Fits` says that
the addition after the last frame a chunk completes does not leave them.
-/

namespace FontisRemote.Audio

open FontisRemote.Lib

variable {α : Type}

/-! ## Positions on the grid -/

/-- The frame before the position has come, and the one after it where the position lies between two. -/
def Arrived (output n p : Nat) : Prop := p / output < n ∧ (p % output ≠ 0 → p / output + 1 < n)

/-- How many output frames can be written once `n` input frames have come. -/
def arrivedFrames (input output n : Nat) : Nat := if n = 0 then 0 else (n - 1) * output / input + 1

/-- How many of them are discarded then. -/
def discardedFrames (input output n : Nat) : Nat := min (arrivedFrames input output n * input / output) n

section Grid

variable {input output n p k : Nat}

theorem arrived_iff (hout : 0 < output) : Arrived output n p ↔ p + output ≤ n * output := by
  have hdiv := Nat.div_add_mod p output
  have hmod := Nat.mod_lt p hout
  unfold Arrived
  by_cases hzero : p % output = 0
  · constructor
    · rintro ⟨hlt, -⟩
      have hmul := Nat.mul_le_mul_right output hlt
      rw [Nat.succ_mul] at hmul
      rw [Nat.mul_comm] at hdiv
      omega
    · intro hle
      refine ⟨?_, fun h => absurd hzero h⟩
      rw [Nat.div_lt_iff_lt_mul hout]
      omega
  · constructor
    · rintro ⟨-, hlt⟩
      have hmul := Nat.mul_le_mul_right output (hlt hzero)
      rw [Nat.succ_mul, Nat.add_mul, Nat.one_mul] at hmul
      rw [Nat.mul_comm] at hdiv
      omega
    · intro hle
      have hlt : p / output + 1 < n := by
        rw [← Nat.add_div_right p hout, Nat.div_lt_iff_lt_mul hout]
        by_contra hge
        -- A sum that is the whole bound is a multiple of the output rate.
        have heq : p + output = n * output := by omega
        have hdvd : (p + output) % output = 0 := by rw [heq, Nat.mul_mod_left]
        rw [Nat.add_mod_right] at hdvd
        exact hzero hdvd
      exact ⟨by omega, fun _ => hlt⟩

theorem lt_arrivedFrames_iff (hin : 0 < input) (hout : 0 < output) :
    k < arrivedFrames input output n ↔ Arrived output n (k * input) := by
  rw [arrived_iff hout]
  unfold arrivedFrames
  split
  · rename_i hn
    subst hn
    simp only [Nat.not_lt_zero, Nat.zero_mul, false_iff]
    omega
  · rename_i hn
    rw [Nat.lt_succ_iff, Nat.le_div_iff_mul_le hin]
    obtain ⟨m, rfl⟩ := Nat.exists_eq_succ_of_ne_zero hn
    rw [Nat.succ_sub_one, Nat.succ_mul]
    omega

theorem arrivedFrames_mono (hin : 0 < input) (hout : 0 < output) {m : Nat} (h : n ≤ m) :
    arrivedFrames input output n ≤ arrivedFrames input output m := by
  rcases Nat.eq_zero_or_pos (arrivedFrames input output n) with hzero | hpos
  · rw [hzero]
    exact Nat.zero_le _
  · have hlast := (lt_arrivedFrames_iff hin hout).1 (Nat.sub_one_lt (Nat.ne_of_gt hpos))
    rw [arrived_iff hout] at hlast
    have hmono := Nat.mul_le_mul_right output h
    have hlt := (lt_arrivedFrames_iff hin hout (k := arrivedFrames input output n - 1)).2
      ((arrived_iff hout).2 (Nat.le_trans hlast hmono))
    omega

end Grid

/-! ## The closed form -/

section ClosedForm

variable (interpolate : α → α → Nat → Nat → α) (c : ValidConfig) (samples : List α)

/-- One sample of an output frame. -/
def resampledSample (k channel : Nat) : Option α := do
  let frame := k * c.input / c.output
  let fraction := k * c.input % c.output
  let current ← samples[frame * c.width + channel]?
  let next ← samples[(frame + if fraction ≠ 0 then 1 else 0) * c.width + channel]?
  some (interpolate current next fraction c.output)

def resampledFrame (k : Nat) : List α := (List.range c.width).filterMap (resampledSample interpolate c samples k)

def resampled : List α :=
  (List.range (arrivedFrames c.input c.output (samples.length / c.width))).flatMap (resampledFrame interpolate c samples)

/-- The output consists of the frames whose input has come, each sample interpolated between its frame and the
next one, or its frame and itself where it lies on it. -/
structure IsResampled (output : List α) : Prop where
  frames : ∃ n, output.length = n * c.width ∧
    (∀ k, k < n ↔ Arrived c.output (samples.length / c.width) (k * c.input)) ∧
    ∀ k channel, k < n → channel < c.width → ∃ sample,
      resampledSample interpolate c samples k channel = some sample ∧ output[k * c.width + channel]? = some sample

variable {interpolate c samples} {k channel : Nat}

variable (interpolate) in
theorem exists_resampledSample (hk : Arrived c.output (samples.length / c.width) (k * c.input))
    (hc : channel < c.width) : ∃ sample, resampledSample interpolate c samples k channel = some sample := by
  have hindex : ∀ frame, frame < samples.length / c.width → frame * c.width + channel < samples.length := by
    intro frame hlt
    have hmul := Nat.mul_le_mul_right c.width (Nat.succ_le_of_lt hlt)
    have hle := Nat.div_mul_le_self samples.length c.width
    rw [Nat.succ_mul] at hmul
    omega
  have hnext : k * c.input / c.output + (if k * c.input % c.output ≠ 0 then 1 else 0) < samples.length / c.width := by
    split
    · rename_i hne
      exact hk.2 hne
    · exact hk.1
  unfold resampledSample
  dsimp only
  rw [List.getElem?_eq_getElem (hindex _ hk.1), List.getElem?_eq_getElem (hindex _ hnext)]
  exact ⟨_, rfl⟩

theorem resampledFrame_get (hk : Arrived c.output (samples.length / c.width) (k * c.input)) :
    (resampledFrame interpolate c samples k).length = c.width ∧ ∀ channel, channel < c.width →
      (resampledFrame interpolate c samples k)[channel]? = resampledSample interpolate c samples k channel :=
  filterMap_range_get fun _ hc => exists_resampledSample interpolate hk hc

theorem isResampled_resampled : IsResampled interpolate c samples (resampled interpolate c samples) := by
  have hlt := fun k => lt_arrivedFrames_iff (k := k) (n := samples.length / c.width) c.input_pos c.output_pos
  obtain ⟨hlen, hget⟩ := flatMap_range_get (f := resampledFrame interpolate c samples) (w := c.width)
    fun k hk => (resampledFrame_get ((hlt k).1 hk)).1
  refine ⟨_, hlen, hlt, fun k channel hk hc => ?_⟩
  obtain ⟨sample, hsample⟩ := exists_resampledSample interpolate ((hlt k).1 hk) hc
  refine ⟨sample, hsample, ?_⟩
  rw [resampled, hget k channel hk hc, (resampledFrame_get ((hlt k).1 hk)).2 channel hc, hsample]

/-- More input does not change the frames that were complete. -/
theorem resampledSample_append (hk : Arrived c.output (samples.length / c.width) (k * c.input))
    (hc : channel < c.width) (more : List α) :
    resampledSample interpolate c (samples ++ more) k channel = resampledSample interpolate c samples k channel := by
  obtain ⟨sample, hsample⟩ := exists_resampledSample interpolate hk hc
  rw [hsample]
  unfold resampledSample at hsample ⊢
  obtain ⟨current, hcurrent, hrest⟩ := Option.bind_eq_some_iff.1 hsample
  obtain ⟨next, hnext, hvalue⟩ := Option.bind_eq_some_iff.1 hrest
  dsimp only
  rw [List.getElem?_append_left (List.getElem?_eq_some_iff.1 hcurrent).1,
    List.getElem?_append_left (List.getElem?_eq_some_iff.1 hnext).1, hcurrent, hnext]
  exact hvalue

theorem resampledFrame_append (hk : Arrived c.output (samples.length / c.width) (k * c.input)) (more : List α) :
    resampledFrame interpolate c (samples ++ more) k = resampledFrame interpolate c samples k :=
  List.filterMap_congr fun _ hc => resampledSample_append hk (List.mem_range.1 hc) more

/-- What a chunk adds to the output. -/
def addedFrames (interpolate : α → α → Nat → Nat → α) (c : ValidConfig) (samples chunk : List α) : List α :=
  let before := arrivedFrames c.input c.output (samples.length / c.width)
  let after := arrivedFrames c.input c.output ((samples ++ chunk).length / c.width)
  (List.range' before (after - before)).flatMap (resampledFrame interpolate c (samples ++ chunk))

theorem resampled_append (samples chunk : List α) :
    resampled interpolate c (samples ++ chunk) = resampled interpolate c samples ++ addedFrames interpolate c samples chunk := by
  have hle : samples.length / c.width ≤ (samples ++ chunk).length / c.width := by
    rw [List.length_append]
    exact Nat.div_le_div_right (Nat.le_add_right _ _)
  have hmono := arrivedFrames_mono c.input_pos c.output_pos hle
  have hsplit := List.range'_append_1 (s := 0) (m := arrivedFrames c.input c.output (samples.length / c.width))
    (n := arrivedFrames c.input c.output ((samples ++ chunk).length / c.width) -
      arrivedFrames c.input c.output (samples.length / c.width))
  rw [Nat.zero_add, Nat.add_sub_cancel' hmono, ← List.range_eq_range', ← List.range_eq_range'] at hsplit
  unfold resampled addedFrames
  rw [← hsplit, List.flatMap_append]
  congr 1
  refine List.flatMap_congr fun k hk => resampledFrame_append ?_ chunk
  exact (lt_arrivedFrames_iff c.input_pos c.output_pos).1 (List.mem_range.1 hk)

end ClosedForm

/-! ## The loop -/

namespace StreamingLinearAudioResampler

variable {interpolate : α → α → Nat → Nat → α} {c : ValidConfig} {r : StreamingLinearAudioResampler α}
  {samples : List α} {discarded k : Nat}

/-- `k` output frames were written of these samples, whose first frames are discarded. -/
structure Reading (c : ValidConfig) (samples : List α) (discarded k : Nat) (r : StreamingLinearAudioResampler α) :
    Prop where
  config : r.config = c
  buffered : r.bufferedSamples = samples.drop (discarded * c.width)
  position : r.nextPosition + discarded * c.output = k * c.input
  position_lt : r.nextPosition < 2 ^ 64
  discarded_le : discarded ≤ samples.length / c.width

namespace Reading

theorem frames (h : Reading c samples discarded k r) :
    r.bufferedSamples.length / r.config.width = samples.length / c.width - discarded := by
  rw [h.buffered, h.config, List.length_drop, Nat.mul_comm discarded, Nat.sub_mul_div]

theorem frame (h : Reading c samples discarded k r) : k * c.input / c.output = r.nextPosition / c.output + discarded := by
  rw [← h.position, Nat.add_mul_div_right _ _ c.output_pos]

theorem fraction (h : Reading c samples discarded k r) : k * c.input % c.output = r.nextPosition % c.output := by
  rw [← h.position, Nat.add_mul_mod_self_right]

theorem hasNextFrame_iff (h : Reading c samples discarded k r) :
    r.hasNextFrame ↔ Arrived c.output (samples.length / c.width) (k * c.input) := by
  have hle := h.discarded_le
  unfold hasNextFrame Arrived
  dsimp only
  rw [h.frames, h.frame, h.fraction, h.config]
  simp only [Bool.not_eq_true', Bool.or_eq_false_iff, Bool.and_eq_false_iff, decide_eq_false_iff_not, Nat.not_le,
    bne_eq_false_iff_eq]
  constructor
  · rintro ⟨hframe, hnext⟩
    refine ⟨by omega, fun hne => ?_⟩
    rcases hnext with hzero | hlt
    · exact absurd hzero hne
    · omega
  · rintro ⟨hframe, hnext⟩
    refine ⟨by omega, ?_⟩
    by_cases hzero : r.nextPosition % c.output = 0
    · exact .inl hzero
    · have hlt := hnext hzero
      exact .inr (by omega)

theorem nextFrame_eq (h : Reading c samples discarded k r)
    (hk : Arrived c.output (samples.length / c.width) (k * c.input)) :
    r.nextFrame interpolate = some (resampledFrame interpolate c samples k) := by
  have hget : ∀ frame channel, r.bufferedSamples[frame * c.width + channel]? =
      samples[(frame + discarded) * c.width + channel]? := by
    intro frame channel
    rw [h.buffered, List.getElem?_drop]
    congr 1
    rw [Nat.add_mul]
    omega
  have hshift : ∀ frame rest, frame + rest + discarded = frame + discarded + rest := by
    intro frame rest
    omega
  have hsample : ∀ channel, (do
      let frame := r.nextPosition / r.config.output
      let fraction := r.nextPosition % r.config.output
      let current ← r.bufferedSamples[frame * r.config.width + channel]?
      let nextFrame := frame + if fraction ≠ 0 then 1 else 0
      let next ← r.bufferedSamples[nextFrame * r.config.width + channel]?
      some (interpolate current next fraction r.config.output)) = resampledSample interpolate c samples k channel := by
    intro channel
    unfold resampledSample
    dsimp only
    rw [h.config, hget, hget, h.frame, h.fraction, hshift]
  unfold nextFrame
  dsimp only at hsample ⊢
  simp only [hsample]
  rw [h.config]
  exact mapM_eq_filterMap fun channel hc => exists_resampledSample interpolate hk (List.mem_range.1 hc)

theorem next (h : Reading c samples discarded k r) (hlt : r.nextPosition + c.input < 2 ^ 64) :
    Reading c samples discarded (k + 1) { r with nextPosition := r.nextPosition + c.input } where
  config := h.config
  buffered := h.buffered
  position := by
    have hpos := h.position
    dsimp only
    rw [Nat.succ_mul]
    omega
  position_lt := hlt
  discarded_le := h.discarded_le

/-- The loop writes what the input is there for, unless the position leaves its 64 bits on the way. -/
theorem writeFrames_eq (h : Reading c samples discarded k r)
    (hk : k ≤ arrivedFrames c.input c.output (samples.length / c.width)) (output : List α) :
    r.writeFrames interpolate output =
      if arrivedFrames c.input c.output (samples.length / c.width) * c.input < 2 ^ 64 + discarded * c.output then
        some (⟨c, samples.drop (discarded * c.width),
            arrivedFrames c.input c.output (samples.length / c.width) * c.input - discarded * c.output⟩,
          output ++ (List.range' k (arrivedFrames c.input c.output (samples.length / c.width) - k)).flatMap
            (resampledFrame interpolate c samples))
      else none := by
  generalize hn : arrivedFrames c.input c.output (samples.length / c.width) = n at hk ⊢
  obtain ⟨m, rfl⟩ := Nat.exists_eq_add_of_le hk
  rw [Nat.add_sub_cancel_left]
  induction m generalizing k r output with
  | zero =>
    have hpos := h.position
    have hplt := h.position_lt
    have hno : ¬ r.hasNextFrame := by
      rw [h.hasNextFrame_iff, ← lt_arrivedFrames_iff c.input_pos c.output_pos, hn]
      exact Nat.lt_irrefl k
    rw [writeFrames, dif_neg hno, Nat.add_zero, if_pos (by omega), ← hpos, Nat.add_sub_cancel, List.range'_zero,
      List.flatMap_nil, List.append_nil, ← h.buffered, ← h.config]
  | succ m ih =>
    have hhas : Arrived c.output (samples.length / c.width) (k * c.input) := by
      rw [← lt_arrivedFrames_iff c.input_pos c.output_pos, hn]
      omega
    rw [writeFrames, dif_pos (h.hasNextFrame_iff.2 hhas), h.nextFrame_eq hhas]
    dsimp only
    have hpos := h.position
    have hconfig : r.config.input = c.input := by rw [h.config]
    split
    · rename_i hlt
      rw [hconfig] at hlt
      have hsucc : k + 1 + m = k + (m + 1) := by omega
      have hrest := ih (h.next hlt) (output ++ resampledFrame interpolate c samples k) (by omega) (by omega)
      rw [hsucc, List.append_assoc, ← List.flatMap_cons, ← List.range'_succ] at hrest
      rw [hconfig]
      exact hrest
    · rename_i hge
      rw [hconfig] at hge
      have hmono := Nat.mul_le_mul_right c.input (show k + 1 ≤ k + (m + 1) by omega)
      rw [Nat.succ_mul] at hmono
      rw [if_neg (by omega)]

end Reading

/-! ## One chunk after the other -/

/-- The chunk is not refused: it has whole frames, and its capacity is computed without an overflow. -/
def accepted (c : ValidConfig) (chunk : List α) : Bool :=
  chunk.length % c.width == 0 && (outputCapacity c chunk.length).isOk

/-- With so many frames before the chunk and so many after it, the position stays below 2^64 when the last frame
is written; what was discarded before the chunk does not count. -/
def Fits (c : ValidConfig) (before after : Nat) : Prop :=
  arrivedFrames c.input c.output after * c.input < 2 ^ 64 + discardedFrames c.input c.output before * c.output

/-- Every chunk that is not refused fits, after the `n` frames before. -/
def ChunksFit (c : ValidConfig) (n : Nat) : List (List α) → Prop
  | [] => True
  | chunk :: rest =>
    if accepted c chunk then Fits c n (n + chunk.length / c.width) ∧ ChunksFit c (n + chunk.length / c.width) rest
    else ChunksFit c n rest

instance (c : ValidConfig) (before after : Nat) : Decidable (Fits c before after) :=
  inferInstanceAs (Decidable (_ < _))

instance decidableChunksFit (c : ValidConfig) : (n : Nat) → (chunks : List (List α)) → Decidable (ChunksFit c n chunks)
  | _, [] => inferInstanceAs (Decidable True)
  | n, chunk :: rest =>
    have := decidableChunksFit c (n + chunk.length / c.width) rest
    have := decidableChunksFit c n rest
    inferInstanceAs (Decidable (if accepted c chunk then
      Fits c n (n + chunk.length / c.width) ∧ ChunksFit c (n + chunk.length / c.width) rest
    else ChunksFit c n rest))

/-- The state after these samples. -/
structure Consumed (c : ValidConfig) (samples : List α) (r : StreamingLinearAudioResampler α) : Prop where
  reading : Reading c samples (discardedFrames c.input c.output (samples.length / c.width))
    (arrivedFrames c.input c.output (samples.length / c.width)) r
  whole : samples.length % c.width = 0

theorem consumed_new (c : ValidConfig) : Consumed c ([] : List α) { config := c } where
  reading := by
    rw [List.length_nil, Nat.zero_div, discardedFrames, Nat.min_zero]
    refine ⟨rfl, List.drop_nil.symm, ?_, Nat.two_pow_pos 64, Nat.zero_le _⟩
    rw [arrivedFrames, if_pos rfl, Nat.zero_mul, Nat.zero_mul]
  whole := Nat.zero_mod _

variable (interpolate) in
theorem processInto_refused {chunk : List α} (ha : accepted r.config chunk = false) (output : List α) :
    ∃ error, r.processInto interpolate chunk output = some (r, output, .error error) := by
  unfold accepted at ha
  unfold processInto validateInput
  by_cases hwhole : chunk.length % r.config.width = 0
  · rw [if_neg (not_not.2 hwhole)]
    rw [hwhole] at ha
    cases hcap : outputCapacity r.config chunk.length with
    | error error => exact ⟨error, rfl⟩
    | ok capacity =>
      rw [hcap] at ha
      cases ha
  · rw [if_pos hwhole]
    exact ⟨_, rfl⟩

theorem processInto_accepted {chunk : List α} (ha : accepted r.config chunk) (output : List α) :
    r.processInto interpolate chunk output =
      (writeFrames interpolate { r with bufferedSamples := r.bufferedSamples ++ chunk } output).bind fun p =>
        p.1.discardConsumedFrames.map fun r => (r, p.2, .ok ()) := by
  unfold accepted at ha
  rw [Bool.and_eq_true, beq_iff_eq] at ha
  unfold processInto validateInput
  rw [if_neg (not_not.2 ha.1)]
  cases hcap : outputCapacity r.config chunk.length with
  | error error =>
    rw [hcap] at ha
    cases ha.2
  | ok capacity =>
    dsimp only
    rcases writeFrames interpolate { r with bufferedSamples := r.bufferedSamples ++ chunk } output with - | ⟨r', out⟩
    · rfl
    · cases h : r'.discardConsumedFrames with
      | none => simp [h]
      | some r'' => simp [h]

/-- Whole frames are dropped, and as many as the position has passed. -/
theorem Reading.discard (h : Reading c samples discarded k r) :
    ∃ r', r.discardConsumedFrames = some r' ∧
      Reading c samples (min (k * c.input / c.output) (samples.length / c.width)) k r' := by
  have hle := h.discarded_le
  have hframe := h.frame
  have hconsumed : discarded + min (r.nextPosition / c.output) (samples.length / c.width - discarded) =
      min (k * c.input / c.output) (samples.length / c.width) := by
    omega
  have hmul : min (r.nextPosition / c.output) (samples.length / c.width - discarded) * c.output ≤ r.nextPosition :=
    Nat.le_trans (Nat.mul_le_mul_right _ (Nat.min_le_left _ _)) (Nat.div_mul_le_self _ _)
  have hlt := h.position_lt
  have hpos := h.position
  have hlen : min (r.nextPosition / c.output) (samples.length / c.width - discarded) * c.width ≤
      r.bufferedSamples.length := by
    rw [← h.frames, h.config]
    exact Nat.le_trans (Nat.mul_le_mul_right _ (Nat.min_le_right _ _)) (Nat.div_mul_le_self _ _)
  unfold discardConsumedFrames
  dsimp only
  rw [h.frames, h.config, advance_of_le hlen, some_bind, checkedMul_of_lt (by omega), some_bind, checkedSub_of_le hmul,
    some_bind]
  refine ⟨_, rfl, ⟨rfl, ?_, ?_, ?_, Nat.min_le_right _ _⟩⟩
  · dsimp only
    rw [h.buffered, List.drop_drop, ← Nat.add_mul, hconsumed]
  · dsimp only
    rw [← hconsumed, Nat.add_mul]
    omega
  · dsimp only
    omega

namespace Consumed

variable {chunk : List α}

theorem length_append (ha : accepted c chunk) :
    (samples ++ chunk).length / c.width = samples.length / c.width + chunk.length / c.width ∧
      (samples.length % c.width = 0 → (samples ++ chunk).length % c.width = 0) := by
  unfold accepted at ha
  rw [Bool.and_eq_true, beq_iff_eq] at ha
  have hchunk := Nat.div_add_mod chunk.length c.width
  rw [ha.1, Nat.add_zero] at hchunk
  rw [List.length_append]
  constructor
  · conv_lhs => rw [← hchunk]
    rw [Nat.add_mul_div_left _ _ c.width_pos]
  · intro h
    rw [Nat.add_mod, h, ha.1]
    exact Nat.zero_mod _

/-- The chunk is in the buffer and no more frames are written yet. -/
theorem extended (h : Consumed c samples r) (ha : accepted c chunk) :
    Reading c (samples ++ chunk) (discardedFrames c.input c.output (samples.length / c.width))
      (arrivedFrames c.input c.output (samples.length / c.width))
      { r with bufferedSamples := r.bufferedSamples ++ chunk } where
  config := h.reading.config
  buffered := by
    have hle := Nat.mul_le_mul_right c.width h.reading.discarded_le
    have hlen := Nat.div_mul_le_self samples.length c.width
    dsimp only
    rw [h.reading.buffered, List.drop_append_of_le_length (Nat.le_trans hle hlen)]
  position := h.reading.position
  position_lt := h.reading.position_lt
  discarded_le := by
    rw [(length_append ha).1]
    exact Nat.le_trans h.reading.discarded_le (Nat.le_add_right _ _)

theorem arrived_le (ha : accepted c chunk) : arrivedFrames c.input c.output (samples.length / c.width) ≤
    arrivedFrames c.input c.output ((samples ++ chunk).length / c.width) := by
  rw [(length_append ha).1]
  exact arrivedFrames_mono c.input_pos c.output_pos (Nat.le_add_right _ _)

variable (interpolate) in
theorem process (h : Consumed c samples r) (ha : accepted c chunk)
    (hfits : Fits c (samples.length / c.width) (samples.length / c.width + chunk.length / c.width))
    (output : List α) :
    ∃ r', r.processInto interpolate chunk output =
        some (r', output ++ addedFrames interpolate c samples chunk, .ok ()) ∧
      Consumed c (samples ++ chunk) r' := by
  have hreading := h.extended ha
  have hlength : (samples ++ chunk).length / c.width = samples.length / c.width + chunk.length / c.width :=
    (length_append ha).1
  rw [Fits, ← hlength] at hfits
  rw [processInto_accepted (h.reading.config ▸ ha), hreading.writeFrames_eq (arrived_le ha), if_pos hfits]
  have hle : arrivedFrames c.input c.output (samples.length / c.width) ≤
      arrivedFrames c.input c.output ((samples ++ chunk).length / c.width) := arrived_le ha
  have hmono := Nat.mul_le_mul_right c.input hle
  have hpos := hreading.position
  have hwritten : Reading c (samples ++ chunk) (discardedFrames c.input c.output (samples.length / c.width))
      (arrivedFrames c.input c.output ((samples ++ chunk).length / c.width))
      ⟨c, (samples ++ chunk).drop (discardedFrames c.input c.output (samples.length / c.width) * c.width),
        arrivedFrames c.input c.output ((samples ++ chunk).length / c.width) * c.input -
          discardedFrames c.input c.output (samples.length / c.width) * c.output⟩ := by
    refine ⟨rfl, rfl, ?_, ?_, hreading.discarded_le⟩
    · dsimp only
      omega
    · dsimp only
      omega
  obtain ⟨r', hdiscard, hr'⟩ := hwritten.discard
  rw [Option.bind_some, hdiscard]
  exact ⟨r', rfl, hr', (length_append ha).2 h.whole⟩

theorem process_overflow (h : Consumed c samples r) (ha : accepted c chunk)
    (hfits : ¬ Fits c (samples.length / c.width) (samples.length / c.width + chunk.length / c.width))
    (output : List α) : r.processInto interpolate chunk output = none := by
  have hlength : (samples ++ chunk).length / c.width = samples.length / c.width + chunk.length / c.width :=
    (length_append ha).1
  rw [Fits, ← hlength] at hfits
  rw [processInto_accepted (h.reading.config ▸ ha), (h.extended ha).writeFrames_eq (arrived_le ha), if_neg hfits]
  rfl

end Consumed

/-- What was read of the chunks. -/
def acceptedSamples (c : ValidConfig) (chunks : List (List α)) : List α := (chunks.filter (accepted c)).flatten

variable (interpolate) in
/-- Chunks that fit are all processed, and what is written is what the accepted ones add to the closed form. -/
theorem processAll_fits {chunks : List (List α)} (h : Consumed c samples r)
    (hfit : ChunksFit c (samples.length / c.width) chunks) (output : List α) :
    ∃ r' more, r.processAll interpolate output chunks = some (r', output ++ more) ∧
      Consumed c (samples ++ acceptedSamples c chunks) r' ∧
      resampled interpolate c (samples ++ acceptedSamples c chunks) = resampled interpolate c samples ++ more := by
  induction chunks generalizing r samples output with
  | nil =>
    refine ⟨r, [], ?_, ?_, ?_⟩
    · rw [processAll, List.append_nil]
    · rw [acceptedSamples, List.filter_nil, List.flatten_nil, List.append_nil]
      exact h
    · rw [acceptedSamples, List.filter_nil, List.flatten_nil, List.append_nil, List.append_nil]
  | cons chunk rest ih =>
    unfold ChunksFit at hfit
    unfold processAll acceptedSamples
    split at hfit
    · rename_i ha
      obtain ⟨r₁, hprocess, hr₁⟩ := h.process interpolate ha hfit.1 output
      rw [← (Consumed.length_append ha).1] at hfit
      obtain ⟨r', more, hrest, hr', hmore⟩ := ih hr₁ hfit.2 (output ++ addedFrames interpolate c samples chunk)
      rw [hprocess, some_bind, List.filter_cons_of_pos ha, List.flatten_cons, ← List.append_assoc]
      refine ⟨r', addedFrames interpolate c samples chunk ++ more, ?_, hr', ?_⟩
      · rw [← List.append_assoc]
        exact hrest
      · rw [← List.append_assoc, ← resampled_append]
        exact hmore
    · rename_i ha
      obtain ⟨error, hprocess⟩ := processInto_refused interpolate
        (h.reading.config ▸ Bool.eq_false_iff.2 ha) output
      rw [hprocess, some_bind, List.filter_cons_of_neg ha]
      exact ih h hfit output

theorem Consumed.processAll_overflow {chunks : List (List α)} (h : Consumed c samples r)
    (hfit : ¬ ChunksFit c (samples.length / c.width) chunks) (output : List α) :
    r.processAll interpolate output chunks = none := by
  induction chunks generalizing r samples output with
  | nil => exact absurd trivial hfit
  | cons chunk rest ih =>
    unfold ChunksFit at hfit
    unfold processAll
    split at hfit
    · rename_i ha
      by_cases hchunk : Fits c (samples.length / c.width) (samples.length / c.width + chunk.length / c.width)
      · obtain ⟨r₁, hprocess, hr₁⟩ := h.process interpolate ha hchunk output
        rw [hprocess, some_bind]
        refine ih hr₁ (fun hrest => hfit ⟨hchunk, ?_⟩) _
        rw [← (Consumed.length_append ha).1]
        exact hrest
      · rw [h.process_overflow ha hchunk]
        rfl
    · rename_i ha
      obtain ⟨error, hprocess⟩ := processInto_refused interpolate
        (h.reading.config ▸ Bool.eq_false_iff.2 ha) output
      rw [hprocess, some_bind]
      exact ih h hfit output

end StreamingLinearAudioResampler

/-! ## Packets -/

theorem chunksExact_take {size : Nat} (hsize : 0 < size) (samples : List α) :
    (chunksExact size (samples.take (samples.length / size * size))).flatten =
        samples.take (samples.length / size * size) ∧
      ∀ packet ∈ chunksExact size (samples.take (samples.length / size * size)), packet.length = size := by
  have hle := Nat.div_mul_le_self samples.length size
  generalize samples.length / size = n at hle ⊢
  have hlen : (samples.take (n * size)).length = n * size := by
    rw [List.length_take, Nat.min_eq_left hle]
  generalize samples.take (n * size) = whole at hlen ⊢
  have hcut : ∀ m, m ≤ n → ((List.range m).map fun i => (whole.drop (i * size)).take size).flatten =
      whole.take (m * size) := by
    intro m hm
    induction m with
    | zero => rw [Nat.zero_mul, List.take_zero]; rfl
    | succ m ih =>
      rw [List.range_succ, List.map_append, List.flatten_append, ih (by omega), List.map_singleton,
        List.flatten_singleton, Nat.succ_mul, List.take_add]
  unfold chunksExact
  rw [hlen, Nat.mul_div_cancel _ hsize]
  constructor
  · rw [hcut n (Nat.le_refl n), ← hlen, List.take_length]
  · intro packet hpacket
    obtain ⟨i, hi, rfl⟩ := List.mem_map.1 hpacket
    have hmul := Nat.mul_le_mul_right size (Nat.succ_le_of_lt (List.mem_range.1 hi))
    rw [Nat.succ_mul] at hmul
    rw [List.length_take, List.length_drop, hlen]
    omega

namespace FixedFrameAudioResampler

open StreamingLinearAudioResampler

variable {interpolate : α → α → Nat → Nat → α} {c : ValidConfig} {r : FixedFrameAudioResampler α}
  {samples : List α} {packets : List (List α)}

theorem orOverflow_eq_ok {β : Type} {o : Option β} {b : β} (h : orOverflow o = .ok b) : o = some b := by
  cases o with
  | none => cases h
  | some x =>
    cases h
    rfl

theorem new_eq_ok {config : AudioResamplerConfig} {outputFrames : Nat} (h : new config outputFrames = .ok r) :
    ∃ c, validateConfig config = .ok c ∧ r = ⟨{ config := c }, outputFrames * c.width, []⟩ ∧ 0 < outputFrames := by
  unfold new at h
  split at h
  · cases h
  · rename_i hne
    cases hc : validateConfig config with
    | error error =>
      rw [hc] at h
      cases h
    | ok c =>
      rw [hc] at h
      cases hs : orOverflow (checkedMul 64 outputFrames c.width) with
      | error error =>
        simp only [bind, Except.bind, hs] at h
        cases h
      | ok outputSamples =>
        have hsamples := orOverflow_eq_ok hs
        unfold checkedMul at hsamples
        split at hsamples
        · cases hsamples
          simp only [bind, Except.bind, hs] at h
          refine ⟨c, rfl, ?_, Nat.pos_of_ne_zero hne⟩
          split at h
          · cases h
          · split at h
            · cases h
            · split at h
              · cases h
              · cases h
                rfl
        · cases hsamples

/-- The packets so far and what is pending are what was written. -/
structure Packed (interpolate : α → α → Nat → Nat → α) (c : ValidConfig) (samples : List α) (packets : List (List α))
    (r : FixedFrameAudioResampler α) : Prop where
  consumed : Consumed c samples r.resampler
  size_pos : 0 < r.outputSamples
  full : ∀ packet ∈ packets, packet.length = r.outputSamples
  pending : r.pendingSamples.length < r.outputSamples
  written : packets.flatten ++ r.pendingSamples = resampled interpolate c samples

theorem Packed.process (h : Packed interpolate c samples packets r) {chunk : List α} (ha : accepted c chunk)
    (hfits : Fits c (samples.length / c.width) (samples.length / c.width + chunk.length / c.width)) :
    ∃ r' more, r.processWith interpolate chunk = some (r', more, .ok ()) ∧ r'.outputSamples = r.outputSamples ∧
      Packed interpolate c (samples ++ chunk) (packets ++ more) r' := by
  obtain ⟨resampler, hprocess, hconsumed⟩ := h.consumed.process interpolate ha hfits r.pendingSamples
  unfold processWith
  rw [hprocess]
  obtain ⟨hflatten, hlength⟩ := chunksExact_take h.size_pos
    (r.pendingSamples ++ addedFrames interpolate c samples chunk)
  refine ⟨_, _, rfl, rfl, ⟨hconsumed, h.size_pos, ?_, ?_, ?_⟩⟩
  · intro packet hpacket
    rcases List.mem_append.1 hpacket with hold | hnew
    · exact h.full packet hold
    · exact hlength packet hnew
  · have hmod := Nat.div_add_mod (r.pendingSamples ++ addedFrames interpolate c samples chunk).length r.outputSamples
    have hlt := Nat.mod_lt (r.pendingSamples ++ addedFrames interpolate c samples chunk).length h.size_pos
    rw [Nat.mul_comm] at hmod
    dsimp only
    rw [List.length_drop]
    omega
  · rw [List.flatten_append, hflatten, List.append_assoc, List.take_append_drop, ← List.append_assoc, h.written,
      resampled_append]

variable (interpolate) in
theorem processWith_refused (hc : r.resampler.config = c) {chunk : List α} (ha : accepted c chunk = false) :
    ∃ error, r.processWith interpolate chunk = some (r, [], .error error) := by
  obtain ⟨error, hprocess⟩ := processInto_refused interpolate (hc ▸ ha) r.pendingSamples
  unfold processWith
  rw [hprocess]
  exact ⟨error, rfl⟩

theorem Packed.processAll (h : Packed interpolate c samples packets r) {chunks : List (List α)}
    (hfit : ChunksFit c (samples.length / c.width) chunks) :
    ∃ r' more, r.processAll interpolate packets chunks = some (r', more) ∧ r'.outputSamples = r.outputSamples ∧
      Packed interpolate c (samples ++ acceptedSamples c chunks) more r' := by
  induction chunks generalizing r samples packets with
  | nil =>
    refine ⟨r, packets, rfl, rfl, ?_⟩
    rw [acceptedSamples, List.filter_nil, List.flatten_nil, List.append_nil]
    exact h
  | cons chunk rest ih =>
    unfold ChunksFit at hfit
    unfold FixedFrameAudioResampler.processAll acceptedSamples
    split at hfit
    · rename_i ha
      obtain ⟨r₁, more, hprocess, hsize, hr₁⟩ := h.process ha hfit.1
      rw [← (Consumed.length_append ha).1] at hfit
      obtain ⟨r', all, hrest, hsize', hr'⟩ := ih hr₁ hfit.2
      rw [hprocess, some_bind, List.filter_cons_of_pos ha, List.flatten_cons, ← List.append_assoc]
      exact ⟨r', all, hrest, hsize'.trans hsize, hr'⟩
    · rename_i ha
      obtain ⟨error, hprocess⟩ := processWith_refused interpolate h.consumed.reading.config
        (Bool.eq_false_iff.2 ha)
      rw [hprocess, some_bind, List.filter_cons_of_neg ha]
      dsimp only
      rw [List.append_nil]
      exact ih h hfit

end FixedFrameAudioResampler

/-! ## Every cut of the input -/

/-- For every list of chunks, refused ones among them: as long as each accepted one fits, and only then, nothing
overflows, and the output and the packets are those of the closed form. -/
theorem resampling_chunks (interpolate : α → α → Nat → Nat → α) {config : AudioResamplerConfig} {outputFrames : Nat}
    {streaming : StreamingLinearAudioResampler α} {fixed : FixedFrameAudioResampler α} {c : ValidConfig}
    (hconfig : validateConfig config = .ok c) (hstreaming : StreamingLinearAudioResampler.new config = .ok streaming)
    (hfixed : FixedFrameAudioResampler.new config outputFrames = .ok fixed) (chunks : List (List α)) :
    ((∃ r output, streaming.processAll interpolate [] chunks = some (r, output) ∧
        IsResampled interpolate c (StreamingLinearAudioResampler.acceptedSamples c chunks) output) ∧
      ∃ r packets, fixed.processAll interpolate [] chunks = some (r, packets) ∧
        (∀ packet ∈ packets, packet.length = outputFrames * c.width) ∧
        r.pendingSamples.length < outputFrames * c.width ∧
        IsResampled interpolate c (StreamingLinearAudioResampler.acceptedSamples c chunks)
          (packets.flatten ++ r.pendingSamples)) ↔
      StreamingLinearAudioResampler.ChunksFit c 0 chunks := by
  rw [StreamingLinearAudioResampler.new, hconfig] at hstreaming
  obtain rfl := Except.ok.inj hstreaming
  have hconsumed := StreamingLinearAudioResampler.consumed_new (α := α) c
  constructor
  · rintro ⟨⟨r, output, hrun, -⟩, -⟩
    by_contra hfit
    rw [hconsumed.processAll_overflow (by rwa [List.length_nil, Nat.zero_div])] at hrun
    cases hrun
  · intro hfit
    have hfit' : StreamingLinearAudioResampler.ChunksFit c (([] : List α).length / c.width) chunks := by
      rwa [List.length_nil, Nat.zero_div]
    obtain ⟨r, more, hrun, -, hmore⟩ := StreamingLinearAudioResampler.processAll_fits interpolate
      hconsumed hfit' []
    have hnil : resampled interpolate c [] = [] := by
      rw [resampled, List.length_nil, Nat.zero_div]
      rfl
    rw [hnil, List.nil_append, List.nil_append] at hmore
    refine ⟨⟨r, more, hrun, hmore ▸ isResampled_resampled⟩, ?_⟩
    obtain ⟨c', hc', rfl, hpos⟩ := FixedFrameAudioResampler.new_eq_ok hfixed
    rw [hconfig] at hc'
    obtain rfl := Except.ok.inj hc'
    have hpacked : FixedFrameAudioResampler.Packed interpolate c [] []
        ⟨{ config := c }, outputFrames * c.width, []⟩ :=
      ⟨hconsumed, Nat.mul_pos hpos c.width_pos, fun _ h => (List.not_mem_nil h).elim,
        Nat.mul_pos hpos c.width_pos, hnil.symm⟩
    obtain ⟨r', packets, hrun', hsize, hr'⟩ := hpacked.processAll hfit'
    refine ⟨r', packets, hrun', fun packet hpacket => (hr'.full packet hpacket).trans hsize,
      Nat.lt_of_lt_of_eq hr'.pending hsize, ?_⟩
    rw [hr'.written]
    exact isResampled_resampled

def doubling : ValidConfig := ⟨⟨24000, 48000, 1⟩, by decide, by decide, by decide⟩

/-- Three samples in two chunks with an empty one between, at twice their rate: two packets of two samples, and
the last sample pending. -/
theorem resampling_chunks_doubling :
    ∃ r packets, FixedFrameAudioResampler.processAll (fun a b n d => a + (b - a) * n / d)
        ⟨{ config := doubling }, 2, []⟩ [] [[0, 10], [], [20]] = some (r, packets) ∧
      (∀ packet ∈ packets, packet.length = 2) ∧ r.pendingSamples.length < 2 ∧
      IsResampled (fun a b n d => a + (b - a) * n / d) doubling [0, 10, 20] (packets.flatten ++ r.pendingSamples) :=
  ((@resampling_chunks _ (fun a b n d => a + (b - a) * n / d) doubling.toAudioResamplerConfig 2
    { config := doubling } ⟨{ config := doubling }, 2, []⟩ doubling rfl rfl rfl [[0, 10], [], [20]]).2 (by decide +kernel)).2

def fastest : ValidConfig := ⟨⟨4294967294, 4294967295, 1⟩, by decide, by decide, by decide⟩

/-- The frame that is still buffered is not counted when the capacity for the next chunk is computed: that chunk is
accepted, and its last position is past 64 bits. -/
theorem position_overflows :
    StreamingLinearAudioResampler.accepted fastest [0] = true ∧
      StreamingLinearAudioResampler.accepted fastest (List.replicate (2 ^ 32 + 1) 0) = true ∧
      ({ config := fastest } : StreamingLinearAudioResampler Nat).processAll (fun a _ _ _ => a) []
        [[0], List.replicate (2 ^ 32 + 1) 0] = none := by
  generalize hn : 2 ^ 32 + 1 = n
  have hlength : (List.replicate n 0 : List Nat).length = 2 ^ 32 + 1 := List.length_replicate.trans hn.symm
  have hsecond : StreamingLinearAudioResampler.accepted fastest (List.replicate n 0) = true := by
    unfold StreamingLinearAudioResampler.accepted
    rw [hlength]
    decide +kernel
  refine ⟨by decide +kernel, hsecond, ?_⟩
  refine (StreamingLinearAudioResampler.consumed_new fastest).processAll_overflow ?_ []
  intro hfit
  unfold StreamingLinearAudioResampler.ChunksFit at hfit
  rw [if_pos (by decide +kernel)] at hfit
  have hrest := hfit.2
  unfold StreamingLinearAudioResampler.ChunksFit at hrest
  rw [if_pos hsecond, hlength] at hrest
  exact absurd hrest.1 (by decide +kernel)

end FontisRemote.Audio
