import FontisRemote.Lib.Checked

/-!
# The streaming resampler

`audio_resampler.rs`: an output frame lies between two input frames, `next_position` says where, in units of
one frame divided by the output rate and counted from the first frame that is still buffered. A call takes a
chunk of whole frames, writes the frames it has the input for and drops the input that no later frame needs.

Samples are of any type and `interpolate` is given two of them with the fraction, as its two parts. `none` is
a panic: an addition past 64 bits, a subtraction below 0, an index out of range. Memory does not run out, so
what is reserved is only looked at for the error.
-/

namespace FontisRemote.Audio

open FontisRemote.Lib

def INTERPOLATION_MARGIN_FRAMES : Nat := 2
def PENDING_PACKET_CAPACITY : Nat := 2

structure AudioResamplerConfig where
  inputRate : UInt32
  outputRate : UInt32
  channels : UInt16
deriving DecidableEq, Repr

inductive AudioResamplerError
  | invalidConfig (config : AudioResamplerConfig)
  | invalidOutputFrameSize (outputFrames : Nat)
  | incompleteFrame (samples channels : Nat)
  | capacityOverflow
deriving DecidableEq, Repr

/-- A configuration that `validate_config` accepts. -/
structure ValidConfig extends AudioResamplerConfig where
  inputRate_ne : inputRate ≠ 0
  outputRate_ne : outputRate ≠ 0
  channels_ne : channels ≠ 0

def validateConfig (config : AudioResamplerConfig) : Except AudioResamplerError ValidConfig :=
  if h : config.inputRate = 0 ∨ config.outputRate = 0 ∨ config.channels = 0 then .error (.invalidConfig config)
  else .ok { config with
    inputRate_ne := fun heq => h (.inl heq)
    outputRate_ne := fun heq => h (.inr (.inl heq))
    channels_ne := fun heq => h (.inr (.inr heq)) }

namespace ValidConfig

variable (c : ValidConfig)

def input : Nat := c.inputRate.toNat
def output : Nat := c.outputRate.toNat
/-- Samples in a frame. -/
def width : Nat := c.channels.toNat

theorem input_pos : 0 < c.input :=
  Nat.pos_of_ne_zero fun h => c.inputRate_ne (UInt32.toNat_inj.1 h)

theorem output_pos : 0 < c.output :=
  Nat.pos_of_ne_zero fun h => c.outputRate_ne (UInt32.toNat_inj.1 h)

theorem width_pos : 0 < c.width :=
  Nat.pos_of_ne_zero fun h => c.channels_ne (UInt16.toNat_inj.1 h)

end ValidConfig

/-- `ok_or(CapacityOverflow)` -/
def orOverflow {β : Type} : Option β → Except AudioResamplerError β
  | some b => .ok b
  | none => .error .capacityOverflow

def validateInput {α : Type} (input : List α) (channels : Nat) : Except AudioResamplerError Unit :=
  if input.length % channels ≠ 0 then .error (.incompleteFrame input.length channels) else .ok ()

def outputCapacity (c : ValidConfig) (inputSamples : Nat) : Except AudioResamplerError Nat := do
  let scaled ← orOverflow (checkedMul 64 (inputSamples / c.width) c.output)
  orOverflow ((checkedAdd 64 (scaled / c.input) INTERPOLATION_MARGIN_FRAMES).bind fun frames =>
    checkedMul 64 frames c.width)

structure StreamingLinearAudioResampler (α : Type) where
  config : ValidConfig
  bufferedSamples : List α := []
  nextPosition : Nat := 0

namespace StreamingLinearAudioResampler

variable {α : Type} (interpolate : α → α → Nat → Nat → α) (r : StreamingLinearAudioResampler α)

def new (config : AudioResamplerConfig) : Except AudioResamplerError (StreamingLinearAudioResampler α) :=
  (validateConfig config).map fun valid => { config := valid }

/-- `write_next_frame` does not return false. -/
def hasNextFrame : Bool :=
  let frameCount := r.bufferedSamples.length / r.config.width
  let frame := r.nextPosition / r.config.output
  let fraction := r.nextPosition % r.config.output
  !(decide (frameCount ≤ frame) || (fraction != 0 && decide (frameCount ≤ frame + 1)))

/-- What it then writes. -/
def nextFrame : Option (List α) :=
  let frame := r.nextPosition / r.config.output
  let fraction := r.nextPosition % r.config.output
  (List.range r.config.width).mapM fun channel => do
    let current ← r.bufferedSamples[frame * r.config.width + channel]?
    let nextFrame := frame + if fraction ≠ 0 then 1 else 0
    let next ← r.bufferedSamples[nextFrame * r.config.width + channel]?
    some (interpolate current next fraction r.config.output)

theorem position_lt_of_hasNextFrame (h : r.hasNextFrame) :
    r.nextPosition < r.bufferedSamples.length / r.config.width * r.config.output := by
  unfold hasNextFrame at h
  simp only [Bool.not_eq_true', Bool.or_eq_false_iff, decide_eq_false_iff_not, Nat.not_le] at h
  exact (Nat.div_lt_iff_lt_mul r.config.output_pos).1 h.1

/-- The loop of `process_into`. -/
def writeFrames (r : StreamingLinearAudioResampler α) (output : List α) :
    Option (StreamingLinearAudioResampler α × List α) :=
  if _h : r.hasNextFrame then
    match r.nextFrame interpolate with
    | none => none
    | some frame =>
      if r.nextPosition + r.config.input < 2 ^ 64 then
        writeFrames { r with nextPosition := r.nextPosition + r.config.input } (output ++ frame)
      else none
  else some (r, output)
termination_by r.bufferedSamples.length / r.config.width * r.config.output - r.nextPosition
decreasing_by
  have hlt := r.position_lt_of_hasNextFrame _h
  have hpos := r.config.input_pos
  omega

def discardConsumedFrames : Option (StreamingLinearAudioResampler α) := do
  let availableFrames := r.bufferedSamples.length / r.config.width
  let consumedFrames := min (r.nextPosition / r.config.output) availableFrames
  let bufferedSamples ← advance (consumedFrames * r.config.width) r.bufferedSamples
  let consumed ← checkedMul 64 consumedFrames r.config.output
  let nextPosition ← checkedSub r.nextPosition consumed
  some { r with bufferedSamples := bufferedSamples, nextPosition := nextPosition }

/-- The state and the output vector after the call, and what it returns. -/
def processInto (input output : List α) :
    Option (StreamingLinearAudioResampler α × List α × Except AudioResamplerError Unit) :=
  match validateInput input r.config.width with
  | .error error => some (r, output, .error error)
  | .ok () =>
    match outputCapacity r.config input.length with
    | .error error => some (r, output, .error error)
    | .ok _ => do
      let (r, output) ← writeFrames interpolate { r with bufferedSamples := r.bufferedSamples ++ input } output
      let r ← r.discardConsumedFrames
      some (r, output, .ok ())

/-- The chunks one after the other, into one output vector. -/
def processAll (r : StreamingLinearAudioResampler α) (output : List α) :
    List (List α) → Option (StreamingLinearAudioResampler α × List α)
  | [] => some (r, output)
  | chunk :: rest => do
    let (r, output, _) ← r.processInto interpolate chunk output
    processAll r output rest

end StreamingLinearAudioResampler

structure FixedFrameAudioResampler (α : Type) where
  resampler : StreamingLinearAudioResampler α
  outputSamples : Nat
  pendingSamples : List α := []

/-- `chunks_exact`, of a list of whole chunks. -/
def chunksExact {α : Type} (size : Nat) (samples : List α) : List (List α) :=
  (List.range (samples.length / size)).map fun i => (samples.drop (i * size)).take size

namespace FixedFrameAudioResampler

variable {α : Type} (interpolate : α → α → Nat → Nat → α) (r : FixedFrameAudioResampler α)

def new (config : AudioResamplerConfig) (outputFrames : Nat) :
    Except AudioResamplerError (FixedFrameAudioResampler α) :=
  if outputFrames = 0 then .error (.invalidOutputFrameSize outputFrames)
  else do
    let c ← validateConfig config
    let outputSamples ← orOverflow (checkedMul 64 outputFrames c.width)
    let scaled ← orOverflow (checkedMul 64 outputFrames c.input)
    let inputFrames := (scaled + c.output - 1) / c.output
    let _capacity ← orOverflow ((checkedMul 64 outputSamples PENDING_PACKET_CAPACITY).bind fun samples =>
      checkedAdd 64 samples (c.width * INTERPOLATION_MARGIN_FRAMES))
    let _reserved ← orOverflow ((checkedAdd 64 inputFrames INTERPOLATION_MARGIN_FRAMES).bind fun frames =>
      checkedMul 64 frames c.width)
    .ok { resampler := { config := c }, outputSamples := outputSamples }

/-- With the packets that `on_packet` is called with. -/
def processWith (input : List α) :
    Option (FixedFrameAudioResampler α × List (List α) × Except AudioResamplerError Unit) :=
  match r.resampler.processInto interpolate input r.pendingSamples with
  | none => none
  | some (resampler, pending, .error error) =>
    some ({ r with resampler := resampler, pendingSamples := pending }, [], .error error)
  | some (resampler, pending, .ok ()) =>
    let completeSamples := pending.length / r.outputSamples * r.outputSamples
    some ({ r with resampler := resampler, pendingSamples := pending.drop completeSamples },
      chunksExact r.outputSamples (pending.take completeSamples), .ok ())

/-- The chunks one after the other, with the packets of all of them. -/
def processAll (r : FixedFrameAudioResampler α) (packets : List (List α)) :
    List (List α) → Option (FixedFrameAudioResampler α × List (List α))
  | [] => some (r, packets)
  | chunk :: rest => do
    let (r, more, _) ← r.processWith interpolate chunk
    processAll r (packets ++ more) rest

end FixedFrameAudioResampler

end FontisRemote.Audio
