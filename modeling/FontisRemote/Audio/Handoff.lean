import FontisRemote.Lib.Run
import Mathlib.Data.List.Basic

/-!
# The hand-off of captured audio

`audio_capture_queue.rs`: the callback of the capture device copies each packet into a buffer of a fixed
pool and queues it; the encoder thread takes the packets out, smooths over gaps (`smooth_packet` of
`audio_capture_encoder.rs`), encodes them and gives the buffers back.

A step is one operation on the lock or on a counter, or the rest of a region under the lock. The callback
never waits for the lock: it finds it free, or counts its packet as lost. The waking of the encoder thread
says nothing about the packets and is left out; that thread may do any of its calls at any time, and gives
each buffer back once.
-/

namespace FontisRemote.Audio

open FontisRemote.Lib

/-- `usize` addition, as `wrapping_add` and `fetch_add` do it. -/
def wrappingAdd (a b : Nat) : Nat :=
  (a + b) % 2 ^ 64

theorem wrappingAdd_of_lt {a b : Nat} (h : a + b < 2 ^ 64) : wrappingAdd a b = a + b :=
  Nat.mod_eq_of_lt h

inductive Channels
  | mono
  | stereo
deriving DecidableEq, Repr

def Channels.count : Channels → Nat
  | .mono => 1
  | .stereo => 2

def captureDeclickMs : Nat := 5
def millisecondsPerSecond : Nat := 1000
def maxEncodeChannels : Nat := Channels.stereo.count

structure CaptureEncoderState where
  channels : Channels
  expectedSequence : Nat := 0
  fadeFrames : Nat
  lastFrame : List Float32 := List.replicate maxEncodeChannels 0

namespace CaptureEncoderState

def new (sampleRate : Nat) (channels : Channels) : CaptureEncoderState where
  channels := channels
  fadeFrames := sampleRate * captureDeclickMs / millisecondsPerSecond

variable (encoder : CaptureEncoderState)

/-- Blend the frames from this index on with the last frame that was sent; `left` are still to blend. -/
def fade : (left index : Nat) → (packet : List Float32) → List Float32
  | 0, _, packet => packet
  | left + 1, index, packet =>
    let channels := encoder.channels.count
    if channels ≤ packet.length then
      let weight := Float32.ofNat (index + 1) / Float32.ofNat encoder.fadeFrames
      List.zipWith (fun last sample => last * (1 - weight) + sample * weight) encoder.lastFrame
          (packet.take channels) ++ fade left (index + 1) (packet.drop channels)
    else packet

/-- The last full frame of a packet. -/
def lastFrameOf (packet : List Float32) : Option (List Float32) :=
  let channels := encoder.channels.count
  let frames := packet.length / channels
  if frames = 0 then none else some ((packet.drop ((frames - 1) * channels)).take channels)

def smoothPacket (sequence : Nat) (packet : List Float32) : CaptureEncoderState × List Float32 :=
  let packet := if sequence ≠ encoder.expectedSequence then encoder.fade encoder.fadeFrames 0 packet else packet
  ({ encoder with
      expectedSequence := wrappingAdd sequence 1
      lastFrame := match encoder.lastFrameOf packet with
        | some frame => frame ++ encoder.lastFrame.drop encoder.channels.count
        | none => encoder.lastFrame }, packet)

end CaptureEncoderState

structure CapturePcmLoss where
  dropped : Nat := 0
  contentionDropped : Nat := 0
  oversized : Nat := 0
  recycleFailures : Nat := 0
deriving DecidableEq, Repr

/-- The packets lost; `dropped` has those lost to contention in it. -/
def CapturePcmLoss.packets (loss : CapturePcmLoss) : Nat :=
  loss.dropped + loss.oversized

structure CapturePcmStats where
  loss : CapturePcmLoss
  maxQueuedPackets : Nat
deriving DecidableEq, Repr

/-- A sequence number with the samples submitted under it. -/
abbrev Packet := Nat × List Float32

inductive Holder
  | free
  | callback
  | worker
  | poisoned
deriving DecidableEq, Repr

/-- Where the callback is in `submit`. -/
inductive SenderPc
  | idle
  | oversized
  | locking (packet : Packet)
  | contended
  | poisoned
  | taking (packet : Packet)
  /-- A buffer was taken from the oldest packet that was ready, which is not counted as lost yet. -/
  | evicted (packet : Packet) (buffer : List Float32)
  | filling (packet : Packet) (buffer : List Float32)
  | queued (length : Nat)
  | exhausted
  | unlocking

/-- Where the encoder thread is: in a region under the lock, or between two swaps of `take_stats`. -/
inductive WorkerPc
  | idle
  | popping
  | recycling (buffer : List Float32)
  | peeking
  | swapOther (contentionDropped : Nat)
  | swapOversized (dropped contentionDropped : Nat)
  | swapRecycle (dropped contentionDropped oversized : Nat)
  | swapMax (loss : CapturePcmLoss)

/-- `submitted`, `pops` and `reports` are what happened so far, oldest first: each packet given to `submit`,
each packet popped with whether `smooth_packet` found a gap before it, and what `take_stats` returned. -/
structure CapturePcm where
  maxSamples : Nat
  /-- `available.capacity()`. -/
  allocated : Nat
  holder : Holder := .free
  /-- The buffer pushed last comes first. -/
  available : List (List Float32)
  ready : List Packet := []
  otherDropped : Nat := 0
  contentionDropped : Nat := 0
  oversized : Nat := 0
  recycleFailures : Nat := 0
  maxQueuedPackets : Nat := 0
  sequence : Nat := 0
  sender : SenderPc := .idle
  worker : WorkerPc := .idle
  /-- The buffers popped and not given back. -/
  popped : List (List Float32) := []
  encoder : CaptureEncoderState
  submitted : List Packet := []
  pops : List (Packet × Bool) := []
  reports : List CapturePcmStats := []

/-- `Vec::with_capacity` may allocate more than it was asked for. -/
def newPcmHandoff (capacity maxSamples allocated : Nat) (encoder : CaptureEncoderState) : Option CapturePcm :=
  if capacity = 0 ∨ maxSamples = 0 then none
  else some {
    maxSamples := maxSamples
    allocated := max capacity allocated
    available := List.replicate capacity []
    encoder := encoder }

namespace CapturePcm

inductive Event
  | submit (input : List Float32)
  /-- The next operation of the `submit` in progress. -/
  | callback
  | lockPop
  | lockRecycle (i : Nat)
  | lockIsEmpty
  | takeStats
  /-- The rest of the encoder thread's region, or its next swap. -/
  | work

variable (s : CapturePcm)

def submit (input : List Float32) : SenderPc → Option CapturePcm
  | .idle =>
    let packet := (s.sequence, input)
    some { s with
      sequence := wrappingAdd s.sequence 1
      submitted := s.submitted ++ [packet]
      sender := if s.maxSamples < input.length then .oversized else .locking packet }
  | _ => none

def callback : SenderPc → Option CapturePcm
  | .idle => none
  | .oversized => some { s with oversized := wrappingAdd s.oversized 1, sender := .idle }
  | .locking packet =>
    match s.holder with
    | .free => some { s with holder := .callback, sender := .taking packet }
    | .poisoned => some { s with sender := .poisoned }
    | _ => some { s with sender := .contended }
  | .contended => some { s with contentionDropped := wrappingAdd s.contentionDropped 1, sender := .idle }
  | .poisoned => some { s with otherDropped := wrappingAdd s.otherDropped 1, sender := .idle }
  | .taking packet =>
    match s.available, s.ready with
    | buffer :: available, _ => some { s with available := available, sender := .filling packet buffer }
    | [], (_, buffer) :: ready => some { s with ready := ready, sender := .evicted packet buffer }
    | [], [] => some { s with sender := .exhausted }
  | .evicted packet buffer =>
    some { s with otherDropped := wrappingAdd s.otherDropped 1, sender := .filling packet buffer }
  -- the buffer is cleared and takes the input
  | .filling packet _ =>
    some { s with ready := s.ready ++ [packet], sender := .queued (s.ready.length + 1) }
  | .queued length =>
    some { s with maxQueuedPackets := max s.maxQueuedPackets length, sender := .unlocking }
  | .exhausted => some { s with otherDropped := wrappingAdd s.otherDropped 1, sender := .unlocking }
  | .unlocking => some { s with holder := .free, sender := .idle }

/-- The encoder thread waits for the lock: no step until it is free. -/
def lock (pc : WorkerPc) : Option CapturePcm :=
  match s.worker, s.holder with
  | .idle, .free => some { s with holder := .worker, worker := pc }
  | _, _ => none

def lockRecycle (i : Nat) : Option CapturePcm :=
  match s.popped[i]? with
  | some _ => { s with popped := s.popped.eraseIdx i }.lock (.recycling [])
  | none => none

def takeStats : WorkerPc → Option CapturePcm
  | .idle => some { s with contentionDropped := 0, worker := .swapOther s.contentionDropped }
  | _ => none

def work : WorkerPc → Option CapturePcm
  | .idle => none
  | .popping =>
    match s.ready with
    | [] => some { s with holder := .free, worker := .idle }
    | (sequence, buffer) :: ready =>
      let smoothed := s.encoder.smoothPacket sequence buffer
      some { s with
        holder := .free
        worker := .idle
        ready := ready
        encoder := smoothed.1
        popped := s.popped ++ [smoothed.2]
        pops := s.pops ++ [((sequence, buffer), decide (sequence ≠ s.encoder.expectedSequence))] }
  | .recycling buffer =>
    if s.available.length = s.allocated then
      some { s with
        holder := .free
        worker := .idle
        recycleFailures := wrappingAdd s.recycleFailures 1 }
    else
      some { s with
        holder := .free
        worker := .idle
        available := buffer :: s.available }
  | .peeking => some { s with holder := .free, worker := .idle }
  | .swapOther contentionDropped =>
    some { s with
      otherDropped := 0
      worker := .swapOversized (wrappingAdd s.otherDropped contentionDropped) contentionDropped }
  | .swapOversized dropped contentionDropped =>
    some { s with oversized := 0, worker := .swapRecycle dropped contentionDropped s.oversized }
  | .swapRecycle dropped contentionDropped oversized =>
    some { s with
      recycleFailures := 0
      worker := .swapMax ⟨dropped, contentionDropped, oversized, s.recycleFailures⟩ }
  | .swapMax loss =>
    some { s with
      maxQueuedPackets := 0
      worker := .idle
      reports := s.reports ++ [⟨loss, s.maxQueuedPackets⟩] }

def step : Event → Option CapturePcm
  | .submit input => s.submit input s.sender
  | .callback => s.callback s.sender
  | .lockPop => s.lock .popping
  | .lockRecycle i => s.lockRecycle i
  | .lockIsEmpty => s.lock .peeking
  | .takeStats => s.takeStats s.worker
  | .work => s.work s.worker

def Init (capacity : Nat) (s : CapturePcm) : Prop :=
  ∃ maxSamples allocated sampleRate channels,
    newPcmHandoff capacity maxSamples allocated (.new sampleRate channels) = some s

end CapturePcm

/-! ## What each thread holds -/

namespace SenderPc

def holds : SenderPc → Bool
  | .taking _ => true
  | .evicted _ _ => true
  | .filling _ _ => true
  | .queued _ => true
  | .exhausted => true
  | .unlocking => true
  | _ => false

/-- The buffers taken from the pool and not queued. -/
def buffers : SenderPc → Nat
  | .evicted _ _ => 1
  | .filling _ _ => 1
  | _ => 0

/-- The packet that is neither queued nor given up. -/
def inFlight : SenderPc → List Packet
  | .locking packet => [packet]
  | .taking packet => [packet]
  | .evicted packet _ => [packet]
  | .filling packet _ => [packet]
  | _ => []

/-- The packets given up and not counted. -/
def uncounted : SenderPc → Nat
  | .oversized => 1
  | .contended => 1
  | .poisoned => 1
  | .evicted _ _ => 1
  | .exhausted => 1
  | _ => 0

end SenderPc

namespace WorkerPc

def holds : WorkerPc → Bool
  | .popping => true
  | .recycling _ => true
  | .peeking => true
  | _ => false

def buffers : WorkerPc → Nat
  | .recycling _ => 1
  | _ => 0

/-- What the swaps so far of `take_stats` have got. -/
def loss : WorkerPc → CapturePcmLoss
  | .swapOther contentionDropped => { dropped := contentionDropped, contentionDropped := contentionDropped }
  | .swapOversized dropped contentionDropped => { dropped := dropped, contentionDropped := contentionDropped }
  | .swapRecycle dropped contentionDropped oversized => ⟨dropped, contentionDropped, oversized, 0⟩
  | .swapMax loss => loss
  | _ => {}

end WorkerPc

namespace CapturePcm

/-- The buffers popped and not back in the pool. -/
def outstanding (s : CapturePcm) : Nat :=
  s.popped.length + s.worker.buffers

structure Locked (s : CapturePcm) : Prop where
  callback : s.holder = .callback ↔ s.sender.holds = true
  worker : s.holder = .worker ↔ s.worker.holds = true

structure Stocked (capacity : Nat) (s : CapturePcm) : Prop where
  room : capacity ≤ s.allocated
  buffers : s.available.length + s.ready.length + s.outstanding + s.sender.buffers = capacity
  kept : s.recycleFailures = 0
  taken : s.worker.loss.recycleFailures = 0
  told : ∀ stats ∈ s.reports, stats.loss.recycleFailures = 0

variable {s s' : CapturePcm} {capacity : Nat}

theorem lock_spec {pc : WorkerPc} (hstep : s.lock pc = some s') :
    s.worker = .idle ∧ s.holder = .free ∧ s' = { s with holder := .worker, worker := pc } := by
  unfold lock at hstep
  split at hstep
  · rename_i hworker hholder
    exact ⟨hworker, hholder, (Option.some.inj hstep).symm⟩
  · cases hstep

theorem lockRecycle_spec {i : Nat} (hstep : s.lockRecycle i = some s') :
    i < s.popped.length ∧ s.worker = .idle ∧ s.holder = .free ∧
      s' = { s with popped := s.popped.eraseIdx i, holder := .worker, worker := .recycling [] } := by
  unfold lockRecycle at hstep
  split at hstep
  · rename_i buffer hbuffer
    obtain ⟨hi, -⟩ := List.getElem?_eq_some_iff.mp hbuffer
    exact ⟨hi, lock_spec hstep⟩
  · cases hstep

theorem takeStats_spec (hstep : s.takeStats s.worker = some s') :
    s.worker = .idle ∧ s' = { s with contentionDropped := 0, worker := .swapOther s.contentionDropped } := by
  cases hpc : s.worker with
  | idle =>
    rw [hpc] at hstep
    exact ⟨rfl, (Option.some.inj hstep).symm⟩
  | _ =>
    rw [hpc] at hstep
    cases hstep

section Lock

theorem Locked.submit (h : s.Locked) {input : List Float32} (hstep : s.submit input s.sender = some s') :
    s'.Locked := by
  have hcallback := h.callback
  cases hpc : s.sender with
  | idle =>
    rw [hpc] at hstep hcallback
    obtain rfl := Option.some.inj hstep
    refine ⟨hcallback.trans ?_, h.worker⟩
    dsimp only
    split <;> rfl
  | _ =>
    rw [hpc] at hstep
    cases hstep

theorem Locked.callback_step (h : s.Locked) (hstep : s.callback s.sender = some s') : s'.Locked := by
  have hcallback := h.callback
  have hworker := h.worker
  cases hpc : s.sender with
  | idle =>
    rw [hpc] at hstep
    cases hstep
  | locking packet =>
    rw [hpc] at hstep hcallback
    unfold CapturePcm.callback at hstep
    dsimp only at hstep
    split at hstep
    · rename_i hholder
      rw [hholder] at hworker
      obtain rfl := Option.some.inj hstep
      exact ⟨iff_of_true rfl rfl, ⟨nofun, fun hw => nomatch hworker.mpr hw⟩⟩
    · obtain rfl := Option.some.inj hstep
      exact ⟨hcallback, hworker⟩
    · obtain rfl := Option.some.inj hstep
      exact ⟨hcallback, hworker⟩
  | taking packet =>
    rw [hpc] at hstep hcallback
    unfold CapturePcm.callback at hstep
    dsimp only at hstep
    split at hstep <;>
    · obtain rfl := Option.some.inj hstep
      exact ⟨hcallback, hworker⟩
  | unlocking =>
    rw [hpc] at hstep hcallback
    obtain rfl := Option.some.inj hstep
    refine ⟨⟨nofun, nofun⟩, ⟨nofun, fun hw => ?_⟩⟩
    -- the callback held the lock, so the encoder thread does not
    have hheld := hcallback.mpr rfl
    rw [hworker.mpr hw] at hheld
    cases hheld
  | _ =>
    rw [hpc] at hstep hcallback
    obtain rfl := Option.some.inj hstep
    exact ⟨hcallback, hworker⟩

theorem Locked.lock (h : s.Locked) {pc : WorkerPc} (hpc : pc.holds = true) (hstep : s.lock pc = some s') :
    s'.Locked := by
  obtain ⟨-, hholder, rfl⟩ := lock_spec hstep
  have hcallback := h.callback
  rw [hholder] at hcallback
  exact ⟨⟨nofun, fun hs => nomatch hcallback.mpr hs⟩, iff_of_true rfl hpc⟩

theorem Locked.lockRecycle (h : s.Locked) {i : Nat} (hstep : s.lockRecycle i = some s') : s'.Locked := by
  obtain ⟨-, -, hholder, rfl⟩ := lockRecycle_spec hstep
  have hcallback := h.callback
  rw [hholder] at hcallback
  exact ⟨⟨nofun, fun hs => nomatch hcallback.mpr hs⟩, iff_of_true rfl rfl⟩

theorem Locked.takeStats (h : s.Locked) (hstep : s.takeStats s.worker = some s') : s'.Locked := by
  obtain ⟨hidle, rfl⟩ := takeStats_spec hstep
  have hworker := h.worker
  rw [hidle] at hworker
  exact ⟨h.callback, hworker⟩

/-- The encoder thread had the lock and gives it back. -/
theorem Locked.unlock (h : s.Locked) (hheld : s.worker.holds = true) {t : CapturePcm}
    (hholder : t.holder = .free) (hsender : t.sender = s.sender) (hworker : t.worker = .idle) : t.Locked := by
  refine ⟨⟨fun hc => ?_, fun hs => ?_⟩, ⟨fun hw => ?_, fun hw => ?_⟩⟩
  · rw [hholder] at hc
    cases hc
  · have hcallback := h.callback.mpr (hsender ▸ hs)
    rw [h.worker.mpr hheld] at hcallback
    cases hcallback
  · rw [hholder] at hw
    cases hw
  · rw [hworker] at hw
    cases hw

theorem Locked.work (h : s.Locked) (hstep : s.work s.worker = some s') : s'.Locked := by
  have hworker := h.worker
  cases hpc : s.worker with
  | idle =>
    rw [hpc] at hstep
    cases hstep
  | popping =>
    have hheld : s.worker.holds = true := hpc ▸ rfl
    rw [hpc] at hstep
    unfold CapturePcm.work at hstep
    dsimp only at hstep
    split at hstep <;>
    · obtain rfl := Option.some.inj hstep
      exact h.unlock hheld rfl rfl rfl
  | recycling buffer =>
    have hheld : s.worker.holds = true := hpc ▸ rfl
    rw [hpc] at hstep
    unfold CapturePcm.work at hstep
    dsimp only at hstep
    split at hstep <;>
    · obtain rfl := Option.some.inj hstep
      exact h.unlock hheld rfl rfl rfl
  | peeking =>
    have hheld : s.worker.holds = true := hpc ▸ rfl
    rw [hpc] at hstep
    obtain rfl := Option.some.inj hstep
    exact h.unlock hheld rfl rfl rfl
  | _ =>
    rw [hpc] at hstep hworker
    obtain rfl := Option.some.inj hstep
    exact ⟨h.callback, hworker⟩

theorem Locked.step (h : s.Locked) {e : Event} (hstep : s.step e = some s') : s'.Locked := by
  cases e with
  | submit input => exact h.submit hstep
  | callback => exact h.callback_step hstep
  | lockPop => exact h.lock rfl hstep
  | lockRecycle i => exact h.lockRecycle hstep
  | lockIsEmpty => exact h.lock rfl hstep
  | takeStats => exact h.takeStats hstep
  | work => exact h.work hstep

end Lock

section Stock

theorem Stocked.submit (h : s.Stocked capacity) {input : List Float32}
    (hstep : s.submit input s.sender = some s') : s'.Stocked capacity := by
  have hbuffers := h.buffers
  cases hpc : s.sender with
  | idle =>
    rw [hpc] at hstep hbuffers
    obtain rfl := Option.some.inj hstep
    refine ⟨h.room, ?_, h.kept, h.taken, h.told⟩
    have hnone : (if s.maxSamples < input.length then SenderPc.oversized
        else .locking (s.sequence, input)).buffers = 0 := by
      split <;> rfl
    dsimp only
    rw [hnone]
    exact hbuffers
  | _ =>
    rw [hpc] at hstep
    cases hstep

theorem Stocked.callback (h : s.Stocked capacity) (hstep : s.callback s.sender = some s') :
    s'.Stocked capacity := by
  have hbuffers := h.buffers
  cases hpc : s.sender with
  | idle =>
    rw [hpc] at hstep
    cases hstep
  | locking packet =>
    rw [hpc] at hstep hbuffers
    unfold CapturePcm.callback at hstep
    dsimp only at hstep
    split at hstep <;>
    · obtain rfl := Option.some.inj hstep
      exact ⟨h.room, hbuffers, h.kept, h.taken, h.told⟩
  | taking packet =>
    rw [hpc] at hstep hbuffers
    unfold CapturePcm.callback at hstep
    dsimp only at hstep
    split at hstep
    · rename_i buffer available hsome
      obtain rfl := Option.some.inj hstep
      refine ⟨h.room, ?_, h.kept, h.taken, h.told⟩
      rw [hsome, List.length_cons] at hbuffers
      change available.length + s.ready.length + s.outstanding + 1 = capacity
      change _ + 0 = capacity at hbuffers
      omega
    · rename_i sequence buffer ready hnone hsome
      obtain rfl := Option.some.inj hstep
      refine ⟨h.room, ?_, h.kept, h.taken, h.told⟩
      rw [hsome, List.length_cons] at hbuffers
      change s.available.length + ready.length + s.outstanding + 1 = capacity
      change _ + 0 = capacity at hbuffers
      omega
    · obtain rfl := Option.some.inj hstep
      exact ⟨h.room, hbuffers, h.kept, h.taken, h.told⟩
  | filling packet buffer =>
    rw [hpc] at hstep hbuffers
    obtain rfl := Option.some.inj hstep
    refine ⟨h.room, ?_, h.kept, h.taken, h.told⟩
    change s.available.length + (s.ready ++ [packet]).length + s.outstanding + 0 = capacity
    change _ + 1 = capacity at hbuffers
    rw [List.length_append, List.length_singleton]
    omega
  | _ =>
    rw [hpc] at hstep hbuffers
    obtain rfl := Option.some.inj hstep
    exact ⟨h.room, hbuffers, h.kept, h.taken, h.told⟩

theorem Stocked.lock (h : s.Stocked capacity) {pc : WorkerPc} (hbuffers : pc.buffers = 0) (hloss : pc.loss = {})
    (hstep : s.lock pc = some s') : s'.Stocked capacity := by
  obtain ⟨hworker, -, rfl⟩ := lock_spec hstep
  have hstock := h.buffers
  unfold outstanding at hstock
  rw [hworker] at hstock
  refine ⟨h.room, ?_, h.kept, ?_, h.told⟩
  · unfold outstanding
    rw [hbuffers]
    exact hstock
  · change pc.loss.recycleFailures = 0
    rw [hloss]

theorem Stocked.lockRecycle (h : s.Stocked capacity) {i : Nat} (hstep : s.lockRecycle i = some s') :
    s'.Stocked capacity := by
  obtain ⟨hi, hworker, -, rfl⟩ := lockRecycle_spec hstep
  have hstock := h.buffers
  unfold outstanding at hstock
  rw [hworker] at hstock
  change _ + (_ + 0) + _ = capacity at hstock
  refine ⟨h.room, ?_, h.kept, rfl, h.told⟩
  change s.available.length + s.ready.length + ((s.popped.eraseIdx i).length + 1) + s.sender.buffers = capacity
  rw [List.length_eraseIdx_of_lt hi]
  omega

theorem Stocked.takeStats (h : s.Stocked capacity) (hstep : s.takeStats s.worker = some s') :
    s'.Stocked capacity := by
  obtain ⟨hidle, rfl⟩ := takeStats_spec hstep
  have hstock := h.buffers
  unfold outstanding at hstock
  rw [hidle] at hstock
  exact ⟨h.room, hstock, h.kept, rfl, h.told⟩

theorem Stocked.work (h : s.Stocked capacity) (hstep : s.work s.worker = some s') : s'.Stocked capacity := by
  have hstock := h.buffers
  have htaken := h.taken
  unfold outstanding at hstock
  cases hpc : s.worker with
  | idle =>
    rw [hpc] at hstep
    cases hstep
  | popping =>
    rw [hpc] at hstep hstock
    unfold CapturePcm.work at hstep
    dsimp only at hstep
    split at hstep
    · obtain rfl := Option.some.inj hstep
      exact ⟨h.room, hstock, h.kept, rfl, h.told⟩
    · rename_i sequence buffer ready hready
      obtain rfl := Option.some.inj hstep
      rw [hready, List.length_cons] at hstock
      change _ + (_ + 0) + _ = capacity at hstock
      refine ⟨h.room, ?_, h.kept, rfl, h.told⟩
      change s.available.length + ready.length + ((s.popped ++ [_]).length + 0) + s.sender.buffers = capacity
      rw [List.length_append, List.length_singleton]
      omega
  | recycling buffer =>
    rw [hpc] at hstep hstock
    change _ + (_ + 1) + _ = capacity at hstock
    -- the buffer that comes back was missing from the pool, so there is room for it
    have hroom : s.available.length ≠ s.allocated := by
      have hle := h.room
      omega
    unfold CapturePcm.work at hstep
    dsimp only at hstep
    rw [if_neg hroom] at hstep
    obtain rfl := Option.some.inj hstep
    refine ⟨h.room, ?_, h.kept, rfl, h.told⟩
    change (buffer :: s.available).length + s.ready.length + (s.popped.length + 0) + s.sender.buffers = capacity
    rw [List.length_cons]
    omega
  | peeking =>
    rw [hpc] at hstep hstock
    obtain rfl := Option.some.inj hstep
    exact ⟨h.room, hstock, h.kept, rfl, h.told⟩
  | swapOther contentionDropped =>
    rw [hpc] at hstep hstock
    obtain rfl := Option.some.inj hstep
    exact ⟨h.room, hstock, h.kept, rfl, h.told⟩
  | swapOversized dropped contentionDropped =>
    rw [hpc] at hstep hstock
    obtain rfl := Option.some.inj hstep
    exact ⟨h.room, hstock, h.kept, rfl, h.told⟩
  | swapRecycle dropped contentionDropped oversized =>
    rw [hpc] at hstep hstock
    obtain rfl := Option.some.inj hstep
    exact ⟨h.room, hstock, rfl, h.kept, h.told⟩
  | swapMax loss =>
    rw [hpc] at hstep hstock htaken
    obtain rfl := Option.some.inj hstep
    refine ⟨h.room, hstock, h.kept, rfl, fun stats hstats => ?_⟩
    obtain hstats | hstats := List.mem_append.mp hstats
    · exact h.told stats hstats
    · obtain rfl := List.mem_singleton.mp hstats
      exact htaken

theorem Stocked.step (h : s.Stocked capacity) {e : Event} (hstep : s.step e = some s') :
    s'.Stocked capacity := by
  cases e with
  | submit input => exact h.submit hstep
  | callback => exact h.callback hstep
  | lockPop => exact h.lock rfl rfl hstep
  | lockRecycle i => exact h.lockRecycle hstep
  | lockIsEmpty => exact h.lock rfl rfl hstep
  | takeStats => exact h.takeStats hstep
  | work => exact h.work hstep

end Stock

end CapturePcm

end FontisRemote.Audio
