import FontisRemote.Audio.Handoff
import FontisRemote.Lib.Sequence
import FontisRemote.Lib.Slots

/-!
# Every captured packet is accounted for

The packets popped, those ready and the one in the callback's hands are in line as they were submitted. Every
other packet was counted as lost, or is about to be; and the encoder sees a gap where one of them was.
-/

namespace FontisRemote.Audio

open FontisRemote.Lib

namespace CapturePcm

/-- The losses in the counters and in the hands of a `take_stats` under way. -/
def pending (s : CapturePcm) : Nat :=
  s.contentionDropped + s.otherDropped + s.oversized + s.worker.loss.packets

def reported (s : CapturePcm) : Nat :=
  (s.reports.map fun stats => stats.loss.packets).sum

/-- What a `submit` in progress has not settled: its own packet, and a loss it has not counted. -/
def unsettled (s : CapturePcm) : Nat :=
  s.sender.inFlight.length + s.sender.uncounted

/-- Submitted, and neither popped, ready nor with the callback. -/
def Lost (s : CapturePcm) (packet : Packet) : Prop :=
  packet ∈ s.submitted ∧ packet ∉ s.pops.map Prod.fst ++ s.ready ++ s.sender.inFlight

structure Ordered (s : CapturePcm) : Prop where
  sequence : s.sequence = s.submitted.length % 2 ^ 64
  numbered : ∀ i packet, s.submitted[i]? = some packet → packet.1 = i % 2 ^ 64
  order : (s.pops.map Prod.fst ++ s.ready ++ s.sender.inFlight).Sublist s.submitted

/-- The packet that is due, and each flag, read off the packets popped before. -/
structure Watched (s : CapturePcm) : Prop where
  expected : s.encoder.expectedSequence = nextDue (s.pops.map fun pop => pop.1.1) % 2 ^ 64
  flagged : ∀ before packet flagged after, s.pops = before ++ (packet, flagged) :: after →
    flagged = decide (packet.1 ≠ nextDue (before.map fun pop => pop.1.1) % 2 ^ 64)

def Counted (s : CapturePcm) : Prop :=
  s.submitted.length < 2 ^ 64 →
    s.submitted.length = s.pops.length + s.ready.length + s.reported + s.pending + s.unsettled

variable {s s' : CapturePcm} {capacity : Nat}

section Order

/-- The packets not lost are still in line, some of them may have left it. -/
theorem Ordered.shrink (h : s.Ordered) {t : CapturePcm} (hsequence : t.sequence = s.sequence)
    (hsubmitted : t.submitted = s.submitted)
    (hline : (t.pops.map Prod.fst ++ t.ready ++ t.sender.inFlight).Sublist
      (s.pops.map Prod.fst ++ s.ready ++ s.sender.inFlight)) : t.Ordered := by
  refine ⟨?_, ?_, ?_⟩
  · rw [hsequence, hsubmitted]
    exact h.sequence
  · rw [hsubmitted]
    exact h.numbered
  · rw [hsubmitted]
    exact hline.trans h.order

theorem Ordered.submit (h : s.Ordered) {input : List Float32} (hstep : s.submit input s.sender = some s') :
    s'.Ordered := by
  have horder := h.order
  cases hpc : s.sender with
  | idle =>
    rw [hpc] at hstep horder
    obtain rfl := Option.some.inj hstep
    refine ⟨?_, fun i packet hi => ?_, ?_⟩
    · dsimp only
      rw [h.sequence, List.length_append, List.length_singleton, wrappingAdd, Nat.mod_add_mod]
    · obtain hi | ⟨rfl, rfl⟩ := getElem?_append_singleton hi
      · exact h.numbered i packet hi
      · exact h.sequence
    · change (s.pops.map Prod.fst ++ s.ready ++ []).Sublist s.submitted at horder
      rw [List.append_nil] at horder
      dsimp only
      split
      · exact (List.append_nil _).symm ▸ horder.trans (List.sublist_append_left ..)
      · exact horder.append (List.Sublist.refl _)
  | _ =>
    rw [hpc] at hstep
    cases hstep

theorem Ordered.callback (h : s.Ordered) (hstep : s.callback s.sender = some s') : s'.Ordered := by
  cases hpc : s.sender with
  | idle =>
    rw [hpc] at hstep
    cases hstep
  | locking packet =>
    rw [hpc] at hstep
    unfold CapturePcm.callback at hstep
    dsimp only at hstep
    split at hstep <;>
    · obtain rfl := Option.some.inj hstep
      refine h.shrink rfl rfl ((List.Sublist.refl _).append ?_)
      rw [hpc]
      first | exact List.Sublist.refl _ | exact List.nil_sublist _
  | taking packet =>
    rw [hpc] at hstep
    unfold CapturePcm.callback at hstep
    dsimp only at hstep
    split at hstep
    · obtain rfl := Option.some.inj hstep
      refine h.shrink rfl rfl ((List.Sublist.refl _).append ?_)
      rw [hpc]
      exact List.Sublist.refl _
    · rename_i hready
      obtain rfl := Option.some.inj hstep
      refine h.shrink rfl rfl (((List.Sublist.refl _).append ?_).append ?_)
      · rw [hready]
        exact List.sublist_cons_self ..
      · rw [hpc]
        exact List.Sublist.refl _
    · obtain rfl := Option.some.inj hstep
      refine h.shrink rfl rfl ((List.Sublist.refl _).append ?_)
      exact List.nil_sublist _
  | filling packet buffer =>
    rw [hpc] at hstep
    obtain rfl := Option.some.inj hstep
    refine h.shrink rfl rfl ?_
    change (s.pops.map Prod.fst ++ (s.ready ++ [packet]) ++ []).Sublist _
    rw [hpc, List.append_nil, ← List.append_assoc]
    exact List.Sublist.refl _
  | _ =>
    rw [hpc] at hstep
    obtain rfl := Option.some.inj hstep
    refine h.shrink rfl rfl ((List.Sublist.refl _).append ?_)
    rw [hpc]
    exact List.Sublist.refl _

theorem Ordered.work (h : s.Ordered) (hstep : s.work s.worker = some s') : s'.Ordered := by
  cases hpc : s.worker with
  | idle =>
    rw [hpc] at hstep
    cases hstep
  | popping =>
    rw [hpc] at hstep
    unfold CapturePcm.work at hstep
    dsimp only at hstep
    split at hstep
    · obtain rfl := Option.some.inj hstep
      exact h.shrink rfl rfl (List.Sublist.refl _)
    · rename_i sequence buffer ready hready
      obtain rfl := Option.some.inj hstep
      refine h.shrink rfl rfl ((List.Sublist.append ?_ (List.Sublist.refl _)))
      rw [hready, List.map_append, List.map_singleton, List.append_assoc, List.singleton_append]
  | recycling buffer =>
    rw [hpc] at hstep
    unfold CapturePcm.work at hstep
    dsimp only at hstep
    split at hstep <;>
    · obtain rfl := Option.some.inj hstep
      exact h.shrink rfl rfl (List.Sublist.refl _)
  | _ =>
    rw [hpc] at hstep
    obtain rfl := Option.some.inj hstep
    exact h.shrink rfl rfl (List.Sublist.refl _)

theorem Ordered.step (h : s.Ordered) {e : Event} (hstep : s.step e = some s') : s'.Ordered := by
  cases e with
  | submit input => exact h.submit hstep
  | callback => exact h.callback hstep
  | lockPop =>
    obtain ⟨-, -, rfl⟩ := lock_spec hstep
    exact h.shrink rfl rfl (List.Sublist.refl _)
  | lockRecycle i =>
    obtain ⟨-, -, -, rfl⟩ := lockRecycle_spec hstep
    exact h.shrink rfl rfl (List.Sublist.refl _)
  | lockIsEmpty =>
    obtain ⟨-, -, rfl⟩ := lock_spec hstep
    exact h.shrink rfl rfl (List.Sublist.refl _)
  | takeStats =>
    obtain ⟨-, rfl⟩ := takeStats_spec hstep
    exact h.shrink rfl rfl (List.Sublist.refl _)
  | work => exact h.work hstep

end Order

section Watch

theorem Watched.same (h : s.Watched) {t : CapturePcm}
    (hexpected : t.encoder.expectedSequence = s.encoder.expectedSequence) (hpops : t.pops = s.pops) :
    t.Watched := by
  refine ⟨?_, ?_⟩
  · rw [hexpected, hpops]
    exact h.expected
  · rw [hpops]
    exact h.flagged

theorem Watched.pop (h : s.Watched) {t : CapturePcm} {sequence : Nat} {buffer : List Float32}
    (hexpected : t.encoder.expectedSequence = wrappingAdd sequence 1)
    (hpops : t.pops = s.pops ++ [((sequence, buffer), decide (sequence ≠ s.encoder.expectedSequence))]) :
    t.Watched := by
  refine ⟨?_, fun before packet flagged after hsplit => ?_⟩
  · rw [hexpected, hpops, List.map_append, List.map_singleton, nextDue_concat, wrappingAdd]
  · rw [hpops] at hsplit
    obtain rfl | ⟨after, last, rfl⟩ := after.eq_nil_or_concat
    · -- it is the packet popped now
      obtain ⟨rfl, hlast⟩ := List.append_inj' hsplit rfl
      obtain ⟨rfl, rfl⟩ := Prod.mk.inj (List.head_eq_of_cons_eq hlast)
      rw [h.expected]
    · rw [List.concat_eq_append, ← List.cons_append, ← List.append_assoc] at hsplit
      obtain ⟨hpast, -⟩ := List.append_inj' hsplit rfl
      exact h.flagged before packet flagged after hpast

theorem Watched.submit (h : s.Watched) {input : List Float32} (hstep : s.submit input s.sender = some s') :
    s'.Watched := by
  cases hpc : s.sender with
  | idle =>
    rw [hpc] at hstep
    obtain rfl := Option.some.inj hstep
    exact h.same rfl rfl
  | _ =>
    rw [hpc] at hstep
    cases hstep

theorem callback_frame (hstep : s.callback s.sender = some s') :
    s'.encoder = s.encoder ∧ s'.pops = s.pops ∧ s'.submitted = s.submitted ∧ s'.worker = s.worker ∧
      s'.reports = s.reports := by
  cases hpc : s.sender with
  | idle =>
    rw [hpc] at hstep
    cases hstep
  | locking packet =>
    rw [hpc] at hstep
    unfold CapturePcm.callback at hstep
    dsimp only at hstep
    split at hstep <;>
    · obtain rfl := Option.some.inj hstep
      exact ⟨rfl, rfl, rfl, rfl, rfl⟩
  | taking packet =>
    rw [hpc] at hstep
    unfold CapturePcm.callback at hstep
    dsimp only at hstep
    split at hstep <;>
    · obtain rfl := Option.some.inj hstep
      exact ⟨rfl, rfl, rfl, rfl, rfl⟩
  | _ =>
    rw [hpc] at hstep
    obtain rfl := Option.some.inj hstep
    exact ⟨rfl, rfl, rfl, rfl, rfl⟩

theorem Watched.work (h : s.Watched) (hstep : s.work s.worker = some s') : s'.Watched := by
  cases hpc : s.worker with
  | idle =>
    rw [hpc] at hstep
    cases hstep
  | popping =>
    rw [hpc] at hstep
    unfold CapturePcm.work at hstep
    dsimp only at hstep
    split at hstep
    · obtain rfl := Option.some.inj hstep
      exact h.same rfl rfl
    · obtain rfl := Option.some.inj hstep
      exact h.pop rfl rfl
  | recycling buffer =>
    rw [hpc] at hstep
    unfold CapturePcm.work at hstep
    dsimp only at hstep
    split at hstep <;>
    · obtain rfl := Option.some.inj hstep
      exact h.same rfl rfl
  | _ =>
    rw [hpc] at hstep
    obtain rfl := Option.some.inj hstep
    exact h.same rfl rfl

theorem Watched.step (h : s.Watched) {e : Event} (hstep : s.step e = some s') : s'.Watched := by
  cases e with
  | submit input => exact h.submit hstep
  | callback =>
    obtain ⟨hencoder, hpops, -⟩ := callback_frame hstep
    exact h.same (congrArg CaptureEncoderState.expectedSequence hencoder) hpops
  | lockPop =>
    obtain ⟨-, -, rfl⟩ := lock_spec hstep
    exact h.same rfl rfl
  | lockRecycle i =>
    obtain ⟨-, -, -, rfl⟩ := lockRecycle_spec hstep
    exact h.same rfl rfl
  | lockIsEmpty =>
    obtain ⟨-, -, rfl⟩ := lock_spec hstep
    exact h.same rfl rfl
  | takeStats =>
    obtain ⟨-, rfl⟩ := takeStats_spec hstep
    exact h.same rfl rfl
  | work => exact h.work hstep

end Watch

section Count

theorem Counted.submit (h : s.Counted) {input : List Float32} (hstep : s.submit input s.sender = some s') :
    s'.Counted := by
  cases hpc : s.sender with
  | idle =>
    rw [hpc] at hstep
    obtain rfl := Option.some.inj hstep
    intro hshort
    have hone : (s.submitted ++ [(s.sequence, input)]).length = s.submitted.length + 1 :=
      List.length_append
    have hbefore := h (by dsimp only at hshort; omega)
    have hidle : s.unsettled = 0 := by
      unfold unsettled
      rw [hpc]
      rfl
    have hnew : unsettled { s with
        sequence := wrappingAdd s.sequence 1
        submitted := s.submitted ++ [(s.sequence, input)]
        sender := if s.maxSamples < input.length then .oversized else .locking (s.sequence, input) } = 1 := by
      unfold unsettled
      dsimp only
      split <;> rfl
    rw [hnew]
    change (s.submitted ++ [(s.sequence, input)]).length =
      s.pops.length + s.ready.length + s.reported + s.pending + 1
    omega
  | _ =>
    rw [hpc] at hstep
    cases hstep

/-- Nothing but the place in `submit` and one counter moved: a loss is counted, or was there before. -/
theorem Counted.callback (h : s.Counted) (hstep : s.callback s.sender = some s') : s'.Counted := by
  obtain ⟨-, hpops, hsubmitted, hworker, hreports⟩ := callback_frame hstep
  intro hshort
  rw [hsubmitted] at hshort
  have hbefore := h hshort
  have hreported : s'.reported = s.reported := by
    unfold reported
    rw [hreports]
  rw [hsubmitted, hpops, hreported]
  unfold unsettled pending at hbefore ⊢
  rw [hworker]
  cases hpc : s.sender with
  | idle =>
    rw [hpc] at hstep
    cases hstep
  | oversized =>
    rw [hpc] at hstep hbefore
    obtain rfl := Option.some.inj hstep
    dsimp only [SenderPc.inFlight, SenderPc.uncounted, List.length_nil] at hbefore ⊢
    rw [wrappingAdd_of_lt (by omega)]
    omega
  | locking packet =>
    rw [hpc] at hstep hbefore
    unfold CapturePcm.callback at hstep
    dsimp only at hstep
    split at hstep <;>
    · obtain rfl := Option.some.inj hstep
      exact hbefore
  | contended =>
    rw [hpc] at hstep hbefore
    obtain rfl := Option.some.inj hstep
    dsimp only [SenderPc.inFlight, SenderPc.uncounted, List.length_nil] at hbefore ⊢
    rw [wrappingAdd_of_lt (by omega)]
    omega
  | poisoned =>
    rw [hpc] at hstep hbefore
    obtain rfl := Option.some.inj hstep
    dsimp only [SenderPc.inFlight, SenderPc.uncounted, List.length_nil] at hbefore ⊢
    rw [wrappingAdd_of_lt (by omega)]
    omega
  | taking packet =>
    rw [hpc] at hstep hbefore
    unfold CapturePcm.callback at hstep
    dsimp only at hstep
    split at hstep
    · obtain rfl := Option.some.inj hstep
      exact hbefore
    · rename_i hready
      obtain rfl := Option.some.inj hstep
      rw [hready, List.length_cons] at hbefore
      dsimp only [SenderPc.inFlight, SenderPc.uncounted, List.length_singleton] at hbefore ⊢
      omega
    · obtain rfl := Option.some.inj hstep
      exact hbefore
  | evicted packet buffer =>
    rw [hpc] at hstep hbefore
    obtain rfl := Option.some.inj hstep
    dsimp only [SenderPc.inFlight, SenderPc.uncounted, List.length_singleton] at hbefore ⊢
    rw [wrappingAdd_of_lt (by omega)]
    omega
  | filling packet buffer =>
    rw [hpc] at hstep hbefore
    obtain rfl := Option.some.inj hstep
    dsimp only [SenderPc.inFlight, SenderPc.uncounted, List.length_singleton] at hbefore ⊢
    rw [List.length_append]
    dsimp only [List.length_singleton, List.length_nil]
    omega
  | exhausted =>
    rw [hpc] at hstep hbefore
    obtain rfl := Option.some.inj hstep
    dsimp only [SenderPc.inFlight, SenderPc.uncounted, List.length_nil] at hbefore ⊢
    rw [wrappingAdd_of_lt (by omega)]
    omega
  | _ =>
    rw [hpc] at hstep hbefore
    obtain rfl := Option.some.inj hstep
    exact hbefore

theorem Counted.lock {pc : WorkerPc} (h : s.Counted) (hloss : pc.loss = {}) (hstep : s.lock pc = some s') :
    s'.Counted := by
  obtain ⟨hidle, -, rfl⟩ := lock_spec hstep
  intro hshort
  have hbefore := h hshort
  unfold pending at hbefore ⊢
  rw [hidle] at hbefore
  dsimp only
  rw [hloss]
  exact hbefore

theorem Counted.lockRecycle (h : s.Counted) {i : Nat} (hstep : s.lockRecycle i = some s') : s'.Counted := by
  obtain ⟨-, hidle, -, rfl⟩ := lockRecycle_spec hstep
  intro hshort
  have hbefore := h hshort
  unfold pending at hbefore
  rw [hidle] at hbefore
  exact hbefore

theorem Counted.takeStats (h : s.Counted) (hstep : s.takeStats s.worker = some s') : s'.Counted := by
  obtain ⟨hidle, rfl⟩ := takeStats_spec hstep
  intro hshort
  have hbefore := h hshort
  unfold pending CapturePcmLoss.packets at hbefore ⊢
  rw [hidle] at hbefore
  dsimp only [WorkerPc.loss] at hbefore ⊢
  change _ = _ + _ + s.reported + _ + s.unsettled
  omega

theorem Counted.work (h : s.Counted) (hstep : s.work s.worker = some s') : s'.Counted := by
  cases hpc : s.worker with
  | idle =>
    rw [hpc] at hstep
    cases hstep
  | popping =>
    rw [hpc] at hstep
    unfold CapturePcm.work at hstep
    dsimp only at hstep
    split at hstep
    · obtain rfl := Option.some.inj hstep
      intro hshort
      have hbefore := h hshort
      unfold pending at hbefore
      rw [hpc] at hbefore
      exact hbefore
    · rename_i hready
      obtain rfl := Option.some.inj hstep
      intro hshort
      have hbefore := h hshort
      unfold pending at hbefore ⊢
      rw [hpc, hready, List.length_cons] at hbefore
      rw [List.length_append]
      dsimp only [List.length_singleton, WorkerPc.loss] at hbefore ⊢
      change _ = _ + _ + s.reported + _ + s.unsettled
      omega
  | recycling buffer =>
    rw [hpc] at hstep
    unfold CapturePcm.work at hstep
    dsimp only at hstep
    split at hstep <;>
    · obtain rfl := Option.some.inj hstep
      intro hshort
      have hbefore := h hshort
      unfold pending at hbefore
      rw [hpc] at hbefore
      exact hbefore
  | peeking =>
    rw [hpc] at hstep
    obtain rfl := Option.some.inj hstep
    intro hshort
    have hbefore := h hshort
    unfold pending at hbefore
    rw [hpc] at hbefore
    exact hbefore
  | swapOther contentionDropped =>
    rw [hpc] at hstep
    obtain rfl := Option.some.inj hstep
    intro hshort
    have hbefore := h hshort
    unfold pending CapturePcmLoss.packets at hbefore ⊢
    rw [hpc] at hbefore
    dsimp only [WorkerPc.loss] at hbefore hshort ⊢
    change _ = _ + _ + s.reported + _ + s.unsettled
    rw [wrappingAdd_of_lt (by omega)]
    omega
  | swapOversized dropped contentionDropped =>
    rw [hpc] at hstep
    obtain rfl := Option.some.inj hstep
    intro hshort
    have hbefore := h hshort
    unfold pending CapturePcmLoss.packets at hbefore ⊢
    rw [hpc] at hbefore
    dsimp only [WorkerPc.loss] at hbefore ⊢
    change _ = _ + _ + s.reported + _ + s.unsettled
    omega
  | swapRecycle dropped contentionDropped oversized =>
    rw [hpc] at hstep
    obtain rfl := Option.some.inj hstep
    intro hshort
    have hbefore := h hshort
    unfold pending at hbefore
    rw [hpc] at hbefore
    exact hbefore
  | swapMax loss =>
    rw [hpc] at hstep
    obtain rfl := Option.some.inj hstep
    intro hshort
    have hbefore := h hshort
    unfold pending reported at hbefore ⊢
    rw [hpc] at hbefore
    dsimp only [WorkerPc.loss] at hbefore ⊢
    rw [List.map_append, List.map_singleton, List.sum_append, List.sum_singleton]
    change _ = _ + _ + (_ + loss.packets) + (_ + 0) + s.unsettled
    omega

theorem Counted.step (h : s.Counted) {e : Event} (hstep : s.step e = some s') : s'.Counted := by
  cases e with
  | submit input => exact h.submit hstep
  | callback => exact h.callback hstep
  | lockPop => exact h.lock rfl hstep
  | lockRecycle i => exact h.lockRecycle hstep
  | lockIsEmpty => exact h.lock rfl hstep
  | takeStats => exact h.takeStats hstep
  | work => exact h.work hstep

end Count

structure Inv (capacity : Nat) (s : CapturePcm) : Prop where
  locked : s.Locked
  stocked : s.Stocked capacity
  ordered : s.Ordered
  watched : s.Watched
  counted : s.Counted

theorem Inv.start (h : Init capacity s) : s.Inv capacity := by
  obtain ⟨maxSamples, allocated, sampleRate, channels, hnew⟩ := h
  unfold newPcmHandoff at hnew
  split at hnew
  · cases hnew
  · obtain rfl := Option.some.inj hnew
    refine ⟨⟨⟨nofun, nofun⟩, ⟨nofun, nofun⟩⟩, ⟨Nat.le_max_left .., ?_, rfl, rfl, nofun⟩,
      ⟨rfl, nofun, List.nil_sublist _⟩, ⟨rfl, fun before packet flagged after hsplit => ?_⟩, fun _ => rfl⟩
    · exact List.length_replicate
    · exact absurd hsplit.symm (List.append_ne_nil_of_right_ne_nil _ nofun)

theorem Inv.step (h : s.Inv capacity) {e : Event} (hstep : s.step e = some s') : s'.Inv capacity :=
  ⟨h.locked.step hstep, h.stocked.step hstep, h.ordered.step hstep, h.watched.step hstep,
    h.counted.step hstep⟩

theorem Inv.of_exec {history : List (CapturePcm × Event)} (hx : Exec (Init capacity) CapturePcm.step history s) :
    s.Inv capacity :=
  hx.invariant (fun _ hinit => Inv.start hinit) fun _ _ _ hinv hstep => hinv.step hstep

theorem Locked.buffers (h : s.Locked) (hfree : s.holder ≠ .callback) : s.sender.buffers = 0 := by
  have hholds : s.sender.holds ≠ true := fun hs => hfree (h.callback.mpr hs)
  cases hpc : s.sender with
  | evicted packet buffer => exact absurd (hpc ▸ rfl) hholds
  | filling packet buffer => exact absurd (hpc ▸ rfl) hholds
  | _ => rfl

section Gaps

/-- While the numbers have not wrapped they are the places in the stream. -/
theorem Ordered.numbers (h : s.Ordered) (hshort : s.submitted.length < 2 ^ 64) :
    s.submitted.map Prod.fst = List.range s.submitted.length := by
  refine List.ext_getElem (by rw [List.length_map, List.length_range]) fun i hi _ => ?_
  rw [List.length_map] at hi
  rw [List.getElem_map, List.getElem_range, h.numbered i _ (List.getElem?_eq_getElem hi)]
  exact Nat.mod_eq_of_lt (by omega)

theorem Ordered.increasing (h : s.Ordered) (hshort : s.submitted.length < 2 ^ 64) :
    ((s.pops.map Prod.fst ++ s.ready ++ s.sender.inFlight).map Prod.fst).Pairwise (· < ·) := by
  refine List.Pairwise.sublist (h.order.map Prod.fst) ?_
  rw [h.numbers hshort]
  exact List.pairwise_lt_range

/-- A number below a submitted one that is not in line belongs to a packet that was lost. -/
theorem Ordered.lost_of_missing (h : s.Ordered) (hshort : s.submitted.length < 2 ^ 64) {m : Nat}
    (hm : m < s.submitted.length)
    (hmissing : m ∉ (s.pops.map Prod.fst ++ s.ready ++ s.sender.inFlight).map Prod.fst) :
    ∃ packet, s.Lost packet ∧ packet.1 = m := by
  have hnumber : (s.submitted.get ⟨m, hm⟩).1 = m := by
    have hat := h.numbered m _ (List.getElem?_eq_getElem hm)
    rw [Nat.mod_eq_of_lt (by omega)] at hat
    exact hat
  refine ⟨s.submitted.get ⟨m, hm⟩, ⟨List.get_mem .., fun hline => hmissing ?_⟩, hnumber⟩
  exact List.mem_map.mpr ⟨_, hline, hnumber⟩

/-- The packets in line, split at one that was popped. -/
theorem line_split {before after : List (Packet × Bool)} {packet : Packet} {flagged : Bool}
    (hsplit : s.pops = before ++ (packet, flagged) :: after) :
    (s.pops.map Prod.fst ++ s.ready ++ s.sender.inFlight).map Prod.fst =
      before.map (fun pop => pop.1.1) ++
        packet.1 :: (after.map Prod.fst ++ s.ready ++ s.sender.inFlight).map Prod.fst := by
  rw [hsplit]
  simp only [List.map_append, List.map_cons, List.map_map, List.append_assoc, List.cons_append]
  rfl

theorem Inv.flagged_iff (h : s.Inv capacity) (hshort : s.submitted.length < 2 ^ 64)
    {before after : List (Packet × Bool)} {packet : Packet} {flagged : Bool}
    (hsplit : s.pops = before ++ (packet, flagged) :: after) :
    flagged = true ↔ ∃ lost, s.Lost lost ∧ lost.1 < packet.1 ∧ ∀ pop ∈ before, pop.1.1 < lost.1 := by
  have hline := h.ordered.increasing hshort
  rw [line_split hsplit] at hline
  have hsubmitted : packet.1 < s.submitted.length := by
    have hmem : packet.1 ∈ (s.pops.map Prod.fst ++ s.ready ++ s.sender.inFlight).map Prod.fst := by
      rw [line_split hsplit]
      exact List.mem_append_right _ (List.mem_cons_self ..)
    have hnumber := (h.ordered.order.map Prod.fst).subset hmem
    rw [h.ordered.numbers hshort] at hnumber
    exact List.mem_range.mp hnumber
  have hdue : nextDue (before.map fun pop => pop.1.1) % 2 ^ 64 = nextDue (before.map fun pop => pop.1.1) := by
    have hle := nextDue_le_of_pairwise hline
    exact Nat.mod_eq_of_lt (by omega)
  rw [h.watched.flagged before packet flagged after hsplit, hdue, decide_eq_true_iff]
  constructor
  · intro hne
    obtain ⟨m, hlt, habove, hmissing⟩ := exists_gap hline hne
    rw [← line_split hsplit] at hmissing
    obtain ⟨lost, hlost, rfl⟩ := h.ordered.lost_of_missing hshort (by omega) hmissing
    exact ⟨lost, hlost, hlt, fun pop hpop => habove _ (List.mem_map.mpr ⟨pop, hpop, rfl⟩)⟩
  · rintro ⟨lost, -, hlt, habove⟩
    refine ne_nextDue_of_gap hlt fun q hq => ?_
    obtain ⟨pop, hpop, rfl⟩ := List.mem_map.mp hq
    exact habove pop hpop

end Gaps

/-- No buffer is lost or made, no buffer given back finds the pool full, the packets are popped in order and
as they were submitted, and, while the sequence numbers have not wrapped, every packet is accounted for and
a gap is seen before exactly the packets that follow one. -/
theorem handoff_accounts {history : List (CapturePcm × Event)}
    (hx : Exec (Init capacity) CapturePcm.step history s) :
    s.available.length + s.ready.length + s.outstanding + s.sender.buffers = capacity ∧
      (s.holder ≠ .callback → s.sender.buffers = 0) ∧
      s.recycleFailures = 0 ∧ (∀ stats ∈ s.reports, stats.loss.recycleFailures = 0) ∧
      (s.pops.map Prod.fst).Sublist s.submitted ∧
      (∀ i packet, s.submitted[i]? = some packet → packet.1 = i % 2 ^ 64) ∧
      (s.submitted.length < 2 ^ 64 →
        s.submitted.length = s.pops.length + s.ready.length + s.reported + s.pending + s.unsettled ∧
          (s.sender = .idle → s.unsettled = 0) ∧
          ∀ before packet flagged after, s.pops = before ++ (packet, flagged) :: after →
            (flagged = true ↔
              ∃ lost, s.Lost lost ∧ lost.1 < packet.1 ∧ ∀ pop ∈ before, pop.1.1 < lost.1)) := by
  have hinv := Inv.of_exec hx
  refine ⟨hinv.stocked.buffers, hinv.locked.buffers, hinv.stocked.kept, hinv.stocked.told, ?_,
    hinv.ordered.numbered, fun hshort => ⟨hinv.counted hshort, fun hidle => ?_, ?_⟩⟩
  · have horder := hinv.ordered.order
    rw [List.append_assoc] at horder
    exact (List.sublist_append_left ..).trans horder
  · unfold unsettled
    rw [hidle]
    rfl
  · intro before packet flagged after hsplit
    exact hinv.flagged_iff hshort hsplit

/-- A pool of one buffer: the second packet takes the buffer of the first, the third finds the encoder
thread in the queue. -/
def contendedEvents : List Event :=
  [.submit [], .callback, .callback, .callback, .callback, .callback,
    .submit [], .callback, .callback, .callback, .callback, .callback, .callback,
    .lockPop, .submit [], .callback, .callback, .work, .lockRecycle 0, .work,
    .takeStats, .work, .work, .work, .work]

def contendedStart : CapturePcm :=
  { maxSamples := 480, allocated := 1, available := [[]], encoder := .new 48000 .stereo }

theorem contendedEvents_run : (trace CapturePcm.step contendedStart contendedEvents).isSome = true := by
  decide +kernel

theorem handoff_accounts_contended :
    ((trace CapturePcm.step contendedStart contendedEvents).get contendedEvents_run).2.reported = 2 ∧
      ((trace CapturePcm.step contendedStart contendedEvents).get contendedEvents_run).2.recycleFailures = 0 := by
  have hstart : Exec (Init 1) CapturePcm.step [] contendedStart := .start ⟨480, 0, 48000, .stereo, rfl⟩
  have hx := hstart.trace (Option.some_get contendedEvents_run).symm
  exact ⟨by decide +kernel, (handoff_accounts hx).2.2.1⟩

end CapturePcm

end FontisRemote.Audio
