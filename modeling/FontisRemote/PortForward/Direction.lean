import FontisRemote.PortForward.Flow

/-!
# The two ends of one direction

`Direction p r pe re op ws b` relates a sender `p` and a receiver `r` of one channel: `pe` and `re`
say whether each end's demultiplexer still has the entry, `ws` is what `p` has on its way to `r`, and
`b` the credit on its way back to `p` (updates, and the grant that travels in `opened`).

The credit of `p`, what it has on its way and what is on its way back add up to the window of `r`:
exactly while neither end has given the channel up, and never to more. The bytes `r` has written,
its backlog, the wire and what `p` has not handed over yet spell what `p` read.
-/

namespace FontisRemote.PortForward

open Channel

/-- The relay half did not lose a frame to a sink that was gone. -/
def Channel.lossless (p : Channel) : Prop := p.toTunnel ≠ .ended .tunnelGone

structure Direction (p r : Channel) (pe re : Bool) (op ws : List Frame) (b : Nat) : Prop where
  bal : Balance r re
  wire : Wire p op ws
  credit_le : p.held + dataCharge ws + r.advertised + b ≤ r.window.remaining
  credit_eq : pe = true → re = true → r.receiving = true → p.lossless →
    p.held + dataCharge ws + r.advertised + b = r.window.remaining
  written : r.written <+: p.read
  backlog : r.receiving = true → r.written ++ r.backlog <+: p.read
  flow : r.receiving = true → re = true →
    r.written ++ r.backlog ++ dataBytes ws ++ p.outgoing <+: p.read
  exact : r.receiving = true → re = true → p.lossless →
    r.written ++ r.backlog ++ dataBytes ws ++ p.outgoing = p.read
  closed : r.receiving = true → .close ∈ r.inbound →
    p.finished = true ∧ (p.lossless → r.written ++ r.backlog = p.read)
  ended : r.toSocket = .ended .peerClosed → p.finished = true ∧ (p.lossless → r.written = p.read)

section Steps

variable {p p' r r' : Channel} {pe re gone : Bool} {op ws : List Frame} {b b' : Nat}
variable {e : TaskEvent} {em : Emit}

/-- No sender ever holds more than the cap on its credit. -/
theorem Direction.held_le (h : Direction p r pe re op ws b) : p.held + b ≤ maxSendCredit := by
  have h1 := h.credit_le
  have h2 := h.bal.cap
  have h3 : maxSendCredit = channelWindow := rfl
  omega

theorem Channel.Did.lossless (hd : Did gone pe p e p' em) (hl : p'.lossless) :
    p.lossless ∧ e ≠ .sendDataFails := by
  refine ⟨fun hg => hl (hd.toTunnel_ended hg), ?_⟩
  rintro rfl
  cases hd
  exact hl rfl

/-- A half that has ended reads nothing and has nothing to send. -/
theorem Channel.Did.ended (hd : Did gone pe p e p' em) {x : RelayEnd}
    (hx : p.toTunnel = .ended x) :
    p'.read = p.read ∧ dataBytes em.ordered = [] ∧ p'.outgoing = p.outgoing := by
  cases hd <;>
    simp_all [Emit.nothing, Emit.onOrdered, Emit.onControl, Frame.bytes, Channel.outgoing]

/-- A step of the sender that does not start its task. -/
theorem Direction.sends (h : Direction p r pe re op ws b) (hp : p.Ok)
    (hd : Did gone pe p e p' em) {op' ws' : List Frame} (hw : Wire p' op' ws')
    (hc : dataCharge ws' = dataCharge ws + dataCharge em.ordered)
    (hb : dataBytes ws' = dataBytes ws ++ dataBytes em.ordered) :
    Direction p' r pe re op' ws' b := by
  have hcap : p.held ≤ maxSendCredit := le_trans (Nat.le_add_right _ _) h.held_le
  obtain ⟨hheld, hheld_eq⟩ := hd.held hp hcap
  have hread : p.read <+: p'.read := by
    rcases hd.outgoing with ⟨bs, hread, -⟩ | ⟨-, hread, -⟩
    · exact ⟨bs, hread.symm⟩
    · exact ⟨[], by rw [hread, List.append_nil]⟩
  -- while nothing was lost the spelling is exact, and stays so unless this step loses a frame
  have hexact : r.receiving = true → re = true → p.lossless →
      (p'.lossless → r.written ++ r.backlog ++ dataBytes ws' ++ p'.outgoing = p'.read) ∧
      r.written ++ r.backlog ++ dataBytes ws' ++ p'.outgoing <+: p'.read := by
    intro hr hre hl
    have hx := h.exact hr hre hl
    rcases hd.outgoing with ⟨bs, hr1, hout⟩ | ⟨rfl, hr1, rfl, hout⟩
    · have heq : r.written ++ r.backlog ++ dataBytes ws' ++ p'.outgoing = p'.read := by
        calc r.written ++ r.backlog ++ dataBytes ws' ++ p'.outgoing
            = r.written ++ r.backlog ++ dataBytes ws ++ (dataBytes em.ordered ++ p'.outgoing) := by
              simp [hb]
          _ = r.written ++ r.backlog ++ dataBytes ws ++ p.outgoing ++ bs := by
              rw [← hout]
              simp
          _ = p'.read := by rw [hx, hr1]
      exact ⟨fun _ => heq, heq ▸ List.prefix_rfl⟩
    · refine ⟨fun hl' => absurd rfl (hd.lossless hl').2, ?_⟩
      rw [hr1, hout, hb]
      refine List.IsPrefix.trans ?_ (h.flow hr hre)
      simp only [Emit.nothing, dataBytes_nil, List.append_nil]
      exact List.prefix_append _ _
  refine ⟨h.bal, hw, ?_, ?_, h.written.trans hread, fun hr => (h.backlog hr).trans hread, ?_,
    fun hr hre hl => (hexact hr hre (hd.lossless hl).1).1 hl, ?_, ?_⟩
  · have := h.credit_le
    omega
  · intro hpe hre hr hl
    obtain ⟨hl, hne⟩ := hd.lossless hl
    have h1 := h.credit_eq hpe hre hr hl
    have h2 := hheld_eq hne
    omega
  · intro hr hre
    by_cases hl : p.lossless
    · exact (hexact hr hre hl).2
    · have hx : p.toTunnel = .ended .tunnelGone := not_not.1 hl
      obtain ⟨h1, h2, h3⟩ := hd.ended hx
      rw [hb, h1, h2, h3, List.append_nil]
      exact h.flow hr hre
  · intro hr hin
    obtain ⟨hfin, heq⟩ := h.closed hr hin
    obtain ⟨hfin', -, hr1, -⟩ := hd.finished hfin
    exact ⟨hfin', fun hl => by rw [hr1, heq (hd.lossless hl).1]⟩
  · intro hts
    obtain ⟨hfin, heq⟩ := h.ended hts
    obtain ⟨hfin', -, hr1, -⟩ := hd.finished hfin
    exact ⟨hfin', fun hl => by rw [hr1, heq (hd.lossless hl).1]⟩

/-- A step of the receiver. What it adds to the credit on its way back is what it puts on its
control sink and what it grants. -/
theorem Direction.receives (h : Direction p r pe re op ws b) (hr : r.Ok)
    (hd : Did gone re r e r' em) (hb : b' ≤ b + updates em.control + grantOf e)
    (hb_eq : r'.receiving = true → b' = b + updates em.control + grantOf e) :
    Direction p r' pe re op ws b' := by
  obtain ⟨hwin, hwin_eq⟩ := hd.window hr h.bal.cap
  obtain ⟨hwr, hwr_eq⟩ := hd.backlog hr
  refine ⟨h.bal.step hd, h.wire, ?_, ?_, ?_, ?_, ?_, ?_, ?_, ?_⟩
  · have := h.credit_le
    omega
  · intro hpe hre hrec hl
    have h1 := h.credit_eq hpe hre (hd.receiving hrec) hl
    have h2 := hb_eq hrec
    have hne : e ≠ .advertiseFails := by
      rintro rfl
      cases hd with
      | advertiseFails hs ht hg => simp [Channel.receiving, hs] at hrec
    have h3 := hwin_eq hne
    omega
  · by_cases hrec : r.receiving = true
    · exact hwr.trans (h.backlog hrec)
    · rw [hd.written_deaf (by simpa using hrec)]
      exact h.written
  · intro hrec
    rw [hwr_eq hrec]
    exact h.backlog (hd.receiving hrec)
  · intro hrec hre
    rw [hwr_eq hrec]
    exact h.flow (hd.receiving hrec) hre
  · intro hrec hre hl
    rw [hwr_eq hrec]
    exact h.exact (hd.receiving hrec) hre hl
  · intro hrec hin
    rw [hwr_eq hrec]
    exact h.closed (hd.receiving hrec) (hd.inbound_sub hin)
  · intro hts
    rcases hd.peerClosed hts with hts' | ⟨hrec, hnext, hpend, hw, rest, hin⟩
    · rw [hd.written_ended hts']
      exact h.ended hts'
    · obtain ⟨hfin, heq⟩ := h.closed hrec (by simp [hin])
      refine ⟨hfin, fun hl => ?_⟩
      rcases h.bal.inbound_cons hin with ⟨d, hcl⟩ | ⟨-, rfl, -⟩
      · cases hcl
      · have hnil : r.backlog = [] := by simp [Channel.backlog, hnext, hpend, hin, Inbound.bytes]
        have := heq hl
        rw [hnil, List.append_nil] at this
        rw [hw, this]

/-! ### Deliveries -/

/-- `accept` cannot fail on what an honest sender has on its way. -/
theorem Direction.accept {f : Frame} (h : Direction p r pe re [] (f :: ws) b) :
    f.charge ≤ r.window.remaining := by
  have := h.credit_le
  rw [dataCharge_cons] at this
  omega

/-- A `data` frame queued at a listening receiver. -/
theorem Direction.data {id : ChannelId} {d : Bytes} {w : RecvWindow}
    (h : Direction p r pe true [] (.data id d :: ws) b) (hr : r.receiving = true)
    (hacc : r.window.accept d.length = some w) :
    Direction p { r with window := w, inbound := r.inbound ++ [.data d] } pe true [] ws b := by
  obtain ⟨hle, hw⟩ := RecvWindow.accept_eq_some hacc
  have hcl : .close ∉ r.inbound := by
    obtain ⟨ds, k, hin, hk⟩ := h.bal.inbound
    cases k with
    | true => cases hk rfl
    | false => simp [hin]
  have hbl : Channel.backlog { r with window := w, inbound := r.inbound ++ [.data d] } =
      r.backlog ++ d := by simp [Channel.backlog, Inbound.bytes]
  have hfl := h.flow hr rfl
  simp only [dataBytes_cons, Frame.bytes] at hfl
  refine ⟨h.bal.data hr hacc, h.wire.tail rfl, ?_, ?_, h.written, ?_, ?_, ?_, ?_, h.ended⟩
  · have := h.credit_le
    simp only [dataCharge_cons, Frame.charge] at this
    subst hw
    show _ ≤ r.window.remaining - charge d.length
    have hadv : Channel.advertised { r with
        window := ⟨r.window.remaining - charge d.length, r.window.drainedSinceUpdate⟩
        inbound := r.inbound ++ [.data d] } = r.advertised := rfl
    omega
  · intro hpe _ _ hl
    have := h.credit_eq hpe rfl hr hl
    simp only [dataCharge_cons, Frame.charge] at this
    subst hw
    show _ = r.window.remaining - charge d.length
    have hadv : Channel.advertised { r with
        window := ⟨r.window.remaining - charge d.length, r.window.drainedSinceUpdate⟩
        inbound := r.inbound ++ [.data d] } = r.advertised := rfl
    omega
  · intro _
    rw [hbl]
    refine List.IsPrefix.trans ?_ hfl
    exact ⟨dataBytes ws ++ p.outgoing, by simp⟩
  · intro _ _
    rw [hbl]
    simpa using hfl
  · intro _ _ hl
    have hx := h.exact hr rfl hl
    rw [hbl, ← hx]
    simp [Frame.bytes]
  · intro _ hin
    simp at hin
    exact absurd hin hcl

/-- A `data` frame the window takes after its task stopped listening. -/
theorem Direction.data_deaf {id : ChannelId} {d : Bytes} {w : RecvWindow}
    (h : Direction p r pe re [] (.data id d :: ws) b) (hr : r.receiving = false)
    (hacc : r.window.accept d.length = some w) :
    Direction p { r with window := w } pe false [] ws b := by
  obtain ⟨hle, hw⟩ := RecvWindow.accept_eq_some hacc
  have hr' : Channel.receiving { r with window := w } = false := hr
  refine ⟨h.bal.deaf hr hacc, h.wire.tail rfl, ?_, ?_, h.written, ?_, ?_, ?_, ?_, h.ended⟩
  · have := h.credit_le
    simp only [dataCharge_cons, Frame.charge] at this
    subst hw
    show _ ≤ r.window.remaining - charge d.length
    have hadv : Channel.advertised { r with
        window := ⟨r.window.remaining - charge d.length, r.window.drainedSinceUpdate⟩ } =
      r.advertised := rfl
    omega
  all_goals
    intros
    simp_all

/-- A frame for an entry that is gone is dropped. -/
theorem Direction.data_dropped {f : Frame} (h : Direction p r pe false [] (f :: ws) b)
    (hf : f.isData = true) : Direction p r pe false [] ws b := by
  refine ⟨h.bal, h.wire.tail hf, ?_, ?_, h.written, h.backlog, ?_, ?_, h.closed, h.ended⟩
  · have := h.credit_le
    rw [dataCharge_cons] at this
    omega
  all_goals
    intros
    simp_all

/-- The frame the sender ended with: nothing follows it, and the entry goes. -/
theorem Direction.close {f : Frame} (h : Direction p r pe true [] (f :: ws) b) (hp : p.Ok)
    (hf : f.ends = true) : Direction p (r.push .close) pe false [] ws b := by
  obtain ⟨rfl, hfin⟩ := h.wire.last hf
  have hout : p.outgoing = [] := by
    apply hp.late
    unfold Channel.finished at hfin
    split at hfin <;> simp_all
  have hch : f.charge = 0 := by cases f <;> simp_all [Frame.ends, Frame.charge]
  have hby : f.bytes = [] := by cases f <;> simp_all [Frame.ends, Frame.bytes]
  have hpush : (r.push .close).window = r.window ∧ (r.push .close).advertised = r.advertised ∧
      (r.push .close).written = r.written ∧ (r.push .close).toSocket = r.toSocket ∧
      (r.push .close).backlog = r.backlog ∧ (r.push .close).receiving = r.receiving := by
    unfold Channel.push
    split
    · simp [Channel.advertised, Channel.backlog, Inbound.bytes, Channel.receiving]
    · simp
  obtain ⟨hpw, hpa, hpwr, hpt, hpb, hpr⟩ := hpush
  have hle := h.credit_le
  rw [dataCharge_cons, hch, dataCharge_nil] at hle
  refine ⟨h.bal.close, ?_, ?_, by simp, ?_, ?_, by simp, by simp, ?_, ?_⟩
  · refine ⟨⟨[], [], by simp, by simp, Or.inl rfl⟩, fun _ => rfl⟩
  · rw [hpw, hpa, dataCharge_nil]
    omega
  · rw [hpwr]
    exact h.written
  · rw [hpr, hpwr, hpb]
    exact h.backlog
  · rw [hpr, hpwr, hpb]
    intro hr _
    refine ⟨hfin, fun hl => ?_⟩
    have hx := h.exact hr rfl hl
    simpa [hby, hout] using hx
  · rw [hpt, hpwr]
    exact h.ended

theorem Direction.close_dropped {f : Frame} (h : Direction p r pe false [] (f :: ws) b)
    (hf : f.ends = true) : Direction p r pe false [] ws b := by
  obtain ⟨rfl, hfin⟩ := h.wire.last hf
  have hle := h.credit_le
  rw [dataCharge_cons] at hle
  refine ⟨h.bal, ⟨⟨[], [], by simp, by simp, Or.inl rfl⟩, fun _ => rfl⟩, ?_, by simp, h.written,
    h.backlog, by simp, by simp, h.closed, h.ended⟩
  rw [dataCharge_nil]
  omega

/-- The `open` or `opened` in front is through. -/
theorem Direction.started {f : Frame} (h : Direction p r pe re [f] (f :: ws) b)
    (hf : f.isData = false) : Direction p r pe re [] ws b := by
  have hch : f.charge = 0 := by cases f <;> simp_all [Frame.isData, Frame.charge]
  have hby : f.bytes = [] := by cases f <;> simp_all [Frame.isData, Frame.bytes]
  obtain ⟨ws', heq, hw⟩ := h.wire.started
  cases heq
  obtain ⟨h1, -, h3, h4, h5, h6, h7, h8, h9, h10⟩ := h
  simp only [dataCharge_cons, dataBytes_cons, hch, hby, Nat.zero_add, List.nil_append] at h3 h4 h7 h8
  exact ⟨h1, hw, h3, h4, h5, h6, h7, h8, h9, h10⟩

/-- Credit arrives: the cap in `add` takes nothing of it. -/
theorem Direction.credit {n : Nat} (h : Direction p r pe re op ws (b + n)) :
    SendCredit.add p.credit n = p.credit + n ∧
      Direction { p with credit := p.credit + n } r pe re op ws b := by
  have hcap := h.held_le
  have hheld : Channel.held { p with credit := p.credit + n } = p.held + n := by
    simp only [Channel.held, Channel.taken, Channel.outgoingCharge]
    omega
  refine ⟨SendCredit.add_eq ?_, h.bal, h.wire.congr rfl, ?_, ?_, h.written, h.backlog, h.flow,
    h.exact, h.closed, h.ended⟩
  · simp only [Channel.held] at hcap
    omega
  · have := h.credit_le
    omega
  · intro hpe hre hr hl
    have := h.credit_eq hpe hre hr hl
    omega

/-- Credit for an entry that is gone is dropped. -/
theorem Direction.credit_dropped (h : Direction p r false re op ws b) (hb : b' ≤ b) :
    Direction p r false re op ws b' := by
  obtain ⟨h1, h2, h3, -, h5, h6, h7, h8, h9, h10⟩ := h
  exact ⟨h1, h2, by omega, by simp, h5, h6, h7, h8, h9, h10⟩

/-- Either end's entry may go at any moment. -/
theorem Direction.drop_sender (h : Direction p r pe re op ws b) : Direction p r false re op ws b := by
  obtain ⟨h1, h2, h3, -, h5, h6, h7, h8, h9, h10⟩ := h
  exact ⟨h1, h2, h3, by simp, h5, h6, h7, h8, h9, h10⟩

theorem Direction.drop_receiver (h : Direction p r pe re op ws b) :
    Direction p r pe false op ws b := by
  obtain ⟨h1, h2, h3, -, h5, h6, -, -, h9, h10⟩ := h
  exact ⟨h1.drop, h2, h3, by simp, h5, h6, by simp, by simp, h9, h10⟩

end Steps

end FontisRemote.PortForward
