import FontisRemote.PortForward.ChannelSteps
import FontisRemote.PortForward.Tunnel

/-!
# One direction of a channel

A sender `P`, a receiver `R`, the frames `w` on their way from one to the other, and the credit
`back` on its way back (updates, and the grant that travels in `opened`). `Credit` is the accounting
between the two ends, `Stream` the bytes; both are preserved by every step of either task and by
every delivery, and nothing here depends on which end is the controller.
-/

namespace FontisRemote.PortForward

open Channel

/-! ## The receiver's own account -/

/-- What the receiver has granted so far: the controlled side starts from `initialWindow` and
widens the window when its connect completes. -/
def Channel.granted (r : Channel) : Nat :=
  match r.stage with
  | .connecting => initialWindow
  | _ => channelWindow

theorem Channel.granted_le (r : Channel) : r.granted ≤ channelWindow := by
  unfold Channel.granted
  split <;> decide

/-- The window, the withheld drains and the backlog add up to the grant while the receiver
listens, and never to more. Nothing is queued behind a `close`, and no violation is ever queued. -/
structure Balance (r : Channel) (ent : Bool) : Prop where
  le : r.window.remaining + r.window.drainedSinceUpdate + r.queued ≤ r.granted
  eq : r.receiving = true →
    r.window.remaining + r.window.drainedSinceUpdate + r.queued = r.granted
  drained : r.window.drainedSinceUpdate < updateThreshold
  inbound : ∃ (ds : List Bytes) (k : Bool), r.inbound = ds.map .data ++ (if k then [.close] else []) ∧
    (k = true → ent = false)
  clean : r.toSocket ≠ .ended .violation

section Balance

variable {gone entry ent : Bool} {r r' : Channel} {e : TaskEvent} {em : Emit}

theorem Balance.cap (h : Balance r ent) :
    r.window.remaining + r.window.drainedSinceUpdate + r.queued ≤ channelWindow :=
  h.le.trans r.granted_le

theorem Balance.no_violation (h : Balance r ent) : .violation ∉ r.inbound := by
  obtain ⟨ds, k, hin, -⟩ := h.inbound
  rw [hin]
  cases k <;> simp

/-- The head of the inbound queue. -/
theorem Balance.inbound_cons (h : Balance r ent) {i : Inbound} {rest : List Inbound}
    (hin : r.inbound = i :: rest) :
    (∃ d, i = .data d) ∨ (i = .close ∧ rest = [] ∧ ent = false) := by
  obtain ⟨ds, k, heq, hk⟩ := h.inbound
  rw [hin] at heq
  cases ds with
  | nil =>
    cases k with
    | false => simp at heq
    | true =>
      simp only [List.map_nil, if_true, List.nil_append, List.cons.injEq] at heq
      exact Or.inr ⟨heq.1, heq.2, hk rfl⟩
  | cons d ds =>
    simp only [List.map_cons, List.cons_append, List.cons.injEq] at heq
    exact Or.inl ⟨d, heq.1⟩

theorem Balance.inbound_tail (h : Balance r ent) {i : Inbound} {rest : List Inbound}
    (hin : r.inbound = i :: rest) :
    ∃ (ds : List Bytes) (k : Bool), rest = ds.map .data ++ (if k then [.close] else []) ∧
      (k = true → ent = false) := by
  obtain ⟨ds, k, heq, hk⟩ := h.inbound
  rw [hin] at heq
  cases ds with
  | nil =>
    cases k with
    | false => simp at heq
    | true =>
      simp only [List.map_nil, if_true, List.nil_append, List.cons.injEq] at heq
      exact ⟨[], false, by simp [heq.2], by simp⟩
  | cons d ds =>
    simp only [List.map_cons, List.cons_append, List.cons.injEq] at heq
    exact ⟨ds, k, heq.2, hk⟩

/-- `pending_fits` cannot fail: what is buffered and queued before the grant stays within the
initial window. -/
theorem Balance.pendingFits (h : Balance r ent) (hr : r.Ok) (hs : r.stage = .connecting)
    {d : Bytes} {rest : List Inbound} (hin : r.inbound = .data d :: rest) :
    pendingFits r.pendingLen d.length = true := by
  have hle := h.le
  have hlen := hr.pendingLen_eq hs
  simp only [queued, hin, List.map_cons, List.sum_cons, Inbound.charge, granted, hs] at hle
  simp only [PortForward.pendingFits, decide_eq_true_eq]
  omega

/-- A task that does not listen leaves its window alone and only takes from its queue. -/
theorem Channel.Did.deaf (h : Did gone entry r e r' em) (hr : ¬ r'.receiving = true) :
    r'.window = r.window ∧ r'.queued ≤ r.queued := by
  cases h with
  | connectOverflow hs hin hf =>
    simp [Channel.queued, hin]
  | connectClose hs hin => simp [Channel.queued, hin]
  | connectViolation hs hin => simp [Channel.queued, hin]
  | nextClose hs ht hp hin => simp [Channel.queued, ht, hp, hin]
  | nextViolation hs ht hp hin => simp [Channel.queued, ht, hp, hin]
  | _ => simp_all [Channel.receiving, Channel.queued]

/-- The sum never grows but by the grant. -/
theorem Channel.Did.balance_le (h : Did gone entry r e r' em) (hb : Balance r ent) :
    r'.window.remaining + r'.window.drainedSinceUpdate + r'.queued ≤
      r.window.remaining + r.window.drainedSinceUpdate + r.queued + grantOf e := by
  by_cases hr : r'.receiving = true
  · exact le_of_eq (h.balance hb.cap hr)
  · -- the task has stopped listening: the window is left as it is and nothing was added to the queue
    have hw : r'.window = r.window ∧ r'.queued ≤ r.queued := h.deaf hr
    rw [hw.1]
    omega

theorem Channel.Did.granted (h : Did gone entry r e r' em) :
    r.granted + grantOf e ≤ r'.granted ∧ (r'.receiving = true → r'.granted = r.granted + grantOf e) := by
  have hc : initialWindow ≤ channelWindow := by decide
  cases h with
  | connected hs =>
    have hcw : initialWindow + (channelWindow - initialWindow) = channelWindow := by decide
    simp only [Channel.granted, hs, grantOf, hcw]
    exact ⟨le_refl _, fun _ => trivial⟩
  | join hs h1 h2 =>
    rename_i first second
    cases hsc : sendsClose first second <;> simp [Channel.granted, hs, grantOf]
  | _ => simp_all [Channel.granted, grantOf, Channel.receiving]

theorem Balance.step (h : Balance r ent) (hd : Did gone entry r e r' em) :
    Balance r' ent := by
  have hg := hd.granted
  refine ⟨?_, ?_, hd.drained_lt h.drained, ?_, ?_⟩
  · have := hd.balance_le h
    have := h.le
    omega
  · intro hrec
    have h1 := hd.balance h.cap hrec
    have h2 := h.eq (hd.receiving hrec)
    have h3 := hg.2 hrec
    omega
  · cases hd with
    | connectData hs hin hf => exact h.inbound_tail hin
    | connectOverflow hs hin hf => exact h.inbound_tail hin
    | connectClose hs hin => exact h.inbound_tail hin
    | connectViolation hs hin => exact h.inbound_tail hin
    | nextData hs ht hp hin => exact h.inbound_tail hin
    | nextClose hs ht hp hin => exact h.inbound_tail hin
    | nextViolation hs ht hp hin => exact h.inbound_tail hin
    | _ => exact h.inbound
  · cases hd with
    | nextViolation hs ht hp hin =>
      rcases h.inbound_cons hin with ⟨d, hd⟩ | ⟨hd, -⟩ <;> cases hd
    | join hs h1 h2 => exact h.clean
    | _ => simp_all [h.clean]

/-- Dropping the entry. -/
theorem Balance.drop (h : Balance r ent) : Balance r false := by
  obtain ⟨hle, heq, hdr, ⟨ds, k, hin, -⟩, hcl⟩ := h
  exact ⟨hle, heq, hdr, ⟨ds, k, hin, fun _ => rfl⟩, hcl⟩

/-- A frame the window takes, queued. -/
theorem Balance.data (h : Balance r true) (hr : r.receiving = true) {d : Bytes} {w : RecvWindow}
    (hacc : r.window.accept d.length = some w) :
    Balance { r with window := w, inbound := r.inbound ++ [.data d] } true := by
  obtain ⟨hle, rfl⟩ := RecvWindow.accept_eq_some hacc
  have hq : Channel.queued { r with
      window := ⟨r.window.remaining - charge d.length, r.window.drainedSinceUpdate⟩
      inbound := r.inbound ++ [.data d] } = r.queued + charge d.length := by
    simp only [Channel.queued, List.map_append, List.sum_append, List.map_cons, List.map_nil,
      List.sum_cons, List.sum_nil, Inbound.charge]
    omega
  have heq := h.eq hr
  obtain ⟨ds, k, hin, hk⟩ := h.inbound
  cases k with
  | true => cases hk rfl
  | false =>
    refine ⟨?_, fun _ => ?_, h.drained, ⟨ds ++ [d], false, by simp [hin], by simp⟩, h.clean⟩
    · rw [hq]
      show _ ≤ r.granted
      simp only
      omega
    · rw [hq]
      show _ = r.granted
      simp only
      omega

/-- A frame the window takes after the task stopped listening: the entry goes. -/
theorem Balance.deaf (h : Balance r ent) (hr : r.receiving = false) {len : Nat} {w : RecvWindow}
    (hacc : r.window.accept len = some w) : Balance { r with window := w } false := by
  obtain ⟨hle, rfl⟩ := RecvWindow.accept_eq_some hacc
  obtain ⟨h1, -, h3, ⟨ds, k, hin, -⟩, h5⟩ := h
  refine ⟨?_, ?_, h3, ⟨ds, k, hin, fun _ => rfl⟩, h5⟩
  · show r.window.remaining - charge len + r.window.drainedSinceUpdate + r.queued ≤ r.granted
    omega
  · intro hr'
    have hr'' : r.receiving = true := hr'
    rw [hr] at hr''
    cases hr''

theorem Balance.close (h : Balance r true) : Balance (r.push .close) false := by
  obtain ⟨hle, heq, hdr, ⟨ds, k, hin, hk⟩, hcl⟩ := h
  unfold Channel.push
  by_cases hr : r.receiving = true
  · rw [if_pos hr]
    cases k with
    | true => cases hk rfl
    | false =>
      have hq : Channel.queued { r with inbound := r.inbound ++ [.close] } = r.queued := by
        simp [Channel.queued, Inbound.charge]
      refine ⟨?_, fun _ => ?_, hdr, ⟨ds, true, by simp [hin], fun _ => rfl⟩, hcl⟩
      · rw [hq]
        exact hle
      · rw [hq]
        exact heq hr
  · rw [if_neg hr]
    exact ⟨hle, heq, hdr, ⟨ds, k, hin, fun _ => rfl⟩, hcl⟩

end Balance

/-! ## The frames on their way -/

/-- The ordered frames a sender has on their way: `op` (its `open` or `opened`) in front, then
`data`, and last the frame it ended with. Nothing precedes the start of its task. -/
structure Wire (p : Channel) (op ws : List Frame) : Prop where
  shape : ∃ mid tl, ws = op ++ mid ++ tl ∧ (∀ f ∈ mid, Frame.isData f = true) ∧
    (tl = [] ∨ ∃ f, tl = [f] ∧ f.ends = true ∧ p.finished = true)
  early : p.stage = .opening ∨ p.stage = .connecting ∨ p.stage = .granted → ws = []

section Wire

variable {gone entry : Bool} {p p' : Channel} {op ws : List Frame} {e : TaskEvent} {em : Emit}

theorem Channel.Did.late (h : Did gone entry p e p' em)
    (hs : p'.stage = .opening ∨ p'.stage = .connecting ∨ p'.stage = .granted) :
    (p.stage = .opening ∨ p.stage = .connecting ∨ p.stage = .granted) ∧ em.ordered = [] := by
  cases h with
  | join hs' h1 h2 =>
    rename_i first second
    cases hsc : sendsClose first second <;> simp [hsc] at hs
  | _ => simp_all [Emit.nothing]

/-- A step that sends `data`, an end, or nothing. -/
theorem Wire.send (h : Wire p op ws) (hd : Did gone entry p e p' em)
    (hem : ∀ f ∈ em.ordered, f.isData = true ∨ f.ends = true) : Wire p' op (ws ++ em.ordered) := by
  obtain ⟨⟨mid, tl, rfl, hmid, htl⟩, hearly⟩ := h
  refine ⟨?_, ?_⟩
  · by_cases hfin : p.finished = true
    · obtain ⟨hfin', rfl, -⟩ := hd.finished hfin
      refine ⟨mid, tl, by simp [Emit.nothing], hmid, ?_⟩
      rcases htl with rfl | ⟨f, rfl, hf, -⟩
      · exact Or.inl rfl
      · exact Or.inr ⟨f, rfl, hf, hfin'⟩
    · have htl : tl = [] := by
        rcases htl with rfl | ⟨f, -, -, hf⟩
        · rfl
        · exact absurd hf hfin
      subst htl
      rcases hd.ordered with hnil | ⟨bs, hdat, -⟩ | ⟨hf, hfin'⟩ | ⟨-, hfin', m, hf⟩ | ⟨-, -, ho⟩ |
        ⟨-, -, ho⟩
      · exact ⟨mid, [], by simp [hnil], hmid, Or.inl rfl⟩
      · refine ⟨mid ++ [.data p.id bs], [], by simp [hdat], ?_, Or.inl rfl⟩
        intro f hf
        rcases List.mem_append.1 hf with hf | hf
        · exact hmid f hf
        · rw [List.mem_singleton.1 hf]
          rfl
      · exact ⟨mid, [.close p.id], by simp [hf], hmid, Or.inr ⟨_, rfl, rfl, hfin'⟩⟩
      · exact ⟨mid, [.opened p.id false m 0], by simp [hf], hmid, Or.inr ⟨_, rfl, rfl, hfin'⟩⟩
      · rw [ho] at hem
        simp [Frame.isData, Frame.ends] at hem
      · rw [ho] at hem
        simp [Frame.isData, Frame.ends] at hem
  · intro hs
    obtain ⟨hs, hnil⟩ := hd.late hs
    simpa [hnil] using hearly hs

/-- The step that starts the task. -/
theorem Wire.start (h : Wire p [] ws) (hs : p.stage = .opening ∨ p.stage = .connecting ∨
    p.stage = .granted) (hs' : p'.stage = .running) (f : Frame) : Wire p' [f] (ws ++ [f]) := by
  rw [h.early hs]
  exact ⟨⟨[], [], by simp, by simp, Or.inl rfl⟩, by simp [hs']⟩

theorem Wire.tail {f : Frame} (h : Wire p [] (f :: ws)) (hf : f.isData = true) : Wire p [] ws := by
  obtain ⟨⟨mid, tl, heq, hmid, htl⟩, hearly⟩ := h
  refine ⟨?_, fun hs => absurd (hearly hs) (by simp)⟩
  cases mid with
  | nil =>
    rcases htl with rfl | ⟨g, rfl, hg, -⟩
    · simp at heq
    · simp only [List.append_nil, List.nil_append, List.cons.injEq] at heq
      rw [heq.1] at hf
      cases g <;> simp_all [Frame.isData, Frame.ends]
  | cons m mid =>
    simp only [List.nil_append, List.cons_append, List.cons.injEq] at heq
    exact ⟨mid, tl, by simp [heq.2], fun g hg => hmid g (List.mem_cons_of_mem _ hg), htl⟩

/-- Nothing follows the frame the sender ended with. -/
theorem Wire.last {f : Frame} (h : Wire p [] (f :: ws)) (hf : f.ends = true) :
    ws = [] ∧ p.finished = true := by
  obtain ⟨⟨mid, tl, heq, hmid, htl⟩, -⟩ := h
  cases mid with
  | nil =>
    rcases htl with rfl | ⟨g, rfl, hg, hfin⟩
    · simp at heq
    · simp only [List.append_nil, List.nil_append, List.cons.injEq] at heq
      exact ⟨heq.2, hfin⟩
  | cons m mid =>
    simp only [List.nil_append, List.cons_append, List.cons.injEq] at heq
    have hm := hmid m (List.mem_cons_self ..)
    rw [← heq.1] at hm
    cases f <;> simp_all [Frame.isData, Frame.ends]

/-- The head of the wire once the starting frame is through. -/
theorem Wire.head {f : Frame} (h : Wire p [] (f :: ws)) : f.isData = true ∨ f.ends = true := by
  obtain ⟨⟨mid, tl, heq, hmid, htl⟩, -⟩ := h
  cases mid with
  | nil =>
    rcases htl with rfl | ⟨g, rfl, hg, hfin⟩
    · simp at heq
    · simp only [List.append_nil, List.nil_append, List.cons.injEq] at heq
      rw [heq.1]
      exact Or.inr hg
  | cons m mid =>
    simp only [List.nil_append, List.cons_append, List.cons.injEq] at heq
    rw [heq.1]
    exact Or.inl (hmid m (List.mem_cons_self ..))

theorem Wire.started {f : Frame} (h : Wire p [f] ws) : ∃ ws', ws = f :: ws' ∧ Wire p [] ws' := by
  obtain ⟨⟨mid, tl, heq, hmid, htl⟩, hearly⟩ := h
  refine ⟨mid ++ tl, by simpa using heq, ⟨mid, tl, by simp, hmid, htl⟩, fun hs => ?_⟩
  rw [hearly hs] at heq
  simp at heq

theorem Wire.congr (h : Wire p op ws) (hs : p'.stage = p.stage) : Wire p' op ws := by
  obtain ⟨hshape, hearly⟩ := h
  refine ⟨?_, by rwa [hs]⟩
  simpa only [Channel.finished, hs] using hshape

end Wire

end FontisRemote.PortForward
