import FontisRemote.Drm.CursorCal
import FontisRemote.Lib.Slots

/-!
# A corrected hotspot was measured twice

Whatever a stream serves in place of the wire's hotspot, and whatever the cache holds, was measured for the
shape by one stream of the generation it is kept under and confirmed there by a second measurement.
-/

namespace FontisRemote.Drm

open FontisRemote.Lib

/-! ## Where two hotspots are near -/

theorem abs_sub_le {a b : Int32} (ha : 0 ≤ a) (hb : 0 ≤ b) (h : (a - b).abs ≤ CURSOR_CAL_TOLERANCE) :
    |a.toInt - b.toInt| ≤ 2 := by
  have ha0 : 0 ≤ a.toInt := Int32.le_iff_toInt_le.mp ha
  have hb0 : 0 ≤ b.toInt := Int32.le_iff_toInt_le.mp hb
  have ha1 : a.toInt < 2 ^ 31 := a.toInt_lt
  have hb1 : b.toInt < 2 ^ 31 := b.toInt_lt
  -- neither is negative, so the difference does not wrap
  have hsub : (a - b).toInt = a.toInt - b.toInt := by
    rw [Int32.toInt_sub, Int.bmod_eq_of_le (by omega) (by omega)]
  have hne : (a - b).toBitVec ≠ BitVec.intMin 32 := by
    intro hmin
    have hneg : (a - b).toInt = -2 ^ 31 := by
      change (a - b).toBitVec.toInt = _
      rw [hmin]
      decide
    omega
  have habs : (a - b).abs.toInt = (a - b).toInt.natAbs :=
    BitVec.toInt_abs_eq_natAbs.trans (if_neg hne)
  have hle : (a - b).abs.toInt ≤ 2 := Int32.le_iff_toInt_le.mp h
  rw [habs, hsub] at hle
  rw [Int.abs_eq_natAbs]
  exact hle

theorem near_le {a b : Hotspot} (h : near a b = true) (ha : 0 ≤ a.1 ∧ 0 ≤ a.2) (hb : 0 ≤ b.1 ∧ 0 ≤ b.2) :
    |a.1.toInt - b.1.toInt| ≤ 2 ∧ |a.2.toInt - b.2.toInt| ≤ 2 := by
  unfold near at h
  obtain ⟨h1, h2⟩ := Bool.and_eq_true_iff.mp h
  exact ⟨abs_sub_le ha.1 hb.1 (of_decide_eq_true h1), abs_sub_le ha.2 hb.2 (of_decide_eq_true h2)⟩

theorem measureHotspot_nonneg {scale : Int32 → Int32 → Int32 → Int32} {ctx : CalContext} {injected plane : Pos}
    {size : Int32 × Int32} {h : Hotspot} (hm : measureHotspot scale ctx injected plane size = some h) :
    0 ≤ h.1 ∧ 0 ≤ h.2 := by
  unfold measureHotspot at hm
  dsimp only at hm
  split at hm
  · cases hm
  · split at hm
    · cases hm
    · rename_i hin
      obtain rfl := Option.some.inj hm
      simp only [Bool.or_eq_true, decide_eq_true_eq, not_or] at hin
      exact ⟨Int32.not_lt.mp hin.1.1.1, Int32.not_lt.mp hin.1.1.2⟩

namespace CalCache

variable {cache : CalCache} {id k : UInt64} {h v : Hotspot} {gen g : Nat} {q : UInt64 × Hotspot × Nat}

theorem mem_store (hq : q ∈ cache.store id h gen) : q = (id, h, gen) ∨ q ∈ cache := by
  unfold store at hq
  split at hq
  · exact .inr hq
  · split at hq
    · dsimp only at hq
      split at hq
      · exact .inr (List.mem_of_mem_filter hq)
      · exact (Assoc.mem_put hq).imp_right List.mem_of_mem_filter
    · exact Assoc.mem_put hq

theorem mem_forget (hq : q ∈ cache.forget id gen) : q ∈ cache := by
  unfold forget at hq
  split at hq
  · exact List.mem_of_mem_filter hq
  · exact hq

theorem mem_of_cached (hcached : cache.cached id gen = some v) : (id, v, gen) ∈ cache := by
  obtain ⟨⟨v', g⟩, hfilter, rfl⟩ := Option.map_eq_some_iff.mp hcached
  obtain ⟨hget, hgen⟩ := Option.filter_eq_some_iff.mp hfilter
  rw [← beq_iff_eq.mp hgen]
  exact Assoc.mem_of_get hget

/-- Entries of the key go, so one that was there makes room. -/
theorem length_put_le (hroom : cache.length < CURSOR_CAL_CACHE_CAP ∨ Assoc.get cache id ≠ none)
    (hcap : cache.length ≤ CURSOR_CAL_CACHE_CAP) :
    (Assoc.put cache id (some (h, gen))).length ≤ CURSOR_CAL_CACHE_CAP := by
  have herase : (Assoc.erase cache id).length ≤ cache.length := List.length_filter_le ..
  rw [Assoc.put, List.length_cons]
  obtain hroom | hpresent := hroom
  · omega
  · have hlt : (Assoc.erase cache id).length < cache.length := by
      by_contra hnot
      have hall : ∀ p ∈ cache, (decide (p.1 ≠ id)) = true := by
        have hsame := List.length_filter_eq_length_iff.mp (Nat.le_antisymm herase (Nat.le_of_not_lt hnot))
        exact hsame
      refine hpresent (Assoc.get_eq_none fun hmem => ?_)
      obtain ⟨p, hp, rfl⟩ := List.mem_map.mp hmem
      exact absurd rfl (of_decide_eq_true (hall p hp))
    omega

theorem length_store (hcap : cache.length ≤ CURSOR_CAL_CACHE_CAP) :
    (cache.store id h gen).length ≤ CURSOR_CAL_CACHE_CAP := by
  unfold store
  split
  · exact hcap
  · split
    · dsimp only
      have hkept : (cache.filter fun entry => decide (gen < entry.2.2)).length ≤ cache.length :=
        List.length_filter_le ..
      split
      · exact hkept.trans hcap
      · rename_i hroom
        exact length_put_le (.inl (Nat.lt_of_not_le hroom)) (hkept.trans hcap)
    · rename_i hroom
      refine length_put_le ?_ hcap
      by_cases hlt : cache.length < CURSOR_CAL_CACHE_CAP
      · exact .inl hlt
      · exact .inr fun hnone => hroom ⟨Nat.le_of_not_lt hlt, hnone⟩

theorem length_forget (hcap : cache.length ≤ CURSOR_CAL_CACHE_CAP) :
    (cache.forget id gen).length ≤ CURSOR_CAL_CACHE_CAP := by
  unfold forget
  split
  · exact (List.length_filter_le ..).trans hcap
  · exact hcap

theorem get_filter_newer (hget : Assoc.get cache k = some (v, g)) (hlt : gen < g) :
    Assoc.get (cache.filter fun entry => decide (gen < entry.2.2)) k = some (v, g) := by
  induction cache with
  | nil => cases hget
  | cons p cache ih =>
    unfold Assoc.get at hget
    split at hget
    · rename_i hk
      have hp : p.2 = (v, g) := Option.some.inj hget
      rw [List.filter_cons_of_pos (by rw [hp]; exact decide_eq_true hlt), Assoc.get, if_pos hk, hp]
    · rename_i hk
      rw [List.filter_cons]
      split
      · rw [Assoc.get, if_neg hk]
        exact ih hget
      · exact ih hget

/-- A newer entry stays as it is, whoever stores. -/
theorem get_store_newer (hget : Assoc.get cache k = some (v, g)) (hlt : gen < g) :
    Assoc.get (cache.store id h gen) k = some (v, g) := by
  have hother : ∀ m : CalCache, Assoc.get m k = some (v, g) → k ≠ id →
      Assoc.get (Assoc.put m id (some (h, gen))) k = some (v, g) := by
    intro m hm hk
    rw [Assoc.get_put, if_neg hk, hm]
  unfold store
  split
  · exact hget
  · rename_i hold
    have hk : k ≠ id := by
      rintro rfl
      rw [hget] at hold
      exact hold (decide_eq_true hlt)
    split
    · dsimp only
      have hkept := get_filter_newer hget hlt
      split
      · exact hkept
      · exact hother _ hkept hk
    · exact hother _ hget hk

theorem get_forget_newer (hget : Assoc.get cache k = some (v, g)) (hlt : gen < g) :
    Assoc.get (cache.forget id gen) k = some (v, g) := by
  unfold forget
  split
  · rename_i hold
    have hk : k ≠ id := by
      rintro rfl
      rw [hget] at hold
      exact absurd (of_decide_eq_true hold) (Nat.not_le_of_lt hlt)
    rw [Assoc.get_put, if_neg hk, hget]
  · exact hget

end CalCache

/-! ## Evidence -/

/-- Two measurements of a shape, by one stream of this generation, that agree: taken from different samples
of the peer under one mapping of its input, each while the plane stood still for as long as is asked. -/
structure Agree (shape : UInt64) (gen : Nat) (v : Hotspot) (first second : Measured) : Prop where
  stream : second.stream = first.stream
  shape : first.shape = shape ∧ second.shape = shape
  gen : first.gen = gen ∧ second.gen = gen
  hot : first.hot = v
  near : |v.1.toInt - second.hot.1.toInt| ≤ 2 ∧ |v.2.toInt - second.hot.2.toInt| ≤ 2
  seq : first.seq ≠ second.seq
  mapEpoch : first.mapEpoch = second.mapEpoch
  held : CURSOR_CAL_STABLE_TICKS ≤ first.held ∧ first.held ≤ CURSOR_CAL_WINDOW_TICKS ∧
    CURSOR_CAL_STABLE_TICKS ≤ second.held ∧ second.held ≤ CURSOR_CAL_WINDOW_TICKS

/-- The second came after the first. -/
def Confirmed (log : List Measured) (shape : UInt64) (gen : Nat) (v : Hotspot) : Prop :=
  ∃ first second, [second, first].Sublist log ∧ Agree shape gen v first second

theorem Confirmed.mono {log log' : List Measured} (hlog : log <:+ log') {shape : UInt64} {gen : Nat}
    {v : Hotspot} (h : Confirmed log shape gen v) : Confirmed log' shape gen v := by
  obtain ⟨first, second, hin, hagree⟩ := h
  exact ⟨first, second, hin.trans hlog.sublist, hagree⟩

/-- What is kept of a measurement that was taken. -/
structure Measured.Sound (m : Measured) : Prop where
  held : CURSOR_CAL_STABLE_TICKS ≤ m.held ∧ m.held ≤ CURSOR_CAL_WINDOW_TICKS
  hot : 0 ≤ m.hot.1 ∧ 0 ≤ m.hot.2

/-- The shape that stream `i` measures: a guess, for which the candidate was measured by this stream and what
is served in place of the wire's hotspot was confirmed. -/
structure CalSound (log : List Measured) (i : Nat) (st : CursorStream) (c : CursorCal) : Prop where
  ctx : st.ctx = some c.ctx
  shape : ∃ shape, st.shape = some shape ∧ shape.id = c.id ∧ shape.hot = c.wireHot ∧
    calibratable shape.id shape.hotMeasured = true
  current : c.currentHot = c.wireHot ∨ Confirmed log c.id c.ctx.builtGen c.currentHot
  candidate : ∀ k seq epoch, c.candidate = some (k, seq, epoch) → ∃ m ∈ log, m.stream = i ∧ m.shape = c.id ∧
    m.gen = c.ctx.builtGen ∧ m.hot = k ∧ m.seq = seq ∧ m.mapEpoch = epoch
  plane : c.plane = c.planes.head?
  ticks : c.stableTicks = min (CursorCal.heldFor c.planes) U32_MAX

theorem CalSound.mono {log log' : List Measured} (hlog : log <:+ log') {i : Nat} {st : CursorStream}
    {c : CursorCal} (h : CalSound log i st c) : CalSound log' i st c := by
  refine ⟨h.ctx, h.shape, h.current.imp_right fun h => h.mono hlog, fun k seq epoch hk => ?_, h.plane, h.ticks⟩
  obtain ⟨m, hm, hrest⟩ := h.candidate k seq epoch hk
  exact ⟨m, hlog.subset hm, hrest⟩

theorem heldFor_cons_ne {p : Pos} {planes : List Pos} (hne : planes.head? ≠ some p) :
    CursorCal.heldFor (p :: planes) = 0 := by
  cases planes with
  | nil => rfl
  | cons q planes =>
    have hq : (q == p) = false := beq_false_of_ne fun hq => hne (congrArg some hq)
    rw [CursorCal.heldFor, List.takeWhile_cons, hq]
    rfl

theorem heldFor_cons_self {p : Pos} {planes : List Pos} (heq : planes.head? = some p) :
    CursorCal.heldFor (p :: planes) = CursorCal.heldFor planes + 1 := by
  cases planes with
  | nil => cases heq
  | cons q planes =>
    obtain rfl := Option.some.inj heq
    rw [CursorCal.heldFor, List.takeWhile_cons, beq_self_eq_true, if_pos rfl, List.length_cons, CursorCal.heldFor]

/-- The plane was reported; nothing else about the shape changed. -/
theorem CalSound.plane_step {log : List Measured} {i : Nat} {st : CursorStream} {c : CursorCal} (h : CalSound log i st c) (p : Pos) :
    CalSound log i st (c.updatePlaneStability p) := by
  unfold CursorCal.updatePlaneStability
  split
  · rename_i hmoved
    rw [h.plane] at hmoved
    refine ⟨h.ctx, h.shape, h.current, h.candidate, rfl, ?_⟩
    dsimp only
    rw [heldFor_cons_ne hmoved]
    rfl
  · rename_i hstill
    have hhead : c.planes.head? = some p := h.plane ▸ not_not.mp hstill
    refine ⟨h.ctx, h.shape, h.current, h.candidate, ?_, ?_⟩
    · exact not_not.mp hstill
    · dsimp only
      rw [heldFor_cons_self hhead, h.ticks]
      omega

/-- The wire's hotspot is served, or a confirmed one for a guess. -/
def Served.Sound (log : List Measured) (streams : List CursorStream) (e : Served) : Prop :=
  ∃ shape, e.shape = some shape ∧
    (e.hot = shape.hot ∨ calibratable shape.id shape.hotMeasured = true ∧
      ∃ st ctx, streams[e.stream]? = some st ∧ st.ctx = some ctx ∧ Confirmed log shape.id ctx.builtGen e.hot)

namespace Calibration

structure Inv (s : Calibration) : Prop where
  measured : ∀ m ∈ s.measured, m.Sound
  cache : ∀ q ∈ s.cache, Confirmed s.measured q.1 q.2.2 q.2.1
  cap : s.cache.length ≤ CURSOR_CAL_CACHE_CAP
  cal : ∀ i st c, s.streams[i]? = some st → st.cal = some c → CalSound s.measured i st c
  owed : ∀ (i : Nat) (st : CursorStream) (owed : Owed), s.streams[i]? = some st → st.owed = some owed →
    Confirmed s.measured owed.id owed.gen owed.hot ∧ ∃ ctx, st.ctx = some ctx ∧ owed.gen = ctx.builtGen
  served : ∀ e ∈ s.served, e.Sound s.measured s.streams

variable {s t : Calibration} {i : Nat} {st st' : CursorStream}

/-- One stream has moved on, and nothing measured was forgotten. -/
theorem Inv.update (h : s.Inv) (hi : s.streams[i]? = some st) (hstreams : t.streams = s.streams.set i st')
    (hctx : st'.ctx = st.ctx) (hlog : s.measured <:+ t.measured) (hmeasured : ∀ m ∈ t.measured, m.Sound)
    (hcache : ∀ q ∈ t.cache, q ∈ s.cache ∨ Confirmed t.measured q.1 q.2.2 q.2.1)
    (hcap : t.cache.length ≤ CURSOR_CAL_CACHE_CAP)
    (hcal : ∀ c, st'.cal = some c → CalSound t.measured i st' c)
    (howed : ∀ owed, st'.owed = some owed →
      Confirmed t.measured owed.id owed.gen owed.hot ∧ ∃ ctx, st'.ctx = some ctx ∧ owed.gen = ctx.builtGen)
    (hserved : ∀ e ∈ t.served, e ∈ s.served ∨ e.Sound t.measured t.streams) : t.Inv := by
  obtain ⟨hlt, -⟩ := List.getElem?_eq_some_iff.mp hi
  have hold : ∀ j old, t.streams[j]? = some old → j = i ∧ old = st' ∨ s.streams[j]? = some old := by
    intro j old hj
    rw [hstreams] at hj
    exact (getElem?_set_eq_some hj).imp_right And.right
  refine ⟨hmeasured, fun q hq => ?_, hcap, fun j old c hj hc => ?_, fun j old owed hj howes => ?_, fun e he => ?_⟩
  · exact (hcache q hq).elim (fun hq => (h.cache q hq).mono hlog) id
  · obtain ⟨rfl, rfl⟩ | hj := hold j old hj
    · exact hcal c hc
    · exact (h.cal j old c hj hc).mono hlog
  · obtain ⟨rfl, rfl⟩ | hj := hold j old hj
    · exact howed owed howes
    · exact (h.owed j old owed hj howes).imp_left fun h => h.mono hlog
  · obtain he | he := hserved e he
    · obtain ⟨shape, hshape, hhot | ⟨hguess, old, ctx, hold, hctx', hconfirmed⟩⟩ := h.served e he
      · exact ⟨shape, hshape, .inl hhot⟩
      · -- a stream keeps its context
        refine ⟨shape, hshape, .inr ⟨hguess, ?_⟩⟩
        by_cases hie : i = e.stream
        · rw [← hie, hi] at hold
          obtain rfl := Option.some.inj hold
          refine ⟨st', ctx, ?_, hctx.trans hctx', hconfirmed.mono hlog⟩
          rw [hstreams, ← hie, List.getElem?_set_self hlt]
        · refine ⟨old, ctx, ?_, hctx', hconfirmed.mono hlog⟩
          rw [hstreams, List.getElem?_set_ne hie, hold]
    · exact he

theorem Inv.openStream (h : s.Inv) (ctx : Option CalContext) (display : Int) (cursorEpoch : Nat) :
    Inv { s with streams := s.streams ++ [{ ctx := ctx, display := display, cursorEpoch := cursorEpoch }] } := by
  refine ⟨h.measured, h.cache, h.cap, fun j old c hj hc => ?_, fun j old owed hj howes => ?_, fun e he => ?_⟩
  · obtain hj | ⟨-, rfl⟩ := getElem?_append_singleton hj
    · exact h.cal j old c hj hc
    · cases hc
  · obtain hj | ⟨-, rfl⟩ := getElem?_append_singleton hj
    · exact h.owed j old owed hj howes
    · cases howes
  · obtain ⟨shape, hshape, hhot | ⟨hguess, old, ctx', hold, hctx, hconfirmed⟩⟩ := h.served e he
    · exact ⟨shape, hshape, .inl hhot⟩
    · refine ⟨shape, hshape, .inr ⟨hguess, old, ctx', ?_, hctx, hconfirmed⟩⟩
      obtain ⟨hlt, -⟩ := List.getElem?_eq_some_iff.mp hold
      exact (List.getElem?_append_left hlt).trans hold

theorem Inv.onCursorShape (h : s.Inv) (hi : s.streams[i]? = some st) (hidle : st.owed = none) (shape : Shape) :
    (s.onCursorShape i st shape).Inv := by
  obtain ⟨hlt, -⟩ := List.getElem?_eq_some_iff.mp hi
  have howed : ∀ owed : Owed, st.owed = some owed →
      Confirmed s.measured owed.id owed.gen owed.hot ∧ ∃ ctx, st.ctx = some ctx ∧ owed.gen = ctx.builtGen := by
    intro owed howes
    rw [hidle] at howes
    cases howes
  unfold Calibration.onCursorShape
  cases hguess : st.ctx.filter fun _ => calibratable shape.id shape.hotMeasured with
  | none =>
    refine h.update hi rfl rfl (List.suffix_refl _) h.measured (fun q hq => .inl hq) h.cap nofun howed
      fun e he => ?_
    obtain rfl | he := List.mem_cons.mp he
    · exact .inr ⟨shape, rfl, .inl rfl⟩
    · exact .inl he
  | some ctx =>
    obtain ⟨hctx, hcalibratable⟩ := Option.filter_eq_some_iff.mp hguess
    have hcurrent : (s.cache.cached shape.id ctx.builtGen).getD shape.hot = shape.hot ∨
        Confirmed s.measured shape.id ctx.builtGen ((s.cache.cached shape.id ctx.builtGen).getD shape.hot) := by
      cases hv : s.cache.cached shape.id ctx.builtGen with
      | none => exact .inl rfl
      | some v => exact .inr (h.cache _ (CalCache.mem_of_cached hv))
    refine h.update hi rfl rfl (List.suffix_refl _) h.measured (fun q hq => .inl hq) h.cap (fun c hc => ?_) howed
      fun e he => ?_
    · obtain rfl := Option.some.inj hc
      exact ⟨hctx, ⟨shape, rfl, rfl, rfl, hcalibratable⟩, hcurrent, nofun, rfl, rfl⟩
    · obtain rfl | he := List.mem_cons.mp he
      · refine .inr ⟨shape, rfl, ?_⟩
        dsimp only [Option.map_some]
        split
        · refine hcurrent.imp_right fun hconfirmed => ⟨hcalibratable, _, ctx, List.getElem?_set_self hlt, hctx, ?_⟩
          exact hconfirmed
        · exact .inl rfl
      · exact .inl he

/-- A stream keeps what it knows of its shape, the rest of it aside. -/
theorem Inv.keep (h : s.Inv) (hi : s.streams[i]? = some st) (hidle : st.owed = none) {c : CursorCal}
    (hc : CalSound s.measured i st c) :
    Inv { s with streams := s.streams.set i { st with cal := some c } } := by
  refine h.update hi rfl rfl (List.suffix_refl _) h.measured (fun q hq => .inl hq) h.cap (fun c' hc' => ?_)
    (fun owed howes => ?_) fun e he => .inl he
  · obtain rfl := Option.some.inj hc'
    exact ⟨hc.ctx, hc.shape, hc.current, hc.candidate, hc.plane, hc.ticks⟩
  · rw [hidle] at howes
    cases howes

theorem Inv.serveConfirmed (h : s.Inv) (hi : s.streams[i]? = some st) (hidle : st.owed = none) {c : CursorCal}
    (hc : CalSound s.measured i st c) {target : Hotspot} {cache : CalCache}
    (htarget : target = c.wireHot ∨ Confirmed s.measured c.id c.ctx.builtGen target)
    (hcache : ∀ q ∈ cache, q ∈ s.cache ∨ Confirmed s.measured q.1 q.2.2 q.2.1)
    (hcap : cache.length ≤ CURSOR_CAL_CACHE_CAP) : (s.serveConfirmed i st c target cache).Inv := by
  obtain ⟨hlt, -⟩ := List.getElem?_eq_some_iff.mp hi
  obtain ⟨shape, hshape, hid, hwire, hguess⟩ := hc.shape
  refine h.update hi rfl rfl (List.suffix_refl _) h.measured hcache hcap (fun c' hc' => ?_)
    (fun owed howes => ?_) fun e he => ?_
  · obtain rfl := Option.some.inj hc'
    exact ⟨hc.ctx, hc.shape, htarget, hc.candidate, hc.plane, hc.ticks⟩
  · rw [hidle] at howes
    cases howes
  · obtain rfl | he := List.mem_cons.mp he
    · refine .inr ⟨shape, hshape, ?_⟩
      dsimp only
      rw [hwire, hid]
      refine htarget.imp_right fun hconfirmed => ⟨hid ▸ hguess, _, c.ctx, List.getElem?_set_self hlt, hc.ctx, ?_⟩
      exact hconfirmed
    · exact .inl he

theorem Inv.applyConfirmedHotspot (h : s.Inv) (hi : s.streams[i]? = some st) (hidle : st.owed = none)
    {c : CursorCal} (hc : CalSound s.measured i st c) {accepted : Hotspot}
    (haccepted : Confirmed s.measured c.id c.ctx.builtGen accepted) :
    (s.applyConfirmedHotspot i st c accepted).Inv := by
  unfold Calibration.applyConfirmedHotspot
  split
  · split
    · have hkept := h.keep hi hidle hc
      refine ⟨hkept.measured, fun q hq => h.cache q (CalCache.mem_forget hq), CalCache.length_forget h.cap,
        hkept.cal, hkept.owed, hkept.served⟩
    · rename_i hcorrected
      split
      · -- it serves a correction that the cache does not hold
        have hcurrent := hc.current.resolve_left hcorrected
        refine h.update hi rfl rfl (List.suffix_refl _) h.measured (fun q hq => .inl hq) h.cap (fun c' hc' => ?_)
          (fun owed howes => ?_) fun e he => .inl he
        · obtain rfl := Option.some.inj hc'
          exact ⟨hc.ctx, hc.shape, hc.current, hc.candidate, hc.plane, hc.ticks⟩
        · obtain rfl := Option.some.inj howes
          exact ⟨hcurrent, c.ctx, hc.ctx, rfl⟩
      · exact h.keep hi hidle hc
  · split
    · refine h.serveConfirmed hi hidle hc (.inl rfl) (fun q hq => .inl (CalCache.mem_forget hq)) ?_
      exact CalCache.length_forget h.cap
    · refine h.serveConfirmed hi hidle hc (.inr haccepted) (fun q hq => ?_) (CalCache.length_store h.cap)
      obtain rfl | hq := CalCache.mem_store hq
      · exact .inr haccepted
      · exact .inl hq

theorem Inv.measure (h : s.Inv) {m : Measured} (hm : m.Sound) : Inv { s with measured := m :: s.measured } := by
  have hlog : s.measured <:+ m :: s.measured := List.suffix_cons ..
  refine ⟨fun m' hm' => ?_, fun q hq => (h.cache q hq).mono hlog, h.cap, fun j old c hj hc => ?_,
    fun j old owed hj howes => ?_, fun e he => ?_⟩
  · obtain rfl | hm' := List.mem_cons.mp hm'
    · exact hm
    · exact h.measured m' hm'
  · exact (h.cal j old c hj hc).mono hlog
  · exact (h.owed j old owed hj howes).imp_left fun h => h.mono hlog
  · obtain ⟨shape, hshape, hhot | ⟨hguess, old, ctx, hold, hctx, hconfirmed⟩⟩ := h.served e he
    · exact ⟨shape, hshape, .inl hhot⟩
    · exact ⟨shape, hshape, .inr ⟨hguess, old, ctx, hold, hctx, hconfirmed.mono hlog⟩⟩

/-- A measurement confirms the candidate, which an earlier one of the same stream had given. -/
theorem confirmed_of_candidate {log : List Measured} (hlog : ∀ m ∈ log, m.Sound) {m : Measured} (hm : m.Sound)
    {c : CursorCal} (hc : CalSound log m.stream st c) (hid : m.shape = c.id) (hgen : m.gen = c.ctx.builtGen)
    {k : Hotspot} {kseq : Nat} (hk : c.candidate = some (k, kseq, m.mapEpoch)) (hseq : kseq ≠ m.seq)
    (hnear : near k m.hot = true) : Confirmed (m :: log) c.id c.ctx.builtGen k := by
  obtain ⟨first, hfirst, hstream, hshape, hfgen, hhot, hfseq, hepoch⟩ := hc.candidate _ _ _ hk
  have hsound := hlog first hfirst
  refine ⟨first, m, (List.singleton_sublist.mpr hfirst).cons_cons m, hstream.symm, ⟨hshape, hid⟩, ⟨hfgen, hgen⟩,
    hhot, near_le hnear (hhot ▸ hsound.hot) hm.hot, hfseq ▸ hseq, hepoch, ?_⟩
  exact ⟨hsound.held.1, hsound.held.2, hm.held.1, hm.held.2⟩

theorem Inv.onMeasurement (h : s.Inv) (hi : s.streams[i]? = some st) (hidle : st.owed = none) {c : CursorCal}
    (hc : CalSound s.measured i st c) {m : Hotspot} {seq mapEpoch : Nat}
    (hm : Measured.Sound ⟨i, c.id, c.ctx.builtGen, m, seq, mapEpoch, CursorCal.heldFor c.planes⟩) :
    (s.onMeasurement i st c m seq mapEpoch).Inv := by
  have hinv := h.measure hm
  have hkept := hc.mono (List.suffix_cons
    (⟨i, c.id, c.ctx.builtGen, m, seq, mapEpoch, CursorCal.heldFor c.planes⟩ : Measured) s.measured)
  -- what there is once this measurement has become the candidate
  have hnew : CalSound (⟨i, c.id, c.ctx.builtGen, m, seq, mapEpoch, CursorCal.heldFor c.planes⟩ :: s.measured)
      i st { c with candidate := some (m, seq, mapEpoch) } := by
    refine ⟨hkept.ctx, hkept.shape, hkept.current, fun k kseq epoch hk => ?_, hkept.plane, hkept.ticks⟩
    obtain ⟨rfl, rfl, rfl⟩ : m = k ∧ seq = kseq ∧ mapEpoch = epoch := by simpa using hk
    exact ⟨_, List.mem_cons_self .., rfl, rfl, rfl, rfl, rfl, rfl⟩
  unfold Calibration.onMeasurement CursorCal.observeMeasurement
  dsimp only
  cases hcandidate : c.candidate with
  | none => exact hinv.keep hi hidle hnew
  | some candidate =>
    obtain ⟨k, kseq, kepoch⟩ := candidate
    dsimp only
    by_cases hsame : kseq = seq
    · rw [if_pos hsame]
      exact hinv.keep hi hidle hkept
    · rw [if_neg hsame]
      by_cases hagree : (decide (kepoch = mapEpoch) && near k m) = true
      · rw [if_pos hagree]
        obtain ⟨hepoch, hnear⟩ := Bool.and_eq_true_iff.mp hagree
        obtain rfl := of_decide_eq_true hepoch
        have hdone : CalSound (⟨i, c.id, c.ctx.builtGen, m, seq, kepoch, CursorCal.heldFor c.planes⟩ :: s.measured)
            i st { c with candidate := none } :=
          ⟨hkept.ctx, hkept.shape, hkept.current, nofun, hkept.plane, hkept.ticks⟩
        exact hinv.applyConfirmedHotspot hi hidle hdone
          (confirmed_of_candidate h.measured hm hc rfl rfl hcandidate hsame hnear)
      · rw [if_neg hagree]
        exact hinv.keep hi hidle hnew

theorem Inv.onCursorPlane (h : s.Inv) (hi : s.streams[i]? = some st) (hidle : st.owed = none)
    (scale : Int32 → Int32 → Int32 → Int32) (frame : Frame) : (s.onCursorPlane scale i st frame).Inv := by
  unfold Calibration.onCursorPlane
  split
  · rename_i c p hcal hpos
    have hc := (h.cal i st c hi hcal).plane_step p
    dsimp only
    split
    · exact h.keep hi hidle hc
    · rename_i hsettled
      split
      · exact h.keep hi hidle hc
      · rename_i injected seq epoch _
        have hmarked : CalSound s.measured i st
            { c.updatePlaneStability p with measuredThisPosition := true } :=
          ⟨hc.ctx, hc.shape, hc.current, hc.candidate, hc.plane, hc.ticks⟩
        split
        · exact h.keep hi hidle hmarked
        · rename_i m hm
          refine h.onMeasurement hi hidle hmarked ⟨?_, measureHotspot_nonneg hm⟩
          have hticks := hc.ticks
          have hwindow : U32_MAX = 2 ^ 32 - 1 ∧ CURSOR_CAL_WINDOW_TICKS = 33 := ⟨rfl, rfl⟩
          rw [Bool.not_eq_true, Bool.not_eq_false'] at hsettled
          unfold CursorCal.settledUnmeasured at hsettled
          simp only [Bool.and_eq_true, decide_eq_true_eq] at hsettled
          dsimp only
          omega
  · exact h

theorem Inv.restore (h : s.Inv) (hi : s.streams[i]? = some st) {owed : Owed} (howed : st.owed = some owed) :
    Inv { s with
      cache := s.cache.store owed.id owed.hot owed.gen
      streams := s.streams.set i { st with owed := none } } := by
  obtain ⟨hconfirmed, -⟩ := h.owed i st owed hi howed
  refine h.update hi rfl rfl (List.suffix_refl _) h.measured (fun q hq => ?_) (CalCache.length_store h.cap)
    (fun c hc => ?_) nofun fun e he => .inl he
  · obtain rfl | hq := CalCache.mem_store hq
    · exact .inr hconfirmed
    · exact .inl hq
  · have hcal := h.cal i st c hi hc
    exact ⟨hcal.ctx, hcal.shape, hcal.current, hcal.candidate, hcal.plane, hcal.ticks⟩

theorem Inv.step (h : s.Inv) {scale : Int32 → Int32 → Int32 → Int32} {e : Event}
    (hstep : s.step scale e = some t) : t.Inv := by
  unfold Calibration.step at hstep
  cases e with
  | openStream ctx display cursorEpoch =>
    obtain rfl := Option.some.inj hstep
    exact h.openStream ctx display cursorEpoch
  | shape i shape =>
    dsimp only at hstep
    split at hstep
    · rename_i st hi
      split at hstep
      · rename_i hidle
        obtain rfl := Option.some.inj hstep
        exact h.onCursorShape hi hidle shape
      · cases hstep
    · cases hstep
  | defer i =>
    dsimp only at hstep
    split at hstep
    · rename_i st hi
      split at hstep
      · rename_i hidle
        obtain rfl := Option.some.inj hstep
        refine h.update hi rfl rfl (List.suffix_refl _) h.measured (fun q hq => .inl hq) h.cap nofun
          (fun owed howes => ?_) fun e he => .inl he
        rw [hidle] at howes
        cases howes
      · cases hstep
    · cases hstep
  | frame i frame =>
    dsimp only at hstep
    split at hstep
    · rename_i st hi
      split at hstep
      · rename_i hidle
        obtain rfl := Option.some.inj hstep
        exact h.onCursorPlane hi hidle scale frame
      · cases hstep
    · cases hstep
  | restore i =>
    dsimp only at hstep
    split at hstep
    · rename_i st hi
      split at hstep
      · rename_i owed howed
        obtain rfl := Option.some.inj hstep
        exact h.restore hi howed
      · cases hstep
    · cases hstep

theorem Inv.start (h : Init s) : s.Inv := by
  have hnone : ∀ i : Nat, s.streams[i]? = none := by
    intro i
    rw [h]
    exact List.getElem?_nil
  refine ⟨fun m hm => ?_, fun q hq => ?_, ?_, fun i st c hi => ?_, fun i st owed hi => ?_, fun e he => ?_⟩
  · rw [h] at hm
    cases hm
  · rw [h] at hq
    cases hq
  · rw [h]
    exact Nat.zero_le _
  · rw [hnone] at hi
    cases hi
  · rw [hnone] at hi
    cases hi
  · rw [h] at he
    cases he

theorem Inv.of_exec {scale : Int32 → Int32 → Int32 → Int32} {history : List (Calibration × Event)}
    (hx : Exec Init (fun s => s.step scale) history s) : s.Inv :=
  hx.invariant (fun _ hinit => Inv.start hinit) fun _ _ _ hinv hstep => hinv.step hstep

/-! ## Who may touch an entry -/

section Newer

variable {id : UInt64} {v : Hotspot} {g : Nat}

theorem onMeasurement_newer (hget : Assoc.get s.cache id = some (v, g)) {c : CursorCal} {m : Hotspot}
    {seq mapEpoch : Nat} (hlt : c.ctx.builtGen < g) :
    Assoc.get (s.onMeasurement i st c m seq mapEpoch).cache id = some (v, g) := by
  have happly : ∀ (s' : Calibration) (c' : CursorCal) (accepted : Hotspot), s'.cache = s.cache →
      c'.ctx = c.ctx → Assoc.get (s'.applyConfirmedHotspot i st c' accepted).cache id = some (v, g) := by
    intro s' c' accepted hcache hctx
    rw [← hctx] at hlt
    rw [← hcache] at hget
    unfold applyConfirmedHotspot
    split
    · split
      · exact CalCache.get_forget_newer hget hlt
      · split <;> exact hget
    · split
      · exact CalCache.get_forget_newer hget hlt
      · exact CalCache.get_store_newer hget hlt
  unfold onMeasurement CursorCal.observeMeasurement
  dsimp only
  cases c.candidate with
  | none => exact hget
  | some candidate =>
    obtain ⟨k, kseq, kepoch⟩ := candidate
    dsimp only
    by_cases hsame : kseq = seq
    · rw [if_pos hsame]
      exact hget
    · rw [if_neg hsame]
      by_cases hagree : (decide (kepoch = mapEpoch) && near k m) = true
      · rw [if_pos hagree]
        exact happly _ _ _ rfl rfl
      · rw [if_neg hagree]
        exact hget

theorem updatePlaneStability_ctx (c : CursorCal) (p : Pos) : (c.updatePlaneStability p).ctx = c.ctx := by
  unfold CursorCal.updatePlaneStability
  split <;> rfl

theorem onCursorPlane_newer (hget : Assoc.get s.cache id = some (v, g)) {scale : Int32 → Int32 → Int32 → Int32}
    {frame : Frame} (hlt : ∀ c, st.cal = some c → c.ctx.builtGen < g) :
    Assoc.get (s.onCursorPlane scale i st frame).cache id = some (v, g) := by
  unfold onCursorPlane
  split
  · rename_i c p hcal _
    dsimp only
    split
    · exact hget
    · split
      · exact hget
      · split
        · exact hget
        · refine onMeasurement_newer hget ?_
          dsimp only
          rw [updatePlaneStability_ctx]
          exact hlt c hcal
  · exact hget

/-- A stream leaves the entries alone that are of a newer generation than its own. -/
theorem Inv.step_newer (h : s.Inv) {scale : Int32 → Int32 → Int32 → Int32} {e : Event}
    (hstep : s.step scale e = some t) (hstream : e.stream? = some i) (hi : s.streams[i]? = some st)
    (hget : Assoc.get s.cache id = some (v, g)) (hlt : ∀ ctx, st.ctx = some ctx → ctx.builtGen < g) :
    Assoc.get t.cache id = some (v, g) := by
  unfold Calibration.step at hstep
  cases e with
  | openStream ctx display cursorEpoch => cases hstream
  | shape j shape =>
    obtain rfl := Option.some.inj hstream
    dsimp only at hstep
    rw [hi] at hstep
    dsimp only at hstep
    split at hstep
    · obtain rfl := Option.some.inj hstep
      exact hget
    · cases hstep
  | defer j =>
    obtain rfl := Option.some.inj hstream
    dsimp only at hstep
    rw [hi] at hstep
    dsimp only at hstep
    split at hstep
    · obtain rfl := Option.some.inj hstep
      exact hget
    · cases hstep
  | frame j frame =>
    obtain rfl := Option.some.inj hstream
    dsimp only at hstep
    rw [hi] at hstep
    dsimp only at hstep
    split at hstep
    · obtain rfl := Option.some.inj hstep
      exact onCursorPlane_newer hget fun c hc => hlt _ (h.cal j st c hi hc).ctx
    · cases hstep
  | restore j =>
    obtain rfl := Option.some.inj hstream
    dsimp only at hstep
    rw [hi] at hstep
    dsimp only at hstep
    split at hstep
    · rename_i owed howed
      obtain rfl := Option.some.inj hstep
      obtain ⟨-, ctx, hctx, hgen⟩ := h.owed j st owed hi howed
      exact CalCache.get_store_newer hget (hgen ▸ hlt ctx hctx)
    · cases hstep

end Newer

/-- Whatever is served in place of the wire's hotspot is for a shape that the producer guessed, and was
measured and confirmed by a stream of the serving stream's generation. The cache stays bounded, and no stream
touches what a newer generation keeps in it. -/
theorem hotspot_confirmed {scale : Int32 → Int32 → Int32 → Int32} {history : List (Calibration × Event)}
    (hx : Exec Init (fun s => s.step scale) history s) :
    (∀ e ∈ s.served, ∃ shape, e.shape = some shape ∧
      (e.hot ≠ shape.hot → shape.id ≠ HIDDEN_CURSOR_ID ∧ shape.hotMeasured = false ∧
        ∃ st ctx, s.streams[e.stream]? = some st ∧ st.ctx = some ctx ∧
          Confirmed s.measured shape.id ctx.builtGen e.hot)) ∧
      s.cache.length ≤ CURSOR_CAL_CACHE_CAP ∧
      ∀ e t i st, s.step scale e = some t → e.stream? = some i → s.streams[i]? = some st →
        ∀ id v g, Assoc.get s.cache id = some (v, g) → (∀ ctx, st.ctx = some ctx → ctx.builtGen < g) →
          Assoc.get t.cache id = some (v, g) := by
  have hinv := Inv.of_exec hx
  refine ⟨fun e he => ?_, hinv.cap, fun e t i st hstep hstream hi id v g hget hlt => ?_⟩
  · obtain ⟨shape, hshape, hhot⟩ := hinv.served e he
    refine ⟨shape, hshape, fun hcorrected => ?_⟩
    obtain ⟨hguess, hconfirmed⟩ := hhot.resolve_left hcorrected
    obtain ⟨hid, hmeasured⟩ := Bool.and_eq_true_iff.mp hguess
    exact ⟨of_decide_eq_true hid, Bool.not_eq_true' _ ▸ hmeasured, hconfirmed⟩
  · exact hinv.step_newer hstep hstream hi hget hlt

/-- An upright output, one to one. -/
def plainContext : CalContext :=
  ⟨(0, 0, 1920, 1080), (1920, 1080), 7⟩

/-- A frame with the plane here and a sample of the peer there. -/
def restingFrame (plane point : Pos) (seq : Nat) : Event :=
  .frame 0 ⟨some plane, some ⟨point, 400, seq, 7, 0⟩, false, 7, 7, 0⟩

/-- The plane rests twice, and the second measurement is one pixel off. -/
def restingEvents : List Event :=
  [.openStream (some plainContext) 0 1, .shape 0 ⟨42, 64, 64, (4, 4), false, [], 0⟩] ++
    List.replicate 4 (restingFrame (488, 288) (500, 300) 1) ++
    List.replicate 4 (restingFrame (587, 388) (600, 400) 2)

theorem restingEvents_run : (trace (fun s => s.step fun v _ _ => v) ({} : Calibration) restingEvents).isSome = true := by
  decide +kernel

def resting : Calibration :=
  ((trace (fun s => s.step fun v _ _ => v) ({} : Calibration) restingEvents).get restingEvents_run).2

theorem hotspot_confirmed_resting :
    resting.served.map Served.hot = [(12, 12), (4, 4)] ∧
      ∀ e ∈ resting.served, ∃ shape, e.shape = some shape ∧
        (e.hot ≠ shape.hot → shape.id ≠ HIDDEN_CURSOR_ID ∧ shape.hotMeasured = false ∧
          ∃ st ctx, resting.streams[e.stream]? = some st ∧ st.ctx = some ctx ∧
            Confirmed resting.measured shape.id ctx.builtGen e.hot) := by
  have hstart : Exec Init (fun s => s.step fun v _ _ => v) [] ({} : Calibration) := .start rfl
  have hx := hstart.trace (Option.some_get restingEvents_run).symm
  exact ⟨by decide +kernel, (hotspot_confirmed hx).1⟩

end Calibration

end FontisRemote.Drm
