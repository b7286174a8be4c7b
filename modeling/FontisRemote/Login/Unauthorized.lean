import Mathlib.Data.List.Nodup
import FontisRemote.Lib.Run
import FontisRemote.Lib.Slots

/-!
# Connections that have not logged in yet

`admit_unauthorized` and `UnauthorizedID` of `connection.rs`. A connection takes a place before its
identity handshake and gives it back on drop, at authorization or when it ends. Where all places are
taken, the oldest connection is told to go and the newcomer is refused.

A guard and its entry in `UNAUTHORIZED_CONNS` share an `UnauthorizedShared` by an `Arc`, which is a place
in `shareds` here. The lock regions of `admit_unauthorized` and of the drop are one step each, in any
order.
-/

namespace FontisRemote.Login

open FontisRemote.Lib

def MAX_UNAUTHORIZED_CONNS : Nat := 64

def MAX_UNAUTHORIZED_CONNS_PER_ADDR : Nat := 16

structure UnauthorizedShared where
  evicted : Bool := false
  /-- `notify` holds a permit. -/
  permit : Bool := false
deriving DecidableEq, Repr

structure UnauthorizedID where
  id : Int
  shared : Nat
deriving DecidableEq, Repr

/-- An entry of `UNAUTHORIZED_CONNS`. -/
structure Held (Addr : Type) where
  id : Int
  ip : Addr
  shared : Nat
deriving DecidableEq, Repr

def Held.guard {Addr : Type} (held : Held Addr) : UnauthorizedID :=
  ⟨held.id, held.shared⟩

structure Admissions (Addr : Type) where
  /-- `UNAUTHORIZED_CONNS`. -/
  conns : List (Held Addr) := []
  shareds : List UnauthorizedShared := []
  /-- The guards that have not been dropped, in the order they were given out. -/
  guards : List UnauthorizedID := []
deriving DecidableEq, Repr

namespace Admissions

variable {Addr : Type} [DecidableEq Addr] (s : Admissions Addr)

/-- `is_evicted`. -/
def isEvicted (g : UnauthorizedID) : Bool :=
  s.shareds[g.shared]?.any fun shared => shared.evicted

/-- `evicted.swap(true)`, and `notify_one` where it was not set. -/
def tell (shared : Nat) : Admissions Addr :=
  { s with
    shareds := s.shareds.modify shared fun sh =>
      if sh.evicted then sh else { evicted := true, permit := true } }

def heldBy (ip : Addr) : Nat :=
  s.conns.countP fun held => decide (held.ip = ip)

def admitUnauthorized (id : Int) (ip : Addr) : Admissions Addr × Option UnauthorizedID :=
  if s.heldBy ip ≥ MAX_UNAUTHORIZED_CONNS_PER_ADDR then (s, none)
  else if s.conns.length ≥ MAX_UNAUTHORIZED_CONNS then
    match s.conns with
    | oldest :: _ => (s.tell oldest.shared, none)
    | [] => (s, none)
  else
    let shared := s.shareds.length
    ({ s with
        conns := s.conns ++ [⟨id, ip, shared⟩]
        shareds := s.shareds ++ [{}] },
      some ⟨id, shared⟩)

inductive Event (Addr : Type)
  | arrives (id : Int) (ip : Addr)
  | drop (g : UnauthorizedID)
  /-- A task that waits in `evicted` is woken. -/
  | notified (g : UnauthorizedID)

def step : Event Addr → Option (Admissions Addr)
  | .arrives id ip =>
    let admitted := s.admitUnauthorized id ip
    some { admitted.1 with guards := admitted.1.guards ++ admitted.2.toList }
  | .drop g =>
    if g ∈ s.guards then
      some { s with
        conns := s.conns.filter fun held => decide (held.id ≠ g.id)
        guards := s.guards.erase g }
    else none
  | .notified g =>
    if g ∈ s.guards ∧ s.shareds[g.shared]?.any fun shared => shared.permit then
      some { s with shareds := s.shareds.modify g.shared fun sh => { sh with permit := false } }
    else none

def Init (s : Admissions Addr) : Prop :=
  s = {}

/-- The ids that admission was asked for, newest first. -/
def asked : List (Admissions Addr × Event Addr) → List Int
  | [] => []
  | (_, .arrives id _) :: history => id :: asked history
  | _ :: history => asked history

/-- The guard of a connection that had been told to go is dropped. -/
def dropsEvicted : Admissions Addr × Event Addr → Bool
  | (s, .drop g) => s.isEvicted g
  | _ => false

/-! ## What an operation does to the flags -/

section Flags

omit [DecidableEq Addr]

variable {s} {g : UnauthorizedID}

theorem isEvicted_tell (hvalid : g.shared < s.shareds.length) (shared : Nat) :
    (s.tell shared).isEvicted g = (decide (g.shared = shared) || s.isEvicted g) := by
  unfold isEvicted tell
  dsimp only
  rw [List.getElem?_modify, List.getElem?_eq_getElem hvalid]
  by_cases h : g.shared = shared
  · subst h
    cases hflag : s.shareds[g.shared].evicted with
    | true => simp [hflag]
    | false => simp [hflag]
  · simp [h, Ne.symm h]

theorem isEvicted_concat (hvalid : g.shared < s.shareds.length) (conns : List (Held Addr))
    (guards : List UnauthorizedID) (sh : UnauthorizedShared) :
    (Admissions.mk conns (s.shareds ++ [sh]) guards).isEvicted g = s.isEvicted g := by
  unfold isEvicted
  dsimp only
  rw [List.getElem?_append_left hvalid]

theorem isEvicted_new (conns : List (Held Addr)) (guards : List UnauthorizedID) (id : Int) :
    (Admissions.mk conns (s.shareds ++ [UnauthorizedShared.mk false false]) guards).isEvicted
      ⟨id, s.shareds.length⟩ = false := by
  unfold isEvicted
  dsimp only
  rw [List.getElem?_concat_length]
  rfl

theorem isEvicted_notified (shared : Nat) (conns : List (Held Addr)) (guards : List UnauthorizedID) :
    (Admissions.mk conns (s.shareds.modify shared fun sh => { sh with permit := false }) guards).isEvicted g =
      s.isEvicted g := by
  unfold isEvicted
  dsimp only
  rw [List.getElem?_modify]
  cases s.shareds[g.shared]? with
  | none => rfl
  | some sh =>
    dsimp only [Option.map_eq_map, Option.map_some, Option.any_some]
    split <;> rfl

/-- How many connections have ever been told to go. -/
def everEvicted (s : Admissions Addr) : Nat :=
  s.shareds.countP fun shared => shared.evicted

theorem everEvicted_tell (hvalid : g.shared < s.shareds.length) :
    (s.tell g.shared).everEvicted = s.everEvicted + (!s.isEvicted g).toNat := by
  have hat : s.shareds[g.shared]? = some s.shareds[g.shared] := List.getElem?_eq_getElem hvalid
  have hset := countP_set_add
    (b := if s.shareds[g.shared].evicted then s.shareds[g.shared] else { evicted := true, permit := true })
    (fun shared => shared.evicted) hat
  unfold everEvicted tell isEvicted
  dsimp only
  rw [List.modify_eq_set_getElem? , hat]
  cases hflag : s.shareds[g.shared].evicted with
  | true => simp [hflag] at hset ⊢
  | false => simp [hflag] at hset ⊢; omega

end Flags

/-! ## Every run -/

/-- The registry is the list of the live guards, oldest first, within both limits, and only the oldest
has been told to go. -/
structure Inv (s : Admissions Addr) : Prop where
  registry : s.conns.map Held.guard = s.guards
  ordered : (s.guards.map fun g => g.shared).Pairwise (· < ·)
  valid : ∀ g ∈ s.guards, g.shared < s.shareds.length
  ids : (s.guards.map fun g => g.id).Nodup
  total : s.conns.length ≤ MAX_UNAUTHORIZED_CONNS
  share : ∀ ip, s.heldBy ip ≤ MAX_UNAUTHORIZED_CONNS_PER_ADDR
  oldest : ∀ g ∈ s.guards.tail, s.isEvicted g = false

variable {s}

/-- What one admission can do. -/
theorem admitUnauthorized_cases (id : Int) (ip : Addr) :
    s.admitUnauthorized id ip = (s, none) ∨
      (∃ oldest rest, s.conns = oldest :: rest ∧
        s.heldBy ip < MAX_UNAUTHORIZED_CONNS_PER_ADDR ∧
        s.admitUnauthorized id ip = (s.tell oldest.shared, none)) ∨
      (s.heldBy ip < MAX_UNAUTHORIZED_CONNS_PER_ADDR ∧ s.conns.length < MAX_UNAUTHORIZED_CONNS ∧
        s.admitUnauthorized id ip =
          ({ s with
              conns := s.conns ++ [⟨id, ip, s.shareds.length⟩]
              shareds := s.shareds ++ [{}] },
            some ⟨id, s.shareds.length⟩)) := by
  unfold admitUnauthorized
  by_cases hshare : s.heldBy ip ≥ MAX_UNAUTHORIZED_CONNS_PER_ADDR
  · rw [if_pos hshare]
    exact .inl rfl
  · rw [if_neg hshare]
    by_cases hfull : s.conns.length ≥ MAX_UNAUTHORIZED_CONNS
    · rw [if_pos hfull]
      cases hconns : s.conns with
      | nil => exact .inl rfl
      | cons oldest rest => exact .inr (.inl ⟨oldest, rest, rfl, Nat.not_le.mp hshare, rfl⟩)
    · rw [if_neg hfull]
      exact .inr (.inr ⟨Nat.not_le.mp hshare, Nat.not_le.mp hfull, rfl⟩)

theorem Inv.tell (h : s.Inv) {oldest : Held Addr} {rest : List (Held Addr)}
    (hconns : s.conns = oldest :: rest) : (s.tell oldest.shared).Inv := by
  refine ⟨h.registry, h.ordered, fun g hg => ?_, h.ids, h.total, h.share, fun g hg => ?_⟩
  · unfold Admissions.tell
    rw [List.length_modify]
    exact h.valid g hg
  · have hguards : s.guards = oldest.guard :: rest.map Held.guard := by
      rw [← h.registry, hconns]
      rfl
    have hg' : g ∈ s.guards.tail := hg
    have hlater : oldest.shared < g.shared := by
      have hordered := h.ordered
      rw [hguards, List.map_cons, List.pairwise_cons] at hordered
      rw [hguards] at hg'
      exact hordered.1 g.shared (List.mem_map_of_mem hg')
    rw [isEvicted_tell (h.valid g (List.mem_of_mem_tail hg')), h.oldest g hg']
    simp only [Bool.or_false, decide_eq_false_iff_not]
    omega

theorem Inv.admitted (h : s.Inv) {id : Int} {ip : Addr} (hnew : id ∉ s.guards.map fun g => g.id)
    (hshare : s.heldBy ip < MAX_UNAUTHORIZED_CONNS_PER_ADDR)
    (htotal : s.conns.length < MAX_UNAUTHORIZED_CONNS) :
    Inv { conns := s.conns ++ [⟨id, ip, s.shareds.length⟩]
          shareds := s.shareds ++ [{}]
          guards := s.guards ++ [⟨id, s.shareds.length⟩] } := by
  refine ⟨?_, ?_, fun g hg => ?_, ?_, ?_, fun other => ?_, fun g hg => ?_⟩
  · rw [List.map_append, h.registry]
    rfl
  · rw [List.map_append, List.pairwise_append]
    refine ⟨h.ordered, List.pairwise_singleton _ _, ?_⟩
    intro a ha b hb
    obtain ⟨g, hg, rfl⟩ := List.mem_map.mp ha
    obtain rfl := List.mem_singleton.mp hb
    exact h.valid g hg
  · rw [List.length_append, List.length_singleton]
    obtain hg | hg := List.mem_append.mp hg
    · have := h.valid g hg
      omega
    · obtain rfl := List.mem_singleton.mp hg
      exact Nat.lt_succ_self _
  · rw [List.map_append]
    refine List.nodup_append.mpr ⟨h.ids, List.nodup_singleton _, ?_⟩
    intro a ha b hb heq
    obtain rfl := List.mem_singleton.mp hb
    exact hnew (heq ▸ ha)
  · rw [List.length_append, List.length_singleton]
    exact htotal
  · have hold := h.share other
    unfold heldBy at hold hshare ⊢
    rw [List.countP_append, List.countP_singleton]
    by_cases hip : ip = other
    · subst hip
      simp only [decide_true, if_true]
      omega
    · simp only [hip, decide_false, Bool.false_eq_true, if_false]
      omega
  · cases hguards : s.guards with
    | nil =>
      rw [hguards] at hg
      cases hg
    | cons first rest =>
      rw [hguards] at hg
      obtain hg | hg := List.mem_append.mp (show g ∈ rest ++ [⟨id, s.shareds.length⟩] from hg)
      · rw [isEvicted_concat (h.valid g (by rw [hguards]; exact List.mem_cons_of_mem _ hg))]
        exact h.oldest g (by rw [hguards]; exact hg)
      · obtain rfl := List.mem_singleton.mp hg
        exact isEvicted_new _ _ _

/-- The entry that goes is the guard's own. -/
theorem Inv.dropped (h : s.Inv) {g : UnauthorizedID} (hg : g ∈ s.guards) :
    Inv { s with
      conns := s.conns.filter fun held => decide (held.id ≠ g.id)
      guards := s.guards.erase g } := by
  have hsub : (s.guards.erase g).Sublist s.guards := List.erase_sublist
  have hconns : (s.conns.filter fun held => decide (held.id ≠ g.id)).Sublist s.conns :=
    List.filter_sublist
  refine ⟨?_, h.ordered.sublist (hsub.map _), fun k hk => h.valid k (hsub.subset hk),
    h.ids.sublist (hsub.map _), hconns.length_le.trans h.total, fun ip => ?_, fun k hk => ?_⟩
  · -- ids are distinct, so erasing the guard and filtering by its id are the same
    have hguards : s.guards.erase g = s.guards.filter fun k => decide (k.id ≠ g.id) := by
      rw [(List.Nodup.of_map _ h.ids).erase_eq_filter]
      refine List.filter_congr fun k hk => ?_
      have hinj : k.id = g.id ↔ k = g :=
        ⟨fun heq => List.inj_on_of_nodup_map h.ids hk hg heq, fun heq => by rw [heq]⟩
      by_cases heq : k = g
      · simp [heq]
      · simp [heq, mt hinj.mp heq]
    rw [hguards, ← h.registry, List.filter_map]
    rfl
  · exact hconns.countP_le.trans (h.share ip)
  · have htail : k ∈ s.guards.tail := by
      cases hguards : s.guards with
      | nil =>
        rw [hguards] at hg
        cases hg
      | cons first rest =>
        rw [hguards] at hk
        by_cases hfirst : first = g
        · rw [hfirst, List.erase_cons_head] at hk
          exact List.mem_of_mem_tail hk
        · rw [List.erase_cons_tail (by simpa using hfirst)] at hk
          exact List.mem_of_mem_erase hk
    exact h.oldest k htail

theorem Inv.notified (h : s.Inv) (shared : Nat) :
    Inv { s with shareds := s.shareds.modify shared fun sh => { sh with permit := false } } := by
  refine ⟨h.registry, h.ordered, fun g hg => ?_, h.ids, h.total, h.share, fun g hg => ?_⟩
  · rw [List.length_modify]
    exact h.valid g hg
  · rw [isEvicted_notified]
    exact h.oldest g hg

theorem Inv.step (h : s.Inv) {e : Event Addr} {s' : Admissions Addr}
    (hnew : ∀ id ip, e = .arrives id ip → id ∉ s.guards.map fun g => g.id)
    (hstep : s.step e = some s') : s'.Inv := by
  cases e with
  | arrives id ip =>
    obtain rfl := Option.some.inj hstep
    obtain hnow | ⟨oldest, rest, hconns, -, hnow⟩ | ⟨hshare, htotal, hnow⟩ :=
      admitUnauthorized_cases (s := s) id ip
    · rw [hnow]
      dsimp only [Option.toList]
      rw [List.append_nil]
      exact h
    · rw [hnow]
      dsimp only [Option.toList]
      rw [List.append_nil]
      exact h.tell hconns
    · rw [hnow]
      exact h.admitted (hnew id ip rfl) hshare htotal
  | drop g =>
    unfold Admissions.step at hstep
    dsimp only at hstep
    split at hstep
    · rename_i hg
      obtain rfl := Option.some.inj hstep
      exact h.dropped hg
    · cases hstep
  | notified g =>
    unfold Admissions.step at hstep
    dsimp only at hstep
    split at hstep
    · obtain rfl := Option.some.inj hstep
      exact h.notified g.shared
    · cases hstep

/-- The live connections that have been told to go. -/
def onTheirWay (s : Admissions Addr) : Nat :=
  s.guards.countP s.isEvicted

theorem Inv.onTheirWay_le (h : s.Inv) : s.onTheirWay ≤ 1 := by
  unfold onTheirWay
  cases hguards : s.guards with
  | nil => exact Nat.zero_le _
  | cons first rest =>
    have hrest : rest.countP s.isEvicted = 0 := by
      refine List.countP_eq_zero.mpr fun g hg => ?_
      rw [h.oldest g (by rw [hguards]; exact hg)]
      exact Bool.false_ne_true
    rw [List.countP_cons, hrest]
    split <;> omega

theorem Inv.onTheirWay_tell (h : s.Inv) {oldest : Held Addr} {rest : List (Held Addr)}
    (hconns : s.conns = oldest :: rest) :
    (s.tell oldest.shared).onTheirWay = s.onTheirWay + (!s.isEvicted oldest.guard).toNat := by
  have hguards : s.guards = oldest.guard :: rest.map Held.guard := by
    rw [← h.registry, hconns]
    rfl
  have hold : ∀ g ∈ rest.map Held.guard, (s.tell oldest.shared).isEvicted g = s.isEvicted g := by
    intro g hg
    have hafter := (h.tell hconns).oldest g (by rw [show (s.tell oldest.shared).guards = s.guards from rfl, hguards]; exact hg)
    rw [hafter, h.oldest g (by rw [hguards]; exact hg)]
  have hfirst : (s.tell oldest.shared).isEvicted oldest.guard = true := by
    rw [isEvicted_tell (h.valid _ (by rw [hguards]; exact List.mem_cons_self ..))]
    simp [Held.guard]
  unfold onTheirWay
  rw [show (s.tell oldest.shared).guards = s.guards from rfl, hguards, List.countP_cons, List.countP_cons,
    List.countP_congr fun g hg => by rw [hold g hg], hfirst]
  cases s.isEvicted oldest.guard <;> simp

/-- Each connection that was ever told to go is still there or has been dropped since. -/
theorem Inv.everEvicted_step (h : s.Inv) {e : Event Addr} {s' : Admissions Addr}
    (hstep : s.step e = some s') (n : Nat) (hn : s.everEvicted = n + s.onTheirWay) :
    s'.everEvicted = n + (dropsEvicted (s, e)).toNat + s'.onTheirWay := by
  cases e with
  | arrives id ip =>
    obtain rfl := Option.some.inj hstep
    obtain hnow | ⟨oldest, rest, hconns, -, hnow⟩ | ⟨-, -, hnow⟩ :=
      admitUnauthorized_cases (s := s) id ip
    · rw [hnow]
      dsimp only [Option.toList]
      rw [List.append_nil]
      exact hn
    · rw [hnow]
      dsimp only [Option.toList]
      rw [List.append_nil]
      have hvalid : oldest.guard.shared < s.shareds.length := by
        refine h.valid _ ?_
        rw [← h.registry, hconns]
        exact List.mem_cons_self ..
      have hever := everEvicted_tell hvalid
      have hlive := h.onTheirWay_tell hconns
      calc (s.tell oldest.shared).everEvicted
          = s.everEvicted + (!s.isEvicted oldest.guard).toNat := hever
        _ = n + (s.onTheirWay + (!s.isEvicted oldest.guard).toNat) := by rw [hn, Nat.add_assoc]
        _ = n + 0 + (s.tell oldest.shared).onTheirWay := by rw [hlive, Nat.add_zero]
    · rw [hnow]
      have hlive : onTheirWay
          { conns := s.conns ++ [⟨id, ip, s.shareds.length⟩]
            shareds := s.shareds ++ [UnauthorizedShared.mk false false]
            guards := s.guards ++ [⟨id, s.shareds.length⟩] } = s.onTheirWay := by
        unfold onTheirWay
        rw [List.countP_append, List.countP_singleton, isEvicted_new,
          List.countP_congr fun g hg => by rw [isEvicted_concat (h.valid g hg)]]
        rfl
      have hever : (s.shareds ++ [UnauthorizedShared.mk false false]).countP (fun sh => sh.evicted) =
          s.everEvicted := by
        rw [List.countP_append]
        rfl
      calc (s.shareds ++ [UnauthorizedShared.mk false false]).countP (fun sh => sh.evicted)
          = n + s.onTheirWay := hever.trans hn
        _ = n + 0 + _ := by rw [← hlive, Nat.add_zero]; rfl
  | drop g =>
    unfold Admissions.step at hstep
    dsimp only at hstep
    split at hstep
    · rename_i hg
      obtain rfl := Option.some.inj hstep
      have hlive : s.onTheirWay = (s.guards.erase g).countP s.isEvicted + (s.isEvicted g).toNat := by
        unfold onTheirWay
        rw [(List.perm_cons_erase hg).countP_eq, List.countP_cons]
        cases s.isEvicted g <;> rfl
      calc s.everEvicted = n + ((s.guards.erase g).countP s.isEvicted + (s.isEvicted g).toNat) := by
            rw [hn, hlive]
        _ = n + (s.isEvicted g).toNat + (s.guards.erase g).countP s.isEvicted := by omega
    · cases hstep
  | notified g =>
    unfold Admissions.step at hstep
    dsimp only at hstep
    split at hstep
    · obtain rfl := Option.some.inj hstep
      have hlive : onTheirWay
          { s with shareds := s.shareds.modify g.shared fun sh => { sh with permit := false } } =
            s.onTheirWay := by
        unfold onTheirWay
        exact List.countP_congr fun k _ => by rw [isEvicted_notified]
      have hever : everEvicted
          { s with shareds := s.shareds.modify g.shared fun sh => { sh with permit := false } } =
            s.everEvicted := countP_modify fun _ => rfl
      rw [hever, hlive, hn]
      rfl
    · cases hstep

theorem asked_of_guard {history : List (Admissions Addr × Event Addr)}
    (hx : Exec Init step history s) : ∀ g ∈ s.guards, g.id ∈ asked history := by
  refine hx.induct (I := fun history s => ∀ g ∈ s.guards, g.id ∈ asked history) ?_ ?_
  · rintro s rfl g hg
    cases hg
  · intro history s e s' _ hasked hstep g hg
    cases e with
    | arrives id ip =>
      obtain rfl := Option.some.inj hstep
      obtain hnow | ⟨oldest, rest, hconns, -, hnow⟩ | ⟨-, -, hnow⟩ :=
        admitUnauthorized_cases (s := s) id ip
      · rw [hnow] at hg
        exact List.mem_cons_of_mem _ (hasked g (by simpa using hg))
      · rw [hnow] at hg
        exact List.mem_cons_of_mem _ (hasked g (by simpa [Admissions.tell] using hg))
      · rw [hnow] at hg
        obtain hg | hg := List.mem_append.mp hg
        · exact List.mem_cons_of_mem _ (hasked g hg)
        · obtain rfl := List.mem_singleton.mp hg
          exact List.mem_cons_self ..
    | drop k =>
      unfold Admissions.step at hstep
      dsimp only at hstep
      split at hstep
      · obtain rfl := Option.some.inj hstep
        exact hasked g (List.mem_of_mem_erase hg)
      · cases hstep
    | notified k =>
      unfold Admissions.step at hstep
      dsimp only at hstep
      split at hstep
      · obtain rfl := Option.some.inj hstep
        exact hasked g hg
      · cases hstep

theorem inv_of_exec {history : List (Admissions Addr × Event Addr)} (hx : Exec Init step history s)
    (hids : (asked history).Nodup) :
    s.Inv ∧ s.everEvicted = history.countP dropsEvicted + s.onTheirWay := by
  induction hx with
  | start hinit =>
    obtain rfl := hinit
    refine ⟨⟨rfl, List.Pairwise.nil, fun g hg => ?_, List.nodup_nil, Nat.zero_le _,
      fun _ => Nat.zero_le _, fun g hg => ?_⟩, rfl⟩
    · cases hg
    · cases hg
  | @snoc history s s' e hx hstep ih =>
    have hsub : (asked history).Nodup ∧ ∀ id ip, e = .arrives id ip → id ∉ asked history := by
      cases e with
      | arrives id ip =>
        obtain ⟨hnot, hnodup⟩ := List.nodup_cons.mp hids
        refine ⟨hnodup, ?_⟩
        rintro _ _ ⟨⟩
        exact hnot
      | drop g => exact ⟨hids, fun _ _ h => nomatch h⟩
      | notified g => exact ⟨hids, fun _ _ h => nomatch h⟩
    obtain ⟨hinv, hcount⟩ := ih hsub.1
    have hnew : ∀ id ip, e = .arrives id ip → id ∉ s.guards.map fun g => g.id := by
      intro id ip he hmem
      obtain ⟨g, hg, rfl⟩ := List.mem_map.mp hmem
      exact hsub.2 _ ip he (asked_of_guard hx g hg)
    refine ⟨hinv.step hnew hstep, ?_⟩
    rw [hinv.everEvicted_step hstep _ hcount, List.countP_cons]
    cases dropsEvicted (s, e) <;> simp

/-- Whatever the order of admissions, drops and notices: the registry holds the live guards, oldest
first, within both limits; one live guard at most has been told to go, the oldest; a refusal for the
share of an address changes nothing; and no more connections have been told to go than have gone since,
and one. -/
theorem admission_bounded {history : List (Admissions Addr × Event Addr)}
    (hx : Exec Init step history s) (hids : (asked history).Nodup) :
    (s.conns.map Held.guard = s.guards ∧ (s.guards.map fun g => g.shared).Pairwise (· < ·)) ∧
      s.conns.length ≤ MAX_UNAUTHORIZED_CONNS ∧
      (∀ ip, s.heldBy ip ≤ MAX_UNAUTHORIZED_CONNS_PER_ADDR) ∧
      (∀ g ∈ s.guards, s.isEvicted g = true → s.guards.head? = some g) ∧
      s.guards.countP s.isEvicted ≤ 1 ∧
      (∀ id ip, MAX_UNAUTHORIZED_CONNS_PER_ADDR ≤ s.heldBy ip → s.admitUnauthorized id ip = (s, none)) ∧
      s.everEvicted ≤ 1 + history.countP dropsEvicted := by
  obtain ⟨hinv, hcount⟩ := inv_of_exec hx hids
  refine ⟨⟨hinv.registry, hinv.ordered⟩, hinv.total, hinv.share, fun g hg hevicted => ?_,
    hinv.onTheirWay_le, fun id ip hshare => ?_, ?_⟩
  · cases hguards : s.guards with
    | nil =>
      rw [hguards] at hg
      cases hg
    | cons first rest =>
      rw [hguards] at hg
      obtain rfl | hg := List.mem_cons.mp hg
      · rfl
      · rw [hinv.oldest g (by rw [hguards]; exact hg)] at hevicted
        cases hevicted
  · unfold admitUnauthorized
    rw [if_pos hshare]
  · have := hinv.onTheirWay_le
    omega

/-- As many connections as there are places, one more, the oldest goes, and one more. -/
def flood : List (Event Nat) :=
  (List.range 65).map (fun i => .arrives i i) ++ [.drop ⟨0, 0⟩, .arrives 65 65]

theorem flood_runs : (trace step ({} : Admissions Nat) flood).isSome = true := by
  decide +kernel

theorem admission_bounded_flood :
    ∃ (history : List (Admissions Nat × Event Nat)) (s : Admissions Nat), Exec Init step history s ∧
      s.conns.length = MAX_UNAUTHORIZED_CONNS ∧ s.everEvicted = 1 ∧
      s.everEvicted ≤ 1 + history.countP dropsEvicted := by
  have hstart : Exec Init step [] ({} : Admissions Nat) := .start rfl
  have hrun := hstart.trace (Option.some_get flood_runs).symm
  rw [List.append_nil] at hrun
  refine ⟨_, _, hrun, by decide +kernel, by decide +kernel, ?_⟩
  obtain ⟨-, -, -, -, -, -, hbound⟩ := admission_bounded hrun (by decide +kernel)
  exact hbound

end Admissions

end FontisRemote.Login
