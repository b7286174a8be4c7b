import Mathlib.Algebra.Order.Ring.Int
import Mathlib.Data.Set.Basic
import Mathlib.Data.List.Basic

/-!
# Runs of a partial step function

A system is a set of initial states and a step function that takes an event and either refuses it
(`none`) or returns the next state. `Exec` keeps the whole history of a run, newest step first,
each step with the state it was taken in, so that a statement about a run can speak of what was
received before and of what held when it was received. `Reachable` forgets the history.

The induction rules are stated once here: an invariant of every step holds in every state reached
(`Exec.invariant`), and an invariant that also reads the history is carried along with it
(`Exec.induct`). A step of the history starts in a state the run reached (`Exec.past`,
`Exec.mem`).
-/

namespace FontisRemote.Lib

universe u v

variable {σ : Type u} {ε : Type v}

/-- A run from an initial state, with the steps taken (newest first) and the state reached. -/
inductive Exec (init : σ → Prop) (step : σ → ε → Option σ) : List (σ × ε) → σ → Prop
  | start {s : σ} : init s → Exec init step [] s
  | snoc {h : List (σ × ε)} {s s' : σ} {e : ε} :
      Exec init step h s → step s e = some s' → Exec init step ((s, e) :: h) s'

/-- Some run ends in this state. -/
def Reachable (init : σ → Prop) (step : σ → ε → Option σ) (s : σ) : Prop :=
  ∃ h, Exec init step h s

/-- Feed a list of events to the step function, oldest first. -/
def runs (step : σ → ε → Option σ) : σ → List ε → Option σ
  | s, [] => some s
  | s, e :: es => (step s e).bind fun s' => runs step s' es

/-- The history and the end of a list of events, newest step first. -/
def trace (step : σ → ε → Option σ) : σ → List ε → Option (List (σ × ε) × σ)
  | s, [] => some ([], s)
  | s, e :: es => (step s e).bind fun s' =>
      (trace step s' es).map fun r => (r.1 ++ [(s, e)], r.2)

section Rules

variable {init : σ → Prop} {step : σ → ε → Option σ}

/-- An invariant that reads the history. -/
theorem Exec.induct {I : List (σ × ε) → σ → Prop} (h0 : ∀ s, init s → I [] s)
    (hs : ∀ h s e s', Exec init step h s → I h s → step s e = some s' → I ((s, e) :: h) s') :
    ∀ {h s}, Exec init step h s → I h s := by
  intro h s hx
  induction hx with
  | start hi => exact h0 _ hi
  | snoc hx hstep ih => exact hs _ _ _ _ hx ih hstep

/-- An invariant of every step holds in every state a run reaches. -/
theorem Exec.invariant {I : σ → Prop} (h0 : ∀ s, init s → I s)
    (hs : ∀ s e s', I s → step s e = some s' → I s') {h : List (σ × ε)} {s : σ}
    (hx : Exec init step h s) : I s :=
  hx.induct (I := fun _ s => I s) h0 fun _ _ _ _ _ hi hstep => hs _ _ _ hi hstep

/-- The invariant may use a condition that every step of the run meets. -/
theorem Exec.invariant_of {I : σ → Prop} {G : σ → ε → Prop} (h0 : ∀ s, init s → I s)
    (hs : ∀ s e s', I s → G s e → step s e = some s' → I s') {h : List (σ × ε)} {s : σ}
    (hx : Exec init step h s) (hG : ∀ p ∈ h, G p.1 p.2) : I s := by
  induction hx with
  | start hi => exact h0 _ hi
  | snoc hx hstep ih =>
    have hhead : G _ _ := hG _ (List.mem_cons_self ..)
    exact hs _ _ _ (ih fun p hp => hG p (List.mem_cons_of_mem _ hp)) hhead hstep

/-- Every state passed through in a run is itself reached, by the older part of the history. -/
theorem Exec.past {h : List (σ × ε)} {s : σ} (hx : Exec init step h s) :
    ∀ {p : σ × ε} {newer older : List (σ × ε)}, h = newer ++ p :: older →
      Exec init step older p.1 ∧ (step p.1 p.2).isSome := by
  induction hx with
  | start _ =>
    intro p newer older hh
    cases newer <;> cases hh
  | snoc hx hstep ih =>
    intro p newer older hh
    cases newer with
    | nil =>
      simp only [List.nil_append, List.cons.injEq] at hh
      obtain ⟨rfl, rfl⟩ := hh
      exact ⟨hx, by rw [hstep]; rfl⟩
    | cons q newer =>
      simp only [List.cons_append, List.cons.injEq] at hh
      exact ih hh.2

/-- A step of the history was taken in a state that the steps before it reach. -/
theorem Exec.mem {h : List (σ × ε)} {s : σ} (hx : Exec init step h s) {p : σ × ε} (hp : p ∈ h) :
    ∃ older, Exec init step older p.1 ∧ (step p.1 p.2).isSome := by
  obtain ⟨newer, older, hh⟩ := List.append_of_mem hp
  exact ⟨older, hx.past hh⟩

/-- A run extended by a list of events. -/
theorem Exec.append {h : List (σ × ε)} {s : σ} (hx : Exec init step h s) :
    ∀ {es : List ε} {s' : σ}, runs step s es = some s' → ∃ h', Exec init step h' s' := by
  intro es
  induction es generalizing h s with
  | nil =>
    intro s' hr
    cases hr
    exact ⟨h, hx⟩
  | cons e es ih =>
    intro s' hr
    obtain ⟨t, ht, hr⟩ := Option.bind_eq_some_iff.1 hr
    exact ih (hx.snoc ht) hr

/-- A run extended by a list of events, with its history. -/
theorem Exec.trace {es : List ε} {h : List (σ × ε)} {s : σ} {r : List (σ × ε) × σ}
    (hx : Exec init step h s) (hr : trace step s es = some r) :
    Exec init step (r.1 ++ h) r.2 := by
  induction es generalizing h s r with
  | nil =>
    cases hr
    exact hx
  | cons e es ih =>
    obtain ⟨s', hs', hr⟩ := Option.bind_eq_some_iff.1 hr
    obtain ⟨q, hq, rfl⟩ := Option.map_eq_some_iff.1 hr
    have := ih (hx.snoc hs') hq
    simpa using this

/-- The history of a list of events has these events. -/
theorem trace_events {step : σ → ε → Option σ} {es : List ε} {s : σ} {r : List (σ × ε) × σ}
    (hr : Lib.trace step s es = some r) : ∀ p ∈ r.1, p.2 ∈ es := by
  induction es generalizing s r with
  | nil =>
    cases hr
    intro p hp
    cases hp
  | cons e es ih =>
    obtain ⟨s', -, hr⟩ := Option.bind_eq_some_iff.1 hr
    obtain ⟨q, hq, rfl⟩ := Option.map_eq_some_iff.1 hr
    intro p hp
    rcases List.mem_append.1 hp with hp | hp
    · exact List.mem_cons_of_mem _ (ih hq p hp)
    · rw [List.mem_singleton.1 hp]
      exact List.mem_cons_self ..

theorem Reachable.append {s s' : σ} {es : List ε} (hx : Reachable init step s)
    (hr : runs step s es = some s') : Reachable init step s' := by
  obtain ⟨h, hx⟩ := hx
  exact hx.append hr

theorem Reachable.invariant {I : σ → Prop} (h0 : ∀ s, init s → I s)
    (hs : ∀ s e s', I s → step s e = some s' → I s') {s : σ} (hx : Reachable init step s) : I s := by
  obtain ⟨h, hx⟩ := hx
  exact hx.invariant h0 hs

/-- An invariant of every step holds wherever a list of events leads. -/
theorem runs_invariant {I : σ → Prop} {G : ε → Prop} (hs : ∀ s e s', I s → G e → step s e = some s' → I s')
    {es : List ε} : ∀ {s s' : σ}, I s → (∀ e ∈ es, G e) → runs step s es = some s' → I s' := by
  induction es with
  | nil =>
    intro s s' hi hG hr
    cases hr
    exact hi
  | cons e es ih =>
    intro s s' hi hG hr
    obtain ⟨t, ht, hr⟩ := Option.bind_eq_some_iff.1 hr
    have he : G e := hG e (List.mem_cons_self ..)
    exact ih (hs s e t hi he ht) (fun d hd => hG d (List.mem_cons_of_mem _ hd)) hr

end Rules

end FontisRemote.Lib
