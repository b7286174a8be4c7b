import Mathlib.Algebra.Order.Ring.Int
import Mathlib.Data.List.Basic

/-!
# Two runs that one party cannot tell apart

A total step function, and the part of the state that one party depends on. Events of other parties keep
that part, and the party's own act on it alone. What the party observes after each event of its own is
then a function of that part and of these events (`observations_eq`), so two runs with the same events of
that party give the same observations, whatever else happens in them.
-/

namespace FontisRemote.Lib

universe u v w x

variable {σ : Type u} {ε : Type v} {ω : Type w} {τ : Type x}

/-- The states of a run, the first and the last one included. -/
def states (step : σ → ε → σ) (s : σ) : List ε → List σ
  | [] => [s]
  | e :: es => s :: states step (step s e) es

/-- What is observed after each event of the party. -/
def observations (step : σ → ε → σ) (own : ε → Bool) (observe : σ → ω) (s : σ) : List ε → List ω
  | [] => []
  | e :: es =>
    if own e then observe (step s e) :: observations step own observe (step s e) es
    else observations step own observe (step s e) es

/-- The run of the party by itself. -/
def alone (solo : τ → ε → τ) (look : τ → ω) (t : τ) : List ε → List ω
  | [] => []
  | e :: es => look (solo t e) :: alone solo look (solo t e) es

variable {step : σ → ε → σ} {own : ε → Bool} {observe : σ → ω}
  {solo : τ → ε → τ} {look : τ → ω} {P : σ → Prop}

theorem observations_eq (view : σ → τ)
    (hframe : ∀ s e, own e = false → view (step s e) = view s)
    (hlocal : ∀ s e, P s → own e = true → view (step s e) = solo (view s) e)
    (hlook : ∀ s, observe s = look (view s)) {s : σ} {es : List ε} (hP : ∀ t ∈ states step s es, P t) :
    observations step own observe s es = alone solo look (view s) (es.filter own) := by
  induction es generalizing s with
  | nil => rfl
  | cons e es ih =>
    have hhere : P s := hP s (List.mem_cons_self ..)
    have hrest := ih fun t ht => hP t (List.mem_cons_of_mem _ ht)
    unfold observations
    cases howner : own e with
    | false =>
      rw [List.filter_cons_of_neg (by rw [howner]; exact Bool.false_ne_true)]
      rw [hframe s e howner] at hrest
      simpa using hrest
    | true =>
      rw [List.filter_cons_of_pos howner]
      rw [hlocal s e hhere howner] at hrest
      unfold alone
      rw [if_pos rfl, hrest, hlook, hlocal s e hhere howner]

end FontisRemote.Lib
