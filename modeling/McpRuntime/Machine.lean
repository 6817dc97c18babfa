import Mathlib.Logic.Function.Basic
import Mathlib.Order.Basic

/-!
# Machines and their runs

A *machine* is a state with an initial value and a partial step: at a state, an
event either is not enabled or leads to exactly one state. All nondeterminism
is in the events, so that a step can be evaluated.

* `Machine.Run G h s`: a run reaches `s` with the history `h` (the last event
  first), and every step of it meets the guard `G`, a condition on the state
  before the step and on the event. A run whose steps meet no condition is a
  run for the guard `Free`.
* `Run.invariant`: what holds initially and is preserved by the guarded steps
  holds at the end of every guarded run; `Run.history_invariant` lets the
  invariant speak about the history as well.
* `Machine.exec` evaluates a list of events; where the evaluation meets the
  guard (`Machine.Meets`), `run_of_exec` makes a guarded run of it.
-/

namespace McpRuntime

/-- A machine with the states `σ` and the events `ε`. -/
structure Machine (σ ε : Type*) where
  /-- The initial state. -/
  init : σ
  /-- The state after an event, if the event is enabled. -/
  step : σ → ε → Option σ

namespace Machine

variable {σ ε : Type*}

/-- The guard met by every step. -/
def Free (_ : σ) (_ : ε) : Prop := True

variable (m : Machine σ ε)

/-- A run with the history `h` (the last event first) to the state `s`, whose
    steps all meet the guard `G`. -/
inductive Run (G : σ → ε → Prop) : List ε → σ → Prop
  | init : Run G [] m.init
  | step {h : List ε} {s s' : σ} {e : ε} :
      Run G h s → G s e → m.step s e = some s' → Run G (e :: h) s'

/-- The state after the events `es` in turn, if all of them are enabled. -/
def exec (s : σ) : List ε → Option σ
  | [] => some s
  | e :: es => (m.step s e).bind fun s' => exec s' es

/-- The evaluation of events that follow others. -/
theorem exec_append (s : σ) (es es' : List ε) :
    m.exec s (es ++ es') = (m.exec s es).bind fun s' => m.exec s' es' := by
  induction es generalizing s with
  | nil => rfl
  | cons e es ih =>
    rw [List.cons_append, exec, exec, Option.bind_assoc]
    exact congrArg _ (funext fun s' => ih s')

variable {m} {G G' : σ → ε → Prop}

/-- What holds initially, and is preserved by the guarded steps, holds at the
    end of a guarded run; it may speak about the history. -/
theorem Run.history_invariant {I : List ε → σ → Prop} (init : I [] m.init)
    (step : ∀ h s e s', I h s → G s e → m.step s e = some s' → I (e :: h) s')
    {h : List ε} {s : σ} (hr : m.Run G h s) : I h s := by
  induction hr with
  | init => exact init
  | step _ hg hs ih => exact step _ _ _ _ ih hg hs

/-- What holds initially, and is preserved by the guarded steps, holds at the
    end of a guarded run. -/
theorem Run.invariant {I : σ → Prop} (init : I m.init)
    (step : ∀ s e s', I s → G s e → m.step s e = some s' → I s')
    {h : List ε} {s : σ} (hr : m.Run G h s) : I s :=
  hr.history_invariant (I := fun _ => I) init fun _ => step

/-- A run meets a guard that each of its events meets, in the state and after the
    history before it. -/
theorem Run.strengthen {h : List ε} {s : σ} (hr : m.Run G h s)
    (hG : ∀ h' s' e, e :: h' <:+ h → m.Run G h' s' → G' s' e) : m.Run G' h s := by
  induction hr with
  | init => exact .init
  | @step h s s' e hr _ hs ih =>
    refine .step (ih fun h' s' e' hsuffix hr' => ?_) (hG h s e (List.suffix_refl _) hr) hs
    exact hG h' s' e' (hsuffix.trans (List.suffix_cons e h)) hr'

/-! ## Evaluation -/

/-- Every step of the evaluation of `es` from `s` meets the guard `G`. -/
def Meets (m : Machine σ ε) (G : σ → ε → Prop) (s : σ) : List ε → Prop
  | [] => True
  | e :: es => G s e ∧ ∀ s' ∈ m.step s e, m.Meets G s' es

instance Meets.decidable [∀ s e, Decidable (G s e)] :
    ∀ (s : σ) (es : List ε), Decidable (m.Meets G s es)
  | _, [] => .isTrue trivial
  | s, e :: es =>
    haveI : ∀ s', Decidable (m.Meets G s' es) := fun s' => Meets.decidable s' es
    inferInstanceAs (Decidable (G s e ∧ ∀ s' ∈ m.step s e, m.Meets G s' es))

/-- Every evaluation meets the guard `Free`. -/
theorem meets_free (s : σ) (es : List ε) : m.Meets Free s es := by
  induction es generalizing s with
  | nil => trivial
  | cons e es ih => exact ⟨trivial, fun s' _ => ih s'⟩

/-- An evaluation whose steps meet the guard extends a guarded run. -/
theorem Run.exec {h : List ε} {s : σ} (hr : m.Run G h s) {es : List ε} {s' : σ}
    (he : m.exec s es = some s') (hG : m.Meets G s es) : m.Run G (es.reverse ++ h) s' := by
  induction es generalizing h s with
  | nil =>
    rw [Machine.exec, Option.some.injEq] at he
    exact he ▸ hr
  | cons e es ih =>
    rw [Machine.exec, Option.bind_eq_some_iff] at he
    obtain ⟨t, ht, he⟩ := he
    rw [List.reverse_cons, List.append_assoc]
    exact ih (.step hr hG.1 ht) he (hG.2 t ht)

/-- An evaluation from the initial state whose steps meet the guard is a
    guarded run. -/
theorem run_of_exec {es : List ε} {s : σ} (he : m.exec m.init es = some s)
    (hG : m.Meets G m.init es) : m.Run G es.reverse s := by
  have := Run.exec .init he hG
  rwa [List.append_nil] at this

end Machine

end McpRuntime
