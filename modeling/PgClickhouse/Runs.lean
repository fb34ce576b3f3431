import Mathlib.Logic.Relation

/-!
# Runs of a labelled transition system

The states a system reaches from its initial states, and the rule that carries an
invariant along a run.  Nothing here names a program.

* `Reachable.invariant`: what holds at the start and is preserved by every step taken
  from a reachable state holds in every reachable state.
* `Reachable.mono`: a system with fewer steps reaches fewer states.
-/

namespace Runs

variable {σ ε : Type*} {init : σ → Prop} {step step' : σ → ε → σ → Prop}

/-- The states reached from `init` by steps of `step`. -/
inductive Reachable (init : σ → Prop) (step : σ → ε → σ → Prop) : σ → Prop
  | start {s : σ} : init s → Reachable init step s
  | next {s t : σ} {e : ε} : Reachable init step s → step s e t → Reachable init step t

/-- The invariant rule. -/
theorem Reachable.invariant {I : σ → Prop} {s : σ} (reached : Reachable init step s)
    (base : ∀ {s}, init s → I s)
    (preserved : ∀ {s e t}, Reachable init step s → I s → step s e t → I t) : I s := by
  induction reached with
  | start h => exact base h
  | next before h ih => exact preserved before ih h

theorem Reachable.mono {s : σ} (reached : Reachable init step s)
    (fewer : ∀ {s e t}, step s e t → step' s e t) : Reachable init step' s := by
  induction reached with
  | start h => exact .start h
  | next _ h ih => exact .next ih (fewer h)

end Runs
