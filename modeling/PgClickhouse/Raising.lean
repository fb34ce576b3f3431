import Mathlib.Tactic.Common

/-!
# Programs that raise

Pre- and postconditions for programs with a state that survives an error: what holds when a
program returns, and what holds of the state it leaves behind when it raises.  Nothing here
names a program.

* `Triple.bind`: programs one after the other, with one postcondition for errors
* `Triple.tryCatch`: a handler starts in the state the error leaves behind
* `Triple.imp`: a stronger precondition, weaker postconditions
-/

namespace Raising

variable {ε σ α β : Type}

/-- Started in a state with `P`, the program returns a value and a state with `Q`, or raises
and leaves a state with `R`. -/
def Triple (P : σ → Prop) (x : EStateM ε σ α) (Q : α → σ → Prop) (R : σ → Prop) : Prop :=
  ∀ s, P s → match x s with
    | .ok a s' => Q a s'
    | .error _ s' => R s'

variable {P P' : σ → Prop} {x : EStateM ε σ α} {Q Q' : α → σ → Prop} {R R' : σ → Prop}

theorem Triple.imp (triple : Triple P x Q R) (pre : ∀ s, P' s → P s)
    (post : ∀ a s, Q a s → Q' a s) (raised : ∀ s, R s → R' s) : Triple P' x Q' R' := by
  intro s holds
  have done := triple s (pre s holds)
  split at done
  · exact post _ _ done
  · exact raised _ done

theorem Triple.pure {a : α} (post : ∀ s, P s → Q a s) :
    Triple P (Pure.pure a : EStateM ε σ α) Q R :=
  post

theorem Triple.bind {f : α → EStateM ε σ β} {M : α → σ → Prop} {Q : β → σ → Prop}
    (first : Triple P x M R) (next : ∀ a, Triple (M a) (f a) Q R) : Triple P (x >>= f) Q R := by
  intro s holds
  have done := first s holds
  change match EStateM.bind x f s with
    | .ok a s' => Q a s'
    | .error _ s' => R s'
  unfold EStateM.bind
  split at done
  · rename_i a s' equal
    rw [equal]
    exact next a s' done
  · rename_i equal
    rw [equal]
    exact done

theorem Triple.modify {f : σ → σ} {Q : Unit → σ → Prop} (post : ∀ s, P s → Q () (f s)) :
    Triple P (modify f : EStateM ε σ Unit) Q R :=
  post

theorem Triple.throw {e : ε} (raised : ∀ s, P s → R s) :
    Triple P (throw e : EStateM ε σ α) Q R :=
  raised

theorem Triple.get {Q : σ → σ → Prop} (post : ∀ s, P s → Q s s) :
    Triple P (get : EStateM ε σ σ) Q R :=
  post

/-- The handler starts in the state that the error leaves. -/
theorem Triple.tryCatch {handler : ε → EStateM ε σ α} (body : Triple P x Q R')
    (handled : ∀ e, Triple R' (handler e) Q R) : Triple P (tryCatch x handler) Q R := by
  intro s holds
  have done := body s holds
  change match EStateM.tryCatch x handler s with
    | .ok a s' => Q a s'
    | .error _ s' => R s'
  unfold EStateM.tryCatch
  split at done
  · rename_i equal
    rw [equal]
    exact done
  · rename_i e s' equal
    rw [equal]
    exact handled e s' done

theorem Triple.ite {c : Prop} [Decidable c] {y : EStateM ε σ α}
    (yes : c → Triple P x Q R) (no : ¬ c → Triple P y Q R) :
    Triple P (if c then x else y) Q R := by
  split
  · rename_i holds
    exact yes holds
  · rename_i fails
    exact no fails

/-- A fact that does not depend on the state. -/
theorem Triple.of_fact {p : Prop} (triple : p → Triple P x Q R) :
    Triple (fun s => p ∧ P s) x Q R :=
  fun s holds => triple holds.1 s holds.2

theorem Triple.of_exists {ι : Type} {P : ι → σ → Prop} (triple : ∀ i, Triple (P i) x Q R) :
    Triple (fun s => ∃ i, P i s) x Q R :=
  fun s ⟨i, holds⟩ => triple i s holds

end Raising
