import Mathlib.Algebra.Order.Ring.Int
import Mathlib.Logic.Function.Basic

/-!
# Caches whose entries expire

A source is read under keys, a reading may fail, and all readings may be forgotten.  A cache
keeps some of the readings, each with the time it was made, and may serve one for as long as
it is not older than the time to live.  Nothing here names a program.

* `Agrees`: what the cache holds for a key is the last reading of this key.
* `Complete`: a cache that drops only what expired holds everything that has not, as long as
  the horizon, which is the time to live before now, does not move back.
* `served_eq`: both together make the cache serve exactly the last readings.
-/

namespace Expiring

variable {κ ν : Type*} [DecidableEq κ]

/-- What happens to the readings, the newest first in a history. -/
inductive Event (κ ν : Type*)
  | read (k : κ) (v : ν) (time : ℤ)
  | failed (k : κ)
  | forgotten

/-- The last reading of a key that has not been lost since. -/
def last (k : κ) : List (Event κ ν) → Option (ν × ℤ)
  | [] => none
  | .read k' v time :: history => if k' = k then some (v, time) else last k history
  | .failed k' :: history => if k' = k then none else last k history
  | .forgotten :: _ => none

/-- What a cache holds. -/
abbrev Cache (κ ν : Type*) := κ → Option (ν × ℤ)

/-- A reading made after the horizon. -/
def Live (horizon : ℤ) (reading : ν × ℤ) : Prop := horizon < reading.2

instance (horizon : ℤ) (reading : ν × ℤ) : Decidable (Live horizon reading) :=
  inferInstanceAs (Decidable (_ < _))

/-- The reading that may be served. -/
def served (horizon : ℤ) (held : Option (ν × ℤ)) : Option (ν × ℤ) :=
  held.filter fun reading => Live horizon reading

/-- What is held is the last reading. -/
def Agrees (cache : Cache κ ν) (history : List (Event κ ν)) : Prop :=
  ∀ k reading, cache k = some reading → last k history = some reading

/-- Every last reading made after the horizon is held. -/
def Complete (cache : Cache κ ν) (history : List (Event κ ν)) (horizon : ℤ) : Prop :=
  ∀ k reading, last k history = some reading → Live horizon reading → cache k = some reading

variable {cache : Cache κ ν} {history : List (Event κ ν)} {horizon horizon' : ℤ} {k : κ}
  {v : ν} {time : ℤ}

@[simp] theorem last_nil : last k ([] : List (Event κ ν)) = none := rfl

@[simp] theorem last_forgotten : last k (.forgotten :: history) = none := rfl

theorem last_read (k' : κ) : last k' (.read k v time :: history) =
    Function.update (fun k' => last k' history) k (some (v, time)) k' := by
  rw [last, Function.update_apply]
  exact if_congr eq_comm rfl rfl

theorem last_failed (k' : κ) : last k' (.failed k :: history) =
    Function.update (fun k' => last k' history) k none k' := by
  rw [last, Function.update_apply]
  exact if_congr eq_comm rfl rfl

theorem mem_served {held : Option (ν × ℤ)} {reading : ν × ℤ} :
    served horizon held = some reading ↔ held = some reading ∧ Live horizon reading := by
  rw [served, Option.filter_eq_some_iff, decide_eq_true_iff]

theorem served_of_not_live {reading : ν × ℤ} (old : ¬Live horizon reading) :
    served horizon (some reading) = none :=
  Option.filter_some_neg (decide_eq_false old)

/-! ## Steps -/

theorem Agrees.read (agrees : Agrees cache history) :
    Agrees (Function.update cache k (some (v, time))) (.read k v time :: history) := by
  intro k' reading held
  rw [last_read]
  rcases eq_or_ne k' k with rfl | differ
  · rw [Function.update_self] at held ⊢
    exact held
  · rw [Function.update_of_ne differ] at held ⊢
    exact agrees k' reading held

theorem Agrees.failed (agrees : Agrees cache history) :
    Agrees (Function.update cache k none) (.failed k :: history) := by
  intro k' reading held
  rw [last_failed]
  rcases eq_or_ne k' k with rfl | differ
  · rw [Function.update_self] at held
    exact nomatch held
  · rw [Function.update_of_ne differ] at held ⊢
    exact agrees k' reading held

/-- A cache may drop what it holds. -/
theorem Agrees.mono {fewer : Cache κ ν} (agrees : Agrees cache history)
    (kept : ∀ k reading, fewer k = some reading → cache k = some reading) :
    Agrees fewer history :=
  fun k reading held => agrees k reading (kept k reading held)

theorem Complete.read (complete : Complete cache history horizon) :
    Complete (Function.update cache k (some (v, time))) (.read k v time :: history) horizon := by
  intro k' reading found live
  rw [last_read] at found
  rcases eq_or_ne k' k with rfl | differ
  · rw [Function.update_self] at found ⊢
    exact found
  · rw [Function.update_of_ne differ] at found ⊢
    exact complete k' reading found live

theorem Complete.failed (complete : Complete cache history horizon) :
    Complete (Function.update cache k none) (.failed k :: history) horizon := by
  intro k' reading found live
  rw [last_failed] at found
  rcases eq_or_ne k' k with rfl | differ
  · rw [Function.update_self] at found
    exact nomatch found
  · rw [Function.update_of_ne differ] at found ⊢
    exact complete k' reading found live

/-- A cache may drop what is not after a horizon that has moved on. -/
theorem Complete.mono {fewer : Cache κ ν} (complete : Complete cache history horizon)
    (forward : horizon ≤ horizon')
    (kept : ∀ k reading, cache k = some reading → Live horizon' reading →
      fewer k = some reading) :
    Complete fewer history horizon' := by
  intro k reading found live
  exact kept k reading (complete k reading found (lt_of_le_of_lt forward live)) live

/-! ## Serving -/

/-- What a cache serves is the last reading of the key. -/
theorem Agrees.served (agrees : Agrees cache history) {reading : ν × ℤ}
    (serves : served horizon (cache k) = some reading) :
    Expiring.served horizon (last k history) = some reading := by
  obtain ⟨held, live⟩ := mem_served.mp serves
  exact mem_served.mpr ⟨agrees k reading held, live⟩

/-- A cache that dropped only what expired serves what one that drops nothing would. -/
theorem served_eq (agrees : Agrees cache history) (complete : Complete cache history horizon)
    (forward : horizon ≤ horizon') :
    served horizon' (cache k) = served horizon' (last k history) := by
  apply Option.ext
  intro reading
  constructor
  · intro serves
    exact agrees.served serves
  · intro serves
    obtain ⟨found, live⟩ := mem_served.mp serves
    exact mem_served.mpr
      ⟨complete k reading found (lt_of_le_of_lt forward live), live⟩

end Expiring
