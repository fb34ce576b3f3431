import Mathlib.Data.Int.Basic

/-!
# Time zones

A zone gives every instant a wall clock.  The clocks are put forward and back, so a wall
clock may belong to no instant, or to several, and whoever reads it as an instant has to
choose one.
-/

namespace TimeZones

structure Zone where
  wall : ℤ → ℤ

/-- The wall clock is not skipped. -/
def Zone.Exists (zone : Zone) (w : ℤ) : Prop := ∃ i, zone.wall i = w

/-- The wall clock is not skipped and not repeated. -/
def Zone.Once (zone : Zone) (w : ℤ) : Prop := ∃ i, zone.wall i = w ∧ ∀ j, zone.wall j = w → j = i

/-- A way to choose instants, with the given wall clock if there is one. -/
structure Choice (zone : Zone) where
  instant : ℤ → ℤ
  wall_instant : ∀ w, zone.Exists w → zone.wall (instant w) = w

variable {zone : Zone} {w i : ℤ}

theorem Zone.Once.exists (once : zone.Once w) : zone.Exists w := by
  obtain ⟨i, here, _⟩ := once
  exact ⟨i, here⟩

theorem Zone.Once.instant (once : zone.Once w) (choice : Choice zone)
    (here : zone.wall i = w) : choice.instant w = i := by
  obtain ⟨j, _, only⟩ := once
  have chosen := choice.wall_instant w ⟨i, here⟩
  rw [only _ chosen, only i here]

/-- Nobody has a choice. -/
theorem Zone.Once.agree (once : zone.Once w) (one other : Choice zone) :
    one.instant w = other.instant w := by
  have exists' := once.exists
  exact once.instant one (other.wall_instant w exists')

end TimeZones
