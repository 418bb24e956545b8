import Mathlib

/-!
# MechLidar.Lib.Throttle

A rate limiter that keeps the time of the last call it has let through. Zero stands for none.

* `Due period last now`: the call at `now` is let through
* `Spaced period last times`: what has been let through so far; `Spaced.pass` is one more call
* `Spaced.pairwise`: any two of the times are a period apart
* `seconds`, `clampPeriod`: a number of nanoseconds as such a time, and the least period
-/

namespace MechLidar.Lib

variable {τ : Type} [AddCommGroup τ] [LinearOrder τ]

def Due (period last now : τ) : Prop := last = 0 ∨ period ≤ now - last

instance (period last now : τ) : Decidable (Due period last now) :=
  inferInstanceAs (Decidable (_ ∨ _))

inductive Spaced (period : τ) : τ → List τ → Prop where
  | none : Spaced period 0 []
  | pass {last now : τ} {times : List τ} : Spaced period last times → Due period last now →
      0 < now → last ≤ now → Spaced period now (times ++ [now])

namespace Spaced

variable {period last now : τ} {times : List τ}

theorem le_last (h : Spaced period last times) : ∀ t ∈ times, t ≤ last := by
  induction h with
  | none => simp
  | pass _ _ _ hle ih =>
    intro t ht
    rcases List.mem_append.1 ht with hold | hnew
    · exact (ih t hold).trans hle
    · exact le_of_eq (by simpa using hnew)

/-- Nothing is kept before the first call that is let through. -/
theorem eq_nil_or_pos (h : Spaced period last times) : times = [] ∨ 0 < last := by
  cases h with
  | none => exact .inl rfl
  | pass _ _ hpos _ => exact .inr hpos

theorem pairwise [IsOrderedAddMonoid τ] (h : Spaced period last times) :
    times.Pairwise fun a b => period ≤ b - a := by
  induction h with
  | none => exact .nil
  | @pass last now times hspaced hdue _ _ ih =>
    rw [List.pairwise_append]
    refine ⟨ih, List.pairwise_singleton _ _, ?_⟩
    intro a ha b hb
    obtain rfl : b = now := by simpa using hb
    rcases hspaced.eq_nil_or_pos with rfl | hpos
    · cases ha
    · rcases hdue with rfl | hge
      · exact absurd hpos (lt_irrefl 0)
      · exact hge.trans (sub_le_sub_left (hspaced.le_last a ha) b)

/-- A call that is held back is less than a period behind the last one that was let through. -/
theorem held (h : Spaced period last times) (hdue : ¬ Due period last now) :
    ∃ t, times.getLast? = some t ∧ now - t < period := by
  rw [Due, not_or, not_le] at hdue
  obtain ⟨hne, hlt⟩ := hdue
  cases h with
  | none => exact absurd rfl hne
  | pass => exact ⟨last, by simp, hlt⟩

end Spaced

section Seconds

variable {S : Type} [Field S]

def seconds (ns : Int) : S := (ns : S) / 10 ^ 9

@[simp] theorem seconds_zero : (seconds 0 : S) = 0 := by simp [seconds]

variable [LinearOrder S]

/-- A period of a tenth of a second or more. -/
def clampPeriod (period : S) : S := max (1 / 10) period

variable [IsStrictOrderedRing S]

theorem seconds_le {a b : Int} (h : a ≤ b) : (seconds a : S) ≤ seconds b := by
  unfold seconds
  gcongr

theorem seconds_pos {ns : Nat} (h : 0 < ns) : (0 : S) < seconds ns := by
  unfold seconds
  positivity

end Seconds

end MechLidar.Lib
