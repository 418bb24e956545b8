import Mathlib

/-!
# MechLidar.Lib.Labelled

Runs of a relation whose steps are labelled by what is seen of them.

* `Runs step s as t`: `t` is reached from `s`, and `as` is what was seen
* `Runs.invariant`: what holds of a start and is kept by every step holds of every run
* `Runs.mono`: what no step decreases is not decreased by a run
* `Runs.concat_iff`, `Runs.append_iff`: the last step of a run, and a run up to some point
* `Inside step s as u t`: a run from `s` to `u` comes through `t`
-/

namespace MechLidar.Lib

variable {σ α : Type} {step : σ → α → σ → Prop}

inductive Runs (step : σ → α → σ → Prop) (s : σ) : List α → σ → Prop where
  | start : Runs step s [] s
  | after {as : List α} {a : α} {t u : σ} :
      Runs step s as t → step t a u → Runs step s (as ++ [a]) u

namespace Runs

theorem single {s t : σ} {a : α} (h : step s a t) : Runs step s [a] t := .after .start h

theorem trans {s t u : σ} {as bs : List α} (h : Runs step s as t) (h' : Runs step t bs u) :
    Runs step s (as ++ bs) u := by
  induction h' with
  | start => simpa using h
  | after _ hs ih => simpa using ih.after hs

theorem cons {s t u : σ} {a : α} {as : List α} (h : step s a t) (h' : Runs step t as u) :
    Runs step s (a :: as) u := (single h).trans h'

/-- The last step of a run. -/
theorem concat_iff {s u : σ} {as : List α} {a : α} :
    Runs step s (as ++ [a]) u ↔ ∃ t, Runs step s as t ∧ step t a u := by
  constructor
  · intro h
    generalize hbs : as ++ [a] = bs at h
    cases h with
    | start => simp at hbs
    | after hr hs =>
      obtain ⟨rfl, rfl⟩ : as = _ ∧ a = _ := by simpa using hbs
      exact ⟨_, hr, hs⟩
  · intro ⟨t, hr, hs⟩
    exact hr.after hs

theorem append_iff {s u : σ} {as bs : List α} :
    Runs step s (as ++ bs) u ↔ ∃ t, Runs step s as t ∧ Runs step t bs u := by
  induction bs using List.reverseRecOn generalizing u with
  | nil =>
    rw [List.append_nil]
    constructor
    · intro h
      exact ⟨u, h, .start⟩
    · rintro ⟨t, h, h'⟩
      simpa using h.trans h'
  | append_singleton bs b ih =>
    rw [← List.append_assoc, concat_iff]
    simp only [ih, concat_iff]
    constructor
    · rintro ⟨v, ⟨t, h, h'⟩, hs⟩
      exact ⟨t, h, v, h', hs⟩
    · rintro ⟨t, h, v, h', hs⟩
      exact ⟨v, ⟨t, h, h'⟩, hs⟩

/-- The rule for invariants. -/
theorem invariant {P : List α → σ → Prop} {s : σ} (hs : P [] s)
    (hstep : ∀ as t a u, P as t → step t a u → P (as ++ [a]) u) {as : List α} {t : σ}
    (h : Runs step s as t) : P as t := by
  induction h with
  | start => exact hs
  | after _ hu ih => exact hstep _ _ _ _ ih hu

theorem mono {τ : Type} [Preorder τ] {m : σ → τ} (hstep : ∀ s a t, step s a t → m s ≤ m t)
    {s t : σ} {as : List α} (h : Runs step s as t) : m s ≤ m t := by
  induction h with
  | start => exact le_refl _
  | after _ hs ih => exact ih.trans (hstep _ _ _ hs)

end Runs

def Inside (step : σ → α → σ → Prop) (s : σ) (as : List α) (u t : σ) : Prop :=
  ∃ bs cs, as = bs ++ cs ∧ Runs step s bs t ∧ Runs step t cs u

namespace Inside

variable {s t u v : σ} {as bs : List α}

theorem start (h : Runs step s as u) : Inside step s as u s := ⟨[], as, rfl, .start, h⟩

theorem before (h : Runs step s as t) (h' : Inside step t bs u v) :
    Inside step s (as ++ bs) u v := by
  obtain ⟨cs, ds, rfl, hcs, hds⟩ := h'
  exact ⟨as ++ cs, ds, (List.append_assoc ..).symm, h.trans hcs, hds⟩

end Inside

end MechLidar.Lib
