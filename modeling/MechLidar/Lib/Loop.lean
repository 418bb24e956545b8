import Mathlib

/-!
# MechLidar.Lib.Loop

A loop that need not terminate and may fail, and consecutive calls of it.

* `call body fuel s`: one call, from the loop head on. `none` means that it still runs.
* `next body enter`: one pass, where a call that has returned is followed by a new one.
* `Steps step s s'`: `s'` is reached from `s` by finitely many steps without a failure.
* `Called body enter r r'`: consecutive calls, which have all returned.

`Called.steps` and `fails_of_call` turn calls into steps, so that whole runs of calls are reasoned
about one pass at a time.
-/

namespace MechLidar
namespace Lib

variable {ε σ ρ : Type}

/-- How one pass of a loop ends. -/
inductive Pass (σ ρ : Type) where
  | again (s : σ)
  | leave (r : ρ)

def call (body : σ → Except ε (Pass σ ρ)) : Nat → σ → Except ε (Option ρ)
  | 0, _ => .ok none
  | fuel + 1, s =>
    match body s with
    | .error e => .error e
    | .ok (.again s') => call body fuel s'
    | .ok (.leave r) => .ok (some r)

def next (body : σ → Except ε (Pass σ ρ)) (enter : ρ → σ) (s : σ) : Except ε σ :=
  match body s with
  | .error e => .error e
  | .ok (.again s') => .ok s'
  | .ok (.leave r) => .ok (enter r)

inductive Steps (step : σ → Except ε σ) : σ → σ → Prop where
  | refl {s : σ} : Steps step s s
  | cons {s s' s'' : σ} : step s = .ok s' → Steps step s' s'' → Steps step s s''

namespace Steps

variable {step : σ → Except ε σ}

theorem single {s s' : σ} (h : step s = .ok s') : Steps step s s' := .cons h .refl

theorem trans {s s' s'' : σ} (h : Steps step s s') (h' : Steps step s' s'') :
    Steps step s s'' := by
  induction h with
  | refl => exact h'
  | cons hs _ ih => exact .cons hs (ih h')

/-- What every step keeps holds of every state reached. -/
theorem preserves {P : σ → Prop} (hstep : ∀ s s', P s → step s = .ok s' → P s') {s s' : σ}
    (h : Steps step s s') (hs : P s) : P s' := by
  induction h with
  | refl => exact hs
  | cons hstep' _ ih => exact ih (hstep _ _ hs hstep')

end Steps

/-! ## Calls -/

variable {body : σ → Except ε (Pass σ ρ)} {enter : ρ → σ}

theorem next_again {s s' : σ} (h : body s = .ok (.again s')) : next body enter s = .ok s' := by
  simp [next, h]

theorem next_leave {s : σ} {r : ρ} (h : body s = .ok (.leave r)) :
    next body enter s = .ok (enter r) := by
  simp [next, h]

theorem next_error {s : σ} {e : ε} (h : body s = .error e) : next body enter s = .error e := by
  simp [next, h]

/-- A call that returns takes the run of calls to the next call. -/
theorem steps_of_call {r : ρ} :
    ∀ {fuel : Nat} {s : σ}, call body fuel s = .ok (some r) →
      Steps (next body enter) s (enter r) := by
  intro fuel
  induction fuel with
  | zero => intro s h; cases h
  | succ fuel ih =>
    intro s h
    rw [call] at h
    cases hb : body s with
    | error e => rw [hb] at h; cases h
    | ok p =>
      cases p with
      | again s' => rw [hb] at h; exact .cons (next_again hb) (ih h)
      | leave r' => rw [hb] at h; cases h; exact .single (next_leave hb)

/-- Calls that return, each with the result of the one before. -/
inductive Called (body : σ → Except ε (Pass σ ρ)) (enter : ρ → σ) : ρ → ρ → Prop where
  | none {r : ρ} : Called body enter r r
  | call {r r' r'' : ρ} {fuel : Nat} : Called body enter r r' →
      Lib.call body fuel (enter r') = .ok (some r'') → Called body enter r r''

theorem Called.steps {r r' : ρ} (h : Called body enter r r') :
    Steps (next body enter) (enter r) (enter r') := by
  induction h with
  | none => exact .refl
  | call _ hcall ih => exact ih.trans (steps_of_call hcall)

/-- A call that fails does so in a state of the run of calls. -/
theorem fails_of_call {e : ε} (enter : ρ → σ) :
    ∀ {fuel : Nat} {s : σ}, call body fuel s = .error e →
      ∃ s', Steps (next body enter) s s' ∧ next body enter s' = .error e := by
  intro fuel
  induction fuel with
  | zero => intro s h; cases h
  | succ fuel ih =>
    intro s h
    rw [call] at h
    cases hb : body s with
    | error e' => rw [hb] at h; cases h; exact ⟨s, .refl, next_error hb⟩
    | ok p =>
      cases p with
      | again s' =>
        rw [hb] at h
        obtain ⟨t, ht, hfail⟩ := ih h
        exact ⟨t, .cons (next_again hb) ht, hfail⟩
      | leave r => rw [hb] at h; cases h

end Lib
end MechLidar
