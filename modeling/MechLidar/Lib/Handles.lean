import Mathlib

/-!
# Module Lib.Handles

Handles that are acquired, used and released.

* `Event`: one step of the life of a handle
* `hold held es`: the handles held behind `es`, none where a handle is used or released that is not
  held, or acquired while it is
* `count_of_hold`: between two states in which a handle is held or not, it is acquired and released
  equally often
-/

namespace MechLidar.Lib

inductive Event (η : Type*) where
  | acquire (h : η)
  | use (h : η)
  | release (h : η)
deriving DecidableEq, Repr

variable {η : Type*} [DecidableEq η]

def Event.next (held : Finset η) : Event η → Option (Finset η)
  | .acquire h => if h ∈ held then none else some (insert h held)
  | .use h => if h ∈ held then some held else none
  | .release h => if h ∈ held then some (held.erase h) else none

def hold (held : Finset η) : List (Event η) → Option (Finset η)
  | [] => some held
  | e :: es => (e.next held).bind fun held => hold held es

@[simp] theorem hold_nil (held : Finset η) : hold held [] = some held := rfl

theorem hold_append {held held' : Finset η} {es es' : List (Event η)}
    (h : hold held es = some held') : hold held (es ++ es') = hold held' es' := by
  induction es generalizing held with
  | nil =>
    cases h
    rfl
  | cons e es ih =>
    obtain ⟨next, hnext, h⟩ := Option.bind_eq_some_iff.1 h
    rw [List.cons_append, hold, hnext]
    exact ih h

theorem hold_acquire {held : Finset η} {x : η} (h : x ∉ held) (es : List (Event η)) :
    hold held (.acquire x :: es) = hold (insert x held) es := by
  simp [hold, Event.next, h]

theorem hold_use {held : Finset η} {x : η} (h : x ∈ held) (es : List (Event η)) :
    hold held (.use x :: es) = hold held es := by
  simp [hold, Event.next, h]

theorem hold_release {held : Finset η} {x : η} (h : x ∈ held) (es : List (Event η)) :
    hold held (.release x :: es) = hold (held.erase x) es := by
  simp [hold, Event.next, h]

/-- The difference between the acquires and the releases of a handle is whether it is held. -/
theorem count_of_hold {held held' : Finset η} {es : List (Event η)}
    (h : hold held es = some held') (x : η) :
    (if x ∈ held then 1 else 0) + es.count (.acquire x) =
      (if x ∈ held' then 1 else 0) + es.count (.release x) := by
  induction es generalizing held with
  | nil =>
    cases h
    rfl
  | cons e es ih =>
    obtain ⟨next, hnext, h⟩ := Option.bind_eq_some_iff.1 h
    have ih := ih h
    cases e with
    | acquire y =>
      simp only [Event.next] at hnext
      split at hnext
      · cases hnext
      · next hy =>
        cases hnext
        by_cases hxy : x = y
        · subst hxy
          simp [hy] at ih ⊢
          omega
        · simp [hxy, Ne.symm hxy] at ih ⊢
          omega
    | use y =>
      simp only [Event.next] at hnext
      split at hnext
      · cases hnext
        simpa using ih
      · cases hnext
    | release y =>
      simp only [Event.next] at hnext
      split at hnext
      · next hy =>
        cases hnext
        by_cases hxy : x = y
        · subst hxy
          simp [hy] at ih ⊢
          omega
        · simp [hxy, Ne.symm hxy] at ih ⊢
          omega
      · cases hnext

end MechLidar.Lib
