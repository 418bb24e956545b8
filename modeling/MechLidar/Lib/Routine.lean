import Mathlib

/-!
# MechLidar.Lib.Routine

What is done in calls, and ends in a result, with an exception or not at all.

* `Routine κ ε α`: the calls, and how it ends
* `Routine.onExit`: what a destructor does, wherever the computation is left
* `Routine.catching`: a `try` block
* `Triple P x Q`: begun behind calls with `P`, `x` leaves calls with `Q`
* `Triple.bind`, `Triple.onExit`: the rules for what is put together
-/

namespace MechLidar.Lib

variable {κ ε α β : Type}

/-- There is no result while it waits. -/
structure Routine (κ ε α : Type) where
  calls : List κ
  result : Option (Except ε α)

namespace Routine

def throw (e : ε) : Routine κ ε α := ⟨[], some (.error e)⟩

def make (calls : List κ) : Routine κ ε Unit := ⟨calls, some (.ok ())⟩

def wait : Routine κ ε α := ⟨[], none⟩

def ofExcept (r : Except ε α) : Routine κ ε α := ⟨[], some r⟩

def bind (x : Routine κ ε α) (f : α → Routine κ ε β) : Routine κ ε β :=
  match x.result with
  | none => ⟨x.calls, none⟩
  | some (.error e) => ⟨x.calls, some (.error e)⟩
  | some (.ok a) => ⟨x.calls ++ (f a).calls, (f a).result⟩

instance : Monad (Routine κ ε) where
  pure a := ⟨[], some (.ok a)⟩
  bind := bind

/-- What waits is not left. -/
def onExit (x : Routine κ ε α) (exit : List κ) : Routine κ ε α :=
  match x.result with
  | none => x
  | some r => ⟨x.calls ++ exit, some r⟩

/-- `try` around `x`, with a handler that makes no calls. -/
def catching (x : Routine κ ε Unit) (caught : ε → Bool) : Routine κ ε Unit :=
  match x.result with
  | some (.error e) => if caught e then ⟨x.calls, some (.ok ())⟩ else x
  | _ => x

def returned (x : Routine κ ε α) : Bool :=
  match x.result with
  | some (.ok _) => true
  | _ => false

section Results

variable {x : Routine κ ε α} {f : α → Routine κ ε β}

theorem bind_ok {a : α} (h : x.result = some (.ok a)) :
    x >>= f = ⟨x.calls ++ (f a).calls, (f a).result⟩ := by
  show x.bind f = _
  simp only [Routine.bind, h]

theorem bind_error {e : ε} (h : x.result = some (.error e)) :
    x >>= f = ⟨x.calls, some (.error e)⟩ := by
  show x.bind f = _
  simp only [Routine.bind, h]

theorem bind_wait (h : x.result = none) : x >>= f = ⟨x.calls, none⟩ := by
  show x.bind f = _
  simp only [Routine.bind, h]

@[simp] theorem make_bind (calls : List κ) (f : Unit → Routine κ ε β) :
    (make calls >>= f) = ⟨calls ++ (f ()).calls, (f ()).result⟩ := rfl

theorem bind_returns_iff {b : β} : (x >>= f).result = some (.ok b) ↔
    ∃ a, x.result = some (.ok a) ∧ (f a).result = some (.ok b) := by
  rcases hresult : x.result with _ | e | a
  · simp [bind_wait hresult]
  · simp [bind_error hresult]
  · simp [bind_ok hresult]

@[simp] theorem onExit_result (x : Routine κ ε α) (exit : List κ) :
    (x.onExit exit).result = x.result := by
  rcases x with ⟨calls, _ | r⟩ <;> rfl

theorem onExit_calls {r : Except ε α} (h : x.result = some r) (exit : List κ) :
    (x.onExit exit).calls = x.calls ++ exit := by
  rw [onExit, h]

end Results

/-- `P` is about the calls that were made before, `Q` about all of them and the result. -/
def Triple (P : List κ → Prop) (x : Routine κ ε α)
    (Q : Option (Except ε α) → List κ → Prop) : Prop :=
  ∀ before, P before → Q x.result (before ++ x.calls)

namespace Triple

variable {P P' : List κ → Prop} {Q Q' : Option (Except ε α) → List κ → Prop}
  {R : Option (Except ε β) → List κ → Prop} {x : Routine κ ε α} {f : α → Routine κ ε β}

theorem pure {a : α} (h : ∀ calls, P calls → Q (some (.ok a)) calls) :
    Triple P (Pure.pure a) Q := by
  intro before hP
  simpa [Pure.pure] using h before hP

theorem throw {e : ε} (h : ∀ calls, P calls → Q (some (.error e)) calls) :
    Triple P (.throw e) Q := by
  intro before hP
  simpa [Routine.throw] using h before hP

theorem wait (h : ∀ calls, P calls → Q none calls) : Triple P .wait Q := by
  intro before hP
  simpa [Routine.wait] using h before hP

theorem ofExcept {r : Except ε α} (h : ∀ calls, P calls → Q (some r) calls) :
    Triple P (.ofExcept r) Q := by
  intro before hP
  simpa [Routine.ofExcept] using h before hP

/-- A call, and then the rest. -/
theorem make_bind {made : List κ} {f : Unit → Routine κ ε β}
    (h : Triple (fun calls => ∃ before, P before ∧ calls = before ++ made) (f ()) R) :
    Triple P (.make made >>= f) R := by
  intro before hP
  rw [Routine.make_bind, ← List.append_assoc]
  exact h _ ⟨before, hP, rfl⟩

theorem conseq (h : Triple P x Q) (hP : ∀ calls, P' calls → P calls)
    (hQ : ∀ r calls, Q r calls → Q' r calls) : Triple P' x Q' :=
  fun before h' => hQ _ _ (h before (hP before h'))

theorem bind (hx : Triple P x Q) (hok : ∀ a, Triple (Q (some (.ok a))) (f a) R)
    (herror : ∀ e calls, Q (some (.error e)) calls → R (some (.error e)) calls)
    (hwait : ∀ calls, Q none calls → R none calls) : Triple P (x >>= f) R := by
  intro before hP
  have hQ := hx before hP
  rcases hresult : x.result with _ | e | a
  · rw [hresult] at hQ
    rw [bind_wait hresult]
    exact hwait _ hQ
  · rw [hresult] at hQ
    rw [bind_error hresult]
    exact herror e _ hQ
  · rw [hresult] at hQ
    rw [bind_ok hresult]
    simpa using hok a _ hQ

/-- What a destructor does comes behind everything else. -/
theorem onExit {exit : List κ} (hx : Triple P x Q) (hwait : ∀ calls, Q none calls → Q' none calls)
    (hdone : ∀ r calls, Q (some r) calls → Q' (some r) (calls ++ exit)) :
    Triple P (x.onExit exit) Q' := by
  intro before hP
  have hQ := hx before hP
  rw [onExit_result]
  rcases hresult : x.result with _ | r
  · rw [hresult] at hQ
    rw [Routine.onExit, hresult]
    exact hwait _ hQ
  · rw [hresult] at hQ
    rw [onExit_calls hresult, ← List.append_assoc]
    exact hdone r _ hQ

end Triple

end Routine

end MechLidar.Lib
