import Mathlib

/-!
# MechLidar.Number

The `float` values of the driver. The finite ones are an arbitrary type `F` with the operations
that the code applies to them; `+inf` stands for "no object" and NaN for a point without
coordinates. Conversions from machine integers are `Nat.cast`, so over an abstract `F` they are
an opaque function with finite values, and over `ℝ` the arithmetic is exact.
-/

namespace MechLidar

inductive Flt (F : Type) where
  | fin (x : F)
  | inf
  | nan
deriving DecidableEq, Repr

namespace Flt

variable {F : Type}

/-- `std::isfinite`. -/
def isFinite : Flt F → Bool
  | .fin _ => true
  | .inf => false
  | .nan => false

/-- Division by a finite number. -/
def divBy [Div F] (x : Flt F) (d : F) : Flt F :=
  match x with
  | .fin v => .fin (v / d)
  | .inf => .inf
  | .nan => .nan

@[simp] theorem isFinite_fin (x : F) : (fin x).isFinite = true := rfl
@[simp] theorem isFinite_inf : (inf : Flt F).isFinite = false := rfl
@[simp] theorem isFinite_nan : (nan : Flt F).isFinite = false := rfl

theorem isFinite_divBy [Div F] (x : Flt F) (d : F) : (x.divBy d).isFinite = x.isFinite := by
  cases x <;> rfl

end Flt

/-- The constants and functions of `<cmath>` that the driver uses. -/
class Trig (F : Type) where
  pi : F
  /-- The literal of `RAD_RESOLUTION`, written out separately from `PI` in the source. -/
  twoPi : F
  cos : F → F
  sin : F → F

/-- What the driver computes with finite values. -/
class Arith (F : Type) extends Zero F, NatCast F, Add F, Sub F, Mul F, Div F, LT F, Trig F where
  decidableLT : DecidableLT F

attribute [reducible, instance] Arith.decidableLT

noncomputable instance : Trig ℝ where
  pi := Real.pi
  twoPi := 2 * Real.pi
  cos := Real.cos
  sin := Real.sin

noncomputable instance : Arith ℝ where
  decidableLT := Real.decidableLT

end MechLidar
