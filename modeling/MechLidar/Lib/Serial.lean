import Mathlib

/-!
# MechLidar.Lib.Serial

Serial-number arithmetic: counters of `w` bits that wrap around, compared through the sign of
their difference.

`delta x y` is the signed `w`-bit difference `x - y`. It orders a window of fewer than `2^(w-1)`
consecutive values as their distances from the start of the window (`delta_window`), so inside of
a window "newer" is a strict linear order; across the whole circle it is not transitive.
-/

namespace MechLidar
namespace Lib

variable {w : Nat}

/-- The signed difference of two counters. -/
def delta (x y : BitVec w) : Int := (x - y).toInt

@[simp] theorem delta_self (x : BitVec w) : delta x x = 0 := by
  simp [delta]

/-- The counter one step ahead is newer. -/
theorem delta_succ (x : BitVec (w + 2)) : delta (x + 1#(w + 2)) x = 1 := by
  have h : x + 1#(w + 2) - x = 1#(w + 2) := by
    rw [BitVec.add_comm, BitVec.add_sub_cancel]
  rw [delta, h, BitVec.toInt_eq_toNat_cond]
  have hpow : 2 ^ (w + 2) = 4 * 2 ^ w := by rw [Nat.pow_add]; omega
  have hpos : 0 < 2 ^ w := Nat.two_pow_pos w
  have hone : (1#(w + 2)).toNat = 1 := by
    rw [BitVec.toNat_ofNat, Nat.mod_eq_of_lt (by omega)]
  rw [hone, if_pos (by omega)]
  rfl

/-- In a window that starts at `base`, the difference of two counters is the difference of
their distances from `base`. -/
theorem delta_window {base x y : BitVec (w + 1)} (hx : (x - base).toNat < 2 ^ w)
    (hy : (y - base).toNat < 2 ^ w) :
    delta x y = ((x - base).toNat : Int) - ((y - base).toNat : Int) := by
  have hxy : x - y = (x - base) - (y - base) := by grind
  have hpow : 2 ^ (w + 1) = 2 * 2 ^ w := by rw [Nat.pow_succ]; omega
  rw [delta, hxy, BitVec.toInt_eq_toNat_cond, BitVec.toNat_sub, hpow]
  generalize (x - base).toNat = a at *
  generalize (y - base).toNat = b at *
  generalize 2 ^ w = m at *
  by_cases hab : b ≤ a
  · have hmod : (2 * m - b + a) % (2 * m) = a - b := by
      rw [show 2 * m - b + a = a - b + 2 * m by omega, Nat.add_mod_right,
        Nat.mod_eq_of_lt (by omega)]
    rw [hmod, if_pos (by omega)]
    omega
  · have hmod : (2 * m - b + a) % (2 * m) = 2 * m - b + a := Nat.mod_eq_of_lt (by omega)
    rw [hmod, if_neg (by omega)]
    push_cast
    omega

/-- Up to half of the circle behind `y`, a counter that runs up to `y` is older. -/
theorem delta_behind {x y : BitVec (w + 1)} {i : Nat} (hi : i < (y - x).toNat)
    (hle : (y - x).toNat ≤ 2 ^ w) : delta (x + BitVec.ofNat (w + 1) i) y < 0 := by
  have hpow : 2 ^ (w + 1) = 2 * 2 ^ w := by rw [Nat.pow_succ]; omega
  have hval : (x + BitVec.ofNat (w + 1) i - y).toNat = 2 * 2 ^ w - ((y - x).toNat - i) := by
    have hneg : x + BitVec.ofNat (w + 1) i - y = -(y - x - BitVec.ofNat (w + 1) i) := by grind
    have hsub : (y - x - BitVec.ofNat (w + 1) i).toNat = (y - x).toNat - i := by
      rw [BitVec.toNat_sub_of_le, BitVec.toNat_ofNat, Nat.mod_eq_of_lt (by omega)]
      rw [BitVec.le_def, BitVec.toNat_ofNat, Nat.mod_eq_of_lt (by omega)]
      omega
    rw [hneg, BitVec.toNat_neg, hsub, hpow, Nat.mod_eq_of_lt (by omega)]
  rw [delta, BitVec.toInt_eq_toNat_cond, hval, hpow, if_neg (by omega)]
  generalize (y - x).toNat = d at *
  generalize 2 ^ w = m at *
  push_cast
  omega

/-- Further than that, it is newer. -/
theorem delta_pos {x y : BitVec (w + 1)} (h : 2 ^ w < (y - x).toNat) : 0 < delta x y := by
  have hpow : 2 ^ (w + 1) = 2 * 2 ^ w := by rw [Nat.pow_succ]; omega
  have hlt : (y - x).toNat < 2 ^ (w + 1) := (y - x).isLt
  have hval : (x - y).toNat = 2 * 2 ^ w - (y - x).toNat := by
    have hneg : x - y = -(y - x) := by grind
    rw [hneg, BitVec.toNat_neg, hpow, Nat.mod_eq_of_lt (by omega)]
  rw [delta, BitVec.toInt_eq_toNat_cond, hval, hpow, if_pos (by omega)]
  omega

end Lib
end MechLidar
