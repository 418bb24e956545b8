import Mathlib

/-!
# MechLidar.Lib.LittleEndian

Fixed-width little-endian words over natural numbers.

* `leByte v k` is byte `k` of `v`, least significant first; `leWord bs` is the number written by
  the bytes `bs`.
* `leByte_leWord` and `leWord_leBytes` are the two halves of the round trip.
* `or_shiftLeft` turns the usual `lo | hi << k` assembly of a word into a sum.
-/

namespace MechLidar
namespace Lib

/-- Byte `k` of `v`. -/
def leByte (v k : Nat) : UInt8 := UInt8.ofNat (v / 256 ^ k)

/-- The number with the given bytes. -/
def leWord : List UInt8 → Nat
  | [] => 0
  | b :: bs => b.toNat + 256 * leWord bs

theorem leByte_zero (b : UInt8) (n : Nat) : leByte (b.toNat + 256 * n) 0 = b := by
  apply UInt8.toNat_inj.mp
  have hb := b.toNat_lt
  simp only [leByte, Nat.pow_zero, Nat.div_one, UInt8.toNat_ofNat']
  omega

theorem leByte_succ (b : UInt8) (n k : Nat) :
    leByte (b.toNat + 256 * n) (k + 1) = leByte n k := by
  have hb := b.toNat_lt
  have hdiv : (b.toNat + 256 * n) / 256 = n := by omega
  rw [leByte, leByte, Nat.pow_succ', ← Nat.div_div_eq_div_mul, hdiv]

/-- The bytes of a word are the ones it was made of. -/
theorem leByte_leWord (bs : List UInt8) :
    ∀ (k : Nat) (h : k < bs.length), leByte (leWord bs) k = bs[k] := by
  induction bs with
  | nil => intro k h; simp at h
  | cons b bs ih =>
    intro k h
    cases k with
    | zero => exact leByte_zero b _
    | succ k =>
      rw [leWord, leByte_succ, ih k (by simpa using h)]
      rfl

/-- The low `w` bytes of `v`. -/
def leBytes : Nat → Nat → List UInt8
  | 0, _ => []
  | w + 1, v => leByte v 0 :: leBytes w (v / 256)

/-- Reading back the bytes of a number keeps it, up to the width. -/
theorem leWord_leBytes (w : Nat) : ∀ v : Nat, leWord (leBytes w v) = v % 256 ^ w := by
  induction w with
  | zero => intro v; simp [leBytes, leWord, Nat.mod_one]
  | succ w ih =>
    intro v
    have h0 : (leByte v 0).toNat = v % 256 := by simp [leByte]
    rw [leBytes, leWord, ih, h0, Nat.pow_succ', Nat.mod_mul]

theorem leByte_div (v k : Nat) : leByte (v / 256) k = leByte v (k + 1) := by
  rw [leByte, leByte, Nat.div_div_eq_div_mul, Nat.pow_succ']

/-- The pieces of a word do not overlap, so `or` adds them. -/
theorem or_shiftLeft {lo k : Nat} (hi : Nat) (h : lo < 2 ^ k) :
    lo ||| hi <<< k = lo + 2 ^ k * hi := by
  have hsum : hi <<< k + lo = hi <<< k ||| lo := Nat.shiftLeft_add_eq_or_of_lt h hi
  have hmul : hi <<< k = 2 ^ k * hi := by rw [Nat.shiftLeft_eq, Nat.mul_comm]
  rw [Nat.or_comm, ← hsum, hmul]
  omega

end Lib
end MechLidar
