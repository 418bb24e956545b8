import Mathlib

/-!
# MechLidar.Lib.Cells

Buffers of fixed size that are read and written cell by cell.

A `Reads n ε` computation may fail, and carries the list of the cells it has read, in order. An
index is a `Fin n`, so no computation reads outside of the buffer. `Returns c a is` says that `c`
succeeds with `a` after reading exactly the cells `is`; the rules below follow the structure of
the computation, one for each combinator.

* `storeAll f l v` writes `f c` to every cell `c` of `l`; `storeAll_finRange` says that writing
  all of them forgets the old contents.
* `writeBlock v o xs k`: `v` with its cells `o, ..., o + k - 1` replaced by the first `k` cells
  of `xs`; `writeBlock_succ` is the step of the loop that writes it.
-/

namespace MechLidar
namespace Lib

/-! ## Reading -/

abbrev Reads (n : Nat) (ε : Type) := StateT (List (Fin n)) (Except ε)

namespace Reads

variable {n : Nat} {ε α β γ : Type}

/-- Read one cell. -/
def cell (buf : Vector γ n) (i : Fin n) : Reads n ε γ :=
  fun log => .ok (buf[i], log ++ [i])

/-- Stop with an error. -/
def fail (e : ε) : Reads n ε α := fun _ => .error e

/-- `c` reads the cells `is`, in this order, and returns `a`. -/
def Returns (c : Reads n ε α) (a : α) (is : List (Fin n)) : Prop :=
  ∀ log, c.run log = .ok (a, log ++ is)

/-- `c` stops with `e`, whatever was read before. -/
def Fails (c : Reads n ε α) (e : ε) : Prop := ∀ log, c.run log = .error e

theorem returns_pure (a : α) : Returns (pure a : Reads n ε α) a [] := by
  intro log
  rw [List.append_nil]
  rfl

theorem returns_cell (buf : Vector γ n) (i : Fin n) :
    Returns (cell buf i : Reads n ε γ) buf[i] [i] := fun _ => rfl

theorem fails_fail (e : ε) : Fails (fail e : Reads n ε α) e := fun _ => rfl

theorem Returns.bind {c : Reads n ε α} {f : α → Reads n ε β} {a : α} {b : β}
    {is js : List (Fin n)} (hc : Returns c a is) (hf : Returns (f a) b js) :
    Returns (c >>= f) b (is ++ js) := by
  intro log
  rw [StateT.run_bind, hc log]
  show (f a).run (log ++ is) = _
  rw [hf, List.append_assoc]

theorem Returns.bind_pure {c : Reads n ε α} {a : α} {is : List (Fin n)} (hc : Returns c a is)
    (f : α → β) : Returns (c >>= fun a => pure (f a)) (f a) is := by
  have h := hc.bind (f := fun a => pure (f a)) (returns_pure (f a))
  rwa [List.append_nil] at h

theorem Returns.bind_fails {c : Reads n ε α} {f : α → Reads n ε β} {a : α} {e : ε}
    {is : List (Fin n)} (hc : Returns c a is) (hf : Fails (f a) e) : Fails (c >>= f) e := by
  intro log
  rw [StateT.run_bind, hc log]
  exact hf _

/-- A loop whose every pass succeeds is the pure fold, and reads what the passes read. -/
theorem returns_foldlM {f : β → α → Reads n ε β} {g : β → α → β} {r : α → List (Fin n)}
    (h : ∀ b a, Returns (f b a) (g b a) (r a)) :
    ∀ (l : List α) (b : β), Returns (l.foldlM f b) (l.foldl g b) (l.flatMap r) := by
  intro l
  induction l with
  | nil => intro b; exact returns_pure b
  | cons a l ih =>
    intro b
    rw [List.foldlM_cons, List.foldl_cons, List.flatMap_cons]
    exact (h b a).bind (ih (g b a))

end Reads

/-! ## Writing -/

variable {α : Type} {m n : Nat}

/-- The loop `for c in l: v[c] = f c`. -/
def storeAll (f : Fin n → α) (l : List (Fin n)) (v : Vector α n) : Vector α n :=
  l.foldl (fun v (c : Fin n) => v.set c (f c)) v

theorem storeAll_cons (f : Fin n → α) (c : Fin n) (l : List (Fin n)) (v : Vector α n) :
    storeAll f (c :: l) v = storeAll f l (v.set c (f c)) := rfl

theorem getElem_storeAll (f : Fin n → α) (l : List (Fin n)) :
    ∀ (v : Vector α n) (i : Nat) (h : i < n),
      (storeAll f l v)[i] = if ⟨i, h⟩ ∈ l then f ⟨i, h⟩ else v[i] := by
  induction l with
  | nil => intro v i h; simp [storeAll]
  | cons c l ih =>
    intro v i h
    rw [storeAll_cons, ih]
    by_cases hl : (⟨i, h⟩ : Fin n) ∈ l
    · simp [hl]
    · by_cases hc : c = ⟨i, h⟩
      · subst hc; simp [hl]
      · have hne : (c : Nat) ≠ i := fun he => hc (Fin.ext he)
        have hne' : (⟨i, h⟩ : Fin n) ≠ c := fun he => hc he.symm
        simp [hl, hne, hne']

/-- A loop that writes every cell leaves nothing of the old array. -/
theorem storeAll_finRange (f : Fin n → α) (v : Vector α n) :
    storeAll f (List.finRange n) v = Vector.ofFn f := by
  apply Vector.ext
  intro i h
  rw [getElem_storeAll, if_pos (List.mem_finRange _), Vector.getElem_ofFn]

/-- `v` with `k` cells from `o` on replaced by the first `k` cells of `xs`. -/
def writeBlock (v : Vector α n) (o : Nat) (xs : Vector α m) (k : Nat) : Vector α n :=
  Vector.ofFn fun i => if h : o ≤ i.1 ∧ i.1 < o + k ∧ i.1 - o < m then xs[i.1 - o] else v[i]

theorem getElem_writeBlock (v : Vector α n) (o : Nat) (xs : Vector α m) (k i : Nat) (h : i < n) :
    (writeBlock v o xs k)[i] =
      if h : o ≤ i ∧ i < o + k ∧ i - o < m then xs[i - o] else v[i] := by
  simp [writeBlock]

theorem writeBlock_zero (v : Vector α n) (o : Nat) (xs : Vector α m) :
    writeBlock v o xs 0 = v := by
  apply Vector.ext
  intro i h
  rw [getElem_writeBlock, dif_neg (by omega)]

theorem writeBlock_succ (v : Vector α n) (o : Nat) (xs : Vector α m) {k : Nat} (hk : k < m)
    (ho : o + k < n) :
    (writeBlock v o xs k).set (o + k) xs[k] = writeBlock v o xs (k + 1) := by
  apply Vector.ext
  intro i h
  rw [Vector.getElem_set, getElem_writeBlock, getElem_writeBlock]
  by_cases hi : o + k = i
  · subst hi
    simp [hk]
  · rw [if_neg hi]
    by_cases hin : o ≤ i ∧ i < o + k ∧ i - o < m
    · rw [dif_pos hin, dif_pos (by omega)]
    · rw [dif_neg hin, dif_neg (by omega)]

theorem writeBlock_inside (v : Vector α n) (o : Nat) (xs : Vector α m) {i : Nat} (h : i < n)
    (hlo : o ≤ i) (hhi : i < o + m) : (writeBlock v o xs m)[i] = xs[i - o] := by
  rw [getElem_writeBlock, dif_pos (by omega)]

theorem writeBlock_outside (v : Vector α n) (o : Nat) (xs : Vector α m) {i k : Nat} (h : i < n)
    (hout : i < o ∨ o + k ≤ i) : (writeBlock v o xs k)[i] = v[i] := by
  rw [getElem_writeBlock, dif_neg (by omega)]

theorem mem_writeBlock {v : Vector α n} {o k : Nat} {xs : Vector α m} {x : α}
    (h : x ∈ writeBlock v o xs k) : x ∈ v ∨ x ∈ xs := by
  obtain ⟨i, hi, rfl⟩ := Vector.mem_iff_getElem.1 h
  rw [getElem_writeBlock]
  split
  · exact .inr (Vector.getElem_mem _)
  · exact .inl (Vector.getElem_mem _)

end Lib
end MechLidar
