import Mathlib

/-!
# Module Lib.Find

First occurrences of a word in a list.

* `find w xs` - where `w` occurs in `xs` for the first time
* `find_eq_some_iff`, `find_eq_none_iff` - what the answer says
* `find_append` - an occurrence stays the first one when the list grows at its end
* `find_take_append` - the list may be cut right behind its first occurrence
* `split w xs` - the parts of `xs` between the occurrences of `w`
-/

namespace MechLidar.Lib

section OccursAt

variable {α : Type*} {w xs ys : List α} {i : Nat}

/-- `w` occurs in `xs` at place `i`. -/
def OccursAt (w xs : List α) (i : Nat) : Prop := i ≤ xs.length ∧ w <+: xs.drop i

@[simp] theorem occursAt_zero : OccursAt w xs 0 ↔ w <+: xs := by
  simp [OccursAt]

@[simp] theorem occursAt_cons_succ {x : α} :
    OccursAt w (x :: xs) (i + 1) ↔ OccursAt w xs i := by
  simp [OccursAt]

@[simp] theorem occursAt_nil :
    OccursAt w [] i ↔ i = 0 ∧ w = [] := by
  simp [OccursAt]

theorem OccursAt.append (h : OccursAt w xs i) (ys : List α) :
    OccursAt w (xs ++ ys) i := by
  obtain ⟨hi, hw⟩ := h
  refine ⟨by simp only [List.length_append]; omega, ?_⟩
  rw [List.drop_append_of_le_length hi]
  exact hw.trans (List.prefix_append _ _)

/-- An occurrence that ends inside the first part is one of the first part. -/
theorem OccursAt.of_append (h : OccursAt w (xs ++ ys) i)
    (hi : i + w.length ≤ xs.length) : OccursAt w xs i := by
  obtain ⟨_, hw⟩ := h
  refine ⟨by omega, ?_⟩
  rw [List.drop_append_of_le_length (by omega)] at hw
  exact List.prefix_of_prefix_length_le hw (List.prefix_append _ _)
    (by simp only [List.length_drop]; omega)

theorem OccursAt.length_le (h : OccursAt w xs i) :
    i + w.length ≤ xs.length := by
  have := h.2.length_le
  simp only [List.length_drop] at this
  have := h.1
  omega

/-- A list cut at an occurrence: what is before it, the word, and what is behind it. -/
theorem OccursAt.eq_append (h : OccursAt w xs i) :
    xs = xs.take i ++ w ++ xs.drop (i + w.length) := by
  obtain ⟨_, ys, hys⟩ := h
  have hdrop : xs.drop (i + w.length) = ys := by
    rw [← List.drop_drop, ← hys, List.drop_left]
  rw [hdrop, List.append_assoc, hys, List.take_append_drop]

theorem occursAt_append_self (xs w ys : List α) : OccursAt w (xs ++ w ++ ys) xs.length := by
  refine ⟨by simp, ?_⟩
  rw [List.append_assoc, List.drop_left]
  exact List.prefix_append w ys

theorem OccursAt.between (h : OccursAt w xs i) (pre post : List α) :
    OccursAt w (pre ++ xs ++ post) (pre.length + i) := by
  refine OccursAt.append ⟨by simp [h.1], ?_⟩ post
  rw [← List.drop_drop, List.drop_left]
  exact h.2

end OccursAt

variable {α : Type*} [DecidableEq α]

def find (w : List α) : List α → Option Nat
  | [] => if w = [] then some 0 else none
  | x :: xs => if w <+: x :: xs then some 0 else (find w xs).map (· + 1)

theorem find_eq_some_iff {w xs : List α} {i : Nat} :
    find w xs = some i ↔ OccursAt w xs i ∧ ∀ j < i, ¬ OccursAt w xs j := by
  induction xs generalizing i with
  | nil =>
    by_cases hw : w = []
    · subst hw
      simp only [find, if_pos, Option.some.injEq, occursAt_nil, and_true]
      constructor
      · rintro rfl
        simp
      · rintro ⟨rfl, _⟩
        rfl
    · simp [find, hw]
  | cons x xs ih =>
    by_cases hw : w <+: x :: xs
    · simp only [find, if_pos hw, Option.some.injEq]
      constructor
      · rintro rfl
        simp [hw]
      · rintro ⟨_, hfirst⟩
        rcases Nat.eq_zero_or_pos i with rfl | hi
        · rfl
        · exact absurd (occursAt_zero.2 hw) (hfirst 0 hi)
    · simp only [find, if_neg hw, Option.map_eq_some_iff, ih]
      constructor
      · rintro ⟨k, ⟨hk, hfirst⟩, rfl⟩
        refine ⟨by simpa using hk, fun j hj => ?_⟩
        cases j with
        | zero => simpa using hw
        | succ j => simpa using hfirst j (by omega)
      · rintro ⟨hi, hfirst⟩
        cases i with
        | zero => exact absurd (by simpa using hi) hw
        | succ k =>
          refine ⟨k, ⟨by simpa using hi, fun j hj => ?_⟩, rfl⟩
          simpa using hfirst (j + 1) (by omega)

theorem find_eq_none_iff {w xs : List α} : find w xs = none ↔ ∀ j, ¬ OccursAt w xs j := by
  induction xs with
  | nil =>
    by_cases hw : w = [] <;> simp [find, hw]
  | cons x xs ih =>
    by_cases hw : w <+: x :: xs
    · simp only [find, if_pos hw, reduceCtorEq, false_iff, not_forall, not_not]
      exact ⟨0, by simpa using hw⟩
    · simp only [find, if_neg hw, Option.map_eq_none_iff, ih]
      constructor
      · intro h j
        cases j with
        | zero => simpa using hw
        | succ j => simpa using h j
      · intro h j
        simpa using h (j + 1)

/-! ## Growing and cutting the list -/

theorem find_append {w xs : List α} {i : Nat} (h : find w xs = some i) (ys : List α) :
    find w (xs ++ ys) = some i := by
  obtain ⟨hi, hfirst⟩ := find_eq_some_iff.1 h
  refine find_eq_some_iff.2 ⟨hi.append ys, fun j hj hocc => hfirst j hj ?_⟩
  exact hocc.of_append (by have := hi.length_le; omega)

theorem find_take_append {w xs : List α} {i : Nat} (h : find w xs = some i) :
    find w (xs.take i ++ w) = some i := by
  obtain ⟨hi, hfirst⟩ := find_eq_some_iff.1 h
  have hlen : (xs.take i).length = i := by
    simp only [List.length_take]
    exact Nat.min_eq_left hi.1
  have hself := occursAt_append_self (xs.take i) w []
  rw [List.append_nil, hlen] at hself
  refine find_eq_some_iff.2 ⟨hself, fun j hj hocc => hfirst j hj ?_⟩
  have hgrown := hocc.append (xs.drop (i + w.length))
  rwa [← hi.eq_append] at hgrown

/-! ## Splitting at every occurrence -/

/-- `skip` elements still belong to the last occurrence, `part` is read since then. -/
def splitFrom (w : List α) : Nat → List α → List α → List (List α)
  | _, part, [] => [part]
  | skip + 1, part, _ :: xs => splitFrom w skip part xs
  | 0, part, x :: xs =>
    if w <+: x :: xs then part :: splitFrom w (w.length - 1) [] xs
    else splitFrom w 0 (part ++ [x]) xs

def split (w xs : List α) : List (List α) := splitFrom w 0 [] xs

theorem splitFrom_skip (w part ys xs : List α) :
    splitFrom w ys.length part (ys ++ xs) = splitFrom w 0 part xs := by
  induction ys with
  | nil => rfl
  | cons y ys ih => exact ih

theorem splitFrom_none {w xs : List α} (h : find w xs = none) (part : List α) :
    splitFrom w 0 part xs = [part ++ xs] := by
  induction xs generalizing part with
  | nil => simp [splitFrom]
  | cons x xs ih =>
    have hw : ¬ w <+: x :: xs := fun hw => find_eq_none_iff.1 h 0 (occursAt_zero.2 hw)
    rw [find, if_neg hw, Option.map_eq_none_iff] at h
    rw [splitFrom, if_neg hw, ih h]
    simp

theorem splitFrom_some {w xs : List α} {i : Nat} (hw : w ≠ []) (h : find w xs = some i)
    (part : List α) :
    splitFrom w 0 part xs = (part ++ xs.take i) :: split w (xs.drop (i + w.length)) := by
  induction xs generalizing part i with
  | nil => simp [find, hw] at h
  | cons x xs ih =>
    by_cases hx : w <+: x :: xs
    · rw [find, if_pos hx] at h
      cases h
      obtain ⟨ys, hys⟩ := hx
      cases w with
      | nil => exact absurd rfl hw
      | cons y w =>
        obtain ⟨rfl, rfl⟩ := List.cons.inj hys
        rw [splitFrom, if_pos ⟨ys, hys⟩]
        simpa [split] using splitFrom_skip (y :: w) [] w ys
    · rw [find, if_neg hx, Option.map_eq_some_iff] at h
      obtain ⟨k, hk, rfl⟩ := h
      rw [splitFrom, if_neg hx, ih hk, Nat.add_right_comm]
      simp

theorem split_none {w xs : List α} (h : find w xs = none) : split w xs = [xs] :=
  splitFrom_none h []

theorem split_some {w xs : List α} {i : Nat} (hw : w ≠ []) (h : find w xs = some i) :
    split w xs = xs.take i :: split w (xs.drop (i + w.length)) :=
  splitFrom_some hw h []

/-- The word does not occur in the parts. -/
theorem find_of_mem_split {w xs part : List α} (hw : w ≠ []) (h : part ∈ split w xs) :
    find w part = none := by
  induction hn : xs.length using Nat.strong_induction_on generalizing xs with
  | _ n ih =>
    cases hfind : find w xs with
    | none =>
      rw [split_none hfind, List.mem_singleton] at h
      rwa [h]
    | some i =>
      obtain ⟨hi, hfirst⟩ := find_eq_some_iff.1 hfind
      rw [split_some hw hfind] at h
      rcases List.mem_cons.1 h with rfl | h
      · refine find_eq_none_iff.2 fun j hj => ?_
        have hlen := hj.length_le
        rw [List.length_take] at hlen
        have hpos := List.length_pos_iff.2 hw
        refine hfirst j (by omega) ?_
        have := hj.append (xs.drop i)
        rwa [List.take_append_drop] at this
      · refine ih _ ?_ h rfl
        have hlen := hi.length_le
        have hpos := List.length_pos_iff.2 hw
        rw [List.length_drop]
        omega

theorem split_ne_nil (w xs : List α) : split w xs ≠ [] := by
  have h : ∀ (xs part : List α) (skip : Nat), splitFrom w skip part xs ≠ [] := by
    intro xs
    induction xs with
    | nil => intro part skip; simp [splitFrom]
    | cons x xs ih =>
      intro part skip
      cases skip with
      | succ skip => exact ih part skip
      | zero =>
        rw [splitFrom]
        split
        · exact List.cons_ne_nil _ _
        · exact ih _ 0
  exact h xs [] 0

theorem find_none_between {w pre xs post : List α} (h : find w (pre ++ xs ++ post) = none) :
    find w xs = none :=
  find_eq_none_iff.2 fun _ hi => find_eq_none_iff.1 h _ (hi.between pre post)

/-- The parts, with the word in between, are the list. -/
theorem intercalate_split {w xs : List α} (hw : w ≠ []) : w.intercalate (split w xs) = xs := by
  induction hn : xs.length using Nat.strong_induction_on generalizing xs with
  | _ n ih =>
    cases hfind : find w xs with
    | none =>
      rw [split_none hfind]
      simp
    | some i =>
      obtain ⟨hi, -⟩ := find_eq_some_iff.1 hfind
      have hlen := hi.length_le
      have hpos := List.length_pos_iff.2 hw
      have hshort : (xs.drop (i + w.length)).length < n := by
        rw [List.length_drop]
        omega
      have hrest := ih _ hshort rfl
      rw [split_some hw hfind, List.intercalate_cons_of_ne_nil (split_ne_nil _ _), hrest]
      exact hi.eq_append.symm

end MechLidar.Lib
