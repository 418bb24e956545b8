import MechLidar.Lib.Result

/-!
# MechLidar.Lib.Swaps

Sequences of steps of which some can be swapped.

* `Swaps indep l l'`: `l'` is `l` after swaps of neighbours that are independent
* `Swaps.foldlM`: swaps keep the result, if two independent steps can be swapped
* `Unlike key a b`: not of the same key, where some items have no key
* `swaps_of_perm`: a permutation that keeps the order of the items of each key consists of swaps
-/

namespace MechLidar.Lib

variable {α ε σ κ : Type}

inductive Swaps (indep : α → α → Prop) : List α → List α → Prop where
  | refl (l : List α) : Swaps indep l l
  | cons (a : α) {l l' : List α} : Swaps indep l l' → Swaps indep (a :: l) (a :: l')
  | swap {a b : α} (l : List α) : indep a b → Swaps indep (a :: b :: l) (b :: a :: l)
  | trans {l l' l'' : List α} : Swaps indep l l' → Swaps indep l' l'' → Swaps indep l l''

namespace Swaps

variable {indep : α → α → Prop} {l l' u v : List α}

/-- An item moves behind items that it is independent of. -/
theorem insert {a : α} (h : ∀ b ∈ u, indep a b) : Swaps indep (a :: (u ++ v)) (u ++ a :: v) := by
  induction u with
  | nil => exact .refl _
  | cons b u ih =>
    obtain ⟨hb, hu⟩ := List.forall_mem_cons.mp h
    exact (swap (u ++ v) hb).trans ((ih hu).cons b)

theorem foldlM {step : σ → α → Except ε σ}
    (hstep : ∀ a b, indep a b → ∀ s t, [a, b].foldlM step s = .ok t → [b, a].foldlM step s = .ok t)
    (h : Swaps indep l l') {s t : σ} (hl : l.foldlM step s = .ok t) :
    l'.foldlM step s = .ok t := by
  induction h generalizing s t with
  | refl l => exact hl
  | cons a _ ih =>
    obtain ⟨s', ha, hl⟩ := bind_ok_iff.mp hl
    exact bind_ok_iff.mpr ⟨s', ha, ih hl⟩
  | @swap a b l hab =>
    have hsplit : ∀ a b : α, (a :: b :: l).foldlM step s =
        [a, b].foldlM step s >>= fun s => l.foldlM step s :=
      fun a b => List.foldlM_append (l := [a, b])
    rw [hsplit] at hl ⊢
    obtain ⟨s', hpair, hl⟩ := bind_ok_iff.mp hl
    exact bind_ok_iff.mpr ⟨s', hstep a b hab s s' hpair, hl⟩
  | trans _ _ ih ih' => exact ih' (ih hl)

end Swaps

/-! ## Items with keys -/

section Keys

variable [DecidableEq κ] (key : α → Option κ)

def Unlike (a b : α) : Prop := ∀ k, key a = some k → key b ≠ some k

/-- The items of one key stand in the same order. -/
def SameOrder (l l' : List α) : Prop :=
  ∀ k, l.filter (fun a => key a = some k) = l'.filter (fun a => key a = some k)

variable {key} {a : α} {l u v : List α}

/-- In front of its first occurrence there are only items that the first one is unlike. -/
theorem SameOrder.unlike (h : SameOrder key (a :: l) (u ++ a :: v)) (ha : a ∉ u) :
    ∀ b ∈ u, Unlike key a b := by
  intro b hb k hk hbk
  have hfilter := h k
  rw [List.filter_append, List.filter_cons_of_pos (by simpa using hk)] at hfilter
  have hmem : b ∈ u.filter (fun x => key x = some k) := by simp [hb, hbk]
  cases hu : u.filter (fun x => key x = some k) with
  | nil =>
    rw [hu] at hmem
    cases hmem
  | cons c cs =>
    rw [hu, List.cons_append] at hfilter
    have hc : c ∈ u.filter (fun x => key x = some k) := by simp [hu]
    obtain rfl : a = c := (List.cons.inj hfilter).1
    exact ha (List.mem_filter.mp hc).1

theorem SameOrder.tail (h : SameOrder key (a :: l) (u ++ a :: v)) (ha : a ∉ u) :
    SameOrder key l (u ++ v) := by
  intro k
  have hfilter := h k
  rw [List.filter_append] at hfilter ⊢
  by_cases hk : key a = some k
  · have hu : u.filter (fun x => key x = some k) = [] := by
      refine List.filter_eq_nil_iff.mpr ?_
      intro b hb
      simpa using h.unlike ha b hb k hk
    rw [List.filter_cons_of_pos (by simpa using hk), List.filter_cons_of_pos (by simpa using hk),
      hu] at hfilter
    rw [hu]
    exact (List.cons.inj hfilter).2
  · rwa [List.filter_cons_of_neg (by simpa using hk),
      List.filter_cons_of_neg (by simpa using hk)] at hfilter

theorem swaps_of_perm {l' : List α} (hperm : l.Perm l') (horder : SameOrder key l l') :
    Swaps (Unlike key) l l' := by
  induction l generalizing l' with
  | nil =>
    rw [List.nil_perm.mp hperm]
    exact .refl _
  | cons a l ih =>
    obtain ⟨u, v, rfl, ha⟩ := List.eq_append_cons_of_mem (hperm.subset List.mem_cons_self)
    have hrest : l.Perm (u ++ v) := (hperm.trans List.perm_middle).cons_inv
    exact ((ih hrest (horder.tail ha)).cons a).trans (.insert (horder.unlike ha))

end Keys

end MechLidar.Lib
