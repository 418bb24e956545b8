import MechLidar.Lib.Result

/-!
# MechLidar.Lib.Collect

Loops that append to an output, and that fail at some items.

* `foldlM_ok_iff`: when such a loop ends
* `Collects step out Good f`: the step takes the good items and no others, and what is seen of the
  output grows by `f a`, whatever came before
* `Collects.foldlM`: a loop of such steps is one
* `exists_forall_mem_iff`: one bound for all items of a list
* `foldlM_eq_foldl`: two nested loops as one over all the inner items
* `foldl_numbered`: a loop that counts its items, and appends what depends on the number
-/

namespace MechLidar.Lib

variable {ε τ α β γ : Type}

/-- A loop ends if each of its steps does, whatever the state is. -/
theorem foldlM_ok_iff {step : τ → α → Except ε τ} {Good : α → Prop}
    (h : ∀ s a, (∃ s', step s a = .ok s') ↔ Good a) (l : List α) (s : τ) :
    (∃ s', l.foldlM step s = .ok s') ↔ ∀ a ∈ l, Good a := by
  induction l generalizing s with
  | nil => simp [pure, Except.pure]
  | cons a l ih =>
    simp only [List.foldlM_cons, List.forall_mem_cons, bind_ok_iff]
    constructor
    · intro ⟨s', t, hstep, hrest⟩
      exact ⟨(h s a).1 ⟨t, hstep⟩, (ih t).1 ⟨s', hrest⟩⟩
    · intro ⟨ha, hl⟩
      obtain ⟨t, hstep⟩ := (h s a).2 ha
      obtain ⟨s', hrest⟩ := (ih t).2 hl
      exact ⟨s', t, hstep, hrest⟩

structure Collects (step : τ → α → Except ε τ) (out : τ → List γ) (Good : α → Prop)
    (f : α → List γ) : Prop where
  ok_iff : ∀ s a, (∃ s', step s a = .ok s') ↔ Good a
  out_eq : ∀ {s a s'}, step s a = .ok s' → out s' = out s ++ f a

/-- The items of a loop do not disturb each other, except that one bad item stops all. -/
theorem Collects.foldlM {step : τ → α → Except ε τ} {out : τ → List γ} {Good : α → Prop}
    {f : α → List γ} (h : Collects step out Good f) :
    Collects (fun s (l : List α) => l.foldlM step s) out (fun l => ∀ a ∈ l, Good a)
      (fun l => l.flatMap f) where
  ok_iff := fun s l => foldlM_ok_iff h.ok_iff l s
  out_eq := by
    intro s l s' hrun
    induction l generalizing s with
    | nil =>
      cases hrun
      simp
    | cons a l ih =>
      simp only [List.foldlM_cons, bind_ok_iff] at hrun
      obtain ⟨t, hstep, hrest⟩ := hrun
      rw [ih hrest, h.out_eq hstep, List.flatMap_cons, List.append_assoc]

theorem exists_forall_mem_iff {P : Nat → α → Prop} (hmono : ∀ {m n a}, m ≤ n → P m a → P n a)
    {l : List α} : (∃ n, ∀ a ∈ l, P n a) ↔ ∀ a ∈ l, ∃ n, P n a := by
  constructor
  · intro ⟨n, h⟩ a ha
    exact ⟨n, h a ha⟩
  · intro h
    induction l with
    | nil => exact ⟨0, by simp⟩
    | cons a l ih =>
      obtain ⟨⟨m, hm⟩, hl⟩ := List.forall_mem_cons.mp h
      obtain ⟨n, hn⟩ := ih hl
      refine ⟨max m n, List.forall_mem_cons.mpr ⟨hmono (Nat.le_max_left m n) hm, ?_⟩⟩
      intro b hb
      exact hmono (Nat.le_max_right m n) (hn b hb)

theorem foldlM_eq_foldl {step : τ → α → Except ε τ} {next : τ → β → τ} {items : α → List β}
    (h : ∀ {s a s'}, step s a = .ok s' → s' = (items a).foldl next s) {l : List α} {s s' : τ}
    (hrun : l.foldlM step s = .ok s') : s' = (l.flatMap items).foldl next s := by
  induction l generalizing s with
  | nil =>
    cases hrun
    rfl
  | cons a l ih =>
    simp only [List.foldlM_cons, bind_ok_iff] at hrun
    obtain ⟨t, hstep, hrest⟩ := hrun
    rw [List.flatMap_cons, List.foldl_append, ← h hstep]
    exact ih hrest

theorem foldl_numbered {N : Type} [AddMonoidWithOne N] (f : α → N → List γ) (l : List α) (k : Nat)
    (out : List γ) :
    l.foldl (fun s a => (s.1 + 1, s.2 ++ f a s.1)) ((k : N), out) =
      (((k + l.length : Nat) : N), out ++ (l.zipIdx k).flatMap fun x => f x.1 x.2) := by
  induction l generalizing k out with
  | nil => simp
  | cons a l ih =>
    rw [List.foldl_cons, ← Nat.cast_succ, ih, List.zipIdx_cons, List.flatMap_cons,
      List.append_assoc, List.length_cons, Nat.succ_add_eq_add_succ]

end MechLidar.Lib
