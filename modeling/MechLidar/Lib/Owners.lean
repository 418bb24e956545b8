import MechLidar.Lib.Handles

/-!
# Module Lib.Owners

Several owners of handles, all of them out of one table. Each keeps to its own ones, and the table
hands out none that is open: then nobody meets a handle of somebody else, in any interleaving.

* `hold_map`: the same handles by another name
* `doneBy i es`: what owner `i` does
* `openAfter es`: what is open, whoever has opened it
* `Fresh es`: the rule of the table, which `hold` needs where it is to hold of all of them
* `hold_owners`: the owners together keep to what is open, and have nothing in common
* `owners_apart`: so it is at every use and at every release
-/

namespace MechLidar.Lib

variable {ι η : Type*} [DecidableEq η]

theorem hold_append_iff {held held' : Finset η} {es es' : List (Event η)} :
    hold held (es ++ es') = some held' ↔
      ∃ between, hold held es = some between ∧ hold between es' = some held' := by
  constructor
  · intro h
    induction es generalizing held with
    | nil => exact ⟨held, rfl, h⟩
    | cons e es ih =>
      obtain ⟨next, hnext, h⟩ := Option.bind_eq_some_iff.1 h
      obtain ⟨between, hes, hes'⟩ := ih h
      exact ⟨between, by rw [hold, hnext]; exact hes, hes'⟩
  · rintro ⟨between, hes, hes'⟩
    rw [hold_append hes, hes']

/-- What can be done to its end can be done up to any point. -/
theorem hold_of_prefix {held held' : Finset η} {es es' : List (Event η)} (h : es <+: es')
    (hes' : hold held es' = some held') : ∃ between, hold held es = some between := by
  obtain ⟨rest, rfl⟩ := h
  obtain ⟨between, hbetween, -⟩ := hold_append_iff.1 hes'
  exact ⟨between, hbetween⟩

section Map

variable {θ : Type*} [DecidableEq θ]

/-- Handles by another name. -/
def Event.map (f : η → θ) : Event η → Event θ
  | .acquire h => .acquire (f h)
  | .use h => .use (f h)
  | .release h => .release (f h)

theorem hold_map {f : η → θ} (hf : Function.Injective f) {held held' : Finset η}
    {es : List (Event η)} (h : hold held es = some held') :
    hold (held.image f) (es.map (Event.map f)) = some (held'.image f) := by
  induction es generalizing held with
  | nil =>
    cases h
    rfl
  | cons e es ih =>
    obtain ⟨next, hnext, h⟩ := Option.bind_eq_some_iff.1 h
    have hmem : ∀ x, f x ∈ held.image f ↔ x ∈ held := fun x => hf.mem_finset_image
    have hmapped : (e.map f).next (held.image f) = some (next.image f) := by
      cases e with
      | acquire x =>
        simp only [Event.next, Event.map, hmem] at hnext ⊢
        split at hnext
        · cases hnext
        · next hx =>
          cases hnext
          rw [if_neg hx, Finset.image_insert]
      | use x =>
        simp only [Event.next, Event.map, hmem] at hnext ⊢
        split at hnext
        · next hx =>
          cases hnext
          rw [if_pos hx]
        · cases hnext
      | release x =>
        simp only [Event.next, Event.map, hmem] at hnext ⊢
        split at hnext
        · next hx =>
          cases hnext
          rw [if_pos hx, Finset.image_erase hf]
        · cases hnext
    rw [List.map_cons, hold, hmapped]
    exact ih h

end Map

/-! ## Owners -/

namespace Event

/-- What becomes of the table. -/
def update (table : Finset η) : Event η → Finset η
  | .acquire h => insert h table
  | .use _ => table
  | .release h => table.erase h

theorem next_eq_some_iff {held held' : Finset η} {e : Event η} : e.next held = some held' ↔
    held' = e.update held ∧ (∀ x, e = .acquire x → x ∉ held) ∧
      ∀ x, e = .use x ∨ e = .release x → x ∈ held := by
  cases e <;> simp [next, update, eq_comm, and_comm]

end Event

def openAfter (es : List (ι × Event η)) : Finset η := es.foldl (fun table e => e.2.update table) ∅

/-- The table hands out nothing that is open. -/
def Fresh (es : List (ι × Event η)) : Prop :=
  ∀ before i h after, es = before ++ (i, .acquire h) :: after → h ∉ openAfter before

theorem openAfter_concat (es : List (ι × Event η)) (e : ι × Event η) :
    openAfter (es ++ [e]) = e.2.update (openAfter es) := by
  simp [openAfter]

theorem Fresh.of_prefix {es es' : List (ι × Event η)} (h : Fresh es') (hes : es <+: es') :
    Fresh es := by
  obtain ⟨rest, rfl⟩ := hes
  intro before i x after heq
  exact h before i x (after ++ rest) (by simp [heq])

theorem hold_eq_update {held table : Finset η} {es : List (ι × Event η)}
    (h : hold held (es.map Prod.snd) = some table) :
    table = es.foldl (fun table e => e.2.update table) held := by
  induction es generalizing held with
  | nil => exact (Option.some.inj h).symm
  | cons e es ih =>
    obtain ⟨next, hnext, h⟩ := Option.bind_eq_some_iff.1 h
    obtain ⟨rfl, -⟩ := Event.next_eq_some_iff.1 hnext
    exact ih h

/-- Calls that are in order as they are can be made: the table has not given out what is open. -/
theorem fresh_of_hold {table : Finset η} {es : List (ι × Event η)}
    (h : hold ∅ (es.map Prod.snd) = some table) : Fresh es := by
  rintro before i x after rfl
  rw [List.map_append, hold_append_iff] at h
  obtain ⟨between, hbefore, h⟩ := h
  obtain ⟨next, hnext, -⟩ := Option.bind_eq_some_iff.1 h
  obtain rfl := hold_eq_update hbefore
  exact (Event.next_eq_some_iff.1 hnext).2.1 x rfl

section Owner

variable [DecidableEq ι]

def doneBy (i : ι) (es : List (ι × Event η)) : List (Event η) :=
  es.filterMap fun e => if e.1 = i then some e.2 else none

omit [DecidableEq η]

theorem doneBy_append (i : ι) (es es' : List (ι × Event η)) :
    doneBy i (es ++ es') = doneBy i es ++ doneBy i es' := List.filterMap_append

theorem doneBy_self (i : ι) (e : Event η) : doneBy i [(i, e)] = [e] := by
  simp [doneBy]

theorem doneBy_other {i j : ι} (h : j ≠ i) (e : Event η) : doneBy j [(i, e)] = [] := by
  simp [doneBy, Ne.symm h]

end Owner

/-- What the owners hold is what is open, and no two of them hold the same. -/
structure Apart (table : Finset η) (held : ι → Finset η) : Prop where
  open_iff : ∀ h, h ∈ table ↔ ∃ i, h ∈ held i
  disjoint : ∀ i j h, h ∈ held i → h ∈ held j → i = j

section Apart

variable [DecidableEq ι] {table : Finset η} {held : ι → Finset η} {i : ι} {e : Event η}

omit [DecidableEq η] in
theorem mem_update {next : Finset η} {j : ι} {h : η} :
    h ∈ Function.update held i next j ↔ j = i ∧ h ∈ next ∨ j ≠ i ∧ h ∈ held j := by
  by_cases hj : j = i
  · subst hj
    simp
  · simp [hj]

/-- One owner does something with its own handles. -/
theorem Apart.update (h : Apart table held) {next : Finset η} (hnext : e.next (held i) = some next)
    (hfresh : ∀ x, e = .acquire x → x ∉ table) :
    Apart (e.update table) (Function.update held i next) := by
  obtain ⟨rfl, -, hown⟩ := Event.next_eq_some_iff.1 hnext
  have hmem : ∀ j x, x ∈ held j → x ∈ table := fun j x hx => (h.open_iff x).2 ⟨j, hx⟩
  cases e with
  | acquire x =>
    have hx := hfresh x rfl
    refine ⟨fun y => ?_, fun j k y hj hk => ?_⟩
    · simp only [Event.update, mem_update, Finset.mem_insert, h.open_iff]
      constructor
      · rintro (rfl | ⟨j, hj⟩)
        · exact ⟨i, .inl ⟨rfl, .inl rfl⟩⟩
        · by_cases hji : j = i
          · exact ⟨i, .inl ⟨rfl, .inr (hji ▸ hj)⟩⟩
          · exact ⟨j, .inr ⟨hji, hj⟩⟩
      · rintro ⟨j, ⟨rfl, rfl | hj⟩ | ⟨-, hj⟩⟩
        · exact .inl rfl
        · exact .inr ⟨j, hj⟩
        · exact .inr ⟨j, hj⟩
    · simp only [Event.update, mem_update, Finset.mem_insert] at hj hk
      rcases hj with ⟨rfl, rfl | hj⟩ | ⟨hji, hj⟩
      · rcases hk with ⟨rfl, -⟩ | ⟨-, hk⟩
        · rfl
        · exact absurd (hmem k _ hk) hx
      · rcases hk with ⟨rfl, -⟩ | ⟨-, hk⟩
        · rfl
        · exact h.disjoint _ _ y hj hk
      · rcases hk with ⟨rfl, rfl | hk⟩ | ⟨-, hk⟩
        · exact absurd (hmem j _ hj) hx
        · exact h.disjoint _ _ y hj hk
        · exact h.disjoint _ _ y hj hk
  | use x =>
    show Apart table (Function.update held i (held i))
    rwa [Function.update_eq_self]
  | release x =>
    have hx := hown x (.inr rfl)
    refine ⟨fun y => ?_, fun j k y hj hk => ?_⟩
    · simp only [Event.update, mem_update, Finset.mem_erase, h.open_iff]
      constructor
      · rintro ⟨hyx, j, hj⟩
        by_cases hji : j = i
        · exact ⟨i, .inl ⟨rfl, hyx, hji ▸ hj⟩⟩
        · exact ⟨j, .inr ⟨hji, hj⟩⟩
      · rintro ⟨j, ⟨rfl, hyx, hj⟩ | ⟨hji, hj⟩⟩
        · exact ⟨hyx, j, hj⟩
        · refine ⟨?_, j, hj⟩
          rintro rfl
          exact hji (h.disjoint _ _ _ hj hx)
    · simp only [Event.update, mem_update, Finset.mem_erase] at hj hk
      have hj' : y ∈ held j := by
        rcases hj with ⟨rfl, -, hj⟩ | ⟨-, hj⟩
        · exact hj
        · exact hj
      have hk' : y ∈ held k := by
        rcases hk with ⟨rfl, -, hk⟩ | ⟨-, hk⟩
        · exact hk
        · exact hk
      exact h.disjoint _ _ y hj' hk'

/-! ## Together -/

variable {es : List (ι × Event η)}

theorem hold_owners (hfresh : Fresh es) (hheld : ∀ i, hold ∅ (doneBy i es) = some (held i)) :
    hold ∅ (es.map Prod.snd) = some (openAfter es) ∧ Apart (openAfter es) held := by
  induction es using List.reverseRecOn generalizing held with
  | nil =>
    have hnone : ∀ i, held i = ∅ := fun i => (Option.some.inj (hheld i)).symm
    exact ⟨rfl, fun h => by simp [openAfter, hnone], fun i j h hi => by simp [hnone] at hi⟩
  | append_singleton es e ih =>
    obtain ⟨i, e⟩ := e
    have hbefore : ∀ j, ∃ between, hold ∅ (doneBy j es) = some between ∧
        hold between (doneBy j [(i, e)]) = some (held j) := by
      intro j
      have hj := hheld j
      rw [doneBy_append] at hj
      exact hold_append_iff.1 hj
    choose between hbetween hlast using hbefore
    obtain ⟨htable, hapart⟩ := ih (hfresh.of_prefix (List.prefix_append _ _)) hbetween
    have hnext : e.next (between i) = some (held i) := by
      have hi := hlast i
      rw [doneBy_self] at hi
      simpa [hold] using hi
    have hothers : held = Function.update between i (held i) := by
      funext j
      by_cases hji : j = i
      · subst hji
        simp
      · have hj := hlast j
        rw [doneBy_other hji] at hj
        rw [Function.update_of_ne hji]
        exact (Option.some.inj hj).symm
    have hnew : ∀ x, e = .acquire x → x ∉ openAfter es := by
      rintro x rfl
      exact hfresh es i x [] rfl
    have hown : ∀ x, e = .use x ∨ e = .release x → x ∈ openAfter es := fun x hx =>
      (hapart.open_iff x).2 ⟨i, (Event.next_eq_some_iff.1 hnext).2.2 x hx⟩
    rw [openAfter_concat, List.map_append, hold_append htable, hothers]
    refine ⟨?_, hapart.update hnext hnew⟩
    simpa [hold] using Event.next_eq_some_iff.2 ⟨rfl, hnew, hown⟩

/-- Whatever is used or released is held by who does so, and by nobody else. -/
theorem owners_apart (hfresh : Fresh es) (hheld : ∀ i, ∃ held, hold ∅ (doneBy i es) = some held)
    {before after : List (ι × Event η)} {e : Event η} (hes : es = before ++ (i, e) :: after) :
    ∃ held : ι → Finset η, (∀ j, hold ∅ (doneBy j before) = some (held j)) ∧
      Apart (openAfter before) held ∧
      ∀ x, e = .use x ∨ e = .release x → x ∈ held i ∧ ∀ j, j ≠ i → x ∉ held j := by
  have hcut : before <+: es := ⟨(i, e) :: after, hes.symm⟩
  have hbefore : ∀ j, ∃ held, hold ∅ (doneBy j before) = some held := by
    intro j
    obtain ⟨all, hall⟩ := hheld j
    exact hold_of_prefix (hcut.filterMap _) hall
  choose held hbefore using hbefore
  obtain ⟨-, hapart⟩ := hold_owners (hfresh.of_prefix hcut) hbefore
  refine ⟨held, hbefore, hapart, fun x hx => ?_⟩
  obtain ⟨all, hall⟩ := hheld i
  have hi : doneBy i es = doneBy i before ++ (e :: doneBy i after) := by
    rw [hes, List.append_cons, doneBy_append, doneBy_append, doneBy_self]
    simp
  rw [hi, hold_append (hbefore i), hold] at hall
  obtain ⟨next, hnext, -⟩ := Option.bind_eq_some_iff.1 hall
  have hown := (Event.next_eq_some_iff.1 hnext).2.2 x hx
  exact ⟨hown, fun j hji hj => hji (hapart.disjoint j i x hj hown)⟩

end Apart

end MechLidar.Lib
