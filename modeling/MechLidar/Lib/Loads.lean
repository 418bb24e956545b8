import MechLidar.Lib.Labelled

/-!
# MechLidar.Lib.Loads

A thread that only loads shared members, one at a time, while the other threads go on.

* `Loads σ ρ`: what is left to do before such a thread returns
* `Sees step s p as t r`: begun in `s`, `p` returns `r` in `t`, and the others made the steps `as`
  meanwhile
* `Sees.load_iff`, `Sees.bind_iff`: the states in which the members were loaded
* `Monitor step body`: a thread that calls `body` again and again, next to the others. `body` gets
  what the thread keeps between two calls, and may report something.
* `Calls`: the same run, one call at a time. `calls_iff_runs` says that the two are the same.
* `Calls.split`: where in a run a report was made
-/

namespace MechLidar.Lib

variable {σ α κ ρ ρ' : Type} {step : σ → α → σ → Prop}

inductive Loads (σ ρ : Type) where
  | done (r : ρ)
  | load (next : σ → Loads σ ρ)

namespace Loads

def bind : Loads σ ρ → (ρ → Loads σ ρ') → Loads σ ρ'
  | .done r, f => f r
  | .load next, f => .load fun s => (next s).bind f

instance : Monad (Loads σ) where
  pure := .done
  bind := bind

/-- One atomic load of a member. -/
def get (member : σ → ρ) : Loads σ ρ := .load fun s => .done (member s)

/-- What the thread returns if nobody else does anything. -/
def eval (s : σ) : Loads σ ρ → ρ
  | .done r => r
  | .load next => (next s).eval s

@[simp] theorem pure_eq (r : ρ) : (pure r : Loads σ ρ) = .done r := rfl

@[simp] theorem done_bind (r : ρ) (f : ρ → Loads σ ρ') : (Loads.done r >>= f) = f r := rfl

@[simp] theorem get_bind (member : σ → ρ) (f : ρ → Loads σ ρ') :
    (get member >>= f) = .load fun s => f (member s) := rfl

@[simp] theorem eval_done (s : σ) (r : ρ) : (Loads.done r).eval s = r := rfl

@[simp] theorem eval_get (s : σ) (member : σ → ρ) : (get member).eval s = member s := rfl

@[simp] theorem eval_load (s : σ) (next : σ → Loads σ ρ) :
    (Loads.load next).eval s = (next s).eval s := rfl

@[simp] theorem eval_ite (s : σ) (c : Prop) [Decidable c] (p q : Loads σ ρ) :
    (if c then p else q).eval s = if c then p.eval s else q.eval s := apply_ite ..

@[simp] theorem eval_bind (s : σ) (p : Loads σ ρ) (f : ρ → Loads σ ρ') :
    (p >>= f).eval s = (f (p.eval s)).eval s := by
  induction p with
  | done r => rfl
  | load next ih => exact ih s

end Loads

/-! ## One call -/

inductive Sees (step : σ → α → σ → Prop) : σ → Loads σ ρ → List α → σ → ρ → Prop where
  | done {s : σ} {r : ρ} : Sees step s (.done r) [] s r
  | load {s t : σ} {next : σ → Loads σ ρ} {as : List α} {r : ρ} :
      Sees step s (next s) as t r → Sees step s (.load next) as t r
  | other {s t u : σ} {p : Loads σ ρ} {a : α} {as : List α} {r : ρ} :
      step s a t → Sees step t p as u r → Sees step s p (a :: as) u r

namespace Sees

variable {s t u : σ} {as bs : List α} {r : ρ}

/-- A reader never waits for the others. -/
theorem alone (s : σ) (p : Loads σ ρ) : Sees step s p [] s (p.eval s) := by
  induction p with
  | done r => exact .done
  | load next ih => exact .load (ih s)

/-- The others do not notice the reader. -/
theorem runs {p : Loads σ ρ} (h : Sees step s p as t r) : Runs step s as t := by
  induction h with
  | done => exact .start
  | load _ ih => exact ih
  | other hs _ ih => exact .cons hs ih

theorem after {p : Loads σ ρ} (hs : Runs step s as t) (h : Sees step t p bs u r) :
    Sees step s p (as ++ bs) u r := by
  induction hs generalizing bs with
  | start => exact h
  | after _ hstep ih => simpa using ih (.other hstep h)

/-- The others go on after the thread has returned. -/
theorem before {p : Loads σ ρ} (h : Sees step s p as t r) (hs : Runs step t bs u) :
    Sees step s p (as ++ bs) u r := by
  induction h with
  | done => simpa using after hs .done
  | load _ ih => exact .load (ih hs)
  | other hstep _ ih => exact .other hstep (ih hs)

/-- A thread that has returned only sees the others go on. -/
theorem done_iff {r' : ρ} : Sees step s (.done r') as t r ↔ Runs step s as t ∧ r' = r := by
  constructor
  · intro h
    refine ⟨h.runs, ?_⟩
    generalize hp : Loads.done r' = p at h
    induction h with
    | done => exact Loads.done.inj hp
    | load _ _ => cases hp
    | other _ _ ih => exact ih hp
  · rintro ⟨h, rfl⟩
    simpa using after h .done

theorem load_iff {next : σ → Loads σ ρ} :
    Sees step s (.load next) as u r ↔
      ∃ t bs cs, as = bs ++ cs ∧ Runs step s bs t ∧ Sees step t (next t) cs u r := by
  constructor
  · intro h
    generalize hp : Loads.load next = p at h
    induction h with
    | done => cases hp
    | load h _ =>
      cases hp
      exact ⟨_, [], _, rfl, .start, h⟩
    | other hs _ ih =>
      obtain ⟨t, bs, cs, rfl, hruns, hnext⟩ := ih hp
      exact ⟨t, _ :: bs, cs, rfl, .cons hs hruns, hnext⟩
  · rintro ⟨t, bs, cs, rfl, hruns, hnext⟩
    exact after hruns (.load hnext)

theorem bind_iff {p : Loads σ ρ'} {f : ρ' → Loads σ ρ} :
    Sees step s (p >>= f) as u r ↔
      ∃ t bs cs x, as = bs ++ cs ∧ Sees step s p bs t x ∧ Sees step t (f x) cs u r := by
  induction p generalizing s as with
  | done x =>
    constructor
    · intro h
      exact ⟨s, [], as, x, rfl, .done, h⟩
    · rintro ⟨t, bs, cs, x', rfl, hp, hf⟩
      obtain ⟨hruns, rfl⟩ := done_iff.1 hp
      exact after hruns hf
  | load next ih =>
    have hload : (Loads.load next >>= f) = .load fun s => next s >>= f := rfl
    rw [hload, load_iff]
    constructor
    · rintro ⟨v, bs, cs, rfl, hruns, hnext⟩
      obtain ⟨t, bs', cs', x, rfl, hp, hf⟩ := (ih v).1 hnext
      exact ⟨t, bs ++ bs', cs', x, (List.append_assoc ..).symm, after hruns (.load hp), hf⟩
    · rintro ⟨t, bs, cs, x, rfl, hp, hf⟩
      obtain ⟨v, bs₁, bs₂, rfl, hruns, hnext⟩ := load_iff.1 hp
      exact ⟨v, bs₁, bs₂ ++ cs, List.append_assoc .., hruns,
        (ih v).2 ⟨t, bs₂, cs, x, rfl, hnext, hf⟩⟩

/-- A member is loaded, and then the rest. -/
theorem get_bind_iff {member : σ → ρ'} {f : ρ' → Loads σ ρ} :
    Sees step s (Loads.get member >>= f) as u r ↔
      ∃ t bs cs, as = bs ++ cs ∧ Runs step s bs t ∧ Sees step t (f (member t)) cs u r :=
  load_iff

end Sees

/-! ## Consecutive calls -/

/-- The shared state, what the thread keeps between two calls, and what is left to do of the call
that is under way. -/
structure Monitored (σ κ ρ : Type) where
  state : σ
  kept : κ
  call : Option (Loads σ (κ × Option ρ))

/-- What is seen of a step: it is one of the others, or the thread begins a call, loads a member or
returns. -/
inductive Seen (α ρ : Type) where
  | other (a : α)
  | called
  | loaded
  | returned (report : Option ρ)

namespace Seen

@[simp] def action : Seen α ρ → Option α
  | .other a => some a
  | _ => none

@[simp] def report : Seen α ρ → Option ρ
  | .returned report => report
  | _ => none

end Seen

/-- The steps of the others in a run. -/
def others (ls : List (Seen α ρ)) : List α := ls.filterMap Seen.action

def reports (ls : List (Seen α ρ)) : List ρ := ls.filterMap Seen.report

@[simp] theorem others_nil : others ([] : List (Seen α ρ)) = [] := rfl

@[simp] theorem reports_nil : reports ([] : List (Seen α ρ)) = [] := rfl

@[simp] theorem others_cons (l : Seen α ρ) (ls : List (Seen α ρ)) :
    others (l :: ls) = l.action.toList ++ others ls := by
  cases l <;> rfl

@[simp] theorem reports_cons (l : Seen α ρ) (ls : List (Seen α ρ)) :
    reports (l :: ls) = l.report.toList ++ reports ls := by
  cases l with
  | returned report => cases report <;> rfl
  | _ => rfl

@[simp] theorem others_append (ls ls' : List (Seen α ρ)) :
    others (ls ++ ls') = others ls ++ others ls' := List.filterMap_append

@[simp] theorem reports_append (ls ls' : List (Seen α ρ)) :
    reports (ls ++ ls') = reports ls ++ reports ls' := List.filterMap_append

variable {body : κ → Loads σ (κ × Option ρ)}

inductive Monitor (step : σ → α → σ → Prop) (body : κ → Loads σ (κ × Option ρ)) :
    Monitored σ κ ρ → Seen α ρ → Monitored σ κ ρ → Prop where
  | other {s t : σ} {k : κ} {call : Option (Loads σ (κ × Option ρ))} {a : α} (h : step s a t) :
      Monitor step body ⟨s, k, call⟩ (.other a) ⟨t, k, call⟩
  | call {s : σ} {k : κ} : Monitor step body ⟨s, k, none⟩ .called ⟨s, k, some (body k)⟩
  | load {s : σ} {k : κ} {next : σ → Loads σ (κ × Option ρ)} :
      Monitor step body ⟨s, k, some (.load next)⟩ .loaded ⟨s, k, some (next s)⟩
  | ret {s : σ} {k k' : κ} {report : Option ρ} :
      Monitor step body ⟨s, k, some (.done (k', report))⟩ (.returned report) ⟨s, k', none⟩

inductive Calls (step : σ → α → σ → Prop) (body : κ → Loads σ (κ × Option ρ)) (s : σ) (k : κ) :
    List α → List ρ → σ → κ → Prop where
  | start : Calls step body s k [] [] s k
  | other {as : List α} {rs : List ρ} {t u : σ} {k' : κ} {a : α} :
      Calls step body s k as rs t k' → step t a u → Calls step body s k (as ++ [a]) rs u k'
  | call {as bs : List α} {rs : List ρ} {t u : σ} {k' k'' : κ} {report : Option ρ} :
      Calls step body s k as rs t k' → Sees step t (body k') bs u (k'', report) →
      Calls step body s k (as ++ bs) (rs ++ report.toList) u k''

namespace Calls

variable {s t : σ} {k k' : κ} {as : List α} {rs : List ρ}

theorem runs (h : Calls step body s k as rs t k') : Runs step s as t := by
  induction h with
  | start => exact .start
  | other _ hs ih => exact ih.after hs
  | call _ hsees ih => exact ih.trans hsees.runs

/-- The thread waits. -/
theorem idle {bs : List α} {u : σ} (h : Calls step body s k as rs t k')
    (hs : Runs step t bs u) : Calls step body s k (as ++ bs) rs u k' := by
  induction hs with
  | start => simpa using h
  | after _ hstep ih => simpa using ih.other hstep

/-- A call that nothing interrupts. -/
theorem report {k'' : κ} {r : ρ} (h : Calls step body s k as rs t k')
    (hr : (body k').eval t = (k'', some r)) : Calls step body s k as (rs ++ [r]) t k'' := by
  have hsees := @Sees.alone _ _ _ step t (body k')
  rw [hr] at hsees
  simpa using h.call hsees

/-- The call that made a report, and the calls before and after it. -/
theorem split {before after : List ρ} {r : ρ}
    (h : Calls step body s k as (before ++ r :: after) t k') :
    ∃ u v k₁ k₂ as₁ as₂ as₃, as = as₁ ++ as₂ ++ as₃ ∧ Calls step body s k as₁ before u k₁ ∧
      Sees step u (body k₁) as₂ v (k₂, some r) ∧ Calls step body v k₂ as₃ after t k' := by
  generalize hrs : before ++ r :: after = rs at h
  induction h generalizing after with
  | start => simp at hrs
  | other _ hs ih =>
    obtain ⟨u, v, k₁, k₂, as₁, as₂, as₃, rfl, hbefore, hsees, hafter⟩ := ih hrs
    exact ⟨u, v, k₁, k₂, as₁, as₂, as₃ ++ [_], by simp, hbefore, hsees, hafter.other hs⟩
  | @call as bs rs t w k' k'' report hcalls hlast ih =>
    cases report with
    | none =>
      obtain ⟨u, v, k₁, k₂, as₁, as₂, as₃, rfl, hbefore, hsees, hafter⟩ := ih (by simpa using hrs)
      refine ⟨u, v, k₁, k₂, as₁, as₂, as₃ ++ bs, by simp, hbefore, hsees, ?_⟩
      simpa using hafter.call hlast
    | some x =>
      -- the report is the last one, or an earlier one
      rcases List.eq_nil_or_concat after with rfl | ⟨after, y, rfl⟩
      · obtain ⟨rfl, rfl⟩ : before = rs ∧ r = x := by simpa using hrs
        exact ⟨t, w, k', k'', as, bs, [], by simp, hcalls, hlast, .start⟩
      · have hinit : (before ++ r :: after) ++ [y] = rs ++ [x] := by simpa using hrs
        obtain ⟨rfl, hxy⟩ := List.append_inj' hinit rfl
        obtain rfl : y = x := by simpa using hxy
        obtain ⟨u, v, k₁, k₂, as₁, as₂, as₃, rfl, hbefore, hsees, hafter⟩ := ih rfl
        refine ⟨u, v, k₁, k₂, as₁, as₂, as₃ ++ bs, by simp, hbefore, hsees, ?_⟩
        simpa using hafter.call hlast

end Calls

/-! ## Interleavings -/

/-- A call, one load at a time. -/
theorem Sees.monitor {s t : σ} {p : Loads σ (κ × Option ρ)} {as : List α} {x : κ × Option ρ}
    (h : Sees step s p as t x) (k : κ) :
    ∃ ls, Runs (Monitor step body) ⟨s, k, some p⟩ ls ⟨t, k, some (.done x)⟩ ∧ others ls = as ∧
      reports ls = [] := by
  induction h with
  | done => exact ⟨[], .start, rfl, rfl⟩
  | load _ ih =>
    obtain ⟨ls, hruns, hothers, hreports⟩ := ih
    exact ⟨.loaded :: ls, .cons .load hruns, by simpa using hothers, by simpa using hreports⟩
  | @other _ _ _ _ a _ _ hs _ ih =>
    obtain ⟨ls, hruns, rfl, hreports⟩ := ih
    exact ⟨.other a :: ls, .cons (.other hs) hruns, by simp, by simpa using hreports⟩

/-- What a run is, between two calls and in one: whatever the rest of the call sees, it has seen
all of it since it began. -/
def Monitored.Follows (step : σ → α → σ → Prop) (body : κ → Loads σ (κ × Option ρ)) (s : σ) (k : κ)
    (ls : List (Seen α ρ)) (m : Monitored σ κ ρ) : Prop :=
  match m.call with
  | none => Calls step body s k (others ls) (reports ls) m.state m.kept
  | some p => ∃ u as bs, Calls step body s k as (reports ls) u m.kept ∧ others ls = as ++ bs ∧
      ∀ cs v x, Sees step m.state p cs v x → Sees step u (body m.kept) (bs ++ cs) v x

theorem Monitored.follows {s : σ} {k : κ} {ls : List (Seen α ρ)} {m : Monitored σ κ ρ}
    (h : Runs (Monitor step body) ⟨s, k, none⟩ ls m) : m.Follows step body s k ls := by
  refine h.invariant (P := fun ls m => m.Follows step body s k ls) .start ?_
  intro ls m l m' ih hstep
  cases hstep with
  | @other s t k' call a hs =>
    cases call with
    | none => simpa [Follows] using Calls.other ih hs
    | some p =>
      obtain ⟨u, as, bs, hcalls, hothers, hrest⟩ := ih
      refine ⟨u, as, bs ++ [a], by simpa using hcalls, by simp [hothers], ?_⟩
      intro cs v x hsees
      simpa using hrest (a :: cs) v x (.other hs hsees)
  | call =>
    refine ⟨_, others ls, [], by simpa [Follows] using ih, by simp, ?_⟩
    intro cs v x hsees
    exact hsees
  | load =>
    obtain ⟨u, as, bs, hcalls, hothers, hrest⟩ := ih
    refine ⟨u, as, bs, by simpa using hcalls, by simpa using hothers, ?_⟩
    intro cs v x hsees
    exact hrest cs v x (.load hsees)
  | @ret s k' k'' report =>
    obtain ⟨u, as, bs, hcalls, hothers, hrest⟩ := ih
    have hsees : Sees step u (body k') bs s (k'', report) := by
      simpa using hrest [] s (k'', report) .done
    simpa [Follows, hothers] using hcalls.call hsees

theorem Calls.monitor {s t : σ} {k k' : κ} {as : List α} {rs : List ρ}
    (h : Calls step body s k as rs t k') :
    ∃ ls, Runs (Monitor step body) ⟨s, k, none⟩ ls ⟨t, k', none⟩ ∧ others ls = as ∧
      reports ls = rs := by
  induction h with
  | start => exact ⟨[], .start, rfl, rfl⟩
  | @other _ _ _ _ _ a _ hs ih =>
    obtain ⟨ls, hruns, rfl, rfl⟩ := ih
    exact ⟨ls ++ [.other a], hruns.after (.other hs), by simp, by simp⟩
  | @call _ _ _ _ _ k' k'' report _ hsees ih =>
    obtain ⟨ls, hruns, rfl, rfl⟩ := ih
    obtain ⟨ls', hcall, rfl, hnone⟩ := @Sees.monitor _ _ _ _ _ body _ _ _ _ _ hsees k'
    refine ⟨ls ++ ([.called] ++ (ls' ++ [.returned report])), ?_, by simp, by simp [hnone]⟩
    exact hruns.trans (.trans (.single .call) (hcall.after .ret))

/-- Between two calls, the runs step by step are the runs call by call. -/
theorem calls_iff_runs {s t : σ} {k k' : κ} {as : List α} {rs : List ρ} :
    Calls step body s k as rs t k' ↔
      ∃ ls, Runs (Monitor step body) ⟨s, k, none⟩ ls ⟨t, k', none⟩ ∧ others ls = as ∧
        reports ls = rs := by
  constructor
  · exact Calls.monitor
  · rintro ⟨ls, hruns, rfl, rfl⟩
    exact Monitored.follows hruns

namespace Calls

variable {s t : σ} {k k' : κ} {as : List α} {rs : List ρ}

/-- What holds of every call that reports something holds of every report. -/
theorem forall_reports {P : ρ → Prop} (h : Calls step body s k as rs t k')
    (hP : ∀ {before as₁ u k₁ as₂ v k₂ as₃ r}, as = as₁ ++ as₂ ++ as₃ →
      Calls step body s k as₁ before u k₁ → Sees step u (body k₁) as₂ v (k₂, some r) →
      Runs step v as₃ t → P r) : ∀ r ∈ rs, P r := by
  intro r hr
  obtain ⟨before, after, rfl⟩ := List.append_of_mem hr
  obtain ⟨u, v, k₁, k₂, as₁, as₂, as₃, has, hbefore, hsees, hafter⟩ := h.split
  exact hP has hbefore hsees hafter.runs

/-- What holds of any two calls in their order holds of any two reports in their order. -/
theorem pairwise_reports {R : ρ → ρ → Prop} (h : Calls step body s k as rs t k')
    (hR : ∀ {before as₁ u k₁ as₂ v k₂ between as₃ u' k₃ as₄ v' k₄ r r'},
      as₁ ++ as₂ ++ as₃ ++ as₄ <+: as →
      Calls step body s k as₁ before u k₁ → Sees step u (body k₁) as₂ v (k₂, some r) →
      Calls step body v k₂ as₃ between u' k₃ → Sees step u' (body k₃) as₄ v' (k₄, some r') →
      R r r') : rs.Pairwise R := by
  induction h with
  | start => exact .nil
  | other _ _ ih =>
    exact ih fun hpre => hR (hpre.trans (List.prefix_append _ _))
  | @call as bs rs t v' k₃ k₄ report hcalls hlast ih =>
    have hbefore := ih fun hpre => hR (hpre.trans (List.prefix_append _ _))
    cases report with
    | none => simpa using hbefore
    | some r' =>
      refine List.pairwise_append.2 ⟨hbefore, List.pairwise_singleton _ _, ?_⟩
      intro r hr x hx
      obtain rfl : x = r' := by simpa using hx
      obtain ⟨before, between, rfl⟩ := List.append_of_mem hr
      obtain ⟨u, v, k₁, k₂, as₁, as₂, as₃, rfl, hbefore, hsees, hbetween⟩ := hcalls.split
      exact hR List.prefix_rfl hbefore hsees hbetween hlast

end Calls

/-- All reports of a run are made by calls that have returned, also while the next one is under
way. -/
theorem Monitored.calls {s : σ} {k : κ} {ls : List (Seen α ρ)} {m : Monitored σ κ ρ}
    (h : Runs (Monitor step body) ⟨s, k, none⟩ ls m) :
    ∃ as bs u, others ls = as ++ bs ∧ Calls step body s k as (reports ls) u m.kept ∧
      Runs step u bs m.state := by
  have hfollows := follows h
  obtain ⟨t, k', call⟩ := m
  cases call with
  | none => exact ⟨others ls, [], t, by simp, hfollows, .start⟩
  | some p =>
    obtain ⟨u, as, bs, hcalls, hothers, hrest⟩ := hfollows
    exact ⟨as, bs, u, hothers, hcalls, by simpa using (hrest [] t _ (.alone t p)).runs⟩

end MechLidar.Lib
