import MechLidar.Lib.Labelled

/-!
# MechLidar.Lib.Workers

Threads that go round a loop until they are told to stop, and the thread that owns them.

* `Worker.Step`: `while (ok && running) { call; sleep; }`
* `Duty`: what a step of the owner does to the workers
* `Crew.Step`: a step of the owner or of a worker, in any order
* `Crew.owner_runs`: the owner's part of a run
* `Crew.present_eq`: the workers that are there are those that the owner holds
* `Crew.stopping`: once they are told to stop, only so many steps are left
* `Crew.progress`: until the end there is always a step to make
* `Crew.calls_le`: a worker that is told to stop calls at most once more
-/

namespace MechLidar.Lib

/-- Where the thread stands. `atOk` and `atRunning` are the two parts of the condition. -/
inductive Worker where
  | absent
  | atOk
  | atRunning
  | calling
  | sleeping
  | finished
  | joined
deriving DecidableEq

inductive WorkerMove where
  | checked
  | called
  | returned
  | woke
  | left
deriving DecidableEq

namespace Worker

variable {ok running : Bool} {w v : Worker} {x : WorkerMove}

inductive Step (ok running : Bool) : Worker → WorkerMove → Worker → Prop where
  | ok (h : ok = true) : Step ok running .atOk .checked .atRunning
  | notOk (h : ok = false) : Step ok running .atOk .left .finished
  | call (h : running = true) : Step ok running .atRunning .called .calling
  | notRunning (h : running = false) : Step ok running .atRunning .left .finished
  | ret : Step ok running .calling .returned .sleeping
  | wake : Step ok running .sleeping .woke .atOk

/-- The thread has been started and not been joined. -/
def present : Worker → Bool
  | .absent => false
  | .joined => false
  | _ => true

/-- The steps that are left once `ok` or `running` is false. -/
def rank (running : Bool) : Worker → Nat
  | .atOk => if running then 1 else 2
  | .sleeping => if running then 2 else 3
  | .calling => if running then 3 else 4
  | .atRunning => if running then 4 else 1
  | _ => 0

/-- The calls that are left once `ok` is false. -/
def due : Worker → Nat
  | .atRunning => 1
  | _ => 0

theorem Step.present_eq (h : Step ok running w x v) : v.present = w.present := by
  cases h <;> rfl

theorem rank_le (running : Bool) (w : Worker) : w.rank running ≤ 4 := by
  cases w <;> cases running <;> simp [rank]

theorem Step.rank_lt (h : Step ok running w x v) (hstop : ok = false ∨ running = false) :
    v.rank running < w.rank running := by
  cases h with
  | ok hok =>
    obtain rfl : running = false := by simpa [hok] using hstop
    simp [rank]
  | notOk => cases running <;> simp [rank]
  | call hrunning => simp [rank, hrunning]
  | notRunning hrunning => simp [rank, hrunning]
  | ret => cases running <;> simp [rank]
  | wake => cases running <;> simp [rank]

/-- A call that begins is the one that was left. -/
theorem Step.due_le (h : Step false running w x v) :
    (if x = .called then 1 else 0) + v.due ≤ w.due := by
  cases h with
  | ok hok => cases hok
  | _ => simp [due]

/-- A thread that is there has finished or goes on. -/
theorem exists_step (ok running : Bool) (h : w.present = true) (hw : w ≠ .finished) :
    ∃ x v, Step ok running w x v := by
  cases w with
  | absent => cases h
  | joined => cases h
  | finished => exact absurd rfl hw
  | atOk =>
    cases ok with
    | true => exact ⟨_, _, .ok rfl⟩
    | false => exact ⟨_, _, .notOk rfl⟩
  | atRunning =>
    cases running with
    | true => exact ⟨_, _, .call rfl⟩
    | false => exact ⟨_, _, .notRunning rfl⟩
  | calling => exact ⟨_, _, .ret⟩
  | sleeping => exact ⟨_, _, .wake⟩

end Worker

inductive Duty (ι : Type) where
  | none
  /-- `running = true` -/
  | raise (i : ι)
  | start (i : ι)
  /-- `running = false` -/
  | clear (i : ι)
  | join (i : ι)

namespace Duty

variable {ι : Type} [DecidableEq ι]

def flags (running : ι → Bool) : Duty ι → ι → Bool
  | .raise i => Function.update running i true
  | .clear i => Function.update running i false
  | _ => running

def workers (worker : ι → Worker) : Duty ι → ι → Worker
  | .start i => Function.update worker i .atOk
  | .join i => Function.update worker i .joined
  | _ => worker

def held (holds : ι → Bool) : Duty ι → ι → Bool
  | .start i => Function.update holds i true
  | .join i => Function.update holds i false
  | _ => holds

end Duty

/-- The steps of the owner, which depend on `ok`. -/
structure Owner (ω κ ι : Type) where
  step : Bool → ω → κ → ω → Prop
  duty : κ → Duty ι
  /-- The threads that have been started and not been joined. -/
  holds : ω → ι → Bool
  /-- No flag is raised any more. -/
  leaving : ω → Bool
  /-- The process has ended. -/
  ended : ω → Bool

structure Crew (ω ι : Type) where
  owner : ω
  ok : Bool
  running : ι → Bool
  worker : ι → Worker

inductive CrewAction (κ ι : Type) where
  /-- `ok` turns false. -/
  | shutdown
  | owner (k : κ)
  | worker (i : ι) (x : WorkerMove)

namespace CrewAction

variable {κ ι : Type}

def ofOwner : CrewAction κ ι → Option κ
  | .owner k => some k
  | _ => none

/-- Neither the environment nor an idle step of the owner. -/
def busy (idle : κ → Bool) : CrewAction κ ι → Bool
  | .shutdown => false
  | .owner k => !idle k
  | .worker _ _ => true

/-- The worker begins a call. -/
def callsOf [DecidableEq ι] (i : ι) : CrewAction κ ι → Bool
  | .worker j .called => j = i
  | _ => false

end CrewAction

namespace Crew

variable {ω κ ι : Type} [DecidableEq ι] {o : Owner ω κ ι} {c c' : Crew ω ι}
  {a : CrewAction κ ι} {as : List (CrewAction κ ι)}

inductive Step (o : Owner ω κ ι) : Crew ω ι → CrewAction κ ι → Crew ω ι → Prop where
  | shutdown {c : Crew ω ι} : Step o c .shutdown { c with ok := false }
  | owner {c : Crew ω ι} {k : κ} {w : ω} (h : o.step c.ok c.owner k w)
      (hjoin : ∀ i, o.duty k = .join i → c.worker i = .finished) :
      Step o c (.owner k)
        ⟨w, c.ok, (o.duty k).flags c.running, (o.duty k).workers c.worker⟩
  | worker {c : Crew ω ι} {i : ι} {x : WorkerMove} {v : Worker} (hended : o.ended c.owner = false)
      (h : Worker.Step c.ok (c.running i) (c.worker i) x v) :
      Step o c (.worker i x) { c with worker := Function.update c.worker i v }

def initial (w : ω) : Crew ω ι := ⟨w, true, fun _ => false, fun _ => .absent⟩

/-! ## The owner -/

/-- What is seen of the owner. -/
def ownerActions (as : List (CrewAction κ ι)) : List κ := as.filterMap CrewAction.ofOwner

omit [DecidableEq ι] in
theorem ownerActions_concat (as : List (CrewAction κ ι)) (a : CrewAction κ ι) :
    ownerActions (as ++ [a]) = ownerActions as ++ a.ofOwner.toList := by
  cases a <;> simp [ownerActions, CrewAction.ofOwner]

omit [DecidableEq ι] in
theorem mem_ownerActions {k : κ} : k ∈ ownerActions as ↔ .owner k ∈ as := by
  rw [ownerActions, List.mem_filterMap]
  constructor
  · rintro ⟨a, ha, hk⟩
    cases a with
    | owner k' =>
      obtain rfl : k' = k := by simpa [CrewAction.ofOwner] using hk
      exact ha
    | _ => simp [CrewAction.ofOwner] at hk
  · intro h
    exact ⟨_, h, rfl⟩

/-- Workers do not disturb the owner. -/
theorem owner_runs (h : Runs (Step o) c as c') :
    Runs (fun w k w' => ∃ ok, o.step ok w k w') c.owner (ownerActions as) c'.owner := by
  induction h with
  | start => exact .start
  | after _ hs ih =>
    cases hs with
    | shutdown => simpa [ownerActions_concat, CrewAction.ofOwner] using ih
    | owner hown =>
      rw [ownerActions_concat]
      exact ih.after ⟨_, hown⟩
    | worker => simpa [ownerActions_concat, CrewAction.ofOwner] using ih

/-- The owner keeps account of the threads. -/
def Accounts (o : Owner ω κ ι) : Prop :=
  ∀ ok w k w', o.step ok w k w' → o.holds w' = (o.duty k).held (o.holds w)

theorem Step.present_eq (haccounts : Accounts o) (h : Step o c a c')
    (hc : ∀ i, (c.worker i).present = o.holds c.owner i) (i : ι) :
    (c'.worker i).present = o.holds c'.owner i := by
  cases h with
  | shutdown => exact hc i
  | @owner k w hown hjoin =>
    rw [haccounts _ _ _ _ hown]
    cases o.duty k with
    | start j =>
      by_cases hij : i = j
      · simp [Duty.workers, Duty.held, hij, Worker.present]
      · simpa [Duty.workers, Duty.held, hij] using hc i
    | join j =>
      by_cases hij : i = j
      · simp [Duty.workers, Duty.held, hij, Worker.present]
      · simpa [Duty.workers, Duty.held, hij] using hc i
    | _ => exact hc i
  | @worker j x v hended hs =>
    by_cases hij : i = j
    · subst hij
      simpa [hs.present_eq] using hc i
    · simpa [hij] using hc i

theorem present_eq (haccounts : Accounts o) (h : Runs (Step o) c as c')
    (hc : ∀ i, (c.worker i).present = o.holds c.owner i) (i : ι) :
    (c'.worker i).present = o.holds c'.owner i :=
  h.invariant (P := fun _ c => ∀ i, (c.worker i).present = o.holds c.owner i) hc
    (fun _ _ _ _ hc hs => hs.present_eq haccounts hc) i

/-! ## The end -/

/-- `rest` is how many steps the owner has left at most, once it is told to stop or leaves, idle
ones apart. -/
structure Ends (o : Owner ω κ ι) (idle : κ → Bool) (rest : ω → Nat) : Prop where
  leaves : ∀ {ok w k w'}, o.step ok w k w' → o.leaving w = true →
    o.leaving w' = true ∧ ∀ i, o.duty k ≠ .raise i
  busy : ∀ {ok w k w'}, o.step ok w k w' → ok = false ∨ o.leaving w = true → idle k = false →
    rest w' < rest w
  idle : ∀ {ok w k w'}, o.step ok w k w' → idle k = true →
    rest w' ≤ rest w ∧ o.duty k = .none

/-- Everybody is told to stop. -/
def Stopping (o : Owner ω κ ι) (c : Crew ω ι) : Prop :=
  c.ok = false ∨ o.leaving c.owner = true ∧ ∀ i, c.running i = false

omit [DecidableEq ι] in
theorem Stopping.stopped (h : Stopping o c) (i : ι) : c.ok = false ∨ c.running i = false :=
  h.imp_right fun hleaving => hleaving.2 i

variable {idle : κ → Bool} {rest : ω → Nat}

theorem flags_of_leaving {d : Duty ι} {running : ι → Bool} (hd : ∀ i, d ≠ .raise i)
    (h : ∀ i, running i = false) (i : ι) : d.flags running i = false := by
  cases d with
  | raise j => exact absurd rfl (hd j)
  | clear j =>
    by_cases hij : i = j
    · simp [Duty.flags, hij]
    · simpa [Duty.flags, hij] using h i
  | _ => exact h i

theorem Step.stopping (hends : Ends o idle rest) (h : Step o c a c') (hc : Stopping o c) :
    Stopping o c' := by
  cases h with
  | shutdown => exact .inl rfl
  | owner hown =>
    rcases hc with hok | ⟨hleaving, hflags⟩
    · exact .inl hok
    · obtain ⟨hleaving', hraise⟩ := hends.leaves hown hleaving
      exact .inr ⟨hleaving', flags_of_leaving hraise hflags⟩
  | worker => exact hc

variable [Fintype ι]

def work (rest : ω → Nat) (c : Crew ω ι) : Nat :=
  5 * rest c.owner + ∑ i, (c.worker i).rank (c.running i)

/-- A duty concerns one worker. -/
theorem sum_rank_le (d : Duty ι) (running : ι → Bool) (worker : ι → Worker) :
    ∑ i, (d.workers worker i).rank (d.flags running i) ≤
      (∑ i, (worker i).rank (running i)) + 4 := by
  have hone : ∀ j, (∀ i, i ≠ j → d.workers worker i = worker i ∧ d.flags running i = running i) →
      ∑ i, (d.workers worker i).rank (d.flags running i) ≤
        (∑ i, (worker i).rank (running i)) + 4 := by
    intro j hframe
    rw [← Finset.add_sum_erase _ _ (Finset.mem_univ j),
      ← Finset.add_sum_erase _ (fun i => (worker i).rank (running i)) (Finset.mem_univ j)]
    have hrest : ∑ i ∈ Finset.univ.erase j, (d.workers worker i).rank (d.flags running i) =
        ∑ i ∈ Finset.univ.erase j, (worker i).rank (running i) := by
      refine Finset.sum_congr rfl fun i hi => ?_
      obtain ⟨hworker, hflag⟩ := hframe i (Finset.ne_of_mem_erase hi)
      rw [hworker, hflag]
    have hrank := Worker.rank_le (d.flags running j) (d.workers worker j)
    omega
  cases d with
  | none => exact Nat.le_add_right _ _
  | raise j => exact hone j fun i hi => by simp [Duty.workers, Duty.flags, hi]
  | start j => exact hone j fun i hi => by simp [Duty.workers, Duty.flags, hi]
  | clear j => exact hone j fun i hi => by simp [Duty.workers, Duty.flags, hi]
  | join j => exact hone j fun i hi => by simp [Duty.workers, Duty.flags, hi]

theorem Step.work_le (hends : Ends o idle rest) (h : Step o c a c') (hc : Stopping o c) :
    (if a.busy idle then 1 else 0) + work rest c' ≤ work rest c := by
  cases h with
  | shutdown => simp [CrewAction.busy, work]
  | @owner k w hown hjoin =>
    cases hidle : idle k with
    | true =>
      obtain ⟨hrest, hduty⟩ := hends.idle hown hidle
      simp only [CrewAction.busy, hidle, Bool.not_true, Bool.false_eq_true, if_false, work, hduty,
        Duty.workers, Duty.flags]
      omega
    | false =>
      have hrest := hends.busy hown (hc.imp_right And.left) hidle
      have hsum := sum_rank_le (o.duty k) c.running c.worker
      simp only [CrewAction.busy, hidle, Bool.not_false, if_true, work]
      omega
  | @worker i x v hended hs =>
    have hlt := hs.rank_lt (hc.stopped i)
    have hsum : ∑ j, (Function.update c.worker i v j).rank (c.running j) <
        ∑ j, (c.worker j).rank (c.running j) := by
      refine Finset.sum_lt_sum (fun j _ => ?_) ⟨i, Finset.mem_univ i, ?_⟩
      · by_cases hji : j = i
        · subst hji
          rw [Function.update_self]
          exact hlt.le
        · rw [Function.update_of_ne hji]
      · rw [Function.update_self]
        exact hlt
    simp only [CrewAction.busy, if_true, work]
    omega

/-- Only so many steps are left. -/
theorem stopping (hends : Ends o idle rest) (h : Runs (Step o) c as c') (hc : Stopping o c) :
    as.countP (CrewAction.busy idle) + work rest c' ≤ work rest c := by
  have hboth := h.invariant (P := fun as c' => Stopping o c' ∧
    as.countP (CrewAction.busy idle) + work rest c' ≤ work rest c) ⟨hc, by simp⟩ ?_
  · exact hboth.2
  · rintro as t a u ⟨hstopping, hcount⟩ hs
    refine ⟨hs.stopping hends hstopping, ?_⟩
    have hle := hs.work_le hends hstopping
    rw [List.countP_append, List.countP_singleton]
    omega

omit [Fintype ι] in
/-- A thread that is to be joined has finished, or makes a step. -/
theorem progress (hlive : ∀ ok w, o.ended w = false → ∃ k w', o.step ok w k w' ∧ idle k = false ∧
      ∀ i, o.duty k = .join i → o.holds w i = true)
    (hpresent : ∀ i, (c.worker i).present = o.holds c.owner i) (hended : o.ended c.owner = false) :
    ∃ a c', Step o c a c' ∧ a.busy idle = true := by
  obtain ⟨k, w, hown, hidle, hholds⟩ := hlive c.ok c.owner hended
  by_cases hjoin : ∀ i, o.duty k = .join i → c.worker i = .finished
  · exact ⟨_, _, .owner hown hjoin, by simp [CrewAction.busy, hidle]⟩
  · push Not at hjoin
    obtain ⟨i, hduty, hworking⟩ := hjoin
    have hthere := (hpresent i).trans (hholds i hduty)
    obtain ⟨x, v, hs⟩ := Worker.exists_step c.ok (c.running i) hthere hworking
    exact ⟨_, _, .worker hended hs, rfl⟩

/-! ## Calls -/

omit [Fintype ι] in
theorem Step.due_le (h : Step o c a c') (hok : c.ok = false) (i : ι) :
    c'.ok = false ∧
      (if a.callsOf i then 1 else 0) + (c'.worker i).due ≤ (c.worker i).due := by
  cases h with
  | shutdown => exact ⟨rfl, by simp [CrewAction.callsOf]⟩
  | @owner k w hown hjoin =>
    refine ⟨hok, ?_⟩
    simp only [CrewAction.callsOf, Bool.false_eq_true, if_false, Nat.zero_add]
    cases o.duty k with
    | start j =>
      by_cases hij : i = j
      · simp [Duty.workers, hij, Worker.due]
      · simp [Duty.workers, hij]
    | join j =>
      by_cases hij : i = j
      · simp [Duty.workers, hij, Worker.due]
      · simp [Duty.workers, hij]
    | _ => exact Nat.le_refl _
  | @worker j x v hended hs =>
    refine ⟨hok, ?_⟩
    by_cases hij : j = i
    · subst hij
      rw [hok] at hs
      have hdue := hs.due_le
      cases x <;> simpa [CrewAction.callsOf] using hdue
    · cases x <;> simp [CrewAction.callsOf, hij, Ne.symm hij]

omit [Fintype ι] in
/-- At most one, and none of a worker that was not about to call. -/
theorem calls_le (h : Runs (Step o) c as c') (hok : c.ok = false) (i : ι) :
    as.countP (CrewAction.callsOf i) + (c'.worker i).due ≤ (c.worker i).due := by
  have hboth := h.invariant (P := fun as c' => c'.ok = false ∧
    as.countP (CrewAction.callsOf i) + (c'.worker i).due ≤ (c.worker i).due) ⟨hok, by simp⟩ ?_
  · exact hboth.2
  · rintro as t a u ⟨hfalse, hle⟩ hs
    obtain ⟨hfalse', hdue⟩ := hs.due_le hfalse i
    refine ⟨hfalse', ?_⟩
    rw [List.countP_append, List.countP_singleton]
    omega

omit [Fintype ι] in
/-- None once the flags are cleared. -/
theorem calls_of_leaving (hends : Ends o idle rest) (h : Runs (Step o) c as c')
    (hleaving : o.leaving c.owner = true) (hflags : ∀ i, c.running i = false) (i : ι) :
    as.countP (CrewAction.callsOf i) = 0 := by
  have hboth := h.invariant (P := fun as c' => (o.leaving c'.owner = true ∧
    ∀ i, c'.running i = false) ∧ as.countP (CrewAction.callsOf i) = 0) ⟨⟨hleaving, hflags⟩, rfl⟩ ?_
  · exact hboth.2
  · rintro as t a u ⟨⟨hleaving, hflags⟩, hnone⟩ hs
    rw [List.countP_append, hnone, Nat.zero_add, List.countP_singleton]
    cases hs with
    | shutdown => exact ⟨⟨hleaving, hflags⟩, rfl⟩
    | owner hown =>
      obtain ⟨hleaving', hraise⟩ := hends.leaves hown hleaving
      exact ⟨⟨hleaving', flags_of_leaving hraise hflags⟩, rfl⟩
    | @worker j x v hended hw =>
      refine ⟨⟨hleaving, hflags⟩, ?_⟩
      rw [hflags j] at hw
      cases x with
      | called =>
        generalize t.worker j = w at hw
        cases hw with
        | call hup => cases hup
      | _ => rfl

end Crew

end MechLidar.Lib
