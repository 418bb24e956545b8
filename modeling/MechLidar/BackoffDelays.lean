import MechLidar.Lib.IStream
import MechLidar.Recovery

/-!
# MechLidar.BackoffDelays

The delays of the recovery in `receive_udp_packet`, for any options and any answers.

* `Backoff.delayMs o k`: the delay in front of the attempt `k`, doubled `k` times up to the maximum
* `Attempt`: what is seen since the last system error or attempt
* `Statement.ints`: the `int` values that a statement computes
* `Waits`: what a statement knows of its delay, the slices behind it and the rest
* `backoff_delays`: every point of every run
-/

namespace MechLidar

open Lib

namespace Backoff

variable (o : Backoff)

/-- Capped doubling, in closed form. -/
def delayMs (k : Nat) : Int := min (o.firstDelayMs * 2 ^ k) o.maxDelayMs

theorem firstDelayMs_pos : 1 ≤ o.firstDelayMs := by
  unfold firstDelayMs
  omega

theorem firstDelayMs_le : o.firstDelayMs ≤ o.maxDelayMs := by
  unfold maxDelayMs
  omega

theorem delayMs_zero : o.delayMs 0 = o.firstDelayMs := by
  have hle := o.firstDelayMs_le
  simp only [delayMs, Int.pow_zero, Int.mul_one]
  omega

theorem delayMs_le (k : Nat) : o.delayMs k ≤ o.maxDelayMs := by
  unfold delayMs
  omega

theorem delayMs_pos (k : Nat) : 1 ≤ o.delayMs k := by
  have hfirst := o.firstDelayMs_pos
  have hmax := o.firstDelayMs_le
  have hpow : (0 : Int) < 2 ^ k := Int.pow_pos (by omega)
  have hmul : 0 < o.firstDelayMs * 2 ^ k := Int.mul_pos (by omega) hpow
  unfold delayMs
  omega

/-- The update of the retry loop is one more doubling. -/
theorem nextDelayMs_delayMs (k : Nat) : o.nextDelayMs (o.delayMs k) = o.delayMs (k + 1) := by
  have hpos := o.delayMs_pos k
  have hpow : o.firstDelayMs * 2 ^ (k + 1) = 2 * (o.firstDelayMs * 2 ^ k) := by
    rw [Int.pow_succ, ← Int.mul_assoc, Int.mul_comm]
  unfold delayMs at hpos
  simp only [nextDelayMs, delayMs, hpow]
  omega

theorem delayMs_mono {j k : Nat} (h : j ≤ k) : o.delayMs j ≤ o.delayMs k := by
  induction k, h using Nat.le_induction with
  | base => exact Int.le_refl _
  | succ k _ ih =>
    have hpos := o.delayMs_pos k
    have hle := o.delayMs_le k
    rw [← o.nextDelayMs_delayMs k, nextDelayMs]
    omega

end Backoff

/-! ## What is seen of a delay -/

/-- What is seen since the last system error of `get_packet` or the last attempt to reopen. -/
structure Attempt where
  /-- The failed attempts of this recovery. -/
  failures : Nat
  slicesMs : List Int
  /-- `ros::ok()` was false. -/
  stopped : Bool

namespace Attempt

def initial : Attempt := ⟨0, [], false⟩

def note (s : Attempt) : Action → Attempt
  | .getPacket (.threw _) => ⟨0, [], false⟩
  | .reopen (some _) => ⟨s.failures + 1, [], false⟩
  | .sleep ms => { s with slicesMs := s.slicesMs ++ [ms] }
  | .ok false => { s with stopped := true }
  | _ => s

end Attempt

def attempt (as : List Action) : Attempt := as.foldl Attempt.note Attempt.initial

@[simp] theorem attempt_concat (as : List Action) (a : Action) :
    attempt (as ++ [a]) = (attempt as).note a := by
  simp [attempt]

/-! ## The values of a statement -/

/-- The `int` values that the statement computes, with its operands. -/
def Statement.ints (o : Backoff) : Statement → List Int
  | .caught _ => [o.initialMs, o.firstDelayMs, o.maxMs, o.maxDelayMs]
  | .setDelay retryDelayMs => [retryDelayMs]
  | .sleepLoop _ remainingMs => [remainingMs]
  | .sleep _ remainingMs => [min remainingMs 100, remainingMs - min remainingMs 100]
  | .reopen retryDelayMs =>
    [o.maxDelayMs - retryDelayMs, min retryDelayMs (o.maxDelayMs - retryDelayMs),
      o.nextDelayMs retryDelayMs]
  | _ => []

/-- The slices of a delay that are slept: whole ones, and the rest at the end. -/
structure Sliced (slicesMs : List Int) (remainingMs delayMs : Int) : Prop where
  range : ∀ ms ∈ slicesMs, 1 ≤ ms ∧ ms ≤ 100
  nonneg : 0 ≤ remainingMs
  sum : slicesMs.sum + remainingMs = delayMs
  whole : 0 < remainingMs → slicesMs.sum = 100 * slicesMs.length
  count : 100 * slicesMs.length < delayMs + 100

theorem sliced_nil {delayMs : Int} (h : 0 < delayMs) : Sliced [] delayMs delayMs where
  range := by simp
  nonneg := by omega
  sum := by simp
  whole := by simp
  count := by simp; omega

theorem Sliced.rest_le {slicesMs : List Int} {remainingMs delayMs : Int}
    (h : Sliced slicesMs remainingMs delayMs) : remainingMs ≤ delayMs := by
  have hsum := h.sum
  have hnonneg : 0 ≤ slicesMs.sum :=
    List.sum_nonneg fun ms hms => by have := h.range ms hms; omega
  omega

theorem Sliced.slice {slicesMs : List Int} {remainingMs delayMs : Int}
    (h : Sliced slicesMs remainingMs delayMs) (hpos : 0 < remainingMs) :
    Sliced (slicesMs ++ [min remainingMs 100]) (remainingMs - min remainingMs 100) delayMs := by
  have hsum := h.sum
  have hwhole := h.whole hpos
  constructor
  case range =>
    intro ms hms
    rcases List.mem_append.mp hms with hms | hms
    · exact h.range ms hms
    · rw [List.mem_singleton.mp hms]
      omega
  case nonneg => omega
  case sum =>
    simp only [List.sum_append, List.sum_singleton]
    omega
  case whole =>
    intro hrest
    simp only [List.sum_append, List.sum_singleton, List.length_append, List.length_singleton]
    omega
  case count =>
    simp only [List.length_append, List.length_singleton]
    omega

/-! ## Every point of every run -/

/-- What the receiving thread knows of the current delay. -/
def Waits (o : Backoff) (s : Attempt) : Statement → Prop
  | .caught _ => s = Attempt.initial
  | .countError _ d => d = o.delayMs s.failures ∧ s.slicesMs = [] ∧ s.stopped = false
  | .storeError _ d => d = o.delayMs s.failures ∧ s.slicesMs = [] ∧ s.stopped = false
  | .retryLoop d => d = o.delayMs s.failures ∧ s.slicesMs = [] ∧ s.stopped = false
  | .setDelay d => d = o.delayMs s.failures ∧ s.slicesMs = [] ∧ s.stopped = false
  | .sleepLoop d remainingMs =>
    d = o.delayMs s.failures ∧ s.stopped = false ∧ Sliced s.slicesMs remainingMs d
  | .sleep d remainingMs =>
    d = o.delayMs s.failures ∧ s.stopped = false ∧ Sliced s.slicesMs remainingMs d ∧
      0 < remainingMs
  | .check d => d = o.delayMs s.failures ∧ (s.stopped = false → s.slicesMs.sum = d)
  | .reopen d => d = o.delayMs s.failures ∧ (s.stopped = false → s.slicesMs.sum = d)
  | _ => True

/-- The slices of the current delay, at every point. -/
structure SlicesFit (o : Backoff) (s : Attempt) : Prop where
  range : ∀ ms ∈ s.slicesMs, 1 ≤ ms ∧ ms ≤ 100
  count : 100 * s.slicesMs.length < o.delayMs s.failures + 100

theorem slicesFit_nil (o : Backoff) (k : Nat) (stopped : Bool) : SlicesFit o ⟨k, [], stopped⟩ where
  range := by simp
  count := by
    have hpos := o.delayMs_pos k
    simp only [List.length_nil]
    omega

section Run

variable {o : Backoff} {as : List Action} {r : Receiver}

theorem waits_step {s : Attempt} {t u : Receiver} {a : Action} (hs : Receiver.Step o t a u)
    (h : Waits o s t.point) (hfit : SlicesFit o s) :
    Waits o (s.note a) u.point ∧ SlicesFit o (s.note a) := by
  cases hs with
  | call => exact ⟨trivial, hfit⟩
  | outerLoop => exact ⟨trivial, hfit⟩
  | outerEnd => exact ⟨trivial, hfit.range, hfit.count⟩
  | received => exact ⟨trivial, hfit⟩
  | skipped => exact ⟨trivial, hfit⟩
  | threw => exact ⟨rfl, slicesFit_nil o 0 false⟩
  | caught =>
    refine ⟨?_, hfit⟩
    rw [show s = Attempt.initial from h]
    exact ⟨o.delayMs_zero.symm, rfl, rfl⟩
  | countError => exact ⟨h, hfit⟩
  | storeError => exact ⟨h, hfit⟩
  | retryLoop => exact ⟨h, hfit⟩
  | retryEnd => exact ⟨trivial, hfit.range, hfit.count⟩
  | setDelay =>
    obtain ⟨hd, hnil, hstopped⟩ := h
    refine ⟨⟨hd, hstopped, ?_⟩, hfit⟩
    show Sliced s.slicesMs _ _
    rw [hnil, hd]
    exact sliced_nil (o.delayMs_pos s.failures)
  | sleepLoop hpos => exact ⟨⟨h.1, h.2.1, h.2.2, hpos⟩, hfit⟩
  | sleepStop hpos =>
    refine ⟨⟨h.1, fun hstopped => ?_⟩, hfit.range, hfit.count⟩
    cases hstopped
  | sleepEnd hpos =>
    obtain ⟨hd, -, hsliced⟩ := h
    refine ⟨⟨hd, fun _ => ?_⟩, hfit⟩
    have hsum := hsliced.sum
    have hnonneg := hsliced.nonneg
    show s.slicesMs.sum = _
    omega
  | sleep =>
    obtain ⟨hd, hstopped, hsliced, hpos⟩ := h
    have hslice := hsliced.slice hpos
    have hcount := hslice.count
    rw [hd] at hcount
    exact ⟨⟨hd, hstopped, hslice⟩, hslice.range, hcount⟩
  | check => exact ⟨h, hfit⟩
  | checkStop => exact ⟨trivial, hfit.range, hfit.count⟩
  | reopened => exact ⟨trivial, hfit⟩
  | reopenThrew =>
    refine ⟨⟨?_, rfl, rfl⟩, slicesFit_nil o _ false⟩
    rw [show _ = o.delayMs s.failures from h.1]
    exact o.nextDelayMs_delayMs s.failures
  | countReconnect => exact ⟨trivial, hfit⟩
  | clearRecovering => exact ⟨trivial, hfit⟩
  | clearDelay => exact ⟨trivial, hfit⟩
  | ret => exact ⟨trivial, hfit⟩

theorem waits_run (h : Receiver.Reached o as r) :
    Waits o (attempt as) r.point ∧ SlicesFit o (attempt as) := by
  refine h.invariant (P := fun as r => Waits o (attempt as) r.point ∧ SlicesFit o (attempt as))
    ⟨show Waits o (attempt []) .idle from trivial, slicesFit_nil o 0 false⟩ ?_
  intro as t a u ih hs
  rw [attempt_concat]
  exact waits_step hs ih.1 ih.2

/-- An `int` value. -/
def FitsInt (x : Int) : Prop := INT_MIN ≤ x ∧ x ≤ INT_MAX

/-- With options that are `int` values, every value of a statement is one. -/
theorem ints_fit {s : Attempt} {p : Statement} (hinitial : FitsInt o.initialMs)
    (hmax : FitsInt o.maxMs) (h : Waits o s p) : ∀ x ∈ p.ints o, FitsInt x := by
  have hfirst : o.firstDelayMs = max 1 o.initialMs := rfl
  have hlast : o.maxDelayMs = max o.firstDelayMs o.maxMs := rfl
  have hlow := o.delayMs_pos s.failures
  have hhigh := o.delayMs_le s.failures
  simp only [FitsInt, INT_MIN, INT_MAX] at hinitial hmax ⊢
  intro x hx
  cases p with
  | caught what =>
    simp only [Statement.ints, List.mem_cons, List.not_mem_nil, or_false] at hx
    omega
  | setDelay d =>
    obtain ⟨hd, -⟩ := h
    rw [List.mem_singleton.mp hx]
    omega
  | sleepLoop d remainingMs =>
    obtain ⟨hd, -, hsliced⟩ := h
    have hnonneg := hsliced.nonneg
    have hle := hsliced.rest_le
    rw [List.mem_singleton.mp hx]
    omega
  | sleep d remainingMs =>
    obtain ⟨hd, -, hsliced, hpos⟩ := h
    have hle := hsliced.rest_le
    simp only [Statement.ints, List.mem_cons, List.not_mem_nil, or_false] at hx
    omega
  | reopen d =>
    obtain ⟨hd, -⟩ := h
    simp only [Statement.ints, Backoff.nextDelayMs, List.mem_cons, List.not_mem_nil,
      or_false] at hx
    omega
  | _ => cases hx

theorem fitsInt_toInt (x : Int32) : FitsInt x.toInt := by
  have hlow := x.le_toInt
  have hhigh := x.toInt_lt
  simp only [FitsInt, INT_MIN, INT_MAX]
  omega

/-- The failures are counted from the last system error on. -/
theorem foldl_note_failures {mid : List Action} (h : getErrors mid = 0) (s : Attempt) :
    (mid.foldl Attempt.note s).failures = s.failures + failedReopens mid := by
  induction mid using List.reverseRecOn with
  | nil => rfl
  | append_singleton mid a ih =>
    rw [getErrors_concat] at h
    rw [List.foldl_append, failedReopens_concat]
    have hmid := ih (by omega)
    cases a with
    | getPacket outcome =>
      cases outcome with
      | returned code => exact hmid
      | threw what => simp [Action.isGetError] at h
    | reopen failure =>
      cases failure with
      | none => exact hmid
      | some what =>
        show (mid.foldl Attempt.note s).failures + 1 = _
        rw [hmid]
        rfl
    | ok answer => cases answer <;> exact hmid
    | _ => exact hmid

theorem attempt_failures {before mid : List Action} {what : String} (h : getErrors mid = 0) :
    (attempt (before ++ .getPacket (.threw what) :: mid)).failures = failedReopens mid := by
  rw [attempt, List.foldl_append, List.foldl_cons, foldl_note_failures h]
  exact Nat.zero_add _

/-- For all `int` options and any answers: in front of an attempt to reopen, after `k` failed ones
since the last system error, the delay has been doubled `k` times up to the maximum. The delays do
not decrease, every slice is one of 1 to 100 ms, the slices add up to the delay unless
`ros::ok()` was false, there are only as many as the delay has room for, and no value is out of
range. -/
theorem backoff_delays (initialMs maxMs : Int32)
    (h : Receiver.Reached ⟨initialMs.toInt, maxMs.toInt⟩ as r) :
    let o : Backoff := ⟨initialMs.toInt, maxMs.toInt⟩
    let d₀ := max 1 initialMs.toInt
    let M := max d₀ maxMs.toInt
    let s := attempt as
    (∀ before what mid, as = before ++ .getPacket (.threw what) :: mid → getErrors mid = 0 →
      s.failures = failedReopens mid) ∧
    (∀ d, r.point = .check d ∨ r.point = .reopen d →
      d = min (d₀ * 2 ^ s.failures) M ∧ (s.stopped = false → s.slicesMs.sum = d)) ∧
    (∀ ms ∈ s.slicesMs, 1 ≤ ms ∧ ms ≤ 100) ∧
    100 * s.slicesMs.length < min (d₀ * 2 ^ s.failures) M + 100 ∧
    (∀ j k, j ≤ k → min (d₀ * 2 ^ j) M ≤ min (d₀ * 2 ^ k) M) ∧ min (d₀ * 2 ^ 0) M = d₀ ∧
    (∀ x ∈ r.point.ints o, FitsInt x) := by
  intro o d₀ M s
  obtain ⟨hwaits, hslices⟩ := waits_run h
  refine ⟨?_, fun d hd => ?_, hslices.range, hslices.count, fun j k hjk => o.delayMs_mono hjk,
    o.delayMs_zero, ints_fit (fitsInt_toInt initialMs) (fitsInt_toInt maxMs) hwaits⟩
  · rintro before what mid rfl hmid
    exact attempt_failures hmid
  · rcases hd with hd | hd
    · rw [hd] at hwaits
      exact hwaits
    · rw [hd] at hwaits
      exact hwaits

/-- With the options 150 and 5000, a first attempt that fails behind 100 and 50 ms, and a second one
behind the doubled delay in three slices. -/
theorem backoff_delays_doubled :
    ∃ as r, Receiver.Reached ⟨(150 : Int32).toInt, (5000 : Int32).toInt⟩ as r ∧
      as.filter Action.isReopenFailure = [.reopen (some "bind() failed")] ∧
      r.point = .reopen 300 ∧ (attempt as).failures = 1 ∧
      (attempt as).slicesMs = [100, 100, 100] ∧
      (300 : Int) = min (max 1 150 * 2 ^ (attempt as).failures) (max (max 1 150) 5000) ∧
      (attempt as).slicesMs.sum = 300 := by
  have hrun : Receiver.Reached ⟨(150 : Int32).toInt, (5000 : Int32).toInt⟩
      [.call, .ok true, .getPacket (.threw "recv"), .silent, .silent, .silent, .ok true, .silent,
        .ok true, .sleep 100, .ok true, .sleep 50, .silent, .ok true,
        .reopen (some "bind() failed"), .silent, .silent, .ok true, .silent,
        .ok true, .sleep 100, .ok true, .sleep 100, .ok true, .sleep 100, .silent, .ok true]
      ⟨⟨true, 2, 0, 300, "bind() failed"⟩, .reopen 300⟩ :=
    .cons .call <| .cons .outerLoop <| .cons .threw <| .cons .caught <| .cons .countError <|
    .cons .storeError <| .cons .retryLoop <| .cons .setDelay <|
    .cons (.sleepLoop (by decide)) <| .cons .sleep <| .cons (.sleepLoop (by decide)) <|
    .cons .sleep <| .cons (.sleepEnd (by decide)) <| .cons .check <| .cons .reopenThrew <|
    .cons .countError <| .cons .storeError <| .cons .retryLoop <| .cons .setDelay <|
    .cons (.sleepLoop (by decide)) <| .cons .sleep <| .cons (.sleepLoop (by decide)) <|
    .cons .sleep <| .cons (.sleepLoop (by decide)) <| .cons .sleep <|
    .cons (.sleepEnd (by decide)) <| .single .check
  obtain ⟨hdelay, hsum⟩ := (backoff_delays 150 5000 hrun).2.1 300 (.inr rfl)
  exact ⟨_, _, hrun, rfl, rfl, rfl, rfl, hdelay, hsum rfl⟩

end Run

end MechLidar
