import MechLidar.ScanLayout

/-!
# MechLidar.RangeBounds

`range_min` and `range_max` of a scan, by which consumers filter, with exact real arithmetic in
place of `float`.

* `finiteRanges`: the readings that are distances
* `rangeMinOrDefault_eq`, `rangeMaxOrDefault_eq`: the two loops find the least and the greatest of
  them, the second one because no distance is negative
* `Encloses`: the bounds are tight, and zero where nothing was hit
* `allMeasured`: what accepted packets put into an assembler
* `ranges_enclosed`: every list of readings, and every published scan
-/

namespace MechLidar

open Lib

/-- A reading: a distance, or infinity where nothing was hit. -/
def Measured : Flt ℝ → Prop
  | .fin r => 0 ≤ r
  | .inf => True
  | .nan => False

structure Encloses (rangeMin rangeMax : ℝ) (ranges : List (Flt ℝ)) : Prop where
  nonneg : 0 ≤ rangeMin
  ordered : rangeMin ≤ rangeMax
  within : ∀ r, .fin r ∈ ranges → rangeMin ≤ r ∧ r ≤ rangeMax
  attained : (∃ r, .fin r ∈ ranges) → .fin rangeMin ∈ ranges ∧ .fin rangeMax ∈ ranges
  default : (∀ r, .fin r ∉ ranges) → rangeMin = 0 ∧ rangeMax = 0

/-! ## The two loops -/

def finiteRange : Flt ℝ → Option ℝ
  | .fin r => some r
  | .inf => none
  | .nan => none

def finiteRanges (ranges : List (Flt ℝ)) : List ℝ := ranges.filterMap finiteRange

theorem mem_finiteRanges {ranges : List (Flt ℝ)} {r : ℝ} :
    r ∈ finiteRanges ranges ↔ .fin r ∈ ranges := by
  rw [finiteRanges, List.mem_filterMap]
  constructor
  · intro ⟨range, hmem, hrange⟩
    cases range with
    | fin x =>
      cases hrange
      exact hmem
    | inf => cases hrange
    | nan => cases hrange
  · intro h
    exact ⟨.fin r, h, rfl⟩

section Steps

variable {F : Type} [Arith F]

/-- One pass of the loop of `range_min_or_default`. -/
def minStep (result range : Flt F) : Flt F :=
  match range, result with
  | .fin r, .fin m => if r < m then .fin r else .fin m
  | .fin r, .inf => .fin r
  | _, result => result

/-- One pass of the loop of `range_max_or_default`. -/
def maxStep (result : F) (range : Flt F) : F :=
  match range with
  | .fin r => if result < r then r else result
  | _ => result

theorem rangeMinOrDefault_foldl (ranges : List (Flt F)) :
    rangeMinOrDefault ranges =
      match ranges.foldl minStep .inf with
      | .fin m => m
      | _ => 0 := rfl

theorem rangeMaxOrDefault_foldl (ranges : List (Flt F)) :
    rangeMaxOrDefault ranges = ranges.foldl maxStep 0 := rfl

end Steps

theorem minStep_fin (m r : ℝ) : minStep (.fin m) (.fin r) = .fin (min m r) := by
  simp only [minStep]
  split
  · next hlt => rw [min_eq_right hlt.le]
  · next hle => rw [min_eq_left (not_lt.1 hle)]

theorem maxStep_fin (m r : ℝ) : maxStep m (.fin r) = max m r := by
  simp only [maxStep]
  split
  · next hlt => rw [max_eq_right hlt.le]
  · next hle => rw [max_eq_left (not_lt.1 hle)]

theorem foldl_minStep_fin (m : ℝ) (ranges : List (Flt ℝ)) :
    ranges.foldl minStep (.fin m) = .fin ((finiteRanges ranges).foldl min m) := by
  induction ranges generalizing m with
  | nil => rfl
  | cons range ranges ih =>
    cases range with
    | fin r =>
      rw [List.foldl_cons, minStep_fin]
      exact ih (min m r)
    | inf => exact ih m
    | nan => exact ih m

theorem foldl_minStep_inf (ranges : List (Flt ℝ)) :
    ranges.foldl minStep .inf = ((finiteRanges ranges).min?.map Flt.fin).getD .inf := by
  induction ranges with
  | nil => rfl
  | cons range ranges ih =>
    cases range with
    | fin r => exact foldl_minStep_fin r ranges
    | inf => exact ih
    | nan => exact ih

theorem foldl_maxStep (m : ℝ) (ranges : List (Flt ℝ)) :
    ranges.foldl maxStep m = (finiteRanges ranges).foldl max m := by
  induction ranges generalizing m with
  | nil => rfl
  | cons range ranges ih =>
    cases range with
    | fin r =>
      rw [List.foldl_cons, maxStep_fin]
      exact ih (max m r)
    | inf => exact ih m
    | nan => exact ih m

theorem rangeMinOrDefault_eq (ranges : List (Flt ℝ)) :
    rangeMinOrDefault ranges = (finiteRanges ranges).min?.getD 0 := by
  rw [rangeMinOrDefault_foldl, foldl_minStep_inf]
  cases (finiteRanges ranges).min? with
  | none => rfl
  | some m => rfl

theorem rangeMaxOrDefault_eq {ranges : List (Flt ℝ)} (h : ∀ r ∈ finiteRanges ranges, 0 ≤ r) :
    rangeMaxOrDefault ranges = (finiteRanges ranges).max?.getD 0 := by
  rw [rangeMaxOrDefault_foldl, foldl_maxStep]
  cases hfinite : finiteRanges ranges with
  | nil => rfl
  | cons r finite =>
    rw [List.foldl_cons, max_eq_right (h r (by simp [hfinite]))]
    rfl

theorem encloses {ranges : List (Flt ℝ)} (h : ∀ range ∈ ranges, Measured range) :
    Encloses (rangeMinOrDefault ranges) (rangeMaxOrDefault ranges) ranges := by
  have hnonneg : ∀ r ∈ finiteRanges ranges, 0 ≤ r := by
    intro r hr
    exact h (.fin r) (mem_finiteRanges.1 hr)
  rw [rangeMinOrDefault_eq, rangeMaxOrDefault_eq hnonneg]
  cases hmin : (finiteRanges ranges).min? with
  | none =>
    have hnone : finiteRanges ranges = [] := List.min?_eq_none_iff.1 hmin
    have hempty : ∀ r, .fin r ∉ ranges := by
      intro r hr
      rw [← mem_finiteRanges, hnone] at hr
      cases hr
    rw [hnone]
    exact ⟨le_refl _, le_refl _, fun r hr => absurd hr (hempty r),
      fun ⟨r, hr⟩ => absurd hr (hempty r), fun _ => ⟨rfl, rfl⟩⟩
  | some m =>
    obtain ⟨hm, hlow⟩ := List.min?_eq_some_iff.1 hmin
    obtain ⟨n, hmax⟩ : ∃ n, (finiteRanges ranges).max? = some n := by
      cases hmax : (finiteRanges ranges).max? with
      | none =>
        rw [List.max?_eq_none_iff.1 hmax] at hm
        cases hm
      | some n => exact ⟨n, rfl⟩
    obtain ⟨hn, hhigh⟩ := List.max?_eq_some_iff.1 hmax
    rw [hmax]
    refine ⟨hnonneg m hm, hlow n hn, ?_, ?_, ?_⟩
    · intro r hr
      rw [← mem_finiteRanges] at hr
      exact ⟨hlow r hr, hhigh r hr⟩
    · intro _
      exact ⟨mem_finiteRanges.1 hm, mem_finiteRanges.1 hn⟩
    · intro hnone
      exact absurd (mem_finiteRanges.1 hm) (hnone m)

/-! ## Accepted packets -/

theorem measured_rangeOf (d : UInt32) : Measured (rangeOf d) := by
  unfold rangeOf
  split
  · trivial
  · exact Nat.cast_nonneg d.toNat

theorem Measured.divBy {x : Flt ℝ} (h : Measured x) {d : ℝ} (hd : 0 ≤ d) :
    Measured (x.divBy d) := by
  cases x with
  | fin r => exact div_nonneg h hd
  | inf => trivial
  | nan => cases h

theorem measured_of_decode {raw : RawPacket} {p : PktHdlMech ℝ} (h : decode raw = .ok p) :
    ∀ range ∈ p.ranges, Measured range := by
  obtain ⟨haccepts, rfl⟩ := decode_eq_ok.1 h
  intro range hrange
  obtain ⟨c, rfl⟩ := Vector.mem_ofFn.1 hrange
  exact measured_rangeOf _

def AllMeasured (a : FullScanAssembler ℝ) : Prop := ∀ range ∈ a.rangesMm, Measured range

theorem AllMeasured.accept {a : FullScanAssembler ℝ} (ha : AllMeasured a) {p : PktHdlMech ℝ}
    (hp : ∀ range ∈ p.ranges, Measured range) : AllMeasured (a.accept p) := by
  unfold FullScanAssembler.accept
  split
  · exact ha
  · intro range hrange
    rcases mem_writeBlock hrange with hold | hnew
    · exact ha range hold
    · exact hp range hnew

theorem allMeasured_beginRotation (a : FullScanAssembler ℝ) (p : PktHdlMech ℝ) :
    AllMeasured (a.beginRotation p) := by
  intro range hrange
  rw [(Vector.mem_replicate.1 hrange).2]
  trivial

/-- The assembler of a poll holds readings only. -/
theorem allMeasured : Assembled AllMeasured where
  fresh := by
    intro range hrange
    rw [(Vector.mem_replicate.1 hrange).2]
    exact le_refl (0 : ℝ)
  add := by
    intro a p raw hd ha
    have hp := measured_of_decode hd
    obtain ⟨-, he⟩ | ⟨-, he⟩ | ⟨-, -, he⟩ := a.add_cases p
    · rw [he]
      exact ha
    · rw [he]
      exact (allMeasured_beginRotation a p).accept hp
    · rw [he]
      exact ha.accept hp

theorem measured_metres {n : Nat} {rangesMm : Vector (Flt ℝ) n}
    (h : ∀ range ∈ rangesMm, Measured range) :
    ∀ range ∈ (rangesMm.map fun r => r.divBy ((1000 : Nat) : ℝ)).toList, Measured range := by
  intro range hrange
  rw [Vector.mem_toList_iff, Vector.mem_map] at hrange
  obtain ⟨r, hr, rfl⟩ := hrange
  exact (h r hr).divBy (Nat.cast_nonneg 1000)

theorem singleScan_encloses (options : DriverRuntimeOptions ℝ) {raw : RawPacket}
    {p : PktHdlMech ℝ} (h : decode raw = .ok p) :
    Encloses (singleScan options p).rangeMin (singleScan options p).rangeMax
      (singleScan options p).ranges :=
  encloses (measured_metres (measured_of_decode h))

theorem fullScan_encloses (options : DriverRuntimeOptions ℝ) {a : FullScanAssembler ℝ}
    (h : AllMeasured a) :
    Encloses (fullScan options a).rangeMin (fullScan options a).rangeMax
      (fullScan options a).ranges :=
  encloses (measured_metres h)

/-- For every list of readings, whatever its length, and for every scan that a run publishes. -/
theorem ranges_enclosed :
    (∀ ranges : List (Flt ℝ), (∀ range ∈ ranges, Measured range) →
      Encloses (rangeMinOrDefault ranges) (rangeMaxOrDefault ranges) ranges) ∧
    ∀ {options : DriverRuntimeOptions ℝ} {captureType : CaptureType} {d : Driver ℝ},
      Driven options captureType d →
        ∀ x ∈ d.publications, Encloses x.2.1.rangeMin x.2.1.rangeMax x.2.1.ranges := by
  constructor
  · intro ranges h
    exact encloses h
  · intro options captureType d h
    refine h.allPublished (P := fun scan _ => Encloses scan.rangeMin scan.rangeMax scan.ranges)
      allMeasured ?_ ?_
    · intro _ options p raw hd
      exact singleScan_encloses options hd
    · intro _ options a ha
      exact fullScan_encloses options ha

theorem ranges_enclosed_plain :
    (∃ ranges : List (Flt ℝ), ranges = [.fin 2, .inf, .fin 1] ∧
      Encloses (rangeMinOrDefault ranges) (rangeMaxOrDefault ranges) ranges) ∧
    ∃ d : Driver ℝ, d.publications = [publicationOf plainOptions (plainRevolution 7)] ∧
      ∀ x ∈ d.publications, Encloses x.2.1.rangeMin x.2.1.rangeMax x.2.1.ranges := by
  constructor
  · refine ⟨_, rfl, ranges_enclosed.1 _ ?_⟩
    simp [Measured]
  · obtain ⟨d, hd, hpubs⟩ := exists_driven_plain
    exact ⟨d, hpubs, ranges_enclosed.2 hd⟩

end MechLidar
