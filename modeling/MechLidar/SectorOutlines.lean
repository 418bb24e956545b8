import MechLidar.ZoneFaults

/-!
# MechLidar.SectorOutlines

The outline of a sector, with exact real arithmetic in place of `double`.

* `CoversSector`: the points go from the origin along the arc of the sector and back to the origin
* `SectorCovered`: the outline of a segment is such a list of points
* `coversSector`: whatever `append_sector_points` appends is one
* `sectorCovered_unless_widest`: a sector whose step count fits an `int` has one, unless the count
  is the largest `int`
-/

namespace MechLidar

open Lib

/-! ## The arc -/

noncomputable section

/-- The angle of point `i` of the arc, as seen in the frame of the markers. -/
def rayAngle (start offset span : ℝ) (steps i : Nat) : ℝ := start + offset + i * span / steps

def originPoint : Point ℝ := ⟨.fin 0, .fin 0, .fin 0⟩

/-- From `start` to `stop`, which wraps around where it is below `start`. -/
structure CoversSector (start stop radius offset span : ℝ) (steps : Nat)
    (points : List (Point ℝ)) : Prop where
  nonneg : 0 ≤ span
  congruent : ∃ turns : Nat, span = stop - start + turns * (2 * Real.pi)
  oneTurn : stop < start → span < 2 * Real.pi
  unchanged : start ≤ stop → span = stop - start
  steps_ge : 8 ≤ steps
  length : points.length = steps + 3
  first : points.head? = some originPoint
  last : points.getLast? = some originPoint
  arc : ∀ i ≤ steps, points[i + 1]? =
    some ⟨.fin (radius * Real.cos (rayAngle start offset span steps i)),
      .fin (radius * Real.sin (rayAngle start offset span steps i)), .fin 0⟩
  firstRay : rayAngle start offset span steps 0 = start + offset
  lastRay : ∃ turns : Nat,
    rayAngle start offset span steps steps = stop + offset + turns * (2 * Real.pi)
  forward : ∀ i < steps,
    rayAngle start offset span steps i ≤ rayAngle start offset span steps (i + 1)
  gap : ∀ i < steps, rayAngle start offset span steps (i + 1) -
    rayAngle start offset span steps i ≤ radians 5

/-- The call of `append_sector_points` returns, and what it appends covers the sector. -/
def SectorCovered (segment : Json ℝ) (startDeg stopDeg radius offset : ℝ) : Prop :=
  ∃ fuel span steps outline,
    unwind fuel (radians stopDeg - radians startDeg) = .ok span ∧ sectorSteps span = .ok steps ∧
    (∀ points, appendSectorPoints fuel segment offset points = .ok (points ++ outline)) ∧
    CoversSector (radians startDeg) (radians stopDeg) radius offset span steps outline

end

/-! ## Steps -/

theorem sectorSteps_eq {F : Type} [Arith F] [Ceil F] {span : F} {steps : Nat}
    (h : sectorSteps span = .ok steps) :
    (steps : Int) = max 8 (Ceil.ceil (span / sectorStep)) := by
  simp only [sectorSteps] at h
  split at h
  · cases h
  · split at h
    · cases h
    · cases h
      exact Int.toNat_of_nonneg (le_max_of_le_left (by simp))

theorem eight_le_of_sectorSteps {F : Type} [Arith F] [Ceil F] {span : F} {steps : Nat}
    (h : sectorSteps span = .ok steps) : 8 ≤ steps := by
  have heq := sectorSteps_eq h
  omega

/-- A step is one of 5 degrees at most. -/
theorem div_steps_le {span : ℝ} {steps : Nat} (h : sectorSteps span = .ok steps) :
    span / steps ≤ radians 5 := by
  have hsteps : (0 : ℝ) < steps := by
    have height := eight_le_of_sectorSteps h
    exact_mod_cast Nat.lt_of_lt_of_le (by simp) height
  have hceil : ⌈span / sectorStep⌉ ≤ (steps : Int) := by
    rw [sectorSteps_eq h]
    exact le_max_right _ _
  have hle : span / sectorStep ≤ steps := by
    have hcast := Int.ceil_le.1 hceil
    exact_mod_cast hcast
  have hfive : radians 5 = (sectorStep : ℝ) := by
    simp only [radians, sectorStep, Trig.pi]
    push_cast
    ring
  rw [div_le_iff₀ sectorStep_pos] at hle
  rw [div_le_iff₀ hsteps, hfive, mul_comm]
  exact hle

theorem rayAngle_succ (start offset span : ℝ) (steps i : Nat) :
    rayAngle start offset span steps (i + 1) =
      rayAngle start offset span steps i + span / steps := by
  simp only [rayAngle]
  push_cast
  ring

theorem rayAngle_last (start offset span : ℝ) {steps : Nat} (h : 0 < steps) :
    rayAngle start offset span steps steps = start + offset + span := by
  have hsteps : (steps : ℝ) ≠ 0 := by exact_mod_cast h.ne'
  rw [rayAngle, mul_div_cancel_left₀ _ hsteps]

/-! ## Points -/

theorem makePoint_origin (offset : ℝ) : makePoint 0 0 offset = originPoint := by
  simp [makePoint, originPoint]

theorem sectorPoint_eq (start span radius offset : ℝ) (steps i : Nat) :
    sectorPoint start span radius offset steps i =
      ⟨.fin (radius * Real.cos (rayAngle start offset span steps i)),
        .fin (radius * Real.sin (rayAngle start offset span steps i)), .fin 0⟩ := by
  have hangle : offset + (start + span * (i : ℝ) / (steps : ℝ)) =
      rayAngle start offset span steps i := by
    simp only [rayAngle]
    ring
  rw [sectorPoint, makePoint_polar, hangle]
  rfl

noncomputable def sectorArc (start span radius offset : ℝ) (steps : Nat) : List (Point ℝ) :=
  (List.range (steps + 1)).map (sectorPoint start span radius offset steps)

theorem outline_arc {start span radius offset : ℝ} {steps i : Nat} (h : i ≤ steps) :
    (originPoint :: sectorArc start span radius offset steps ++ [originPoint])[i + 1]? =
      some (sectorPoint start span radius offset steps i) := by
  have hlt : i < (sectorArc start span radius offset steps).length := by
    simp only [sectorArc, List.length_map, List.length_range]
    omega
  rw [List.cons_append, List.getElem?_cons_succ, List.getElem?_append_left hlt]
  simp only [sectorArc, List.getElem?_map, List.getElem?_range (Nat.lt_succ_of_le h),
    Option.map_some]

theorem coversSector {fuel : Nat} {start stop span : ℝ} {steps : Nat}
    (hspan : unwind fuel (stop - start) = .ok span) (hsteps : sectorSteps span = .ok steps)
    (radius offset : ℝ) :
    CoversSector start stop radius offset span steps
      (originPoint :: sectorArc start span radius offset steps ++ [originPoint]) := by
  obtain ⟨turns, -, hunwinds, hturned⟩ := unwind_ok_iff.1 hspan
  have hcongruent : span = stop - start + turns * (2 * Real.pi) := by rw [hturned, turned_real]
  have hnonneg : 0 ≤ span := by
    rw [hturned]
    exact not_lt.1 hunwinds.stops
  have height := eight_le_of_sectorSteps hsteps
  exact {
    nonneg := hnonneg
    congruent := ⟨turns, hcongruent⟩
    oneTurn := by
      intro hlt
      rw [hturned]
      exact hunwinds.turned_lt (sub_neg.2 hlt)
    unchanged := by
      intro hle
      rw [hturned]
      exact hunwinds.turned_eq (not_lt.2 (sub_nonneg.2 hle))
    steps_ge := height
    length := by simp [sectorArc]
    first := rfl
    last := by rw [List.getLast?_append]; rfl
    arc := by
      intro i hi
      rw [outline_arc hi, sectorPoint_eq]
    firstRay := by simp [rayAngle]
    lastRay := by
      refine ⟨turns, ?_⟩
      rw [rayAngle_last start offset span (by omega), hcongruent]
      ring
    forward := by
      intro i _
      rw [rayAngle_succ]
      exact le_add_of_nonneg_right (div_nonneg hnonneg (Nat.cast_nonneg steps))
    gap := by
      intro i _
      rw [rayAngle_succ, add_sub_cancel_left]
      exact div_steps_le hsteps }

section Segment

variable {segment : Json ℝ} {startDeg stopDeg radius : ℝ}
  (hstart : valueOf readNumber segment "angle_start_deg" ((0 : Nat) : ℝ) = .ok startDeg)
  (hstop : valueOf readNumber segment "angle_end_deg" ((0 : Nat) : ℝ) = .ok stopDeg)
  (hradius : valueOf readNumber segment "dist_max_m" ((0 : Nat) : ℝ) = .ok radius)

include hstart hstop hradius

/-- With the three numbers, only the span and the steps can fail. -/
theorem appendSectorPoints_of_numbers {fuel : Nat} {span : ℝ} {steps : Nat}
    (hspan : unwind fuel (radians stopDeg - radians startDeg) = .ok span)
    (hsteps : sectorSteps span = .ok steps) (offset : ℝ) (points : List (Point ℝ)) :
    appendSectorPoints fuel segment offset points = .ok (points ++
      (originPoint :: sectorArc (radians startDeg) span radius offset steps ++ [originPoint])) := by
  rw [← makePoint_origin offset]
  simp only [appendSectorPoints, bind_ok_iff]
  exact ⟨startDeg, hstart, stopDeg, hstop, span, hspan, radius, hradius, steps, hsteps,
    by rw [List.append_assoc]; rfl⟩

theorem sectorCovered_iff (offset : ℝ) :
    SectorCovered segment startDeg stopDeg radius offset ↔
      stopDeg - startDeg ≤ 5 * ((INT_MAX - 1 : Int) : ℝ) := by
  rw [← spanEnds_real, spanEnds_iff]
  constructor
  · intro ⟨fuel, span, steps, _, hspan, hsteps, _⟩
    exact ⟨fuel, span, hspan, steps, hsteps⟩
  · intro ⟨fuel, span, hspan, steps, hsteps⟩
    exact ⟨fuel, span, steps, _, hspan, hsteps,
      appendSectorPoints_of_numbers hstart hstop hradius hspan hsteps offset,
      coversSector hspan hsteps radius offset⟩

/-- Where the step count fits an `int`, the sector is covered, unless the count is `INT_MAX`: then
the loop would have to count on. -/
theorem sectorCovered_unless_widest (offset : ℝ) :
    (StepsWithin INT_MAX (radians stopDeg - radians startDeg) →
      SectorCovered segment startDeg stopDeg radius offset) ↔
    ¬ (5 * ((INT_MAX - 1 : Int) : ℝ) < stopDeg - startDeg ∧
      stopDeg - startDeg ≤ 5 * ((INT_MAX : Int) : ℝ)) := by
  rw [stepsWithin_real (by decide), sectorCovered_iff hstart hstop hradius, not_and', not_lt]

end Segment

/-- A sector of `INT_MAX` steps: a fifth of its degrees is less than one below. -/
def widestSector : Json ℝ :=
  .object [("type", .string "sector"), ("angle_end_deg", .numberUnsigned 10737418234),
    ("dist_max_m", .numberUnsigned 1)]

theorem widestSector_numbers :
    valueOf readNumber widestSector "angle_start_deg" ((0 : Nat) : ℝ) = .ok ((0 : Nat) : ℝ) ∧
    valueOf readNumber widestSector "angle_end_deg" ((0 : Nat) : ℝ) =
      .ok ((10737418234 : Nat) : ℝ) ∧
    valueOf readNumber widestSector "dist_max_m" ((0 : Nat) : ℝ) = .ok ((1 : Nat) : ℝ) :=
  ⟨rfl, rfl, rfl⟩

theorem widestSector_overflows (fuel : Nat) (offset : ℝ) (points : List (Point ℝ)) :
    appendSectorPoints fuel widestSector offset points = .error .increment := by
  obtain ⟨hstart, hstop, hradius⟩ := widestSector_numbers
  have hspan : radians ((10737418234 : Nat) : ℝ) - radians ((0 : Nat) : ℝ) =
      10737418234 / 5 * sectorStep := by
    simp only [radians, sectorStep, Trig.pi]
    push_cast
    ring
  have hnonneg : ¬ (10737418234 / 5 * sectorStep : ℝ) < 0 :=
    not_lt.2 (mul_nonneg (by norm_num) sectorStep_pos.le)
  have hunwind : unwind fuel (10737418234 / 5 * sectorStep : ℝ) =
      .ok (10737418234 / 5 * sectorStep) := by
    unfold unwind
    rw [if_neg hnonneg]
  have hceil : Ceil.ceil (10737418234 / 5 * sectorStep / sectorStep : ℝ) = INT_MAX := by
    rw [mul_div_cancel_right₀ _ sectorStep_pos.ne']
    refine Int.ceil_eq_iff.2 ⟨?_, ?_⟩
    · norm_num [INT_MAX]
    · norm_num [INT_MAX]
  have hsteps : sectorSteps (10737418234 / 5 * sectorStep : ℝ) = .error .increment := by
    simp only [sectorSteps, hceil]
    rfl
  simp only [appendSectorPoints, hstart, hstop, hspan, hunwind, hradius, hsteps, bind, Except.bind]

theorem widestSector_not_covered :
    StepsWithin INT_MAX (radians ((10737418234 : Nat) : ℝ) - radians ((0 : Nat) : ℝ)) ∧
    (∀ fuel points, appendSectorPoints fuel widestSector 0 points = .error .increment) ∧
    ¬ SectorCovered widestSector ((0 : Nat) : ℝ) ((10737418234 : Nat) : ℝ) ((1 : Nat) : ℝ) 0 := by
  obtain ⟨hstart, hstop, hradius⟩ := widestSector_numbers
  rw [stepsWithin_real (by decide), sectorCovered_iff hstart hstop hradius]
  refine ⟨?_, fun fuel points => widestSector_overflows fuel 0 points, ?_⟩
  · simp only [INT_MAX]
    norm_num
  · simp only [INT_MAX]
    norm_num

/-- A sector over the rear of the LiDAR, from 170 to -170 degrees. -/
def rearSector : Json ℝ :=
  .object [("type", .string "sector"), ("angle_start_deg", .numberInteger 170),
    ("angle_end_deg", .numberInteger (-170)), ("dist_max_m", .numberUnsigned 2)]

theorem rearSector_covered :
    SectorCovered rearSector ((170 : Int) : ℝ) ((-170 : Int) : ℝ) ((2 : Nat) : ℝ) 0 := by
  refine (sectorCovered_unless_widest rfl rfl rfl 0).2 ?_ ?_
  · simp only [INT_MAX]
    norm_num
  · rw [stepsWithin_real (by decide)]
    simp only [INT_MAX]
    norm_num

end MechLidar
