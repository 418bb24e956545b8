import MechLidar.ConfigCheck
import MechLidar.Lib.Collect
import MechLidar.SafetyZones

/-!
# MechLidar.ZoneFaults

Malformed safety zones. A zone or a segment without the right shape is left out, but the members of
the others are read without a guard, and what they throw leaves both loops.

* `zoneMarkers`: the markers of one zone by itself, with what is malformed left out
* `ZonesUndisturbed`: the markers are those of the zones, one zone after the other
* `ReadableZones`: every member that is read has its type, and every sector has its steps
* `zonesUndisturbed_iff_readable`: the one is the case exactly if the other is
* `spanEnds_real`: which sectors have their steps, with exact arithmetic
-/

namespace MechLidar

open Lib

variable {F α : Type}

/-! ## Zones by themselves -/

def Marker.withoutId (m : Marker F) : Marker F := { m with id := 0 }

/-- The text of a member, or the default where there is none. -/
def Json.textOr (v : Json F) (key d : String) : String :=
  match v.member key with
  | some (.string s) => s
  | _ => d

/-- The name by which the status is read. -/
def zoneName (zone : Json F) : String :=
  match zone.member "name" with
  | some (.string name) => name
  | _ => "zone"

def zoneElements (zones : Json F) : List (Json F) :=
  match zones.member "zones" with
  | some (.array elements) => elements
  | _ => []

section Spec

variable [Arith F] [Ceil F] [IntCast F]

def segmentMarkers (fuel : Nat) (options : MarkerOptions F) (color : ColorRGBA F)
    (segment : Json F) : List (Marker F) :=
  if segment.isObject then
    match segmentPoints fuel options.angleOffsetRad segment with
    | .ok points => if 2 ≤ points.length then [segmentMarker options color 0 points] else []
    | .error _ => []
  else []

/-- The markers of a zone, from its own JSON and its entry in the status. -/
def zoneMarkers (fuel : Nat) (options : MarkerOptions F) (entry : Option (Json F))
    (zone : Json F) : List (Marker F) :=
  match zone.member "segments", valueOf readText zone "name" "zone", zoneIsEnabled zone with
  | some (.array segments), .ok _, .ok enabled =>
    segments.flatMap
      (segmentMarkers fuel options (markerColor enabled (statusKnown entry) (isTriggered entry)))
  | _, _, _ => []

/-- The call returns, and its markers are those of each zone by itself but for the ids. -/
def ZonesUndisturbed (options : MarkerOptions F) (zones status : Json F) : Prop :=
  ∃ fuel out, buildSafetyZoneMarkers fuel options zones status = .ok out ∧
    out.map Marker.withoutId = clearMarker :: (zoneElements zones).flatMap fun zone =>
      zoneMarkers fuel options (status.member (zoneName zone)) zone

end Spec

/-! ## What is read -/

/-- A number. It is finite in every JSON text. -/
def Json.IsNumber [IntCast F] [NatCast F] (x : Json F) : Prop := ∃ r, x.exactNumber = some (.fin r)

def IsPair (vertex : Json F) : Prop := ∃ x y more, vertex = .array (x :: y :: more)

/-- The first two elements are numbers, if there are two. -/
def VertexReadable [IntCast F] [NatCast F] (vertex : Json F) : Prop :=
  ∀ x y more, vertex = .array (x :: y :: more) → x.IsNumber ∧ y.IsNumber

section Readable

variable [Arith F]

/-- A span after some full turns. -/
def turned (span : F) (turns : Nat) : F := (· + fullTurn)^[turns] span

/-- The first span that is not negative is reached after so many turns. -/
structure Unwinds (span : F) (turns : Nat) : Prop where
  before : ∀ n < turns, turned span n < 0
  stops : ¬ turned span turns < 0

variable [Ceil F]

/-- The span is unwound, and has so few steps that an `int` counts them. -/
def SpanEnds (span : F) : Prop :=
  ∃ turns, Unwinds span turns ∧ INT_MIN ≤ Ceil.ceil (turned span turns / sectorStep) ∧
    Ceil.ceil (turned span turns / sectorStep) < INT_MAX

/-- The span is unwound, and has at most so many steps. -/
def StepsWithin (bound : Int) (span : F) : Prop :=
  ∃ turns, Unwinds span turns ∧ INT_MIN ≤ Ceil.ceil (turned span turns / sectorStep) ∧
    Ceil.ceil (turned span turns / sectorStep) ≤ bound

variable [IntCast F]

structure SectorReadable (segment : Json F) : Prop where
  numbers : ∀ key ∈ ["angle_start_deg", "angle_end_deg", "dist_max_m"],
    ∀ x, segment.member key = some x → x.IsNumber
  ends : ∀ start stop, segment.numberOr "angle_start_deg" 0 = .fin start →
    segment.numberOr "angle_end_deg" 0 = .fin stop → SpanEnds (radians stop - radians start)

structure SegmentReadable (segment : Json F) : Prop where
  type : HasKinds [("type", .text)] segment
  sector : segment.member "type" = some (.string "sector") → SectorReadable segment
  polygon : segment.member "type" = some (.string "polygon") → ∀ vertices,
    segment.member "vertices" = some (.array vertices) → ∀ vertex ∈ vertices, VertexReadable vertex
  twoPoints : segment.member "type" = some (.string "two_points") → ∀ first second,
    segment.member "vertices" = some (.array [first, second]) →
      VertexReadable first ∧ (IsPair first → VertexReadable second)

def ZoneReadable (zone : Json F) : Prop :=
  ∀ segments, zone.member "segments" = some (.array segments) →
    HasKinds [("name", .text), ("enabled", .flag)] zone ∧
      ∀ segment ∈ segments, segment.isObject = true → SegmentReadable segment

def ReadableZones (zones : Json F) : Prop := ∀ zone ∈ zoneElements zones, ZoneReadable zone

end Readable

/-! ## Members -/

theorem readText_ok_iff {x : Json F} {s : String} : readText x = .ok s ↔ x = .string s := by
  cases x <;> simp [readText, Json.getString, Except.mapError]

theorem readFlag_ok_iff {x : Json F} {b : Bool} : readFlag x = .ok b ↔ x = .boolean b := by
  cases x <;> simp [readFlag, Json.getBoolean, Except.mapError]

theorem readNumber_ok_iff [IntCast F] [NatCast F] {x : Json F} {r : F} :
    readNumber x = .ok r ↔ x.exactNumber = some (.fin r) := by
  cases x with
  | numberFloat f => cases f <;> simp [readNumber, Json.getDouble, Json.exactNumber]
  | _ => simp [readNumber, Json.getDouble, Json.exactNumber]

theorem valueOf_ok_iff {read : Json F → Except ZoneFault α} {v : Json F} {key : String} {d : α} :
    (∃ a, valueOf read v key d = .ok a) ↔
      ∀ x, v.member key = some x → ∃ a, read x = .ok a := by
  rw [valueOf]
  cases v.member key with
  | none => simp
  | some x => simp

theorem valueOf_text_ok_iff {v : Json F} {key d : String} :
    (∃ s, valueOf readText v key d = .ok s) ↔ HasKinds [(key, .text)] v := by
  simp only [valueOf_ok_iff, readText_ok_iff, HasKinds, List.forall_mem_singleton, Kind.Has]

theorem valueOf_text_of_member {v : Json F} {key s : String}
    (h : v.member key = some (.string s)) (d : String) : valueOf readText v key d = .ok s := by
  simp [valueOf, h, readText_ok_iff]

/-- A text other than the default is the one of the member. -/
theorem member_of_valueOf_text {v : Json F} {key d s : String}
    (h : valueOf readText v key d = .ok s) (hne : s ≠ d) : v.member key = some (.string s) := by
  rw [valueOf] at h
  cases hx : v.member key with
  | none =>
    rw [hx] at h
    cases h
    exact absurd rfl hne
  | some x =>
    rw [hx] at h
    rw [readText_ok_iff.1 h]

theorem valueOf_text_eq {v : Json F} {key d s : String} (h : valueOf readText v key d = .ok s) :
    s = v.textOr key d := by
  rw [valueOf] at h
  rw [Json.textOr]
  cases hx : v.member key with
  | none =>
    rw [hx] at h
    cases h
    rfl
  | some x =>
    rw [hx] at h
    rw [readText_ok_iff.1 h]

theorem eq_zoneName {zone : Json F} {name : String}
    (h : valueOf readText zone "name" "zone" = .ok name) : name = zoneName zone := valueOf_text_eq h

theorem zoneIsEnabled_ok_iff {zone : Json F} :
    (∃ b, zoneIsEnabled zone = .ok b) ↔ HasKinds [("enabled", .flag)] zone := by
  simp only [zoneIsEnabled, valueOf, HasKinds, List.forall_mem_singleton, Kind.Has]
  cases zone.member "enabled" with
  | none => simp
  | some x => simp [readFlag_ok_iff]

/-- A number that is read is the number of the member, or the default. -/
theorem valueOf_number_ok_iff [IntCast F] [NatCast F] {v : Json F} {key : String} {d : Nat}
    {r : F} : valueOf readNumber v key (d : F) = .ok r ↔
      (∀ x, v.member key = some x → x.IsNumber) ∧ v.numberOr key d = .fin r := by
  simp only [valueOf, Json.numberOr, Json.IsNumber]
  cases v.member key with
  | none => simp
  | some x =>
    rw [readNumber_ok_iff]
    constructor
    · intro h
      refine ⟨?_, by simp [h]⟩
      intro y hy
      cases hy
      exact ⟨r, h⟩
    · rintro ⟨hnumber, hr⟩
      obtain ⟨r', hr'⟩ := hnumber x rfl
      simpa [hr'] using hr

theorem numberOr_fin [IntCast F] [NatCast F] {v : Json F} {key : String}
    (h : ∀ x, v.member key = some x → x.IsNumber) (d : Nat) : ∃ r, v.numberOr key d = .fin r := by
  rw [Json.numberOr]
  cases hx : v.member key with
  | none => exact ⟨_, rfl⟩
  | some x =>
    obtain ⟨r, hr⟩ := h x hx
    exact ⟨r, by simp [hr]⟩

/-! ## Sectors -/

section Sectors

variable [Arith F]

theorem turned_succ (span : F) (n : Nat) : turned span (n + 1) = turned (span + fullTurn) n := rfl

theorem unwinds_zero_iff {span : F} : Unwinds span 0 ↔ ¬ span < 0 := by
  constructor
  · intro h
    exact h.stops
  · intro h
    exact ⟨nofun, h⟩

theorem unwinds_succ_iff {span : F} {turns : Nat} :
    Unwinds span (turns + 1) ↔ span < 0 ∧ Unwinds (span + fullTurn) turns := by
  constructor
  · intro h
    exact ⟨h.before 0 (by omega), fun n hn => h.before (n + 1) (by omega), h.stops⟩
  · intro ⟨hspan, h⟩
    refine ⟨?_, h.stops⟩
    intro n hn
    cases n with
    | zero => exact hspan
    | succ n => exact h.before n (by omega)

theorem unwind_ok_iff {fuel : Nat} {span t : F} :
    unwind fuel span = .ok t ↔ ∃ turns ≤ fuel, Unwinds span turns ∧ t = turned span turns := by
  constructor
  · intro h
    fun_induction unwind fuel span with
    | case1 => cases h
    | case2 span hspan fuel ih =>
      obtain ⟨turns, hle, hunwinds, ht⟩ := ih h
      exact ⟨turns + 1, by omega, unwinds_succ_iff.2 ⟨hspan, hunwinds⟩, ht⟩
    | case3 fuel span hspan =>
      cases h
      exact ⟨0, Nat.zero_le _, unwinds_zero_iff.2 hspan, rfl⟩
  · intro ⟨turns, hle, h, ht⟩
    subst ht
    induction turns generalizing fuel span with
    | zero =>
      unfold unwind
      rw [if_neg (unwinds_zero_iff.1 h)]
      rfl
    | succ turns ih =>
      obtain ⟨hspan, h⟩ := unwinds_succ_iff.1 h
      cases fuel with
      | zero => omega
      | succ fuel =>
        rw [unwind, if_pos hspan]
        exact ih (by omega) h

theorem unwind_mono {m n : Nat} {span t : F} (hle : m ≤ n) (h : unwind m span = .ok t) :
    unwind n span = .ok t := by
  obtain ⟨turns, hm, hunwinds, ht⟩ := unwind_ok_iff.1 h
  exact unwind_ok_iff.2 ⟨turns, Nat.le_trans hm hle, hunwinds, ht⟩

variable [Ceil F]

theorem sectorSteps_ok_iff {span : F} : (∃ n, sectorSteps span = .ok n) ↔
    INT_MIN ≤ Ceil.ceil (span / sectorStep) ∧ Ceil.ceil (span / sectorStep) < INT_MAX := by
  have hmax : (8 : Int) < INT_MAX := by decide
  simp only [sectorSteps]
  split
  · simp only [reduceCtorEq, exists_false, false_iff]
    omega
  · split
    · simp only [reduceCtorEq, exists_false, false_iff]
      omega
    · simp only [Except.ok.injEq, exists_eq', true_iff]
      omega

theorem spanEnds_iff {span : F} : SpanEnds span ↔
    ∃ fuel t, unwind fuel span = .ok t ∧ ∃ n, sectorSteps t = .ok n := by
  simp only [sectorSteps_ok_iff]
  constructor
  · intro ⟨turns, hunwinds, hfits⟩
    exact ⟨turns, _, unwind_ok_iff.2 ⟨turns, Nat.le_refl _, hunwinds, rfl⟩, hfits⟩
  · intro ⟨fuel, t, h, hfits⟩
    obtain ⟨turns, -, hunwinds, rfl⟩ := unwind_ok_iff.1 h
    exact ⟨turns, hunwinds, hfits⟩

variable [IntCast F]

theorem appendSectorPoints_ok_iff {segment : Json F} {angleOffsetRad : F}
    {points : List (Point F)} :
    (∃ fuel r, appendSectorPoints fuel segment angleOffsetRad points = .ok r) ↔
      SectorReadable segment := by
  simp only [appendSectorPoints, bind_ok_iff, valueOf_number_ok_iff]
  constructor
  · intro ⟨fuel, r, start, ⟨hstart, hstartEq⟩, stop, ⟨hstop, hstopEq⟩, span, hspan, radius,
      ⟨hradius, _⟩, steps, hsteps, _⟩
    refine ⟨?_, ?_⟩
    · simp only [List.forall_mem_cons]
      exact ⟨hstart, hstop, hradius, by simp⟩
    · intro start' stop' hstart' hstop'
      cases hstartEq.symm.trans hstart'
      cases hstopEq.symm.trans hstop'
      exact spanEnds_iff.2 ⟨fuel, span, hspan, steps, hsteps⟩
  · intro ⟨hnumbers, hends⟩
    simp only [List.forall_mem_cons] at hnumbers
    obtain ⟨hstart, hstop, hradius, -⟩ := hnumbers
    obtain ⟨start, hstartEq⟩ := numberOr_fin hstart 0
    obtain ⟨stop, hstopEq⟩ := numberOr_fin hstop 0
    obtain ⟨radius, hradiusEq⟩ := numberOr_fin hradius 0
    obtain ⟨fuel, span, hspan, steps, hsteps⟩ := spanEnds_iff.1 (hends start stop hstartEq hstopEq)
    exact ⟨fuel, _, start, ⟨hstart, hstartEq⟩, stop, ⟨hstop, hstopEq⟩, span, hspan, radius,
      ⟨hradius, hradiusEq⟩, steps, hsteps, rfl⟩

theorem appendSectorPoints_mono {m n : Nat} {segment : Json F} {angleOffsetRad : F}
    {points r : List (Point F)} (hle : m ≤ n)
    (h : appendSectorPoints m segment angleOffsetRad points = .ok r) :
    appendSectorPoints n segment angleOffsetRad points = .ok r := by
  simp only [appendSectorPoints, bind_ok_iff] at h ⊢
  obtain ⟨start, hstart, stop, hstop, span, hspan, hrest⟩ := h
  exact ⟨start, hstart, stop, hstop, span, unwind_mono hle hspan, hrest⟩

end Sectors

/-! ## Vertices -/

section Vertices

variable [Arith F] [IntCast F] {angleOffsetRad : F}

theorem vertexPoint_ok_iff {x y : Json F} :
    (∃ p, vertexPoint angleOffsetRad x y = .ok p) ↔ x.IsNumber ∧ y.IsNumber := by
  simp only [vertexPoint, bind_ok_iff, readNumber_ok_iff]
  constructor
  · intro ⟨p, a, hx, b, hy, _⟩
    exact ⟨⟨a, hx⟩, b, hy⟩
  · intro ⟨⟨a, hx⟩, b, hy⟩
    exact ⟨_, a, hx, b, hy, rfl⟩

theorem vertexReadable_pair {x y : Json F} {more : List (Json F)} :
    VertexReadable (.array (x :: y :: more)) ↔ x.IsNumber ∧ y.IsNumber := by
  constructor
  · intro h
    exact h x y more rfl
  · intro h x' y' more' heq
    cases heq
    exact h

theorem vertexReadable_of_not_pair {vertex : Json F} (h : ¬ IsPair vertex) :
    VertexReadable vertex :=
  fun x y more heq => absurd ⟨x, y, more, heq⟩ h

/-- What the loops make of an array that is too short, or of no array. -/
theorem appendVertex_of_not_pair {vertex : Json F} (h : ¬ IsPair vertex) (points : List (Point F)) :
    appendVertex angleOffsetRad points vertex = .ok points := by
  unfold appendVertex
  split
  · next x y more => exact absurd ⟨x, y, more, rfl⟩ h
  · rfl

theorem appendVertex_ok_iff (points : List (Point F)) (vertex : Json F) :
    (∃ r, appendVertex angleOffsetRad points vertex = .ok r) ↔ VertexReadable vertex := by
  by_cases hpair : IsPair vertex
  · obtain ⟨x, y, more, rfl⟩ := hpair
    rw [vertexReadable_pair, ← vertexPoint_ok_iff]
    simp only [appendVertex, bind_ok_iff]
    constructor
    · intro ⟨_, p, hp, _⟩
      exact ⟨p, hp⟩
    · intro ⟨p, hp⟩
      exact ⟨_, p, hp, rfl⟩
  · simp [appendVertex_of_not_pair hpair, vertexReadable_of_not_pair hpair]

theorem appendPolygonPoints_ok_iff {segment : Json F} {points : List (Point F)} :
    (∃ r, appendPolygonPoints segment angleOffsetRad points = .ok r) ↔ ∀ vertices,
      segment.member "vertices" = some (.array vertices) →
        ∀ vertex ∈ vertices, VertexReadable vertex := by
  rw [appendPolygonPoints]
  split
  · next vertices hvertices =>
    simp only [hvertices, Option.some.injEq, Json.array.injEq, forall_eq', map_ok_iff]
    rw [← foldlM_ok_iff appendVertex_ok_iff vertices points]
    constructor
    · intro ⟨_, r, hr, _⟩
      exact ⟨r, hr⟩
    · intro ⟨r, hr⟩
      exact ⟨_, r, hr, rfl⟩
  · next hnone =>
    simp only [Except.ok.injEq, exists_eq', true_iff]
    intro vertices hvertices
    exact absurd hvertices (hnone vertices)

/-- The second vertex is read only if the first one is a pair. -/
theorem appendVertices_cons_ok_iff {vertices : List (Json F)} {Good : Prop}
    (hrest : ∀ points, (∃ r, appendVertices angleOffsetRad vertices points = .ok r) ↔ Good)
    (vertex : Json F) (points : List (Point F)) :
    (∃ r, appendVertices angleOffsetRad (vertex :: vertices) points = .ok r) ↔
      VertexReadable vertex ∧ (IsPair vertex → Good) := by
  by_cases hpair : IsPair vertex
  · simp only [hpair, true_implies]
    obtain ⟨x, y, more, rfl⟩ := hpair
    have hpoint : (∃ p, vertexPoint angleOffsetRad x y = .ok p) ↔ _ := vertexPoint_ok_iff
    rw [vertexReadable_pair, ← hpoint]
    simp only [appendVertices, bind_ok_iff]
    constructor
    · intro ⟨r, p, hp, hr⟩
      exact ⟨⟨p, hp⟩, (hrest _).1 ⟨r, hr⟩⟩
    · intro ⟨⟨p, hp⟩, hgood⟩
      obtain ⟨r, hr⟩ := (hrest (points ++ [p])).2 hgood
      exact ⟨r, p, hp, hr⟩
  · have hshort : appendVertices angleOffsetRad (vertex :: vertices) points = .ok [] := by
      rw [appendVertices]
      intro x y more heq
      exact hpair ⟨x, y, more, heq⟩
    simp [hshort, hpair, vertexReadable_of_not_pair hpair]

theorem appendTwoPointSegment_ok_iff {segment : Json F} {points : List (Point F)} :
    (∃ r, appendTwoPointSegment segment angleOffsetRad points = .ok r) ↔ ∀ first second,
      segment.member "vertices" = some (.array [first, second]) →
        VertexReadable first ∧ (IsPair first → VertexReadable second) := by
  have hnil : ∀ points : List (Point F),
      (∃ r, appendVertices angleOffsetRad [] points = .ok r) ↔ True := by simp [appendVertices]
  have hone : ∀ (second : Json F) (points : List (Point F)),
      (∃ r, appendVertices angleOffsetRad [second] points = .ok r) ↔ VertexReadable second := by
    intro second points
    simpa using appendVertices_cons_ok_iff hnil second points
  rw [appendTwoPointSegment]
  split
  · next vertices hvertices =>
    simp only [hvertices, Option.some.injEq, Json.array.injEq]
    by_cases htwo : vertices.length = 2
    · obtain ⟨first, second, rfl⟩ := List.length_eq_two.1 htwo
      rw [if_neg (by simp), appendVertices_cons_ok_iff (hone second)]
      simp
    · rw [if_pos htwo]
      simp only [Except.ok.injEq, exists_eq', true_iff]
      rintro first second rfl
      exact absurd rfl htwo
  · next hnone =>
    simp only [Except.ok.injEq, exists_eq', true_iff]
    intro first second hvertices
    exact absurd hvertices (hnone _)

end Vertices

/-! ## Segments and zones -/

section Zones

variable [Arith F] [Ceil F] [IntCast F] {options : MarkerOptions F} {angleOffsetRad : F}

theorem segmentPoints_mono {m n : Nat} {segment : Json F} {r : List (Point F)} (hle : m ≤ n)
    (h : segmentPoints m angleOffsetRad segment = .ok r) :
    segmentPoints n angleOffsetRad segment = .ok r := by
  simp only [segmentPoints, bind_ok_iff] at h ⊢
  obtain ⟨type, htype, h⟩ := h
  refine ⟨type, htype, ?_⟩
  by_cases hsector : type = "sector"
  · rw [if_pos hsector] at h ⊢
    exact appendSectorPoints_mono hle h
  · rwa [if_neg hsector] at h ⊢

theorem segmentReadable_iff {segment : Json F} :
    (∃ fuel r, segmentPoints fuel angleOffsetRad segment = .ok r) ↔ SegmentReadable segment := by
  simp only [segmentPoints, bind_ok_iff]
  constructor
  · intro ⟨fuel, r, type, htype, h⟩
    refine ⟨valueOf_text_ok_iff.1 ⟨type, htype⟩, ?_, ?_, ?_⟩
    · intro hmember
      cases htype.symm.trans (valueOf_text_of_member hmember "")
      rw [if_pos rfl] at h
      exact appendSectorPoints_ok_iff.1 ⟨fuel, r, h⟩
    · intro hmember
      cases htype.symm.trans (valueOf_text_of_member hmember "")
      rw [if_neg (by decide), if_pos rfl] at h
      exact appendPolygonPoints_ok_iff.1 ⟨r, h⟩
    · intro hmember
      cases htype.symm.trans (valueOf_text_of_member hmember "")
      rw [if_neg (by decide), if_neg (by decide), if_pos rfl] at h
      exact appendTwoPointSegment_ok_iff.1 ⟨r, h⟩
  · intro h
    obtain ⟨type, htype⟩ : ∃ type, valueOf readText segment "type" "" = .ok type :=
      valueOf_text_ok_iff.2 h.type
    by_cases hsector : type = "sector"
    · subst hsector
      have hmember := member_of_valueOf_text htype (by decide)
      obtain ⟨fuel, r, hr⟩ := appendSectorPoints_ok_iff.2 (h.sector hmember)
      exact ⟨fuel, r, _, htype, (if_pos rfl).trans hr⟩
    · by_cases hpolygon : type = "polygon"
      · subst hpolygon
        have hmember := member_of_valueOf_text htype (by decide)
        obtain ⟨r, hr⟩ := appendPolygonPoints_ok_iff.2 (h.polygon hmember)
        refine ⟨0, r, _, htype, ?_⟩
        rw [if_neg hsector, if_pos rfl, hr]
      · by_cases htwo : type = "two_points"
        · subst htwo
          have hmember := member_of_valueOf_text htype (by decide)
          obtain ⟨r, hr⟩ := appendTwoPointSegment_ok_iff.2 (h.twoPoints hmember)
          refine ⟨0, r, _, htype, ?_⟩
          rw [if_neg hsector, if_neg hpolygon, if_pos rfl, hr]
        · refine ⟨0, [], _, htype, ?_⟩
          rw [if_neg hsector, if_neg hpolygon, if_neg htwo]

/-- The pass over the segment ends, with so much fuel. -/
def SegmentReturns (fuel : Nat) (angleOffsetRad : F) (segment : Json F) : Prop :=
  segment.isObject = true → ∃ r, segmentPoints fuel angleOffsetRad segment = .ok r

def ZoneReturns (fuel : Nat) (angleOffsetRad : F) (zone : Json F) : Prop :=
  ∀ segments, zone.member "segments" = some (.array segments) →
    HasKinds [("name", .text), ("enabled", .flag)] zone ∧
      ∀ segment ∈ segments, SegmentReturns fuel angleOffsetRad segment

theorem SegmentReturns.mono {m n : Nat} {segment : Json F} (hle : m ≤ n)
    (h : SegmentReturns m angleOffsetRad segment) : SegmentReturns n angleOffsetRad segment := by
  intro hobject
  obtain ⟨r, hr⟩ := h hobject
  exact ⟨r, segmentPoints_mono hle hr⟩

theorem ZoneReturns.mono {m n : Nat} {zone : Json F} (hle : m ≤ n)
    (h : ZoneReturns m angleOffsetRad zone) : ZoneReturns n angleOffsetRad zone := by
  intro segments hsegments
  obtain ⟨hkinds, hall⟩ := h segments hsegments
  exact ⟨hkinds, fun segment hsegment => (hall segment hsegment).mono hle⟩

theorem segmentReturns_iff {segment : Json F} :
    (∃ fuel, SegmentReturns fuel angleOffsetRad segment) ↔
      (segment.isObject = true → SegmentReadable segment) := by
  rw [← segmentReadable_iff (F := F)]
  constructor
  · intro ⟨fuel, h⟩ hobject
    exact ⟨fuel, h hobject⟩
  · intro h
    by_cases hobject : segment.isObject = true
    · obtain ⟨fuel, hr⟩ := h hobject
      exact ⟨fuel, fun _ => hr⟩
    · exact ⟨0, fun hobject' => absurd hobject' hobject⟩

theorem zoneReturns_iff {zone : Json F} :
    (∃ fuel, ZoneReturns fuel angleOffsetRad zone) ↔ ZoneReadable zone := by
  constructor
  · intro ⟨fuel, h⟩ segments hsegments
    obtain ⟨hkinds, hall⟩ := h segments hsegments
    exact ⟨hkinds, fun segment hsegment => segmentReturns_iff.1 ⟨fuel, hall segment hsegment⟩⟩
  · intro h
    by_cases hsome : ∃ segments, zone.member "segments" = some (.array segments)
    · obtain ⟨segments, hsegments⟩ := hsome
      obtain ⟨hkinds, hall⟩ := h segments hsegments
      -- one bound for the loops of all sectors of the zone
      obtain ⟨fuel, hfuel⟩ := (exists_forall_mem_iff
        (P := fun fuel segment => SegmentReturns fuel angleOffsetRad segment)
        SegmentReturns.mono).2 fun segment hsegment =>
          segmentReturns_iff.2 (hall segment hsegment)
      refine ⟨fuel, fun segments' hsegments' => ?_⟩
      cases hsegments.symm.trans hsegments'
      exact ⟨hkinds, hfuel⟩
    · exact ⟨0, fun segments hsegments => absurd ⟨segments, hsegments⟩ hsome⟩

/-- One segment in the loop, and by itself. -/
theorem collects_segmentStep (fuel : Nat) (options : MarkerOptions F) (color : ColorRGBA F) :
    Collects (segmentStep fuel options color) (fun s => s.2.map Marker.withoutId)
      (SegmentReturns fuel options.angleOffsetRad)
      (segmentMarkers fuel options color) where
  ok_iff := by
    intro s segment
    rw [segmentStep, SegmentReturns]
    cases segment.isObject with
    | false => simp
    | true =>
      simp only [if_true, bind_ok_iff, true_implies]
      constructor
      · intro ⟨_, r, hr, _⟩
        exact ⟨r, hr⟩
      · intro ⟨r, hr⟩
        exact ⟨_, r, hr, rfl⟩
  out_eq := by
    intro s segment s' h
    rw [segmentStep] at h
    rw [segmentMarkers]
    cases hobject : segment.isObject with
    | false =>
      rw [hobject] at h
      cases h
      simp
    | true =>
      simp only [hobject, if_true, bind_ok_iff] at h ⊢
      obtain ⟨points, hpoints, h⟩ := h
      cases h
      simp only [hpoints]
      split
      · simp [Marker.withoutId, segmentMarker]
      · simp

/-- One zone in the loop, and by itself. -/
theorem collects_zoneStep (fuel : Nat) (options : MarkerOptions F) (status : Json F) :
    Collects (zoneStep fuel options status) (fun s => s.2.map Marker.withoutId)
      (ZoneReturns fuel options.angleOffsetRad)
      (fun zone => zoneMarkers fuel options (status.member (zoneName zone)) zone) where
  ok_iff := by
    intro s zone
    unfold zoneStep ZoneReturns
    split
    · next segments hsegments =>
      simp only [hsegments, Option.some.injEq, Json.array.injEq, forall_eq', bind_ok_iff]
      have hkinds : HasKinds [("name", .text), ("enabled", .flag)] zone ↔
          HasKinds [("name", .text)] zone ∧ HasKinds [("enabled", .flag)] zone := by
        simp [HasKinds]
      rw [hkinds, ← valueOf_text_ok_iff (d := "zone"), ← zoneIsEnabled_ok_iff]
      constructor
      · rintro ⟨s', name, hname, enabled, henabled, hrun⟩
        exact ⟨⟨⟨name, hname⟩, enabled, henabled⟩,
          ((collects_segmentStep fuel options _).foldlM.ok_iff s segments).1 ⟨s', hrun⟩⟩
      · rintro ⟨⟨⟨name, hname⟩, enabled, henabled⟩, hsegments⟩
        obtain ⟨s', hrun⟩ :=
          ((collects_segmentStep fuel options _).foldlM.ok_iff s segments).2 hsegments
        exact ⟨s', name, hname, enabled, henabled, hrun⟩
    · next hnone =>
      simp only [Except.ok.injEq, exists_eq', true_iff]
      intro segments hsegments
      exact absurd hsegments (hnone segments)
  out_eq := by
    intro s zone s' h
    rw [zoneStep] at h
    split at h
    · next segments hsegments =>
      simp only [bind_ok_iff] at h
      obtain ⟨name, hname, enabled, henabled, hrun⟩ := h
      rw [(collects_segmentStep fuel options _).foldlM.out_eq hrun]
      simp only [zoneMarkers, hsegments, hname, henabled, eq_zoneName hname]
      rfl
    · next hnone =>
      cases h
      rw [zoneMarkers]
      split
      · next hsegments _ _ => exact absurd hsegments (hnone _)
      · simp

theorem buildSafetyZoneMarkers_eq (fuel : Nat) (options : MarkerOptions F) (zones status : Json F) :
    buildSafetyZoneMarkers fuel options zones status =
      ((zoneElements zones).foldlM (zoneStep fuel options status) (1, [clearMarker])).map
        Prod.snd := by
  unfold buildSafetyZoneMarkers
  split
  · next elements helements => simp only [zoneElements, helements]
  · next hnone =>
    have hempty : zoneElements zones = [] := by
      unfold zoneElements
      split
      · next helements => exact absurd helements (hnone _)
      · rfl
    rw [hempty]
    rfl

theorem buildSafetyZoneMarkers_ok_iff (fuel : Nat) (options : MarkerOptions F)
    (zones status : Json F) :
    (∃ out, buildSafetyZoneMarkers fuel options zones status = .ok out) ↔
      ∀ zone ∈ zoneElements zones, ZoneReturns fuel options.angleOffsetRad zone := by
  rw [buildSafetyZoneMarkers_eq,
    ← (collects_zoneStep fuel options status).foldlM.ok_iff (1, [clearMarker])]
  constructor
  · intro ⟨out, hout⟩
    obtain ⟨s, hs, -⟩ := map_ok_iff.1 hout
    exact ⟨s, hs⟩
  · intro ⟨s, hs⟩
    exact ⟨s.2, map_ok_iff.2 ⟨s, hs, rfl⟩⟩

theorem readableZones_iff (angleOffsetRad : F) {zones : Json F} : ReadableZones zones ↔
    ∃ fuel, ∀ zone ∈ zoneElements zones, ZoneReturns fuel angleOffsetRad zone := by
  rw [exists_forall_mem_iff
    (P := fun fuel zone => ZoneReturns fuel angleOffsetRad zone) ZoneReturns.mono]
  exact forall_congr' fun zone => imp_congr_right fun _ => zoneReturns_iff.symm

/-- The markers of the zones are undisturbed exactly if all zones can be read. -/
theorem zonesUndisturbed_iff_readable (options : MarkerOptions F) (zones status : Json F) :
    ZonesUndisturbed options zones status ↔ ReadableZones zones := by
  rw [readableZones_iff options.angleOffsetRad]
  refine exists_congr fun fuel => ?_
  rw [← buildSafetyZoneMarkers_ok_iff fuel options zones status]
  constructor
  · intro ⟨out, hout, _⟩
    exact ⟨out, hout⟩
  · intro ⟨out, hout⟩
    refine ⟨out, hout, ?_⟩
    rw [buildSafetyZoneMarkers_eq] at hout
    obtain ⟨s, hs, rfl⟩ := map_ok_iff.1 hout
    exact (collects_zoneStep fuel options status).foldlM.out_eq hs

end Zones

/-! ## Sectors in real numbers -/

theorem turned_real (span : ℝ) (n : Nat) : turned span n = span + n * (2 * Real.pi) := by
  induction n generalizing span with
  | zero => simp [turned]
  | succ n ih =>
    rw [turned_succ, ih]
    simp only [fullTurn, Trig.pi, Nat.cast_ofNat, Nat.cast_succ]
    ring

theorem exists_unwinds (span : ℝ) : ∃ turns, Unwinds span turns := by
  have hturn : 0 < 2 * Real.pi := Real.two_pi_pos
  have hends : ∃ n : Nat, ¬ turned span n < 0 := by
    obtain ⟨n, hn⟩ := exists_nat_gt (-span / (2 * Real.pi))
    rw [div_lt_iff₀ hturn] at hn
    refine ⟨n, ?_⟩
    rw [turned_real, not_lt]
    linarith
  refine ⟨Nat.find hends, ?_, Nat.find_spec hends⟩
  intro n hn
  exact not_not.1 (Nat.find_min hends hn)

/-- A negative span is unwound into one turn. -/
theorem Unwinds.turned_lt {span : ℝ} {turns : Nat} (h : Unwinds span turns) (hspan : span < 0) :
    turned span turns < 2 * Real.pi := by
  cases turns with
  | zero => exact absurd hspan h.stops
  | succ turns =>
    have hbefore := h.before turns (Nat.lt_succ_self turns)
    rw [turned_real] at hbefore ⊢
    push_cast
    linarith

/-- A span that is not negative is left as it is. -/
theorem Unwinds.turned_eq {span : ℝ} {turns : Nat} (h : Unwinds span turns) (hspan : ¬ span < 0) :
    turned span turns = span := by
  cases turns with
  | zero => rfl
  | succ turns => exact absurd (unwinds_succ_iff.1 h).1 hspan

theorem sectorStep_pos : (0 : ℝ) < sectorStep := by
  have hpi := Real.pi_pos
  simp only [sectorStep, Trig.pi]
  positivity

theorem stepsWithin_of_neg {bound : Int} (hbound : 72 ≤ bound) {span : ℝ} (h : span < 0) :
    StepsWithin bound span := by
  have hstep := sectorStep_pos
  obtain ⟨turns, hunwinds⟩ := exists_unwinds span
  have hturned := hunwinds.turned_lt h
  have hnonneg : 0 ≤ turned span turns := not_lt.1 hunwinds.stops
  have hlow : 0 ≤ turned span turns / sectorStep := by positivity
  -- a whole turn has 72 steps of 5 degrees
  have hhigh : turned span turns / sectorStep ≤ ((72 : Int) : ℝ) := by
    rw [div_le_iff₀ hstep]
    simp only [sectorStep, Trig.pi, Nat.cast_ofNat, Int.cast_ofNat]
    linarith
  have hceil : (0 : Int) ≤ Ceil.ceil (turned span turns / sectorStep) := Int.ceil_nonneg hlow
  have hceil' : Ceil.ceil (turned span turns / sectorStep) ≤ 72 := Int.ceil_le.2 hhigh
  refine ⟨turns, hunwinds, ?_, hceil'.trans hbound⟩
  simp only [INT_MIN]
  omega

theorem stepsWithin_of_nonneg {bound : Int} {span : ℝ} (h : ¬ span < 0) :
    StepsWithin bound span ↔ span / sectorStep ≤ (bound : ℝ) := by
  have hnonneg : 0 ≤ span / sectorStep := div_nonneg (not_lt.1 h) sectorStep_pos.le
  have hceil : (0 : Int) ≤ Ceil.ceil (span / sectorStep) := Int.ceil_nonneg hnonneg
  have hfits : Ceil.ceil (span / sectorStep) ≤ bound ↔ span / sectorStep ≤ (bound : ℝ) :=
    Int.ceil_le
  rw [← hfits]
  constructor
  · intro ⟨turns, hunwinds, _, hhigh⟩
    rwa [hunwinds.turned_eq h] at hhigh
  · intro hhigh
    exact ⟨0, unwinds_zero_iff.2 h, le_trans (by decide) hceil, hhigh⟩

/-- With exact arithmetic only the steps limit the angles of a sector, in degrees. -/
theorem stepsWithin_real {bound : Int} (hbound : 72 ≤ bound) (start stop : ℝ) :
    StepsWithin bound (radians stop - radians start) ↔ stop - start ≤ 5 * (bound : ℝ) := by
  have hpi := Real.pi_pos
  have hspan : radians stop - radians start = (stop - start) * (Real.pi / 180) := by
    simp only [radians, Trig.pi, Nat.cast_ofNat]
    ring
  by_cases hneg : radians stop - radians start < 0
  · have hlt : stop - start < 0 := by
      rw [hspan] at hneg
      exact neg_of_mul_neg_left hneg (by positivity)
    have hcast : (72 : ℝ) ≤ bound := by exact_mod_cast hbound
    exact iff_of_true (stepsWithin_of_neg hbound hneg) (by linarith)
  · have hcount : (radians stop - radians start) / sectorStep = (stop - start) / 5 := by
      rw [hspan]
      simp only [sectorStep, Trig.pi, Nat.cast_ofNat]
      field_simp
      ring
    rw [stepsWithin_of_nonneg hneg, hcount, div_le_iff₀ (by norm_num), mul_comm]

theorem spanEnds_real (start stop : ℝ) :
    SpanEnds (radians stop - radians start) ↔ stop - start ≤ 5 * ((INT_MAX - 1 : Int) : ℝ) := by
  rw [← stepsWithin_real (by decide)]
  simp only [SpanEnds, StepsWithin, Int.le_sub_one_iff]

/-! ## A zone with a number for a name -/

def frontLine : Json ℝ :=
  .object [("name", .string "front_line"), ("enabled", .boolean true),
    ("segments", .array [.object [("type", .string "two_points"),
      ("vertices", .array [.array [.numberInteger 0, .numberInteger (-1)],
        .array [.numberInteger 1, .numberInteger (-1)]])]])]

def numberedZone : Json ℝ := .object [("name", .numberUnsigned 5), ("segments", .array [])]

noncomputable def baseLink : MarkerOptions ℝ := ⟨"base_link", 0, 0⟩

/-- It has no segment to show, and hides the zone next to it. -/
theorem numberedZone_disturbs :
    (∃ out, buildSafetyZoneMarkers 0 baseLink (.object [("zones", .array [frontLine])])
      (.object []) = .ok out ∧ out.length = 2) ∧
    (∀ fuel, buildSafetyZoneMarkers fuel baseLink
      (.object [("zones", .array [frontLine, numberedZone])]) (.object []) = .error .json) ∧
    ¬ ZonesUndisturbed baseLink (.object [("zones", .array [frontLine, numberedZone])])
      (.object []) := by
  have hfault : ∀ fuel, buildSafetyZoneMarkers fuel baseLink
      (.object [("zones", .array [frontLine, numberedZone])]) (.object []) = .error .json :=
    fun fuel => rfl
  refine ⟨⟨_, rfl, rfl⟩, hfault, ?_⟩
  intro ⟨fuel, out, hout, _⟩
  rw [hfault] at hout
  cases hout

end MechLidar
