import MechLidar.ZoneFaults

/-!
# MechLidar.MarkerArrays

The structure of a marker array, and what of it the status decides.

* `rankedSegments`: the object segments of all zones, in the order of the document
* `outline`: the line of a segment, from the vertices that are well formed
* `ZoneSegment.markers`: the marker of a segment, or none if the line has fewer than two points
* `MarkerArray`: the array is that of the ranked segments
* `markerArrays`: every array is one, and another status gives the same array in other colors
-/

namespace MechLidar

open Lib

variable {F : Type}

/-! ## The document -/

/-- An object in the `segments` of a zone. -/
structure ZoneSegment (F : Type) where
  zone : Json F
  segment : Json F

/-- The elements of a member that is an array. -/
def Json.elementsOf (v : Json F) (key : String) : List (Json F) :=
  match v.member key with
  | some (.array elements) => elements
  | _ => []

def segmentElements (zone : Json F) : List (Json F) := zone.elementsOf "segments"

def zoneSegments (zone : Json F) : List (ZoneSegment F) :=
  (segmentElements zone).flatMap fun segment =>
    if segment.isObject then [⟨zone, segment⟩] else []

/-- The first rank is 1. -/
def rankedSegments (zones : Json F) : List (ZoneSegment F × Nat) :=
  ((zoneElements zones).flatMap zoneSegments).zipIdx 1

def segmentType (segment : Json F) : String := segment.textOr "type" ""

def vertexElements (segment : Json F) : List (Json F) := segment.elementsOf "vertices"

def zoneEnabled (zone : Json F) : Bool :=
  match zone.member "enabled" with
  | some (.boolean enabled) => enabled
  | _ => true

/-- What the status says of a zone: `true`, `false`, or no boolean. -/
def statusFlag (status : Json F) (name : String) : Option Bool :=
  match status.member name with
  | some (.boolean triggered) => some triggered
  | _ => none

def Marker.withoutColor [Zero F] (m : Marker F) : Marker F := { m with color := ⟨0, 0, 0, 0⟩ }

/-! ## The array -/

section Spec

variable [Arith F]

def colorOf (enabled : Bool) (flag : Option Bool) : ColorRGBA F :=
  markerColor enabled flag.isSome (flag.getD false)

/-- A vertex that is an array of two numbers or more, turned by the offset. -/
def corner [IntCast F] (angleOffsetRad : F) : Json F → Option (Point F)
  | .array (x :: y :: _) =>
    match x.exactNumber, y.exactNumber with
    | some (.fin x), some (.fin y) => some
      { x := .fin (x * Trig.cos angleOffsetRad - y * Trig.sin angleOffsetRad)
        y := .fin (x * Trig.sin angleOffsetRad + y * Trig.cos angleOffsetRad)
        z := .fin 0 }
    | _, _ => none
  | _ => none

def polygonOutline [IntCast F] (angleOffsetRad : F) (vertices : List (Json F)) : List (Point F) :=
  let corners := vertices.filterMap (corner angleOffsetRad)
  corners ++ corners.head?.toList

def twoPointOutline [IntCast F] (angleOffsetRad : F) : List (Json F) → List (Point F)
  | [first, second] =>
    match corner angleOffsetRad first, corner angleOffsetRad second with
    | some p, some q => [p, q]
    | _, _ => []
  | _ => []

variable [Ceil F] [IntCast F]

def sectorOutline (fuel : Nat) (angleOffsetRad : F) (segment : Json F) : List (Point F) :=
  match appendSectorPoints fuel segment angleOffsetRad [] with
  | .ok points => points
  | .error _ => []

def outline (fuel : Nat) (angleOffsetRad : F) (segment : Json F) : List (Point F) :=
  if segmentType segment = "sector" then sectorOutline fuel angleOffsetRad segment
  else if segmentType segment = "polygon" then
    polygonOutline angleOffsetRad (vertexElements segment)
  else if segmentType segment = "two_points" then
    twoPointOutline angleOffsetRad (vertexElements segment)
  else []

def ZoneSegment.markers (fuel : Nat) (options : MarkerOptions F) (status : Json F)
    (s : ZoneSegment F) (id : Int) : List (Marker F) :=
  let points := outline fuel options.angleOffsetRad s.segment
  let color := colorOf (zoneEnabled s.zone) (statusFlag status (zoneName s.zone))
  if 2 ≤ points.length then [segmentMarker options color id points] else []

structure MarkerArray (fuel : Nat) (options : MarkerOptions F) (zones status : Json F)
    (out : List (Marker F)) : Prop where
  markers : out = clearMarker :: (rankedSegments zones).flatMap fun s =>
    s.1.markers fuel options status s.2
  /-- The first marker deletes those of the array before. -/
  head : out.head?.map Marker.action = some .deleteAll
  /-- The marker of a segment shows its line, under its rank, in the color of its zone. -/
  marker : ∀ s ∈ rankedSegments zones, ∀ m ∈ s.1.markers fuel options status s.2,
    m.id = s.2 ∧ m.points = outline fuel options.angleOffsetRad s.1.segment ∧
      m.color = colorOf (zoneEnabled s.1.zone) (statusFlag status (zoneName s.1.zone))
  ids : (out.tail.map Marker.id).Pairwise (· < ·)
  lines : ∀ m ∈ out.tail, m.type = .lineStrip ∧ m.action = .add ∧ 2 ≤ m.points.length
  /-- No vertex that is a pair is missing in a polygon. -/
  polygon : ∀ s ∈ rankedSegments zones, segmentType s.1.segment = "polygon" →
    ∀ vertex ∈ vertexElements s.1.segment,
      (corner options.angleOffsetRad vertex).isSome = true ↔ IsPair vertex
  twoPoints : ∀ s ∈ rankedSegments zones, segmentType s.1.segment = "two_points" →
    (s.1.markers fuel options status s.2 ≠ [] ↔
      ∃ first second, vertexElements s.1.segment = [first, second] ∧
        IsPair first ∧ IsPair second)

end Spec

/-! ## Members -/

theorem elementsOf_of_array {v : Json F} {key : String} {elements : List (Json F)}
    (h : v.member key = some (.array elements)) : v.elementsOf key = elements := by
  simp only [Json.elementsOf, h]

theorem elementsOf_of_not_array {v : Json F} {key : String}
    (h : ∀ elements, v.member key = some (.array elements) → False) : v.elementsOf key = [] := by
  unfold Json.elementsOf
  split
  · next helements => exact (h _ helements).elim
  · rfl

theorem array_of_mem_elementsOf {v x : Json F} {key : String} (h : x ∈ v.elementsOf key) :
    v.member key = some (.array (v.elementsOf key)) := by
  by_contra hnot
  rw [elementsOf_of_not_array] at h
  · cases h
  · intro elements helements
    rw [elementsOf_of_array helements] at hnot
    exact hnot helements

theorem member_type_of_segmentType {segment : Json F} {type : String}
    (h : segmentType segment = type) (hne : type ≠ "") :
    segment.member "type" = some (.string type) := by
  unfold segmentType Json.textOr at h
  split at h
  · next s hs => rw [hs, h]
  · exact absurd h.symm hne

theorem zoneIsEnabled_eq {zone : Json F} {enabled : Bool}
    (h : zoneIsEnabled zone = .ok enabled) : enabled = zoneEnabled zone := by
  rw [zoneIsEnabled, valueOf] at h
  rw [zoneEnabled]
  cases hx : zone.member "enabled" with
  | none =>
    rw [hx] at h
    cases h
    rfl
  | some x =>
    rw [hx] at h
    rw [readFlag_ok_iff.1 h]

/-! ## Outlines -/

section Outlines

variable [Arith F] [IntCast F] {angleOffsetRad : F}

theorem corner_of_vertexPoint {x y : Json F} {p : Point F}
    (h : vertexPoint angleOffsetRad x y = .ok p) (more : List (Json F)) :
    corner angleOffsetRad (.array (x :: y :: more)) = some p := by
  simp only [vertexPoint, bind_ok_iff, readNumber_ok_iff] at h
  obtain ⟨a, ha, b, hb, h⟩ := h
  cases h
  simp [corner, ha, hb, makePoint]

theorem corner_of_not_pair {vertex : Json F} (h : ¬ IsPair vertex) :
    corner angleOffsetRad vertex = none := by
  unfold corner
  split
  · next x y more => exact absurd ⟨x, y, more, rfl⟩ h
  · rfl

theorem corner_isSome_iff {vertex : Json F} (h : VertexReadable vertex) :
    (corner angleOffsetRad vertex).isSome = true ↔ IsPair vertex := by
  by_cases hpair : IsPair vertex
  · obtain ⟨x, y, more, rfl⟩ := hpair
    obtain ⟨p, hp⟩ := vertexPoint_ok_iff.2 (vertexReadable_pair.1 h)
    rw [corner_of_vertexPoint hp more]
    exact iff_of_true rfl ⟨x, y, more, rfl⟩
  · simp [corner_of_not_pair hpair, hpair]

theorem collects_appendVertex (angleOffsetRad : F) :
    Collects (appendVertex angleOffsetRad) id VertexReadable
      (fun vertex => (corner angleOffsetRad vertex).toList) where
  ok_iff := appendVertex_ok_iff
  out_eq := by
    intro points vertex points' h
    by_cases hpair : IsPair vertex
    · obtain ⟨x, y, more, rfl⟩ := hpair
      simp only [appendVertex, bind_ok_iff] at h
      obtain ⟨p, hp, h⟩ := h
      cases h
      rw [corner_of_vertexPoint hp more]
      rfl
    · rw [appendVertex_of_not_pair hpair] at h
      cases h
      simp [corner_of_not_pair hpair]

theorem appendPolygonPoints_eq {segment : Json F} {r : List (Point F)}
    (h : appendPolygonPoints segment angleOffsetRad [] = .ok r) :
    r = polygonOutline angleOffsetRad (vertexElements segment) := by
  unfold appendPolygonPoints at h
  split at h
  · next vertices hvertices =>
    obtain ⟨points, hrun, rfl⟩ := map_ok_iff.1 h
    have hpoints := (collects_appendVertex angleOffsetRad).foldlM.out_eq hrun
    simp only [id, List.nil_append, ← List.filterMap_eq_flatMap_toList] at hpoints
    rw [hpoints, vertexElements, elementsOf_of_array hvertices]
    rfl
  · next hnone =>
    cases h
    rw [vertexElements, elementsOf_of_not_array hnone]
    rfl

/-- The first vertex that is no pair clears the line. -/
theorem appendVertices_eq {vertices : List (Json F)} {points r : List (Point F)}
    (h : appendVertices angleOffsetRad vertices points = .ok r) :
    r = match vertices.mapM (corner angleOffsetRad) with
      | some corners => points ++ corners
      | none => [] := by
  induction vertices generalizing points with
  | nil =>
    cases h
    simp
  | cons vertex vertices ih =>
    by_cases hpair : IsPair vertex
    · obtain ⟨x, y, more, rfl⟩ := hpair
      simp only [appendVertices, bind_ok_iff] at h
      obtain ⟨p, hp, h⟩ := h
      rw [ih h, List.mapM_cons, corner_of_vertexPoint hp more]
      cases vertices.mapM (corner angleOffsetRad) with
      | none => rfl
      | some corners => simp
    · rw [appendVertices] at h
      · cases h
        rw [List.mapM_cons, corner_of_not_pair hpair]
        rfl
      · intro x y more heq
        exact hpair ⟨x, y, more, heq⟩

theorem twoPointOutline_of_length {vertices : List (Json F)} (h : vertices.length ≠ 2) :
    twoPointOutline angleOffsetRad vertices = [] := by
  unfold twoPointOutline
  split
  · exact absurd rfl h
  · rfl

theorem appendTwoPointSegment_eq {segment : Json F} {r : List (Point F)}
    (h : appendTwoPointSegment segment angleOffsetRad [] = .ok r) :
    r = twoPointOutline angleOffsetRad (vertexElements segment) := by
  unfold appendTwoPointSegment at h
  split at h
  · next vertices hvertices =>
    rw [vertexElements, elementsOf_of_array hvertices]
    split at h
    · next hlength =>
      cases h
      rw [twoPointOutline_of_length hlength]
    · next hlength =>
      obtain ⟨first, second, rfl⟩ := List.length_eq_two.1 (not_not.1 hlength)
      rw [appendVertices_eq h]
      simp only [twoPointOutline]
      cases hfirst : corner angleOffsetRad first with
      | none => simp [hfirst]
      | some p =>
        cases hsecond : corner angleOffsetRad second with
        | none => simp [hfirst, hsecond]
        | some q => simp [hfirst, hsecond]
  · next hnone =>
    cases h
    rw [vertexElements, elementsOf_of_not_array hnone]
    rfl

theorem two_le_twoPointOutline (vertices : List (Json F)) :
    2 ≤ (twoPointOutline angleOffsetRad vertices).length ↔ ∃ first second,
      vertices = [first, second] ∧ (corner angleOffsetRad first).isSome = true ∧
        (corner angleOffsetRad second).isSome = true := by
  unfold twoPointOutline
  split
  · next first second =>
    cases hfirst : corner angleOffsetRad first with
    | none => simp [hfirst]
    | some p =>
      cases hsecond : corner angleOffsetRad second with
      | none => simp [hsecond]
      | some q => simp [hfirst, hsecond]
  · next hnot =>
    simp only [List.length_nil, Nat.le_zero_eq, OfNat.ofNat_ne_zero, false_iff]
    intro ⟨first, second, heq, _⟩
    exact hnot first second heq

end Outlines

/-! ## The loops -/

section Loops

variable [Arith F]

theorem markerColor_eq (enabled : Bool) (status : Json F) (name : String) :
    markerColor enabled (zoneStatusKnown status name) (zoneIsTriggered status name) =
      (colorOf enabled (statusFlag status name) : ColorRGBA F) := by
  rw [zoneStatusKnown, zoneIsTriggered, statusFlag, colorOf]
  cases status.member name with
  | none => rfl
  | some x => cases x <;> rfl

variable [Ceil F] [IntCast F]

theorem segmentPoints_eq {fuel : Nat} {angleOffsetRad : F} {segment : Json F}
    {points : List (Point F)} (h : segmentPoints fuel angleOffsetRad segment = .ok points) :
    points = outline fuel angleOffsetRad segment := by
  simp only [segmentPoints, bind_ok_iff] at h
  obtain ⟨type, htype, h⟩ := h
  rw [outline, segmentType, ← valueOf_text_eq htype]
  split at h
  · next hsector => rw [if_pos hsector, sectorOutline, h]
  · next hsector =>
    rw [if_neg hsector]
    split at h
    · next hpolygon =>
      rw [if_pos hpolygon]
      exact appendPolygonPoints_eq h
    · next hpolygon =>
      rw [if_neg hpolygon]
      split at h
      · next htwo =>
        rw [if_pos htwo]
        exact appendTwoPointSegment_eq h
      · next htwo =>
        rw [if_neg htwo]
        cases h
        rfl

/-- A pass of the inner loop, where the color is that of the zone. -/
def place (fuel : Nat) (options : MarkerOptions F) (status : Json F) (s : Int × List (Marker F))
    (z : ZoneSegment F) : Int × List (Marker F) :=
  (s.1 + 1, s.2 ++ z.markers fuel options status s.1)

variable {fuel : Nat} {options : MarkerOptions F} {status : Json F} {s s' : Int × List (Marker F)}

theorem segmentStep_eq {zone segment : Json F}
    (h : segmentStep fuel options
      (colorOf (zoneEnabled zone) (statusFlag status (zoneName zone))) s segment = .ok s') :
    s' = (if segment.isObject then [(⟨zone, segment⟩ : ZoneSegment F)] else []).foldl
      (place fuel options status) s := by
  rw [segmentStep] at h
  split at h
  · next hobject =>
    simp only [bind_ok_iff] at h
    obtain ⟨points, hpoints, h⟩ := h
    cases h
    rw [if_pos hobject, segmentPoints_eq hpoints]
    simp only [List.foldl_cons, List.foldl_nil, place, ZoneSegment.markers, Prod.mk.injEq,
      true_and]
    split
    · rfl
    · rw [List.append_nil]
  · next hobject =>
    cases h
    rw [if_neg hobject]
    rfl

theorem zoneStep_eq {zone : Json F} (h : zoneStep fuel options status s zone = .ok s') :
    s' = (zoneSegments zone).foldl (place fuel options status) s := by
  unfold zoneStep at h
  split at h
  · next segments hsegments =>
    simp only [bind_ok_iff] at h
    obtain ⟨name, hname, enabled, henabled, hrun⟩ := h
    rw [markerColor_eq, eq_zoneName hname, zoneIsEnabled_eq henabled] at hrun
    rw [zoneSegments, segmentElements, elementsOf_of_array hsegments]
    exact foldlM_eq_foldl segmentStep_eq hrun
  · next hnone =>
    cases h
    rw [zoneSegments, segmentElements, elementsOf_of_not_array hnone]
    rfl

theorem buildSafetyZoneMarkers_ranked {zones : Json F} {out : List (Marker F)}
    (h : buildSafetyZoneMarkers fuel options zones status = .ok out) :
    out = clearMarker :: (rankedSegments zones).flatMap fun s =>
      s.1.markers fuel options status s.2 := by
  rw [buildSafetyZoneMarkers_eq] at h
  obtain ⟨s, hrun, rfl⟩ := map_ok_iff.1 h
  have hnumbered := foldl_numbered
    (fun z id => ZoneSegment.markers fuel options status z (id : Int))
    ((zoneElements zones).flatMap zoneSegments) 1 [clearMarker]
  rw [foldlM_eq_foldl zoneStep_eq hrun]
  exact congrArg Prod.snd hnumbered

theorem markers_kept {z : ZoneSegment F} {id : Int} {m : Marker F}
    (h : m ∈ z.markers fuel options status id) :
    (m.type = .lineStrip ∧ m.action = .add ∧ 2 ≤ m.points.length) ∧
      m.id = id ∧ m.points = outline fuel options.angleOffsetRad z.segment ∧
        m.color = colorOf (zoneEnabled z.zone) (statusFlag status (zoneName z.zone)) := by
  simp only [ZoneSegment.markers, List.mem_ite_nil_right, List.mem_singleton] at h
  obtain ⟨hlength, rfl⟩ := h
  exact ⟨⟨rfl, rfl, hlength⟩, rfl, rfl, rfl⟩

theorem ids_sublist (l : List (ZoneSegment F × Nat)) :
    ((l.flatMap fun s => s.1.markers fuel options status s.2).map Marker.id).Sublist
      (l.map fun s => (s.2 : Int)) := by
  rw [List.map_flatMap, List.map_eq_flatMap]
  refine List.Sublist.flatMap_right l fun s _ => ?_
  rw [ZoneSegment.markers]
  split
  · exact List.Sublist.refl _
  · exact List.nil_sublist _

/-- Ranks grow, and so do the ids, as some segments have no marker. -/
theorem ids_pairwise (fuel : Nat) (options : MarkerOptions F) (zones status : Json F) :
    (((rankedSegments zones).flatMap fun s =>
      s.1.markers fuel options status s.2).map Marker.id).Pairwise (· < ·) := by
  refine List.Pairwise.sublist (ids_sublist (rankedSegments zones)) ?_
  have hranks : (rankedSegments zones).map (fun s => (s.2 : Int)) =
      ((rankedSegments zones).map Prod.snd).map Nat.cast := by simp
  rw [hranks, rankedSegments, List.zipIdx_map_snd, List.pairwise_map]
  have hlt : (List.range' 1 ((zoneElements zones).flatMap zoneSegments).length).Pairwise (· < ·) :=
    List.pairwise_lt_range'
  exact hlt.imp Int.ofNat_lt.2

/-- A document that is read has no fault in the segments that are drawn. -/
theorem readable_of_ranked {zones : Json F} {s : ZoneSegment F × Nat} (h : ReadableZones zones)
    (hs : s ∈ rankedSegments zones) : SegmentReadable s.1.segment := by
  have hmem : s.1 ∈ (zoneElements zones).flatMap zoneSegments := by
    rw [← List.zipIdx_map_fst 1 ((zoneElements zones).flatMap zoneSegments)]
    exact List.mem_map_of_mem hs
  obtain ⟨zone, hzone, hsegment⟩ := List.mem_flatMap.1 hmem
  obtain ⟨segment, helement, hsegment⟩ := List.mem_flatMap.1 hsegment
  rw [List.mem_ite_nil_right, List.mem_singleton] at hsegment
  obtain ⟨hobject, heq⟩ := hsegment
  rw [heq]
  exact (h zone hzone _ (array_of_mem_elementsOf helement)).2 segment helement hobject

theorem polygon_corners {segment : Json F} (h : SegmentReadable segment)
    (htype : segmentType segment = "polygon") {vertex : Json F}
    (hvertex : vertex ∈ vertexElements segment) (angleOffsetRad : F) :
    (corner angleOffsetRad vertex).isSome = true ↔ IsPair vertex := by
  have hmember := member_type_of_segmentType htype (by simp)
  exact corner_isSome_iff (h.polygon hmember _ (array_of_mem_elementsOf hvertex) vertex hvertex)

theorem twoPoints_kept {z : ZoneSegment F} (h : SegmentReadable z.segment)
    (htype : segmentType z.segment = "two_points") (id : Int) :
    z.markers fuel options status id ≠ [] ↔ ∃ first second,
      vertexElements z.segment = [first, second] ∧ IsPair first ∧ IsPair second := by
  have houtline : outline fuel options.angleOffsetRad z.segment =
      twoPointOutline options.angleOffsetRad (vertexElements z.segment) := by
    rw [outline, htype]
    rfl
  have hkept : z.markers fuel options status id ≠ [] ↔
      2 ≤ (twoPointOutline options.angleOffsetRad (vertexElements z.segment)).length := by
    simp only [ZoneSegment.markers, houtline]
    split
    · next hlength => simp [hlength]
    · next hlength => simp [hlength]
  rw [hkept, two_le_twoPointOutline]
  refine exists_congr fun first => exists_congr fun second => and_congr_right fun hvertices => ?_
  have hmember : z.segment.member "vertices" = some (.array [first, second]) := by
    rw [← hvertices]
    exact array_of_mem_elementsOf (x := first) (by rw [← vertexElements, hvertices]; simp)
  obtain ⟨hfirst, hsecond⟩ := h.twoPoints (member_type_of_segmentType htype (by simp)) first
    second hmember
  rw [corner_isSome_iff hfirst]
  refine and_congr_right fun hpair => ?_
  exact corner_isSome_iff (hsecond hpair)

theorem readableZones_of_ok {zones : Json F} {out : List (Marker F)}
    (h : buildSafetyZoneMarkers fuel options zones status = .ok out) : ReadableZones zones :=
  (readableZones_iff options.angleOffsetRad).2
    ⟨fuel, (buildSafetyZoneMarkers_ok_iff fuel options zones status).1 ⟨out, h⟩⟩

/-- The status is read only where nothing can fail. -/
theorem buildSafetyZoneMarkers_status {zones : Json F} {out : List (Marker F)}
    (h : buildSafetyZoneMarkers fuel options zones status = .ok out) (status' : Json F) :
    ∃ out', buildSafetyZoneMarkers fuel options zones status' = .ok out' :=
  (buildSafetyZoneMarkers_ok_iff fuel options zones status').2
    ((buildSafetyZoneMarkers_ok_iff fuel options zones status).1 ⟨out, h⟩)

theorem markers_withoutColor (fuel : Nat) (options : MarkerOptions F) (status status' : Json F)
    (z : ZoneSegment F) (id : Int) :
    (z.markers fuel options status' id).map Marker.withoutColor =
      (z.markers fuel options status id).map Marker.withoutColor := by
  simp only [ZoneSegment.markers]
  split
  · rfl
  · rfl

/-- A document that can be read gives an array for every status. Besides the types of the members
that are read, this asks that the step count of each sector is one that the loop can count to
(`SpanEnds`). Every array is that of the ranked segments, and under another status it is the same
one in other colors. -/
theorem markerArrays (options : MarkerOptions F) (zones : Json F) :
    (ReadableZones zones → ∃ fuel, ∀ status, ∃ out,
      buildSafetyZoneMarkers fuel options zones status = .ok out) ∧
    ∀ fuel status out, buildSafetyZoneMarkers fuel options zones status = .ok out →
      MarkerArray fuel options zones status out ∧
      ∀ status', ∃ out', buildSafetyZoneMarkers fuel options zones status' = .ok out' ∧
        out'.map Marker.withoutColor = out.map Marker.withoutColor := by
  constructor
  · intro hread
    obtain ⟨fuel, hfuel⟩ := (readableZones_iff options.angleOffsetRad).1 hread
    exact ⟨fuel, fun status => (buildSafetyZoneMarkers_ok_iff fuel options zones status).2 hfuel⟩
  · intro fuel status out h
    have hread := readableZones_of_ok h
    have hout := buildSafetyZoneMarkers_ranked h
    refine ⟨⟨hout, by rw [hout]; rfl, fun s _ m hm => (markers_kept hm).2, ?_, ?_, ?_, ?_⟩, ?_⟩
    · rw [hout]
      exact ids_pairwise fuel options zones status
    · rw [hout]
      intro m hm
      obtain ⟨s, -, hm⟩ := List.mem_flatMap.1 hm
      exact (markers_kept hm).1
    · intro s hs htype vertex hvertex
      exact polygon_corners (readable_of_ranked hread hs) htype hvertex _
    · intro s hs htype
      exact twoPoints_kept (readable_of_ranked hread hs) htype s.2
    · intro status'
      obtain ⟨out', h'⟩ := buildSafetyZoneMarkers_status h status'
      refine ⟨out', h', ?_⟩
      rw [hout, buildSafetyZoneMarkers_ranked h', List.map_cons, List.map_cons, List.map_flatMap,
        List.map_flatMap]
      simp only [markers_withoutColor fuel options status status']

end Loops

/-- The front line before and after an object comes into it. -/
theorem markerArrays_frontLine :
    let zones : Json ℝ := .object [("zones", .array [frontLine])]
    (∃ fuel, ∀ status, ∃ out, buildSafetyZoneMarkers fuel baseLink zones status = .ok out) ∧
    ∃ out, buildSafetyZoneMarkers 0 baseLink zones (.object []) = .ok out ∧ out.length = 2 ∧
      MarkerArray 0 baseLink zones (.object []) out ∧
      ∃ out', buildSafetyZoneMarkers 0 baseLink zones
          (.object [("front_line", .boolean true)]) = .ok out' ∧
        out'.map Marker.withoutColor = out.map Marker.withoutColor := by
  intro zones
  obtain ⟨hreturns, harrays⟩ := markerArrays baseLink zones
  have hout : ∃ out, buildSafetyZoneMarkers 0 baseLink zones (.object []) = .ok out ∧
      out.length = 2 := ⟨_, rfl, rfl⟩
  obtain ⟨out, hout, hlength⟩ := hout
  obtain ⟨harray, hcolors⟩ := harrays 0 (.object []) out hout
  exact ⟨hreturns (readableZones_of_ok hout), out, hout, hlength, harray, hcolors _⟩

end MechLidar
