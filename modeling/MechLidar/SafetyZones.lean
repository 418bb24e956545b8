import MechLidar.Json
import MechLidar.Lib.IStream
import MechLidar.Scan

/-!
# MechLidar.SafetyZones

The RViz markers of the safety zones (`safety_zone_markers.cpp`), built from two JSON documents of
the LiDAR.

* `ZoneFault`: how `build_safety_zone_markers` fails to return
* `unwind`: the loop that makes the span of a sector positive, for `fuel` turns at most
* `segmentPoints`: the line of a segment
* `segmentStep`, `zoneStep`: the passes of the two loops, with the next id and the markers so far
-/

namespace MechLidar

open Lib

/-- How `build_safety_zone_markers` fails to return. -/
inductive ZoneFault where
  /-- A `json::type_error` of `value()` or `get<T>()`. -/
  | json
  /-- `static_cast<int>` of a number that is no `int`. -/
  | conversion
  /-- `++i` of the largest `int`. -/
  | increment
  /-- `while (span < 0.0)` still runs. -/
  | running
  /-- A number that is not finite: no JSON text has one. -/
  | notFinite
deriving DecidableEq, Repr

inductive MarkerType where
  | arrow
  | lineStrip
deriving DecidableEq, Repr

inductive MarkerAction where
  | add
  | deleteAll
deriving DecidableEq, Repr

structure ColorRGBA (F : Type) where
  r : F
  g : F
  b : F
  a : F

/-- `visualization_msgs::Marker`, without the members that are never set. -/
structure Marker (F : Type) where
  frameId : String
  stampNs : Nat
  ns : String
  id : Int
  type : MarkerType
  action : MarkerAction
  orientationW : F
  scaleX : F
  color : ColorRGBA F
  lifetimeS : F
  points : List (Point F)

/-- The arguments of `build_safety_zone_markers` other than the two documents. -/
structure MarkerOptions (F : Type) where
  frameId : String
  angleOffsetRad : F
  stampNs : Nat

/-- `std::ceil`, of a finite number. -/
class Ceil (F : Type) where
  ceil : F → Int

noncomputable instance : Ceil ℝ where
  ceil := Int.ceil

variable {F α : Type}

/-! ## Reading JSON -/

def readText (x : Json F) : Except ZoneFault String := x.getString.mapError fun _ => .json

def readFlag (x : Json F) : Except ZoneFault Bool := x.getBoolean.mapError fun _ => .json

def readNumber [IntCast F] [NatCast F] (x : Json F) : Except ZoneFault F :=
  match x.getDouble with
  | .ok (.fin r) => .ok r
  | .ok _ => .error .notFinite
  | .error _ => .error .json

/-- `value(key, default)` of an object. -/
def valueOf (read : Json F → Except ZoneFault α) (v : Json F) (key : String) (default : α) :
    Except ZoneFault α :=
  match v.member key with
  | none => .ok default
  | some x => read x

def zoneIsEnabled (zone : Json F) : Except ZoneFault Bool :=
  if (zone.member "enabled").isNone then .ok true else valueOf readFlag zone "enabled" true

/-- `zone_status_known`, of the entry of the zone in the status. -/
def statusKnown : Option (Json F) → Bool
  | some (.boolean _) => true
  | _ => false

/-- `zone_is_triggered`. -/
def isTriggered : Option (Json F) → Bool
  | some (.boolean triggered) => triggered
  | _ => false

def zoneStatusKnown (status : Json F) (name : String) : Bool := statusKnown (status.member name)

def zoneIsTriggered (status : Json F) (name : String) : Bool := isTriggered (status.member name)

section Build

variable [Arith F]

/-! ## Colors -/

def hundredths (n : Nat) : F := (n : F) / ((100 : Nat) : F)

/-- `set_marker_color`. -/
def markerColor (enabled statusKnown triggered : Bool) : ColorRGBA F :=
  let a : F := if enabled then hundredths 95 else hundredths 35
  if !enabled then ⟨hundredths 50, hundredths 50, hundredths 50, a⟩
  else if !statusKnown then ⟨hundredths 100, hundredths 80, hundredths 10, a⟩
  else if triggered then ⟨hundredths 100, hundredths 10, hundredths 10, a⟩
  else ⟨hundredths 10, hundredths 80, hundredths 20, a⟩

/-! ## Segments -/

/-- `while (span < 0.0) { span += 2.0 * PI; }` -/
def unwind (fuel : Nat) (span : F) : Except ZoneFault F :=
  if span < 0 then
    match fuel with
    | 0 => .error .running
    | fuel + 1 => unwind fuel (span + fullTurn)
  else .ok span

def radians (degrees : F) : F := degrees * Trig.pi / ((180 : Nat) : F)

/-- `PI / 36.0`. -/
def sectorStep : F := Trig.pi / ((36 : Nat) : F)

variable [Ceil F]

/-- `std::max(8, static_cast<int>(std::ceil(span / (PI / 36.0))))`, which the loop counts up to. -/
def sectorSteps (span : F) : Except ZoneFault Nat :=
  let count := Ceil.ceil (span / sectorStep)
  if count < INT_MIN ∨ INT_MAX < count then .error .conversion
  else if max 8 count = INT_MAX then .error .increment
  else .ok (max 8 count).toNat

def sectorPoint (start span radius angleOffsetRad : F) (steps i : Nat) : Point F :=
  let angle := start + span * (i : F) / (steps : F)
  makePoint (radius * Trig.cos angle) (radius * Trig.sin angle) angleOffsetRad

variable [IntCast F]

def appendSectorPoints (fuel : Nat) (segment : Json F) (angleOffsetRad : F)
    (points : List (Point F)) : Except ZoneFault (List (Point F)) := do
  let start ← valueOf readNumber segment "angle_start_deg" ((0 : Nat) : F)
  let stop ← valueOf readNumber segment "angle_end_deg" ((0 : Nat) : F)
  let span ← unwind fuel (radians stop - radians start)
  let radius ← valueOf readNumber segment "dist_max_m" ((0 : Nat) : F)
  let steps ← sectorSteps span
  let arc := (List.range (steps + 1)).map
    (sectorPoint (radians start) span radius angleOffsetRad steps)
  .ok (points ++ makePoint 0 0 angleOffsetRad :: arc ++ [makePoint 0 0 angleOffsetRad])

/-- `vertex[0]` and `vertex[1]`, of an array of two elements or more. -/
def vertexPoint (angleOffsetRad : F) (x y : Json F) : Except ZoneFault (Point F) := do
  let x ← readNumber x
  let y ← readNumber y
  .ok (makePoint x y angleOffsetRad)

def appendVertex (angleOffsetRad : F) (points : List (Point F)) (vertex : Json F) :
    Except ZoneFault (List (Point F)) :=
  match vertex with
  | .array (x :: y :: _) => do
    let point ← vertexPoint angleOffsetRad x y
    .ok (points ++ [point])
  | _ => .ok points

/-- The first point again, behind the last one. -/
def close (points : List (Point F)) : List (Point F) := points ++ points.head?.toList

def appendPolygonPoints (segment : Json F) (angleOffsetRad : F) (points : List (Point F)) :
    Except ZoneFault (List (Point F)) :=
  match segment.member "vertices" with
  | some (.array vertices) => (vertices.foldlM (appendVertex angleOffsetRad) points).map close
  | _ => .ok points

/-- The loop over the vertices of a segment of two points. -/
def appendVertices (angleOffsetRad : F) :
    List (Json F) → List (Point F) → Except ZoneFault (List (Point F))
  | [], points => .ok points
  | .array (x :: y :: _) :: vertices, points => do
    let point ← vertexPoint angleOffsetRad x y
    appendVertices angleOffsetRad vertices (points ++ [point])
  | _ :: _, _ => .ok []

def appendTwoPointSegment (segment : Json F) (angleOffsetRad : F) (points : List (Point F)) :
    Except ZoneFault (List (Point F)) :=
  match segment.member "vertices" with
  | some (.array vertices) =>
    if vertices.length ≠ 2 then .ok points else appendVertices angleOffsetRad vertices points
  | _ => .ok points

def segmentPoints (fuel : Nat) (angleOffsetRad : F) (segment : Json F) :
    Except ZoneFault (List (Point F)) := do
  let type ← valueOf readText segment "type" ""
  if type = "sector" then appendSectorPoints fuel segment angleOffsetRad []
  else if type = "polygon" then appendPolygonPoints segment angleOffsetRad []
  else if type = "two_points" then appendTwoPointSegment segment angleOffsetRad []
  else .ok []

/-! ## The markers -/

/-- The marker that is sent first. -/
def clearMarker : Marker F where
  frameId := ""
  stampNs := 0
  ns := ""
  id := 0
  type := .arrow
  action := .deleteAll
  orientationW := 0
  scaleX := 0
  color := ⟨0, 0, 0, 0⟩
  lifetimeS := 0
  points := []

def segmentMarker (options : MarkerOptions F) (color : ColorRGBA F) (id : Int)
    (points : List (Point F)) : Marker F where
  frameId := options.frameId
  stampNs := options.stampNs
  ns := "safety_zones"
  id := id
  type := .lineStrip
  action := .add
  orientationW := ((1 : Nat) : F)
  scaleX := hundredths 3
  color := color
  lifetimeS := ((2 : Nat) : F)
  points := points

def segmentStep (fuel : Nat) (options : MarkerOptions F) (color : ColorRGBA F)
    (s : Int × List (Marker F)) (segment : Json F) : Except ZoneFault (Int × List (Marker F)) :=
  if segment.isObject then do
    let points ← segmentPoints fuel options.angleOffsetRad segment
    .ok (s.1 + 1,
      if 2 ≤ points.length then s.2 ++ [segmentMarker options color s.1 points] else s.2)
  else .ok s

def zoneStep (fuel : Nat) (options : MarkerOptions F) (status : Json F)
    (s : Int × List (Marker F)) (zone : Json F) : Except ZoneFault (Int × List (Marker F)) :=
  match zone.member "segments" with
  | some (.array segments) => do
    let name ← valueOf readText zone "name" "zone"
    let enabled ← zoneIsEnabled zone
    let color := markerColor enabled (zoneStatusKnown status name) (zoneIsTriggered status name)
    segments.foldlM (segmentStep fuel options color) s
  | _ => .ok s

def buildSafetyZoneMarkers (fuel : Nat) (options : MarkerOptions F) (zones status : Json F) :
    Except ZoneFault (List (Marker F)) :=
  match zones.member "zones" with
  | some (.array elements) =>
    (elements.foldlM (zoneStep fuel options status) (1, [clearMarker])).map Prod.snd
  | _ => .ok [clearMarker]

end Build

end MechLidar
