import MechLidar.Completion

/-!
# MechLidar.Scan

The messages of the driver: `sensor_msgs::LaserScan`, built from a complete revolution (`fullScan`)
or from one packet (`singleScan`), and the `sensor_msgs::PointCloud2` built from a scan
(`makePointcloudMsg`), with the safety-zone vertices of `safety_zone_markers.cpp` (`makePoint`).
The time stamps of the headers are left out.

`same_spot`: one return has the same range, intensity, angle and coordinates in the three of them,
with exact real arithmetic in place of `float`.
-/

namespace MechLidar

variable {F : Type}

/-- The members of `DriverRuntimeOptions` that the data stream uses. -/
structure DriverRuntimeOptions (F : Type) where
  frameId : String
  angleOffsetRad : F
  udpReconnectInitialMs : Int
  udpReconnectMaxMs : Int

structure LaserScan (F : Type) where
  frameId : String
  angleMin : F
  angleMax : F
  angleIncrement : F
  timeIncrement : F
  scanTime : F
  rangeMin : F
  rangeMax : F
  ranges : List (Flt F)
  intensities : List (Flt F)

/-- A point with the fields `xyz`. -/
structure Point (F : Type) where
  x : Flt F
  y : Flt F
  z : Flt F

structure PointCloud2 (F : Type) where
  frameId : String
  height : Nat
  width : Nat
  isDense : Bool
  points : List (Point F)

variable [Arith F]

/-- `range_min_or_default`. -/
def rangeMinOrDefault (ranges : List (Flt F)) : F :=
  let result := ranges.foldl (fun (result : Flt F) range =>
    match range, result with
    | .fin r, .fin m => if r < m then .fin r else .fin m
    | .fin r, .inf => .fin r
    | _, result => result) .inf
  match result with
  | .fin m => m
  | _ => 0

/-- `range_max_or_default`. -/
def rangeMaxOrDefault (ranges : List (Flt F)) : F :=
  ranges.foldl (fun result range =>
    match range with
    | .fin r => if result < r then r else result
    | _ => result) 0

/-- Beam `i` of a scan lies at this angle. -/
def LaserScan.angle (scan : LaserScan F) (i : Nat) : F :=
  scan.angleMin + (i : F) * scan.angleIncrement

/-- One pass of the loop of `make_pointcloud_msg`. -/
def pointAt (scan : LaserScan F) (i : Nat) (range : Flt F) : Point F :=
  match range with
  | .fin r => ⟨.fin (r * Trig.cos (scan.angle i)), .fin (r * Trig.sin (scan.angle i)), .fin 0⟩
  | _ => ⟨.nan, .nan, .nan⟩

def makePointcloudMsg (scan : LaserScan F) : PointCloud2 F where
  frameId := scan.frameId
  height := 1
  width := scan.ranges.length
  isDense := false
  points := scan.ranges.mapIdx (pointAt scan)

/-- `scan_time`, of a rotation frequency. -/
def scanTimeOf (rotationFrequencyHz : UInt16) : F :=
  if 0 < rotationFrequencyHz then ((1 : Nat) : F) / (rotationFrequencyHz.toNat : F)
  else ((1 : Nat) : F) / ((10 : Nat) : F)

/-- `2 * PI`. -/
def fullTurn : F := ((2 : Nat) : F) * Trig.pi

/-- The scan that `_poll_full_udp` and `_poll_full_pcap` build. -/
def fullScan (options : DriverRuntimeOptions F) (assembler : FullScanAssembler F) : LaserScan F :=
  let ranges := (assembler.rangesMm.map fun r => r.divBy ((1000 : Nat) : F)).toList
  { frameId := options.frameId
    angleMin := options.angleOffsetRad
    angleMax := options.angleOffsetRad + fullTurn
    angleIncrement := fullTurn / ((2300 : Nat) : F)
    scanTime := scanTimeOf assembler.rotationFrequencyHz
    timeIncrement := scanTimeOf assembler.rotationFrequencyHz / ((2300 : Nat) : F)
    rangeMin := rangeMinOrDefault ranges
    rangeMax := rangeMaxOrDefault ranges
    ranges := ranges
    intensities := assembler.intensities.toList }

/-- The scan that `_poll_udp` and `_poll_pcap` build. -/
def singleScan (options : DriverRuntimeOptions F) (pkt : PktHdlMech F) : LaserScan F :=
  let ranges := (pkt.ranges.map fun r => r.divBy ((1000 : Nat) : F)).toList
  { frameId := options.frameId
    angleMin := pkt.angles[0] + options.angleOffsetRad
    angleMax := pkt.angles[114] + options.angleOffsetRad
    angleIncrement := PktHdlMech.radResolution
    scanTime := scanTimeOf pkt.rotationFrequencyHz
    timeIncrement := scanTimeOf pkt.rotationFrequencyHz / ((2300 : Nat) : F)
    rangeMin := rangeMinOrDefault ranges
    rangeMax := rangeMaxOrDefault ranges
    ranges := ranges
    intensities := pkt.intensities.toList }

/-- `make_point` of `safety_zone_markers.cpp`. -/
def makePoint (x y angleOffsetRad : F) : Point F where
  x := .fin (x * Trig.cos angleOffsetRad - y * Trig.sin angleOffsetRad)
  y := .fin (x * Trig.sin angleOffsetRad + y * Trig.cos angleOffsetRad)
  z := .fin 0

/-! ## What a scan says of a beam -/

theorem fullScan_range (options : DriverRuntimeOptions F) (a : FullScanAssembler F) (i : Nat) :
    (fullScan options a).ranges[i]? = a.rangesMm[i]?.map fun r => r.divBy ((1000 : Nat) : F) := by
  simp [fullScan]

theorem fullScan_intensity (options : DriverRuntimeOptions F) (a : FullScanAssembler F) (i : Nat) :
    (fullScan options a).intensities[i]? = a.intensities[i]? := by
  simp [fullScan]

theorem singleScan_range (options : DriverRuntimeOptions F) (p : PktHdlMech F) (c : Nat)
    (hc : c < 115) :
    (singleScan options p).ranges[c]? = some (p.ranges[c].divBy ((1000 : Nat) : F)) := by
  simp [singleScan, hc]

theorem singleScan_intensity (options : DriverRuntimeOptions F) (p : PktHdlMech F)
    (c : Nat) (hc : c < 115) :
    (singleScan options p).intensities[c]? = some p.intensities[c] := by
  simp [singleScan, hc]

theorem makePointcloudMsg_point (scan : LaserScan F) (i : Nat) :
    (makePointcloudMsg scan).points[i]? = scan.ranges[i]?.map (pointAt scan i) := by
  simp [makePointcloudMsg]

theorem pointAt_congr {scan scan' : LaserScan F} {i j : Nat} (h : scan.angle i = scan'.angle j)
    (r : Flt F) : pointAt scan i r = pointAt scan' j r := by
  cases r with
  | fin r => simp [pointAt, h]
  | inf => rfl
  | nan => rfl

/-! ## The same spot -/

theorem fullScan_angle (options : DriverRuntimeOptions ℝ) (a : FullScanAssembler ℝ) (i : Nat) :
    (fullScan options a).angle i = options.angleOffsetRad + (i : ℝ) * (2 * Real.pi / 2300) := by
  simp [LaserScan.angle, fullScan, fullTurn, Trig.pi]

theorem singleScan_angle (options : DriverRuntimeOptions ℝ) {p : PktHdlMech ℝ}
    (h : decode p.rawPkt = .ok p) (c : Fin 115) :
    (singleScan options p).angle c =
      options.angleOffsetRad + ((p.firstPointIndex.toNat + c : Nat) : ℝ) *
        (2 * Real.pi / 2300) := by
  obtain ⟨ha, hp⟩ := decode_eq_ok.mp h
  have h0 : p.angles[0] = angleOf p.firstPointIndex.toNat := by
    rw [hp]; simp [decoded, PktHdlMech.firstPointIndex]
  have hrad : (PktHdlMech.radResolution : ℝ) = 2 * Real.pi / 2300 := by
    simp [PktHdlMech.radResolution, Trig.twoPi]
  show p.angles[0] + options.angleOffsetRad + (c : ℝ) * PktHdlMech.radResolution = _
  rw [h0, angleOf, hrad]
  push_cast
  ring

theorem range_of_decode {p : PktHdlMech F} (h : decode p.rawPkt = .ok p) (c : Nat)
    (hc : c < 115) : p.ranges[c] = rangeOf (p.rawPkt.distanceAt ⟨c, hc⟩) := by
  obtain ⟨ha, hp⟩ := decode_eq_ok.mp h
  rw [hp]
  simp [decoded]

theorem makePoint_polar (r t offset : ℝ) :
    makePoint (r * Trig.cos t) (r * Trig.sin t) offset =
      ⟨.fin (r * Trig.cos (offset + t)), .fin (r * Trig.sin (offset + t)), .fin 0⟩ := by
  simp only [makePoint, Trig.cos, Trig.sin, Real.cos_add, Real.sin_add]
  congr 2
  · ring
  · ring

theorem pointAt_nan (scan : LaserScan F) (i : Nat) (r : Flt F) :
    pointAt scan i r = ⟨.nan, .nan, .nan⟩ ↔ r.isFinite = false := by
  cases r with
  | fin r => simp [pointAt]
  | inf => simp [pointAt]
  | nan => simp [pointAt]

/-- For a revolution of 20 valid packets in any order, a packet of it and a channel: beam
`first_point_index + channel` of the full scan and beam `channel` of the packet's scan have the
same range, intensity and angle, and the same point of the cloud. The point is NaN when the
distance word says that there is no object, and otherwise it is where `make_point` puts a zone
vertex at that range and encoder angle. -/
theorem same_spot (options : DriverRuntimeOptions ℝ) {rot : UInt16} {ps : List (PktHdlMech ℝ)}
    (hvalid : ∀ p ∈ ps, decode p.rawPkt = .ok p) (hrev : IsRevolution rot ps)
    {a : FullScanAssembler ℝ} (ha : FullScanAssembler.fresh.feedAll ps = .ok a)
    {p : PktHdlMech ℝ} (hp : p ∈ ps) (c : Fin 115) :
    let full := fullScan options a
    let single := singleScan options p
    let i := p.firstPointIndex.toNat + c
    a.complete = true ∧
    ∃ range intensity point,
      full.ranges[i]? = some range ∧ single.ranges[c.1]? = some range ∧
      full.intensities[i]? = some intensity ∧ single.intensities[c.1]? = some intensity ∧
      full.angle i = single.angle c ∧
      (makePointcloudMsg full).points[i]? = some point ∧
      (makePointcloudMsg single).points[c.1]? = some point ∧
      (point = ⟨.nan, .nan, .nan⟩ ↔ p.rawPkt.distanceAt c = 0xFFFFFFFF) ∧
      (p.rawPkt.distanceAt c ≠ 0xFFFFFFFF → ∃ r, range = .fin r ∧
        let t := (i : ℝ) * (2 * Real.pi / 2300)
        point = makePoint (r * Real.cos t) (r * Real.sin t) options.angleOffsetRad) := by
  intro full single i
  rw [FullScanAssembler.feedAll_eq] at ha
  cases ha
  cases ps with
  | nil => cases hp
  | cons b qs =>
    have hb : b.rotationCounter = rot := hrev.rotation b List.mem_cons_self
    have hf : IsFragment b.rotationCounter (b :: qs) := hb ▸ hrev.toIsFragment
    have hbegins : (FullScanAssembler.fresh : FullScanAssembler ℝ).Begins b := .inl rfl
    obtain ⟨hasm, hrot, -⟩ := assembles_begins hbegins
      fun q hq => hf.rotation q (List.mem_cons_of_mem b hq)
    obtain ⟨hr, hi⟩ := (hrot ▸ hf).reading hasm hp c c.isLt
    have hangle : full.angle i = single.angle c :=
      (fullScan_angle options _ i).trans (singleScan_angle options (hvalid p hp) c).symm
    have hfull : full.ranges[i]? = some (p.ranges[c.1].divBy ((1000 : Nat) : ℝ)) := by
      rw [fullScan_range, hr]; rfl
    have hsingle := singleScan_range options p c c.isLt
    refine ⟨(complete_iff_length hbegins hf).mpr hrev.length, _, _,
      pointAt full i (p.ranges[c.1].divBy ((1000 : Nat) : ℝ)), hfull, hsingle,
      (fullScan_intensity _ _ _).trans hi, singleScan_intensity options p c c.isLt, hangle, ?_, ?_,
      ?_, fun hobj => ?_⟩
    · rw [makePointcloudMsg_point, hfull]; rfl
    · rw [makePointcloudMsg_point, hsingle, pointAt_congr hangle]; rfl
    · rw [pointAt_nan, Flt.isFinite_divBy, range_of_decode (hvalid p hp), isFinite_rangeOf]
    · rw [range_of_decode (hvalid p hp), rangeOf, if_neg hobj]
      refine ⟨_, rfl, ?_⟩
      rw [Flt.divBy, pointAt, fullScan_angle]
      exact (makePoint_polar _ _ options.angleOffsetRad).symm

def plainOptions : DriverRuntimeOptions F where
  frameId := "base_link"
  angleOffsetRad := 0
  udpReconnectInitialMs := 250
  udpReconnectMaxMs := 5000

theorem same_spot_plain : ∃ a : FullScanAssembler ℝ,
    FullScanAssembler.fresh.feedAll (plainRevolution 7) = .ok a ∧ ∀ c : Fin 115,
      (fullScan plainOptions a).ranges[(plainPacket 7 3 :
          PktHdlMech ℝ).firstPointIndex.toNat + c.1]? =
        (singleScan plainOptions (plainPacket 7 3 : PktHdlMech ℝ)).ranges[c.1]? := by
  have hvalid : ∀ p ∈ (plainRevolution 7 : List (PktHdlMech ℝ)), decode p.rawPkt = .ok p := by
    intro p hp
    obtain ⟨i, -, rfl⟩ := List.mem_map.mp hp
    exact decode_plainRaw 7 i
  have hp : plainPacket 7 3 ∈ (plainRevolution 7 : List (PktHdlMech ℝ)) :=
    List.mem_map.mpr ⟨3, List.mem_finRange 3, rfl⟩
  refine ⟨_, FullScanAssembler.feedAll_eq _ _, fun c => ?_⟩
  obtain ⟨-, r, i, pt, hf, hs, -⟩ := same_spot plainOptions hvalid
    (isRevolution_plain 7) (FullScanAssembler.feedAll_eq _ _) hp c
  exact hf.trans hs.symm

end MechLidar
