import MechLidar.RoundTrip

/-!
# MechLidar.Overrides

`apply_parameter_overrides` (`driver_runtime.cpp`): the ROS parameters laid over a configuration,
by way of its JSON value.

* `overrides`: the parameters in the order in which they are read, with the key that each sets
* `applyAll_ok`: each key is set once, and no other member changes
* `Overlaid c nh privateNh c'`: the fields of `c'` are the parameters, and else those of `c`
* `applyParameterOverrides_ok_iff`: the result is the overlaid configuration, if that is sound
* `overrides_frame`: what is set changes and nothing else, also where the mode changes
-/

namespace MechLidar

open Lib Json

variable {F α : Type}

/-- The parameters that a node handle finds, by their types. -/
structure NodeHandle (F : Type) where
  string : String → Option String
  bool : String → Option Bool
  int : String → Option Int32
  double : String → Option (Flt F)

structure NodeHandle.Unset (h : NodeHandle F) : Prop where
  string : ∀ parameter, h.string parameter = none
  bool : ∀ parameter, h.bool parameter = none
  int : ∀ parameter, h.int parameter = none
  double : ∀ parameter, h.double parameter = none

/-! ## The parameters -/

/-- `values.value(key, default)`, of the member at the key. -/
def valueOr (get : Json F → Parsed α) (defaultValue : α) : Option (Json F) → Parsed α
  | none => .ok defaultValue
  | some x => get x

/-- `values.at(key).get<T>()`. -/
def valueAt (get : Json F → Parsed α) : Option (Json F) → Parsed α
  | none => .error .json
  | some x => get x

/-- `get<int>()` of an integer, as all members are that are read so. -/
def getInt (x : Json F) : Parsed Int32 :=
  match x.integer with
  | some n => .ok n.toInt32
  | none => .error .json

/-- A key with the member that it gets, next to the one it has. -/
structure Override (F : Type) where
  key : String
  overlay : Option (Json F) → Parsed (Json F)

section Parameters

variable (nh privateNh : NodeHandle F) (parameter key : String)

def stringParameter : Override F where
  key := key
  overlay member := do
    let value ← valueOr getString "" member
    .ok (.string ((privateNh.string parameter).getD value))

def boolParameter : Override F where
  key := key
  overlay member := do
    let value ← valueOr getBoolean false member
    .ok (.boolean ((privateNh.bool parameter).getD value))

def intParameter : Override F where
  key := key
  overlay member := do
    let value ← valueOr getInt 0 member
    .ok (.numberInteger ((privateNh.int parameter).getD value).toInt64)

def doubleParameter [Zero F] [IntCast F] [NatCast F] : Override F where
  key := key
  overlay member := do
    let value ← valueOr getDouble (.fin 0) member
    .ok (.numberFloat ((privateNh.double parameter).getD value))

def frameIdParameter : Override F where
  key := "frame_id"
  overlay member := do
    let frameId ← valueAt getString member
    let frameId := (nh.string "frame_id").getD frameId
    .ok (.string ((privateNh.string "frame_id").getD frameId))

def angleOffsetParameter [IntCast F] [NatCast F] : Override F where
  key := "angle_offset_deg"
  overlay member := do
    let angleOffsetDeg ← valueAt getDouble member
    let angleOffsetDeg := (nh.double "angle_offset_deg").getD angleOffsetDeg
    .ok (.numberFloat ((privateNh.double "angle_offset_deg").getD angleOffsetDeg))

end Parameters

section Apply

variable [Arith F] [IntCast F]

def overrides (nh privateNh : NodeHandle F) : List (Override F) :=
  [stringParameter privateNh "mode" "mode",
    stringParameter privateNh "capture_type" "capture_type",
    stringParameter privateNh "source_ip" "ip",
    intParameter privateNh "udp_port" "port",
    stringParameter privateNh "pcap_path" "pcap_path",
    stringParameter privateNh "scan_topic" "topic",
    stringParameter privateNh "pointcloud_topic" "pointcloud_topic",
    frameIdParameter nh privateNh,
    angleOffsetParameter nh privateNh,
    boolParameter privateNh "safety_debug" "safety_debug",
    stringParameter privateNh "safety_zones_topic" "safety_zones_topic",
    stringParameter privateNh "safety_zones_status_topic" "safety_zones_status_topic",
    doubleParameter privateNh "safety_debug_period_s" "safety_debug_period_s",
    stringParameter privateNh "http_host" "http_host",
    intParameter privateNh "http_port" "http_port",
    intParameter privateNh "http_timeout_ms" "http_timeout_ms",
    boolParameter privateNh "diagnostics_enabled" "diagnostics_enabled",
    stringParameter privateNh "diagnostics_topic" "diagnostics_topic",
    doubleParameter privateNh "diagnostics_period_s" "diagnostics_period_s",
    doubleParameter privateNh "no_data_timeout_s" "no_data_timeout_s",
    intParameter privateNh "udp_reconnect_initial_ms" "udp_reconnect_initial_ms",
    intParameter privateNh "udp_reconnect_max_ms" "udp_reconnect_max_ms"]

def Override.apply (values : Json F) (o : Override F) : Parsed (Json F) := do
  let x ← o.overlay (values.member o.key)
  .ok (values.set o.key x)

def applyAll (values : Json F) (os : List (Override F)) : Parsed (Json F) :=
  os.foldlM Override.apply values

/-- The configuration is assigned last, and only if nothing has been thrown. -/
def applyParameterOverrides (configuration : DriverConfig F) (nh privateNh : NodeHandle F) :
    Parsed Unit × DriverConfig F :=
  match (do
    let values ← applyAll (driverConfigToJson configuration) (overrides nh privateNh)
    parseDriverConfig values) with
  | .ok configuration => (.ok (), configuration)
  | .error e => (.error e, configuration)

end Apply

/-! ## Setting members -/

/-- Every key gets its new member, and no other member changes. -/
theorem applyAll_ok {ms : List (Override F × Json F)} {values : Json F}
    (hobject : values.isObject = true) (hnodup : (ms.map fun m => m.1.key).Nodup)
    (h : ∀ m ∈ ms, m.1.overlay (values.member m.1.key) = .ok m.2) :
    ∃ values', applyAll values (ms.map Prod.fst) = .ok values' ∧ values'.isObject = true ∧
      (∀ m ∈ ms, values'.member m.1.key = some m.2) ∧
      ∀ key, key ∉ ms.map (fun m => m.1.key) → values'.member key = values.member key := by
  induction ms generalizing values with
  | nil => exact ⟨values, rfl, hobject, by simp, by simp⟩
  | cons m ms ih =>
    obtain ⟨o, x⟩ := m
    rw [List.map_cons, List.nodup_cons] at hnodup
    rw [List.forall_mem_cons] at h
    obtain ⟨hx, hrest⟩ := h
    have hne : ∀ m ∈ ms, m.1.key ≠ o.key := by
      intro m hm heq
      exact hnodup.1 (heq ▸ List.mem_map_of_mem hm)
    have hrest' : ∀ m ∈ ms, m.1.overlay ((values.set o.key x).member m.1.key) = .ok m.2 := by
      intro m hm
      rw [member_set, if_neg (hne m hm)]
      exact hrest m hm
    obtain ⟨values', hall, hobject', hset, hframe⟩ :=
      ih (isObject_set values o.key x) hnodup.2 hrest'
    refine ⟨values', ?_, hobject', ?_, ?_⟩
    · rw [applyAll, List.map_cons, List.foldlM_cons, Override.apply, hx]
      exact hall
    · rw [List.forall_mem_cons]
      refine ⟨?_, hset⟩
      rw [hframe _ hnodup.1, member_set, if_pos rfl]
    · intro key hnot
      rw [List.map_cons, List.mem_cons, not_or] at hnot
      rw [hframe key hnot.2, member_set, if_neg hnot.1]

/-! ## The members that are set -/

theorem portInt_of_isPort {n : Int32} (h : IsPort n) : portInt n.toUInt32.toUInt16 = n := by
  rw [← Int32.toInt_inj, toInt_portInt, toNat_of_isPort h]

/-- Where `integer_value` reads a number, `get<int>()` reads the same. -/
theorem getInt_of_getInteger {key : String} {x : Json F} {n : Int32}
    (h : getInteger key x = .ok n) : getInt x = .ok n := by
  rw [getInteger] at h
  rw [getInt]
  cases hx : x.integer with
  | none => simp [hx, invalid] at h
  | some m =>
    simp only [hx, invalid, ite_error_ok_iff] at h
    exact h.2

theorem readOr_integer {v : Json F} {key field : String} {n : Int32}
    (h : v.member key = some (.numberInteger n.toInt64)) (d : Int32) :
    readOr (getInteger field) v key d = n := readOr_some h (getInteger_numberInteger n field) d

theorem valueOr_some {get : Json F → Parsed α} {member : Option (Json F)} {x : Json F} {a d : α}
    (h : member = some x) (hx : get x = .ok a := by rfl) : valueOr get d member = .ok a := by
  simpa [h, valueOr] using hx

theorem valueOr_int {member : Option (Json F)} {x : Json F} {n d : Int32} (h : member = some x)
    (hget : ∀ key, getInteger key x = .ok n) : valueOr getInt d member = .ok n :=
  valueOr_some h (getInt_of_getInteger (hget ""))

section Kinds

variable (nh privateNh : NodeHandle F) (parameter key : String)

@[simp] theorem stringParameter_key : (stringParameter privateNh parameter key).key = key := rfl

@[simp] theorem boolParameter_key : (boolParameter privateNh parameter key).key = key := rfl

@[simp] theorem intParameter_key : (intParameter privateNh parameter key).key = key := rfl

@[simp] theorem doubleParameter_key [Zero F] [IntCast F] [NatCast F] :
    (doubleParameter privateNh parameter key).key = key := rfl

@[simp] theorem frameIdParameter_key : (frameIdParameter nh privateNh).key = "frame_id" := rfl

@[simp] theorem angleOffsetParameter_key [IntCast F] [NatCast F] :
    (angleOffsetParameter nh privateNh).key = "angle_offset_deg" := rfl

end Kinds

section Overlays

variable {member : Option (Json F)} {parameter key : String} {privateNh : NodeHandle F}

theorem overlay_string {s : String} (h : valueOr getString "" member = .ok s) :
    (stringParameter privateNh parameter key).overlay member =
      .ok (.string ((privateNh.string parameter).getD s)) := by
  simp [stringParameter, h, bind, Except.bind]

theorem overlay_bool {b : Bool} (h : valueOr getBoolean false member = .ok b) :
    (boolParameter privateNh parameter key).overlay member =
      .ok (.boolean ((privateNh.bool parameter).getD b)) := by
  simp [boolParameter, h, bind, Except.bind]

theorem overlay_int {n : Int32} (h : valueOr getInt 0 member = .ok n) :
    (intParameter privateNh parameter key).overlay member =
      .ok (.numberInteger ((privateNh.int parameter).getD n).toInt64) := by
  simp [intParameter, h, bind, Except.bind]

theorem overlay_double [Zero F] [IntCast F] [NatCast F] {x : Flt F}
    (h : valueOr getDouble (.fin 0) member = .ok x) :
    (doubleParameter privateNh parameter key).overlay member =
      .ok (.numberFloat ((privateNh.double parameter).getD x)) := by
  simp [doubleParameter, h, bind, Except.bind]

end Overlays

/-- A field that the mode does not have reads as the placeholder, and that is its default. -/
theorem transport_placeholders {c : DriverConfig F} (hc : c.OtherDefault) :
    valueOr getString "" ((driverConfigToJson c).member "ip") = .ok c.ip ∧
      valueOr getInt 0 ((driverConfigToJson c).member "port") = .ok (portInt c.port) ∧
      valueOr getString "" ((driverConfigToJson c).member "pcap_path") = .ok c.pcapPath := by
  have htext := (represents_toJson c).text
  have hinteger := (represents_toJson c).integer
  rw [DriverConfig.OtherDefault] at hc
  cases hmode : c.mode with
  | udp =>
    simp only [hmode] at hc
    simp only [List.forall_mem_append, DriverConfig.transportTexts,
      DriverConfig.transportIntegers, hmode, List.forall_mem_singleton] at htext hinteger
    obtain ⟨x, hx, hget⟩ := hinteger.2
    have hpath : (driverConfigToJson c).member "pcap_path" = none := by
      simp [driverConfigToJson, hmode, List.lookup_cons]
    simp [htext.2, hx, hpath, hc, valueOr, getString, getInt_of_getInteger (hget "port")]
  | pcap =>
    simp only [hmode] at hc
    simp only [List.forall_mem_append, DriverConfig.transportTexts, hmode,
      List.forall_mem_singleton] at htext
    have hip : (driverConfigToJson c).member "ip" = none := by
      simp [driverConfigToJson, hmode, List.lookup_cons]
    have hport : (driverConfigToJson c).member "port" = none := by
      simp [driverConfigToJson, hmode, List.lookup_cons]
    simp [htext.2, hip, hport, hc.1, hc.2, valueOr, getString, portInt]

/-! ## The overlaid configuration -/

/-- The private parameter, else the other one where there is one, else the field. The port and the
texts of the transport are those of the mode that results. -/
structure Overlaid (c : DriverConfig F) (nh privateNh : NodeHandle F) (c' : DriverConfig F) :
    Prop where
  mode : c'.mode.toString = (privateNh.string "mode").getD c.mode.toString
  captureType :
    c'.captureType.toString = (privateNh.string "capture_type").getD c.captureType.toString
  name : c'.name = c.name
  ip : c'.mode = .udp → c'.ip = (privateNh.string "source_ip").getD c.ip
  port : c'.mode = .udp → portInt c'.port = (privateNh.int "udp_port").getD (portInt c.port)
  pcapPath : c'.mode = .pcap → c'.pcapPath = (privateNh.string "pcap_path").getD c.pcapPath
  otherDefault : c'.OtherDefault
  topic : c'.topic = (privateNh.string "scan_topic").getD c.topic
  pointcloudTopic :
    c'.pointcloudTopic = (privateNh.string "pointcloud_topic").getD c.pointcloudTopic
  frameId : c'.frameId =
    (privateNh.string "frame_id").getD ((nh.string "frame_id").getD c.frameId)
  angleOffsetDeg : c'.angleOffsetDeg =
    (privateNh.double "angle_offset_deg").getD
      ((nh.double "angle_offset_deg").getD c.angleOffsetDeg)
  safetyDebug : c'.safetyDebug = (privateNh.bool "safety_debug").getD c.safetyDebug
  safetyZonesTopic :
    c'.safetyZonesTopic = (privateNh.string "safety_zones_topic").getD c.safetyZonesTopic
  safetyZonesStatusTopic : c'.safetyZonesStatusTopic =
    (privateNh.string "safety_zones_status_topic").getD c.safetyZonesStatusTopic
  safetyDebugPeriodS :
    c'.safetyDebugPeriodS = (privateNh.double "safety_debug_period_s").getD c.safetyDebugPeriodS
  diagnosticsEnabled :
    c'.diagnosticsEnabled = (privateNh.bool "diagnostics_enabled").getD c.diagnosticsEnabled
  diagnosticsTopic :
    c'.diagnosticsTopic = (privateNh.string "diagnostics_topic").getD c.diagnosticsTopic
  diagnosticsPeriodS :
    c'.diagnosticsPeriodS = (privateNh.double "diagnostics_period_s").getD c.diagnosticsPeriodS
  noDataTimeoutS :
    c'.noDataTimeoutS = (privateNh.double "no_data_timeout_s").getD c.noDataTimeoutS
  udpReconnectInitialMs : c'.udpReconnectInitialMs =
    (privateNh.int "udp_reconnect_initial_ms").getD c.udpReconnectInitialMs
  udpReconnectMaxMs :
    c'.udpReconnectMaxMs = (privateNh.int "udp_reconnect_max_ms").getD c.udpReconnectMaxMs
  httpHost : c'.httpHost = (privateNh.string "http_host").getD c.httpHost
  httpPort : portInt c'.httpPort = (privateNh.int "http_port").getD (portInt c.httpPort)
  httpTimeoutMs : c'.httpTimeoutMs = (privateNh.int "http_timeout_ms").getD c.httpTimeoutMs

section Switch

variable {c c' : DriverConfig F} {nh privateNh : NodeHandle F}

theorem overlaid_unset (hc : c.OtherDefault) (hprivate : privateNh.Unset)
    (hframe : nh.string "frame_id" = none) (hangle : nh.double "angle_offset_deg" = none) :
    Overlaid c nh privateNh c := by
  constructor
  case otherDefault => exact hc
  all_goals
    simp [hprivate.string, hprivate.bool, hprivate.int, hprivate.double, hframe, hangle]

variable [Arith F]

/-- From UDP to PCAP: the file has to be given. -/
theorem overlaid_to_pcap (hc : c.OtherDefault) (h : Overlaid c nh privateNh c') (hsound : Sound c')
    (hmode : c.mode = .udp) (hmode' : c'.mode = .pcap) :
    ∃ path, privateNh.string "pcap_path" = some path ∧ path ≠ "" := by
  simp only [DriverConfig.OtherDefault, hmode] at hc
  have hpath := h.pcapPath hmode'
  have hne := hsound.pcapPath hmode'
  cases hp : privateNh.string "pcap_path" with
  | none =>
    rw [hp, Option.getD_none, hc] at hpath
    exact absurd hpath hne
  | some path =>
    rw [hp, Option.getD_some] at hpath
    exact ⟨path, rfl, hpath ▸ hne⟩

/-- From PCAP to UDP: the port has to be given, and the address stays empty if it is not. -/
theorem overlaid_to_udp (hc : c.OtherDefault) (h : Overlaid c nh privateNh c') (hsound : Sound c')
    (hmode : c.mode = .pcap) (hmode' : c'.mode = .udp) :
    (∃ n, privateNh.int "udp_port" = some n ∧ IsPort n) ∧
      c'.ip = (privateNh.string "source_ip").getD "" := by
  simp only [DriverConfig.OtherDefault, hmode] at hc
  have hport := h.port hmode'
  have hrange := isPort_portInt (hsound.port hmode')
  refine ⟨?_, by rw [h.ip hmode', hc.1]⟩
  cases hp : privateNh.int "udp_port" with
  | none =>
    -- the placeholder is no port
    rw [hport, hp, Option.getD_none, hc.2] at hrange
    exact absurd hrange.1 (by decide)
  | some n =>
    rw [hport, hp, Option.getD_some] at hrange
    exact ⟨n, rfl, hrange⟩

end Switch

section Members

variable [Arith F] [IntCast F]

/-- What each parameter makes of a configuration: its own value, and else that of the field. -/
def overlaidMembers (c : DriverConfig F) (nh privateNh : NodeHandle F) :
    List (Override F × Json F) :=
  let string (parameter key s : String) : Override F × Json F :=
    (stringParameter privateNh parameter key, .string ((privateNh.string parameter).getD s))
  let bool (parameter key : String) (b : Bool) : Override F × Json F :=
    (boolParameter privateNh parameter key, .boolean ((privateNh.bool parameter).getD b))
  let int (parameter key : String) (n : Int32) : Override F × Json F :=
    (intParameter privateNh parameter key,
      .numberInteger ((privateNh.int parameter).getD n).toInt64)
  let double (parameter key : String) (x : Flt F) : Override F × Json F :=
    (doubleParameter privateNh parameter key,
      .numberFloat ((privateNh.double parameter).getD x))
  [string "mode" "mode" c.mode.toString,
    string "capture_type" "capture_type" c.captureType.toString,
    string "source_ip" "ip" c.ip,
    int "udp_port" "port" (portInt c.port),
    string "pcap_path" "pcap_path" c.pcapPath,
    string "scan_topic" "topic" c.topic,
    string "pointcloud_topic" "pointcloud_topic" c.pointcloudTopic,
    (frameIdParameter nh privateNh, .string
      ((privateNh.string "frame_id").getD ((nh.string "frame_id").getD c.frameId))),
    (angleOffsetParameter nh privateNh, .numberFloat
      ((privateNh.double "angle_offset_deg").getD
        ((nh.double "angle_offset_deg").getD c.angleOffsetDeg))),
    bool "safety_debug" "safety_debug" c.safetyDebug,
    string "safety_zones_topic" "safety_zones_topic" c.safetyZonesTopic,
    string "safety_zones_status_topic" "safety_zones_status_topic" c.safetyZonesStatusTopic,
    double "safety_debug_period_s" "safety_debug_period_s" c.safetyDebugPeriodS,
    string "http_host" "http_host" c.httpHost,
    int "http_port" "http_port" (portInt c.httpPort),
    int "http_timeout_ms" "http_timeout_ms" c.httpTimeoutMs,
    bool "diagnostics_enabled" "diagnostics_enabled" c.diagnosticsEnabled,
    string "diagnostics_topic" "diagnostics_topic" c.diagnosticsTopic,
    double "diagnostics_period_s" "diagnostics_period_s" c.diagnosticsPeriodS,
    double "no_data_timeout_s" "no_data_timeout_s" c.noDataTimeoutS,
    int "udp_reconnect_initial_ms" "udp_reconnect_initial_ms" c.udpReconnectInitialMs,
    int "udp_reconnect_max_ms" "udp_reconnect_max_ms" c.udpReconnectMaxMs]

variable {c : DriverConfig F} {nh privateNh : NodeHandle F}

theorem overlaidMembers_fst :
    (overlaidMembers c nh privateNh).map Prod.fst = overrides nh privateNh := rfl

theorem overlaidMembers_keys : (overlaidMembers c nh privateNh).map (fun m => m.1.key) =
    ["mode", "capture_type", "ip", "port", "pcap_path", "topic", "pointcloud_topic", "frame_id",
      "angle_offset_deg", "safety_debug", "safety_zones_topic", "safety_zones_status_topic",
      "safety_debug_period_s", "http_host", "http_port", "http_timeout_ms",
      "diagnostics_enabled", "diagnostics_topic", "diagnostics_period_s", "no_data_timeout_s",
      "udp_reconnect_initial_ms", "udp_reconnect_max_ms"] := rfl

theorem overlaidMembers_allowed :
    ∀ key ∈ (overlaidMembers c nh privateNh).map (fun m => m.1.key), key ∈ allowedFields := by
  rw [overlaidMembers_keys]
  decide

theorem overlaidMembers_ok (hc : c.OtherDefault) :
    ∀ m ∈ overlaidMembers c nh privateNh,
      m.1.overlay ((driverConfigToJson c).member m.1.key) = .ok m.2 := by
  have hv := represents_toJson c
  obtain ⟨hip, hport, hpath⟩ := transport_placeholders hc
  have htext := fun field h => hv.text field (List.mem_append_left _ h)
  have hinteger := fun field h => hv.integer field (List.mem_append_left _ h)
  have hflag := hv.flag
  have hnumber := hv.number
  simp only [DriverConfig.texts, DriverConfig.flags, DriverConfig.numbers,
    DriverConfig.integers, List.forall_mem_cons] at htext hflag hnumber hinteger
  obtain ⟨-, htopic, hpointcloud, hframe, hzones, hstatus, hdiagnostics, hhost, -⟩ := htext
  obtain ⟨hdebug, henabled, -⟩ := hflag
  obtain ⟨hangle, hperiod, hdiagnosticsPeriod, hnoData, -⟩ := hnumber
  obtain ⟨⟨x₁, hinitial, hget₁⟩, ⟨x₂, hmax, hget₂⟩, ⟨x₃, hhttp, hget₃⟩, ⟨x₄, htimeout, hget₄⟩, -⟩ :=
    hinteger
  simp only [overlaidMembers, List.forall_mem_cons]
  refine ⟨overlay_string (valueOr_some hv.mode), overlay_string (valueOr_some hv.captureType),
    overlay_string hip, overlay_int hport, overlay_string hpath,
    overlay_string (valueOr_some htopic), overlay_string (valueOr_some hpointcloud), ?_, ?_,
    overlay_bool (valueOr_some hdebug), overlay_string (valueOr_some hzones),
    overlay_string (valueOr_some hstatus), overlay_double (valueOr_some hperiod),
    overlay_string (valueOr_some hhost), overlay_int (valueOr_int hhttp hget₃),
    overlay_int (valueOr_int htimeout hget₄), overlay_bool (valueOr_some henabled),
    overlay_string (valueOr_some hdiagnostics), overlay_double (valueOr_some hdiagnosticsPeriod),
    overlay_double (valueOr_some hnoData), overlay_int (valueOr_int hinitial hget₁),
    overlay_int (valueOr_int hmax hget₂), by simp⟩
  · simp only [frameIdParameter, hframe]
    rfl
  · simp only [angleOffsetParameter, hangle]
    rfl

/-- The value that is parsed: the parameters, and the name as it was. -/
theorem overlay_values (hc : c.OtherDefault) (nh privateNh : NodeHandle F) :
    ∃ values, applyAll (driverConfigToJson c) (overrides nh privateNh) = .ok values ∧
      values.isObject = true ∧
      (∀ m ∈ overlaidMembers c nh privateNh, values.member m.1.key = some m.2) ∧
      values.member "name" = some (.string c.name) ∧
      ∀ key, (values.member key).isSome = true → key ∈ allowedFields := by
  have hv := represents_toJson c
  have hok : ∀ m ∈ overlaidMembers c nh privateNh,
      m.1.overlay ((driverConfigToJson c).member m.1.key) = .ok m.2 := overlaidMembers_ok hc
  have hnodup : ((overlaidMembers c nh privateNh).map fun m => m.1.key).Nodup := by
    rw [overlaidMembers_keys]
    decide
  obtain ⟨values, hall, hobject, hset, hframe⟩ := applyAll_ok hv.isObject hnodup hok
  rw [overlaidMembers_fst] at hall
  refine ⟨values, hall, hobject, hset, ?_, ?_⟩
  · rw [hframe "name" (by rw [overlaidMembers_keys]; decide)]
    exact hv.text ("name", c.name) (by simp [DriverConfig.texts])
  · intro key hsome
    by_cases hkey : key ∈ (overlaidMembers c nh privateNh).map fun m => m.1.key
    · exact overlaidMembers_allowed key hkey
    · rw [hframe key hkey] at hsome
      exact hv.known key hsome

theorem represents_of_overlaid {values : Json F} {c' : DriverConfig F}
    (hobject : values.isObject = true)
    (hset : ∀ m ∈ overlaidMembers c nh privateNh, values.member m.1.key = some m.2)
    (hname : values.member "name" = some (.string c.name))
    (hknown : ∀ key, (values.member key).isSome = true → key ∈ allowedFields)
    (h : Overlaid c nh privateNh c') : Represents values c' := by
  simp only [overlaidMembers, List.forall_mem_cons, stringParameter_key, boolParameter_key,
    intParameter_key, doubleParameter_key, frameIdParameter_key, angleOffsetParameter_key] at hset
  obtain ⟨hmode, hcapture, hip, hport, hpath, htopic, hpointcloud, hframe, hangle, hdebug, hzones,
    hstatus, hperiod, hhost, hhttp, htimeout, henabled, hdiagnostics, hdiagnosticsPeriod, hnoData,
    hinitial, hmax, -⟩ := hset
  rw [← h.name] at hname
  rw [← h.mode] at hmode
  rw [← h.captureType] at hcapture
  rw [← h.topic] at htopic
  rw [← h.pointcloudTopic] at hpointcloud
  rw [← h.frameId] at hframe
  rw [← h.angleOffsetDeg] at hangle
  rw [← h.safetyDebug] at hdebug
  rw [← h.safetyZonesTopic] at hzones
  rw [← h.safetyZonesStatusTopic] at hstatus
  rw [← h.safetyDebugPeriodS] at hperiod
  rw [← h.httpHost] at hhost
  rw [← h.httpPort] at hhttp
  rw [← h.httpTimeoutMs] at htimeout
  rw [← h.diagnosticsEnabled] at henabled
  rw [← h.diagnosticsTopic] at hdiagnostics
  rw [← h.diagnosticsPeriodS] at hdiagnosticsPeriod
  rw [← h.noDataTimeoutS] at hnoData
  rw [← h.udpReconnectInitialMs] at hinitial
  rw [← h.udpReconnectMaxMs] at hmax
  refine ⟨hobject, hknown, hmode, hcapture, ?_, ?_, ?_, ?_⟩
  · simp only [List.forall_mem_append, DriverConfig.texts, List.forall_mem_cons]
    refine ⟨⟨hname, htopic, hpointcloud, hframe, hzones, hstatus, hdiagnostics, hhost, by simp⟩, ?_⟩
    cases hmode' : c'.mode with
    | udp =>
      simp only [DriverConfig.transportTexts, hmode', List.forall_mem_singleton]
      rw [h.ip hmode']
      exact hip
    | pcap =>
      simp only [DriverConfig.transportTexts, hmode', List.forall_mem_singleton]
      rw [h.pcapPath hmode']
      exact hpath
  · simp only [DriverConfig.flags, List.forall_mem_cons]
    exact ⟨hdebug, henabled, by simp⟩
  · simp only [DriverConfig.numbers, List.forall_mem_cons]
    exact ⟨hangle, hperiod, hdiagnosticsPeriod, hnoData, by simp⟩
  · simp only [List.forall_mem_append, DriverConfig.integers, List.forall_mem_cons]
    refine ⟨⟨⟨_, hinitial, getInteger_numberInteger _⟩, ⟨_, hmax, getInteger_numberInteger _⟩,
      ⟨_, hhttp, getInteger_numberInteger _⟩, ⟨_, htimeout, getInteger_numberInteger _⟩,
      by simp⟩, ?_⟩
    cases hmode' : c'.mode with
    | udp =>
      simp only [DriverConfig.transportIntegers, hmode', List.forall_mem_singleton]
      rw [h.port hmode']
      exact ⟨_, hport, getInteger_numberInteger _⟩
    | pcap => simp [DriverConfig.transportIntegers, hmode']

/-- What is parsed of the members that are set, in either mode. -/
theorem overlaid_of_parse {values : Json F} {c' : DriverConfig F}
    (hset : ∀ m ∈ overlaidMembers c nh privateNh, values.member m.1.key = some m.2)
    (hname : values.member "name" = some (.string c.name))
    (h : parseDriverConfig values = .ok c') : Overlaid c nh privateNh c' := by
  obtain ⟨-, -, hmode', hcapture', htyped, hcommon, -, hother, hread⟩ :=
    parseDriverConfig_ok_iff.1 h
  simp only [overlaidMembers, List.forall_mem_cons, stringParameter_key, boolParameter_key,
    intParameter_key, doubleParameter_key, frameIdParameter_key, angleOffsetParameter_key] at hset
  obtain ⟨hmode, hcapture, hip, hport, hpath, htopic, hpointcloud, hframe, hangle, hdebug, hzones,
    hstatus, hperiod, hhost, hhttp, htimeout, henabled, hdiagnostics, hdiagnosticsPeriod, hnoData,
    hinitial, hmax, -⟩ := hset
  have hrange := htyped.httpPort
  rw [readOr_integer hhttp] at hrange
  simp only [fieldsOf, readOr_string hname, readOr_string htopic, readOr_string hpointcloud,
    readOr_string hframe, readOr_string hzones, readOr_string hstatus,
    readOr_string hdiagnostics, readOr_string hhost, readOr_boolean hdebug,
    readOr_boolean henabled, readOr_float hangle, readOr_float hperiod,
    readOr_float hdiagnosticsPeriod, readOr_float hnoData,
    readOr_integer hinitial, readOr_integer hmax, readOr_integer hhttp,
    readOr_integer htimeout] at hcommon
  simp only [DriverConfig.common, DriverConfig.mk.injEq] at hcommon
  obtain ⟨-, -, hname', -, -, -, htopic', hpointcloud', hframe', hangle', hdebug', hzones',
    hstatus', hperiod', henabled', hdiagnostics', hdiagnosticsPeriod', hnoData', hinitial', hmax',
    hhost', hhttp', htimeout'⟩ := hcommon
  refine ⟨?_, ?_, hname', ?_, ?_, ?_, hother, htopic', hpointcloud', hframe', hangle', hdebug',
    hzones', hstatus', hperiod', henabled', hdiagnostics', hdiagnosticsPeriod', hnoData',
    hinitial', hmax', hhost', ?_, htimeout'⟩
  · simpa [hmode] using hmode'.symm
  · simpa [hcapture] using hcapture'.symm
  · intro hudp
    simp only [TransportRead, hudp, hip] at hread
    obtain ⟨x, n, hip', -⟩ := hread
    simpa using hip'.symm
  · intro hudp
    simp only [TransportRead, hudp, hport] at hread
    obtain ⟨x, n, -, hx, hn, hrange', hport'⟩ := hread
    cases hx
    rw [getInteger_numberInteger, Except.ok.injEq] at hn
    rw [hport', portInt_of_isPort hrange', hn]
  · intro hpcap
    simp only [TransportRead, hpcap, hpath] at hread
    simpa using hread.1.symm
  · rw [hhttp', portInt_of_isPort hrange]

variable {c' : DriverConfig F}

/-- The parameters are laid over the fields, if the configuration with them is sound. -/
theorem applyParameterOverrides_ok_iff (hc : c.OtherDefault) :
    applyParameterOverrides c nh privateNh = (.ok (), c') ↔
      Overlaid c nh privateNh c' ∧ Sound c' := by
  obtain ⟨values, hall, hobject, hset, hname, hknown⟩ := overlay_values hc nh privateNh
  have hparse : applyParameterOverrides c nh privateNh = (.ok (), c') ↔
      parseDriverConfig values = .ok c' := by
    simp only [applyParameterOverrides, hall, bind, Except.bind]
    cases parseDriverConfig values with
    | error e => simp
    | ok d => simp
  rw [hparse]
  constructor
  · intro h
    exact ⟨overlaid_of_parse hset hname h, sound_of_parse h⟩
  · intro ⟨hover, hsound⟩
    exact parse_of_represents (represents_of_overlaid hobject hset hname hknown hover) hsound

/-- An exception leaves the configuration as it was. Without one every field is its parameter, or
else as it was, and a change of the mode needs the file or the port of the new one. -/
theorem overrides_frame {v : Json F} (h : parseDriverConfig v = .ok c)
    (nh privateNh : NodeHandle F) :
    (((∃ e, applyParameterOverrides c nh privateNh = (.error e, c)) ∧
        ¬ ∃ c', Overlaid c nh privateNh c' ∧ Sound c') ∨
      ∃ c', applyParameterOverrides c nh privateNh = (.ok (), c') ∧
        Overlaid c nh privateNh c' ∧ Sound c' ∧
        (c.mode = .udp → c'.mode = .pcap →
          ∃ path, privateNh.string "pcap_path" = some path ∧ path ≠ "") ∧
        (c.mode = .pcap → c'.mode = .udp →
          (∃ n, privateNh.int "udp_port" = some n ∧ IsPort n) ∧
            c'.ip = (privateNh.string "source_ip").getD "")) ∧
      (privateNh.Unset → nh.string "frame_id" = none → nh.double "angle_offset_deg" = none →
        applyParameterOverrides c nh privateNh = (.ok (), c)) := by
  have hsound := sound_of_parse h
  have hc := hsound.otherDefault
  constructor
  · cases happly : applyParameterOverrides c nh privateNh with
    | mk r c' =>
      cases r with
      | error e =>
        have hkeep : c' = c := by
          rw [applyParameterOverrides] at happly
          split at happly
          · cases happly
          · cases happly
            rfl
        subst hkeep
        refine .inl ⟨⟨e, rfl⟩, ?_⟩
        intro ⟨d, hover⟩
        rw [← applyParameterOverrides_ok_iff hc, happly] at hover
        cases hover
      | ok u =>
        obtain ⟨hover, hsound'⟩ := (applyParameterOverrides_ok_iff hc).1 happly
        exact .inr ⟨c', rfl, hover, hsound', overlaid_to_pcap hc hover hsound',
          overlaid_to_udp hc hover hsound'⟩
  · intro hprivate hframe hangle
    exact (applyParameterOverrides_ok_iff hc).2
      ⟨overlaid_unset hc hprivate hframe hangle, hsound⟩

end Members

def noParameters : NodeHandle F where
  string _ := none
  bool _ := none
  int _ := none
  double _ := none

theorem unset_noParameters : (noParameters : NodeHandle F).Unset :=
  ⟨fun _ => rfl, fun _ => rfl, fun _ => rfl, fun _ => rfl⟩

/-- Private parameters of every type. The mode is changed to UDP. -/
noncomputable def switchParameters : NodeHandle ℝ where
  string parameter :=
    [("mode", "UDP"), ("source_ip", "192.168.0.7"), ("scan_topic", "front")].lookup parameter
  bool parameter := [("safety_debug", false)].lookup parameter
  int parameter := [("udp_port", 50008), ("http_port", 8081)].lookup parameter
  double parameter := [("angle_offset_deg", .fin 30)].lookup parameter

/-- Of the public parameters two are read. -/
noncomputable def publicParameters : NodeHandle ℝ where
  string parameter := [("frame_id", "base_laser")].lookup parameter
  bool _ := none
  int _ := none
  double parameter := [("angle_offset_deg", .fin 60)].lookup parameter

noncomputable def switchedConfig : DriverConfig ℝ :=
  { givenConfig .pcap with
    mode := .udp
    ip := "192.168.0.7"
    port := 50008
    pcapPath := ""
    topic := "front"
    frameId := "base_laser"
    angleOffsetDeg := .fin 30
    safetyDebug := false
    httpPort := 8081 }

theorem overlaid_switchedConfig :
    Overlaid (givenConfig .pcap) publicParameters switchParameters switchedConfig := by
  constructor
  case otherDefault => rfl
  case pcapPath => intro h; cases h
  case port => decide
  case httpPort => decide
  all_goals
    simp [switchedConfig, givenConfig, switchParameters, publicParameters, DriverMode.toString,
      List.lookup_cons]

theorem sound_switchedConfig : Sound switchedConfig := by
  have h := validated_givenConfig .pcap
  exact
    { validated := ⟨h.1, by decide, by decide, h.4, h.5, h.6, h.7, rfl, h.9, h.10, h.11, h.12, h.13,
        h.14⟩
      otherDefault := rfl
      httpPort := by decide
      port := by intro h; decide
      pcapPath := by intro h; cases h }

/-- Without a parameter nothing changes. With some the mode changes, and the fields that are set. -/
theorem overrides_frame_switched :
    applyParameterOverrides udpConfig noParameters noParameters = (.ok (), udpConfig) ∧
      ∃ c', applyParameterOverrides (givenConfig .pcap) publicParameters switchParameters =
          (.ok (), c') ∧
        Overlaid (givenConfig .pcap) publicParameters switchParameters c' ∧ Sound c' ∧
        (∃ n, switchParameters.int "udp_port" = some n ∧ IsPort n) ∧ c' = switchedConfig := by
  refine ⟨(overrides_frame parse_udpJson noParameters noParameters).2 unset_noParameters rfl rfl,
    ?_⟩
  have hover := overlaid_switchedConfig
  have hsound := sound_switchedConfig
  rcases (overrides_frame (parse_givenJson .pcap) publicParameters switchParameters).1 with
    ⟨-, hno⟩ | ⟨c', happly, hover', hsound', -, hudp⟩
  · exact absurd ⟨_, hover, hsound⟩ hno
  · have hc := (sound_of_parse (parse_givenJson .pcap)).otherDefault
    have hswitched := (applyParameterOverrides_ok_iff hc).2 ⟨hover, hsound⟩
    obtain rfl : c' = switchedConfig := congrArg Prod.snd (happly.symm.trans hswitched)
    exact ⟨_, happly, hover', hsound', (hudp rfl rfl).1, rfl⟩

noncomputable def pcapConfig : DriverConfig ℝ :=
  { DriverConfig.initial .pcap .single with pcapPath := "/tmp/lidar.pcap", topic := "scan" }

/-- The mode is changed to UDP with a port, and without an address. -/
def udpParameters : NodeHandle ℝ :=
  { noParameters with
    string := fun parameter => if parameter = "mode" then some "UDP" else none
    int := fun parameter => if parameter = "udp_port" then some 50007 else none }

/-- The mode that is changed to requires an `ip`, and the placeholder is taken for one. -/
theorem udp_without_source :
    parseDriverConfig (driverConfigToJson pcapConfig) = .ok pcapConfig ∧
      udpParameters.string "source_ip" = none ∧
      applyParameterOverrides pcapConfig noParameters udpParameters =
        (.ok (), { pcapConfig with mode := .udp, ip := "", port := 50007, pcapPath := "" }) := by
  have hvalid := validated_udpConfig
  have hpcap : Sound pcapConfig :=
    { validated := ⟨hvalid.1, hvalid.2, hvalid.3, hvalid.4, hvalid.5, hvalid.6, hvalid.7, hvalid.8,
        hvalid.9, hvalid.10, hvalid.11, hvalid.12, hvalid.13, hvalid.14⟩
      otherDefault := ⟨rfl, rfl⟩
      httpPort := by decide
      port := by intro h; cases h
      pcapPath := by intro h; decide }
  refine ⟨parse_of_represents (represents_toJson pcapConfig) hpcap, rfl, ?_⟩
  refine (applyParameterOverrides_ok_iff hpcap.otherDefault).2 ⟨?_, ?_⟩
  · constructor
    case otherDefault => rfl
    case pcapPath => intro h; cases h
    all_goals simp [pcapConfig, DriverConfig.initial, udpParameters, noParameters]
    case port => decide
    case mode => rfl
  · exact
    { validated := ⟨hvalid.1, hvalid.2, hvalid.3, hvalid.4, hvalid.5, hvalid.6, hvalid.7, hvalid.8,
        hvalid.9, hvalid.10, hvalid.11, hvalid.12, hvalid.13, hvalid.14⟩
      otherDefault := rfl
      httpPort := by decide
      port := by intro h; decide
      pcapPath := by intro h; cases h }

end MechLidar
