import MechLidar.Json
import MechLidar.Lib.Result

/-!
# MechLidar.Config

`driver_config.cpp`: the configuration of the driver, read from a JSON object and written back.

* `parseDriverConfig`: the checks in the order of the source, each with its message
* `driverConfigToJson`: all fields but those of the other mode
* `Typed`, `readOr`: what `required` and `optional` make of a member
* `fieldsOf`, `parseDriverConfig_ok_iff`: what a configuration that is accepted consists of
-/

namespace MechLidar

open Lib Json

inductive DriverMode where
  | udp
  | pcap
deriving DecidableEq, Repr

inductive CaptureType where
  | full
  | single
deriving DecidableEq, Repr

def DriverMode.toString : DriverMode → String
  | .udp => "UDP"
  | .pcap => "PCAP"

def CaptureType.toString : CaptureType → String
  | .full => "FULL"
  | .single => "SINGLE"

structure DriverConfig (F : Type) where
  mode : DriverMode
  captureType : CaptureType
  name : String
  ip : String
  port : UInt16
  pcapPath : String
  topic : String
  pointcloudTopic : String
  frameId : String
  angleOffsetDeg : Flt F
  safetyDebug : Bool
  safetyZonesTopic : String
  safetyZonesStatusTopic : String
  safetyDebugPeriodS : Flt F
  diagnosticsEnabled : Bool
  diagnosticsTopic : String
  diagnosticsPeriodS : Flt F
  noDataTimeoutS : Flt F
  udpReconnectInitialMs : Int32
  udpReconnectMaxMs : Int32
  httpHost : String
  httpPort : UInt16
  httpTimeoutMs : Int32

def allowedFields : List String :=
  ["mode", "capture_type", "name", "ip", "port", "pcap_path", "topic",
    "pointcloud_topic", "frame_id", "angle_offset_deg", "safety_debug",
    "safety_zones_topic", "safety_zones_status_topic",
    "safety_debug_period_s", "diagnostics_enabled", "diagnostics_topic",
    "diagnostics_period_s", "no_data_timeout_s", "http_host", "http_port",
    "http_timeout_ms", "udp_reconnect_initial_ms", "udp_reconnect_max_ms"]

abbrev Parsed := Except ConfigException

def invalid {α : Type} (what : String) : Parsed α := .error (.invalidArgument what)

variable {F α : Type}

/-! ## Reading a field -/

/-- `catch (const json::exception&)`, with the message thrown in its place. -/
def rethrow (what : String) : Parsed α → Parsed α
  | .error .json => invalid what
  | r => r

def invalidType (key : String) : String := "Invalid type for configuration field: " ++ key

def missing (key : String) : String := "Missing required configuration field: " ++ key

def required (get : Json F → Parsed α) (value : Json F) (key : String) : Parsed α :=
  match value.member key with
  | none => invalid (missing key)
  | some x => rethrow (invalidType key) (get x)

def optional (get : Json F → Parsed α) (value : Json F) (key : String) (defaultValue : α) :
    Parsed α :=
  match value.member key with
  | none => .ok defaultValue
  | some x => rethrow (invalidType key) (get x)

def requireNotEmpty (value key : String) : Parsed Unit :=
  if value = "" then invalid ("Configuration field must not be empty: " ++ key) else .ok ()

/-- `integer_value` of a field that is there. -/
def getInteger (key : String) (x : Json F) : Parsed Int32 :=
  match x.integer with
  | none => invalid (invalidType key)
  | some result =>
    if result.toInt < -2 ^ 31 ∨ 2 ^ 31 - 1 < result.toInt then
      invalid ("Integer configuration field is out of range: " ++ key)
    else .ok result.toInt32

def integerValue (value : Json F) (key : String) (requiredField : Bool) (defaultValue : Int32) :
    Parsed Int32 :=
  match value.member key with
  | none => if requiredField then invalid (missing key) else .ok defaultValue
  | some x => getInteger key x

def parsePort (value : Json F) (key : String) (requiredField : Bool) (defaultValue : Int32) :
    Parsed UInt16 := do
  let result ← integerValue value key requiredField defaultValue
  if result.toInt < 1 ∨ 65535 < result.toInt then
    invalid ("Configuration field must be in range 1..65535: " ++ key)
  else .ok result.toUInt32.toUInt16

/-! ## Parsing -/

def checkFields (value : Json F) : Parsed Unit :=
  match value.members.find? fun item => !allowedFields.contains item.1 with
  | some item => invalid ("Unknown configuration field: " ++ item.1)
  | none => .ok ()

def parseMode (mode : String) : Parsed DriverMode :=
  if mode = "UDP" then .ok .udp
  else if mode = "PCAP" then .ok .pcap
  else invalid "Configuration field mode must be UDP or PCAP"

def parseCaptureType (captureType : String) : Parsed CaptureType :=
  if captureType = "FULL" then .ok .full
  else if captureType = "SINGLE" then .ok .single
  else invalid "Configuration field capture_type must be FULL or SINGLE"

/-- `x > 0.0` of a finite number. -/
def Flt.isPositive [Zero F] [LT F] [DecidableLT F] : Flt F → Bool
  | .fin x => decide (0 < x)
  | _ => false

section Parse

variable [Arith F] [IntCast F]

/-- The defaults of `DriverConfig`. -/
def DriverConfig.initial (mode : DriverMode) (captureType : CaptureType) : DriverConfig F where
  mode := mode
  captureType := captureType
  name := "lidar_driver"
  ip := ""
  port := 0
  pcapPath := ""
  topic := ""
  pointcloudTopic := ""
  frameId := "base_link"
  angleOffsetDeg := .fin ((90 : Nat) : F)
  safetyDebug := false
  safetyZonesTopic := "safety_zones_markers"
  safetyZonesStatusTopic := "safety_zones_status"
  safetyDebugPeriodS := .fin ((1 : Nat) : F)
  diagnosticsEnabled := true
  diagnosticsTopic := "diagnostics"
  diagnosticsPeriodS := .fin ((1 : Nat) : F)
  noDataTimeoutS := .fin ((2 : Nat) : F)
  udpReconnectInitialMs := 250
  udpReconnectMaxMs := 5000
  httpHost := "192.168.0.120"
  httpPort := 80
  httpTimeoutMs := 3000

/-- The fields that both modes have. -/
def parseFields (value : Json F) (mode : DriverMode) (captureType : CaptureType) :
    Parsed (DriverConfig F) := do
  let result : DriverConfig F := .initial mode captureType
  let name ← optional getString value "name" result.name
  let topic ← required getString value "topic"
  let pointcloudTopic ← optional getString value "pointcloud_topic" result.pointcloudTopic
  let frameId ← optional getString value "frame_id" result.frameId
  let angleOffsetDeg ← optional getDouble value "angle_offset_deg" result.angleOffsetDeg
  let safetyDebug ← optional getBoolean value "safety_debug" result.safetyDebug
  let safetyZonesTopic ← optional getString value "safety_zones_topic" result.safetyZonesTopic
  let safetyZonesStatusTopic ←
    optional getString value "safety_zones_status_topic" result.safetyZonesStatusTopic
  let safetyDebugPeriodS ←
    optional getDouble value "safety_debug_period_s" result.safetyDebugPeriodS
  let diagnosticsEnabled ←
    optional getBoolean value "diagnostics_enabled" result.diagnosticsEnabled
  let diagnosticsTopic ← optional getString value "diagnostics_topic" result.diagnosticsTopic
  let diagnosticsPeriodS ←
    optional getDouble value "diagnostics_period_s" result.diagnosticsPeriodS
  let noDataTimeoutS ← optional getDouble value "no_data_timeout_s" result.noDataTimeoutS
  let udpReconnectInitialMs ←
    integerValue value "udp_reconnect_initial_ms" false result.udpReconnectInitialMs
  let udpReconnectMaxMs ←
    integerValue value "udp_reconnect_max_ms" false result.udpReconnectMaxMs
  let httpHost ← optional getString value "http_host" result.httpHost
  let httpPort ← parsePort value "http_port" false result.httpPort.toUInt32.toInt32
  let httpTimeoutMs ← integerValue value "http_timeout_ms" false result.httpTimeoutMs
  .ok { result with
    name, topic, pointcloudTopic, frameId, angleOffsetDeg, safetyDebug, safetyZonesTopic
    safetyZonesStatusTopic, safetyDebugPeriodS, diagnosticsEnabled, diagnosticsTopic
    diagnosticsPeriodS, noDataTimeoutS, udpReconnectInitialMs, udpReconnectMaxMs, httpHost
    httpPort, httpTimeoutMs }

def requireFinite (value : Flt F) (key : String) : Parsed Unit :=
  if value.isFinite then .ok () else invalid ("Configuration field must be finite: " ++ key)

def requirePositive (value : Bool) (key : String) : Parsed Unit :=
  if value then .ok () else invalid ("Configuration field must be positive: " ++ key)

def validate (result : DriverConfig F) : Parsed Unit := do
  requireNotEmpty result.name "name"
  requireNotEmpty result.topic "topic"
  requireNotEmpty result.frameId "frame_id"
  requireNotEmpty result.safetyZonesTopic "safety_zones_topic"
  requireNotEmpty result.safetyZonesStatusTopic "safety_zones_status_topic"
  requireNotEmpty result.httpHost "http_host"
  requireNotEmpty result.diagnosticsTopic "diagnostics_topic"
  requireFinite result.angleOffsetDeg "angle_offset_deg"
  requirePositive result.safetyDebugPeriodS.isPositive "safety_debug_period_s"
  requirePositive (decide (0 < result.httpTimeoutMs.toInt)) "http_timeout_ms"
  requirePositive result.diagnosticsPeriodS.isPositive "diagnostics_period_s"
  requirePositive result.noDataTimeoutS.isPositive "no_data_timeout_s"
  requirePositive (decide (0 < result.udpReconnectInitialMs.toInt)) "udp_reconnect_initial_ms"
  if result.udpReconnectMaxMs.toInt < result.udpReconnectInitialMs.toInt then
    invalid ("Configuration field udp_reconnect_max_ms must be greater than " ++
      "or equal to udp_reconnect_initial_ms")
  else .ok ()

/-- The fields of the mode. -/
def parseTransport (value : Json F) (result : DriverConfig F) : Parsed (DriverConfig F) :=
  match result.mode with
  | .udp => do
    let ip ← required getString value "ip"
    let port ← parsePort value "port" true 0
    .ok { result with ip, port }
  | .pcap => do
    let pcapPath ← required getString value "pcap_path"
    requireNotEmpty pcapPath "pcap_path"
    .ok { result with pcapPath }

def parseDriverConfig (value : Json F) : Parsed (DriverConfig F) :=
  if value.isObject then do
    checkFields value
    let mode ← required getString value "mode"
    let mode ← parseMode mode
    let captureType ← required getString value "capture_type"
    let captureType ← parseCaptureType captureType
    let result ← parseFields value mode captureType
    validate result
    parseTransport value result
  else invalid "Driver configuration must be a JSON object"

def driverConfigToJson (value : DriverConfig F) : Json F :=
  let result : Json F := .object
    [("mode", .string value.mode.toString),
      ("capture_type", .string value.captureType.toString),
      ("name", .string value.name),
      ("topic", .string value.topic),
      ("pointcloud_topic", .string value.pointcloudTopic),
      ("frame_id", .string value.frameId),
      ("angle_offset_deg", .numberFloat value.angleOffsetDeg),
      ("safety_debug", .boolean value.safetyDebug),
      ("safety_zones_topic", .string value.safetyZonesTopic),
      ("safety_zones_status_topic", .string value.safetyZonesStatusTopic),
      ("safety_debug_period_s", .numberFloat value.safetyDebugPeriodS),
      ("diagnostics_enabled", .boolean value.diagnosticsEnabled),
      ("diagnostics_topic", .string value.diagnosticsTopic),
      ("diagnostics_period_s", .numberFloat value.diagnosticsPeriodS),
      ("no_data_timeout_s", .numberFloat value.noDataTimeoutS),
      ("udp_reconnect_initial_ms", .numberInteger value.udpReconnectInitialMs.toInt64),
      ("udp_reconnect_max_ms", .numberInteger value.udpReconnectMaxMs.toInt64),
      ("http_host", .string value.httpHost),
      ("http_port", .numberUnsigned value.httpPort.toUInt64),
      ("http_timeout_ms", .numberInteger value.httpTimeoutMs.toInt64)]
  match value.mode with
  | .udp => (result.set "ip" (.string value.ip)).set "port" (.numberUnsigned value.port.toUInt64)
  | .pcap => result.set "pcap_path" (.string value.pcapPath)

end Parse

/-! ## What is read -/

section Read

variable {get : Json F → Parsed α} {v : Json F} {key : String}

/-- The member has the type of the field, if there is one. -/
def Typed (get : Json F → Parsed α) (v : Json F) (key : String) : Prop :=
  ∀ x, v.member key = some x → ∃ a, get x = .ok a

def readOr (get : Json F → Parsed α) (v : Json F) (key : String) (defaultValue : α) : α :=
  match v.member key with
  | none => defaultValue
  | some x => (get x).toOption.getD defaultValue

theorem readOr_some {x : Json F} {a : α} (h : v.member key = some x) (hx : get x = .ok a)
    (d : α) : readOr get v key d = a := by
  simp [readOr, h, hx, Except.toOption]

theorem readOr_string {s : String} (h : v.member key = some (.string s)) (d : String) :
    readOr getString v key d = s := readOr_some h (getString_string s) d

theorem readOr_boolean {b : Bool} (h : v.member key = some (.boolean b)) (d : Bool) :
    readOr getBoolean v key d = b := readOr_some h (getBoolean_boolean b) d

theorem readOr_float [IntCast F] [NatCast F] {x : Flt F} (h : v.member key = some (.numberFloat x))
    (d : Flt F) : readOr getDouble v key d = x := readOr_some h (getDouble_numberFloat x) d

theorem getString_ok_iff {x : Json F} {s : String} : getString x = .ok s ↔ x = .string s := by
  cases x <;> simp [getString]

theorem rethrow_ok_iff {what : String} {r : Parsed α} {a : α} :
    rethrow what r = .ok a ↔ r = .ok a := by
  cases r with
  | ok b => rfl
  | error e =>
    cases e with
    | invalidArgument m => simp [rethrow]
    | json => simp [rethrow, invalid]

theorem required_ok_iff {a : α} :
    required get v key = .ok a ↔ ∃ x, v.member key = some x ∧ get x = .ok a := by
  rw [required]
  cases v.member key with
  | none => simp [invalid]
  | some x => simp [rethrow_ok_iff]

/-- A field that may be missing, read by `get` or left at its default. -/
theorem optional_ok_iff {d a : α} :
    optional get v key d = .ok a ↔ Typed get v key ∧ a = readOr get v key d := by
  rw [optional, Typed, readOr]
  cases v.member key with
  | none => simp [eq_comm]
  | some x =>
    cases hx : get x with
    | error e => simp [rethrow_ok_iff, hx]
    | ok b =>
      simp [rethrow_ok_iff, hx, Except.toOption]
      exact eq_comm

theorem integerValue_ok_iff {d n : Int32} : integerValue v key false d = .ok n ↔
    Typed (getInteger key) v key ∧ n = readOr (getInteger key) v key d := by
  rw [integerValue, Typed, readOr]
  cases v.member key with
  | none => simp [eq_comm]
  | some x =>
    cases hx : getInteger key x with
    | error e => simp [hx]
    | ok b =>
      simp [hx, Except.toOption]
      exact eq_comm

theorem integerValue_required_ok_iff {d n : Int32} : integerValue v key true d = .ok n ↔
    ∃ x, v.member key = some x ∧ getInteger key x = .ok n := by
  rw [integerValue]
  cases v.member key with
  | none => simp [invalid]
  | some x => simp

/-- `1..65535`. -/
def IsPort (n : Int32) : Prop := 1 ≤ n.toInt ∧ n.toInt ≤ 65535

theorem parsePort_ok_iff {r : Bool} {d : Int32} {port : UInt16} :
    parsePort v key r d = .ok port ↔
      ∃ n, integerValue v key r d = .ok n ∧ IsPort n ∧ port = n.toUInt32.toUInt16 := by
  rw [parsePort, bind_ok_iff]
  refine exists_congr fun n => and_congr_right fun _ => ?_
  rw [invalid, ite_error_ok_iff, IsPort]
  simp only [Except.ok.injEq, eq_comm]
  constructor
  · intro ⟨hrange, hport⟩
    exact ⟨by omega, hport⟩
  · intro ⟨hrange, hport⟩
    exact ⟨by omega, hport⟩

theorem checkFields_ok_iff {u : Unit} : checkFields v = .ok u ↔
    ∀ key, (v.member key).isSome = true → key ∈ allowedFields := by
  have hfind : checkFields v = .ok u ↔
      v.members.find? (fun item => !allowedFields.contains item.1) = none := by
    rw [checkFields]
    cases v.members.find? fun item => !allowedFields.contains item.1 with
    | none => simp
    | some item => simp [invalid]
  rw [hfind, List.find?_eq_none]
  simp only [member_isSome_iff, List.mem_map]
  constructor
  · intro h key ⟨item, hitem, hkey⟩
    have hallowed := h item hitem
    simpa [hkey] using hallowed
  · intro h item hitem
    simpa using h item.1 ⟨item, hitem, rfl⟩

theorem requireNotEmpty_ok_iff {value : String} {u : Unit} :
    requireNotEmpty value key = .ok u ↔ value ≠ "" := by
  rw [requireNotEmpty, invalid, ite_error_ok_iff]
  simp

theorem requireFinite_ok_iff {value : Flt F} {u : Unit} :
    requireFinite value key = .ok u ↔ value.isFinite = true := by
  cases h : value.isFinite <;> simp [requireFinite, invalid, h]

theorem requirePositive_ok_iff {value : Bool} {u : Unit} :
    requirePositive value key = .ok u ↔ value = true := by
  cases value <;> simp [requirePositive, invalid]

theorem parseMode_ok_iff {text : String} {mode : DriverMode} :
    parseMode text = .ok mode ↔ text = mode.toString := by
  rw [parseMode]
  split
  · cases mode <;> simp_all [DriverMode.toString]
  · split
    · cases mode <;> simp_all [DriverMode.toString]
    · cases mode <;> simp_all [DriverMode.toString, invalid]

theorem parseCaptureType_ok_iff {text : String} {captureType : CaptureType} :
    parseCaptureType text = .ok captureType ↔ text = captureType.toString := by
  rw [parseCaptureType]
  split
  · cases captureType <;> simp_all [CaptureType.toString]
  · split
    · cases captureType <;> simp_all [CaptureType.toString]
    · cases captureType <;> simp_all [CaptureType.toString, invalid]

end Read

/-- The fields of the mode can be read, and are those of `c`. -/
def TransportRead (v : Json F) (c : DriverConfig F) : Prop :=
  match c.mode with
  | .udp => ∃ x n, v.member "ip" = some (.string c.ip) ∧ v.member "port" = some x ∧
      getInteger "port" x = .ok n ∧ IsPort n ∧ c.port = n.toUInt32.toUInt16
  | .pcap => v.member "pcap_path" = some (.string c.pcapPath) ∧ c.pcapPath ≠ ""

/-- The fields of the other mode are left at their defaults. -/
def DriverConfig.OtherDefault (c : DriverConfig F) : Prop :=
  match c.mode with
  | .udp => c.pcapPath = ""
  | .pcap => c.ip = "" ∧ c.port = 0

/-- The configuration without the fields of its mode. -/
def DriverConfig.common (c : DriverConfig F) : DriverConfig F :=
  { c with ip := "", port := 0, pcapPath := "" }

theorem parseTransport_ok_iff {v : Json F} {d c : DriverConfig F} (hd : d.common = d) :
    parseTransport v d = .ok c ↔ c.common = d ∧ c.OtherDefault ∧ TransportRead v c := by
  obtain ⟨mode, captureType⟩ := d
  obtain ⟨mode', captureType'⟩ := c
  cases hd
  cases mode with
  | udp =>
    simp only [parseTransport, bind_ok_iff, required_ok_iff, getString_ok_iff, parsePort_ok_iff,
      integerValue_required_ok_iff]
    constructor
    · intro ⟨ip, ⟨x, hx, hip⟩, port, ⟨n, ⟨y, hy, hn⟩, hrange, hport⟩, hc⟩
      subst hip
      cases hc
      exact ⟨rfl, rfl, y, n, hx, hy, hn, hrange, hport⟩
    · intro ⟨hcommon, hother, hread⟩
      cases hcommon
      cases (show _ = "" from hother)
      obtain ⟨x, n, hip, hx, hn, hrange, hport⟩ := hread
      exact ⟨_, ⟨_, hip, rfl⟩, _, ⟨n, ⟨x, hx, hn⟩, hrange, hport⟩, rfl⟩
  | pcap =>
    simp only [parseTransport, bind_ok_iff, required_ok_iff, getString_ok_iff,
      requireNotEmpty_ok_iff]
    constructor
    · intro ⟨path, ⟨x, hx, hpath⟩, u, hne, hc⟩
      subst hpath
      cases hc
      exact ⟨rfl, ⟨rfl, rfl⟩, hx, hne⟩
    · intro ⟨hcommon, hother, hread⟩
      cases hcommon
      obtain ⟨hip, hport⟩ := hother
      cases (show _ = "" from hip)
      cases (show _ = (0 : UInt16) from hport)
      exact ⟨_, ⟨_, hread.1, rfl⟩, (), hread.2, rfl⟩

section Accepted

variable [Arith F]

/-- What `validate` lets through. -/
structure Validated (c : DriverConfig F) : Prop where
  name : c.name ≠ ""
  topic : c.topic ≠ ""
  frameId : c.frameId ≠ ""
  safetyZonesTopic : c.safetyZonesTopic ≠ ""
  safetyZonesStatusTopic : c.safetyZonesStatusTopic ≠ ""
  httpHost : c.httpHost ≠ ""
  diagnosticsTopic : c.diagnosticsTopic ≠ ""
  angleOffsetDeg : c.angleOffsetDeg.isFinite = true
  safetyDebugPeriodS : c.safetyDebugPeriodS.isPositive = true
  httpTimeoutMs : 0 < c.httpTimeoutMs.toInt
  diagnosticsPeriodS : c.diagnosticsPeriodS.isPositive = true
  noDataTimeoutS : c.noDataTimeoutS.isPositive = true
  udpReconnectInitialMs : 0 < c.udpReconnectInitialMs.toInt
  udpReconnectMaxMs : c.udpReconnectInitialMs.toInt ≤ c.udpReconnectMaxMs.toInt

/-- The fields of the mode are not validated here. -/
theorem validated_common {c : DriverConfig F} : Validated c.common ↔ Validated c := by
  constructor
  · intro h
    exact ⟨h.1, h.2, h.3, h.4, h.5, h.6, h.7, h.8, h.9, h.10, h.11, h.12, h.13, h.14⟩
  · intro h
    exact ⟨h.1, h.2, h.3, h.4, h.5, h.6, h.7, h.8, h.9, h.10, h.11, h.12, h.13, h.14⟩

theorem validate_ok_iff {c : DriverConfig F} {u : Unit} :
    validate c = .ok u ↔ Validated c := by
  simp only [validate, bind_ok_iff, requireNotEmpty_ok_iff, requireFinite_ok_iff,
    requirePositive_ok_iff, invalid, ite_error_ok_iff, exists_and_left, exists_const, and_true,
    decide_eq_true_eq, Int.not_lt]
  constructor
  · intro ⟨hname, htopic, hframe, hzones, hstatus, hhost, hdiagnostics, hangle, hperiod, htimeout,
      hdiagnosticsPeriod, hnoData, hinitial, hmax⟩
    exact ⟨hname, htopic, hframe, hzones, hstatus, hhost, hdiagnostics, hangle, hperiod, htimeout,
      hdiagnosticsPeriod, hnoData, hinitial, hmax⟩
  · intro ⟨hname, htopic, hframe, hzones, hstatus, hhost, hdiagnostics, hangle, hperiod, htimeout,
      hdiagnosticsPeriod, hnoData, hinitial, hmax⟩
    exact ⟨hname, htopic, hframe, hzones, hstatus, hhost, hdiagnostics, hangle, hperiod, htimeout,
      hdiagnosticsPeriod, hnoData, hinitial, hmax⟩

variable [IntCast F]

def textFields : List String :=
  ["name", "pointcloud_topic", "frame_id", "safety_zones_topic", "safety_zones_status_topic",
    "diagnostics_topic", "http_host"]

def flagFields : List String := ["safety_debug", "diagnostics_enabled"]

def numberFields : List String :=
  ["angle_offset_deg", "safety_debug_period_s", "diagnostics_period_s", "no_data_timeout_s"]

def integerFields : List String :=
  ["udp_reconnect_initial_ms", "udp_reconnect_max_ms", "http_port", "http_timeout_ms"]

/-- The fields that both modes have can be read. -/
structure FieldsTyped (v : Json F) : Prop where
  text : ∀ key ∈ textFields, Typed getString v key
  flag : ∀ key ∈ flagFields, Typed getBoolean v key
  number : ∀ key ∈ numberFields, Typed getDouble v key
  integer : ∀ key ∈ integerFields, Typed (getInteger key) v key
  topic : ∃ s, v.member "topic" = some (.string s)
  httpPort : IsPort (readOr (getInteger "http_port") v "http_port" 80)

/-- What is read of them. -/
def fieldsOf (v : Json F) (mode : DriverMode) (captureType : CaptureType) : DriverConfig F :=
  let d : DriverConfig F := .initial mode captureType
  { d with
    name := readOr getString v "name" d.name
    topic := readOr getString v "topic" d.topic
    pointcloudTopic := readOr getString v "pointcloud_topic" d.pointcloudTopic
    frameId := readOr getString v "frame_id" d.frameId
    angleOffsetDeg := readOr getDouble v "angle_offset_deg" d.angleOffsetDeg
    safetyDebug := readOr getBoolean v "safety_debug" d.safetyDebug
    safetyZonesTopic := readOr getString v "safety_zones_topic" d.safetyZonesTopic
    safetyZonesStatusTopic :=
      readOr getString v "safety_zones_status_topic" d.safetyZonesStatusTopic
    safetyDebugPeriodS := readOr getDouble v "safety_debug_period_s" d.safetyDebugPeriodS
    diagnosticsEnabled := readOr getBoolean v "diagnostics_enabled" d.diagnosticsEnabled
    diagnosticsTopic := readOr getString v "diagnostics_topic" d.diagnosticsTopic
    diagnosticsPeriodS := readOr getDouble v "diagnostics_period_s" d.diagnosticsPeriodS
    noDataTimeoutS := readOr getDouble v "no_data_timeout_s" d.noDataTimeoutS
    udpReconnectInitialMs :=
      readOr (getInteger "udp_reconnect_initial_ms") v "udp_reconnect_initial_ms"
        d.udpReconnectInitialMs
    udpReconnectMaxMs :=
      readOr (getInteger "udp_reconnect_max_ms") v "udp_reconnect_max_ms" d.udpReconnectMaxMs
    httpHost := readOr getString v "http_host" d.httpHost
    httpPort := (readOr (getInteger "http_port") v "http_port" 80).toUInt32.toUInt16
    httpTimeoutMs := readOr (getInteger "http_timeout_ms") v "http_timeout_ms" d.httpTimeoutMs }

theorem parseFields_ok_iff {v : Json F} {mode : DriverMode} {captureType : CaptureType}
    {c : DriverConfig F} :
    parseFields v mode captureType = .ok c ↔ FieldsTyped v ∧ c = fieldsOf v mode captureType := by
  simp only [parseFields, bind_ok_iff, optional_ok_iff, integerValue_ok_iff, parsePort_ok_iff,
    required_ok_iff, getString_ok_iff, and_assoc, exists_and_left, exists_eq_left,
    exists_eq_right]
  constructor
  · intro ⟨hname, topic, htopic, hpointcloud, hframe, hangle, hdebug, hzones, hstatus, hperiod,
      henabled, hdiagnostics, hdiagnosticsPeriod, hnoData, hinitial, hmax, hhost, hport, hrange,
      htimeout, hc⟩
    refine ⟨⟨?_, ?_, ?_, ?_, ⟨topic, htopic⟩, hrange⟩, ?_⟩
    · simp [textFields, hname, hpointcloud, hframe, hzones, hstatus, hdiagnostics, hhost]
    · simp [flagFields, hdebug, henabled]
    · simp [numberFields, hangle, hperiod, hdiagnosticsPeriod, hnoData]
    · simp [integerFields, hinitial, hmax, hport, htimeout]
    · rw [← Except.ok.inj hc, fieldsOf, readOr_string htopic]
      rfl
  · intro ⟨⟨htext, hflag, hnumber, hinteger, ⟨topic, htopic⟩, hrange⟩, hc⟩
    simp only [textFields, flagFields, numberFields, integerFields, List.forall_mem_cons] at *
    obtain ⟨hname, hpointcloud, hframe, hzones, hstatus, hdiagnostics, hhost, -⟩ := htext
    obtain ⟨hdebug, henabled, -⟩ := hflag
    obtain ⟨hangle, hperiod, hdiagnosticsPeriod, hnoData, -⟩ := hnumber
    obtain ⟨hinitial, hmax, hport, htimeout, -⟩ := hinteger
    refine ⟨hname, topic, htopic, hpointcloud, hframe, hangle, hdebug, hzones, hstatus, hperiod,
      henabled, hdiagnostics, hdiagnosticsPeriod, hnoData, hinitial, hmax, hhost, hport, hrange,
      htimeout, ?_⟩
    rw [hc, fieldsOf, readOr_string htopic]
    rfl

theorem parseDriverConfig_ok_iff {v : Json F} {c : DriverConfig F} :
    parseDriverConfig v = .ok c ↔
      v.isObject = true ∧ (∀ key, (v.member key).isSome = true → key ∈ allowedFields) ∧
        v.member "mode" = some (.string c.mode.toString) ∧
        v.member "capture_type" = some (.string c.captureType.toString) ∧ FieldsTyped v ∧
        c.common = fieldsOf v c.mode c.captureType ∧ Validated c ∧ c.OtherDefault ∧
        TransportRead v c := by
  rw [parseDriverConfig]
  cases v.isObject with
  | false => simp [invalid]
  | true =>
    simp only [if_true, bind_ok_iff, checkFields_ok_iff, required_ok_iff, getString_ok_iff,
      parseMode_ok_iff, parseCaptureType_ok_iff, parseFields_ok_iff, validate_ok_iff, true_and]
    constructor
    · intro ⟨u, hknown, text, ⟨x, hx, htext⟩, mode, hmode, text', ⟨y, hy, htext'⟩, captureType,
        hcapture, d, ⟨htyped, hd⟩, u', hvalid, htransport⟩
      subst hd
      rw [parseTransport_ok_iff rfl] at htransport
      obtain ⟨hcommon, hother, hread⟩ := htransport
      have hmode' : c.mode = mode := congrArg DriverConfig.mode hcommon
      have hcapture' : c.captureType = captureType := congrArg DriverConfig.captureType hcommon
      subst hmode' hcapture' hmode hcapture htext htext'
      exact ⟨hknown, hx, hy, htyped, hcommon, validated_common.1 (hcommon ▸ hvalid), hother, hread⟩
    · intro ⟨hknown, hmode, hcapture, htyped, hcommon, hvalid, hother, hread⟩
      refine ⟨(), hknown, _, ⟨_, hmode, rfl⟩, c.mode, rfl, _, ⟨_, hcapture, rfl⟩, c.captureType,
        rfl, _, ⟨htyped, rfl⟩, (), ?_, ?_⟩
      · rw [← hcommon]
        exact validated_common.2 hvalid
      · exact (parseTransport_ok_iff rfl).2 ⟨hcommon, hother, hread⟩

end Accepted

end MechLidar
