import MechLidar.Config

/-!
# MechLidar.RoundTrip

A configuration that was parsed can be written and parsed again, and is the same.

* `Sound`: what holds of every parsed configuration
* `Represents v c`: the members of `v` are the fields of `c`
* `parse_of_represents`: such a value is parsed to `c`, if `c` is sound
* `represents_toJson`: what is written is such a value
-/

namespace MechLidar

open Lib Json

variable {F : Type}

/-! ## Integers -/

theorem toNat_of_isPort {n : Int32} (h : IsPort n) :
    (n.toUInt32.toUInt16.toNat : Int) = n.toInt := by
  have hint : n.toInt = n.toBitVec.toInt := rfl
  have hport : n.toUInt32.toUInt16.toNat = n.toBitVec.toNat % 65536 := rfl
  rw [IsPort, hint, BitVec.toInt_eq_toNat_cond] at h
  rw [hint, hport, BitVec.toInt_eq_toNat_cond]
  have hlt := n.toBitVec.isLt
  split at h <;> omega

/-- A port as the `int` that it is read into. -/
def portInt (port : UInt16) : Int32 := port.toUInt32.toInt32

theorem toInt_portInt (port : UInt16) : (portInt port).toInt = port.toNat := by
  have hint : (portInt port).toInt = port.toUInt32.toBitVec.toInt := rfl
  have hnat : port.toUInt32.toBitVec.toNat = port.toNat := by simp
  have hlt := port.toNat_lt
  rw [hint, BitVec.toInt_eq_toNat_cond]
  omega

theorem isPort_portInt {port : UInt16} (h : 1 ≤ port.toNat) : IsPort (portInt port) := by
  have hlt := port.toNat_lt
  rw [IsPort, toInt_portInt]
  omega

@[simp] theorem portInt_back (port : UInt16) : (portInt port).toUInt32.toUInt16 = port := by
  simp [portInt]

theorem getInteger_of_toInt {key : String} {x : Json F} {m : Int64} {n : Int32}
    (hx : x.integer = some m) (h : m.toInt = n.toInt) : getInteger key x = .ok n := by
  have hlow := n.le_toInt
  have hhigh := n.toInt_lt
  have hback : m.toInt32 = n := by
    rw [← Int32.toInt_inj, Int64.toInt_toInt32, h]
    rw [Int.bmod_eq_of_le] <;> omega
  simp only [getInteger, hx]
  rw [if_neg (by omega), hback]

@[simp] theorem getInteger_numberInteger (n : Int32) (key : String) :
    getInteger key (numberInteger n.toInt64 : Json F) = .ok n :=
  getInteger_of_toInt rfl n.toInt_toInt64

@[simp] theorem getInteger_port (key : String) (port : UInt16) :
    getInteger key (numberUnsigned port.toUInt64 : Json F) = .ok (portInt port) := by
  refine getInteger_of_toInt rfl ?_
  have hint : port.toUInt64.toInt64.toInt = port.toUInt64.toBitVec.toInt := rfl
  have hnat : port.toUInt64.toBitVec.toNat = port.toNat := by simp
  have hlt := port.toNat_lt
  rw [hint, toInt_portInt, BitVec.toInt_eq_toNat_cond]
  omega

/-! ## Sound configurations -/

namespace DriverConfig

def texts (c : DriverConfig F) : List (String × String) :=
  [("name", c.name), ("topic", c.topic), ("pointcloud_topic", c.pointcloudTopic),
    ("frame_id", c.frameId), ("safety_zones_topic", c.safetyZonesTopic),
    ("safety_zones_status_topic", c.safetyZonesStatusTopic),
    ("diagnostics_topic", c.diagnosticsTopic), ("http_host", c.httpHost)]

def flags (c : DriverConfig F) : List (String × Bool) :=
  [("safety_debug", c.safetyDebug), ("diagnostics_enabled", c.diagnosticsEnabled)]

def numbers (c : DriverConfig F) : List (String × Flt F) :=
  [("angle_offset_deg", c.angleOffsetDeg), ("safety_debug_period_s", c.safetyDebugPeriodS),
    ("diagnostics_period_s", c.diagnosticsPeriodS), ("no_data_timeout_s", c.noDataTimeoutS)]

def integers (c : DriverConfig F) : List (String × Int32) :=
  [("udp_reconnect_initial_ms", c.udpReconnectInitialMs),
    ("udp_reconnect_max_ms", c.udpReconnectMaxMs), ("http_port", portInt c.httpPort),
    ("http_timeout_ms", c.httpTimeoutMs)]

/-- The fields that only the mode of the configuration has. -/
def transportTexts (c : DriverConfig F) : List (String × String) :=
  match c.mode with
  | .udp => [("ip", c.ip)]
  | .pcap => [("pcap_path", c.pcapPath)]

def transportIntegers (c : DriverConfig F) : List (String × Int32) :=
  match c.mode with
  | .udp => [("port", portInt c.port)]
  | .pcap => []

end DriverConfig

section Sound

variable [Arith F]

structure Sound (c : DriverConfig F) : Prop where
  validated : Validated c
  otherDefault : c.OtherDefault
  httpPort : 1 ≤ c.httpPort.toNat
  port : c.mode = .udp → 1 ≤ c.port.toNat
  pcapPath : c.mode = .pcap → c.pcapPath ≠ ""

variable [IntCast F]

theorem sound_of_parse {v : Json F} {c : DriverConfig F} (h : parseDriverConfig v = .ok c) :
    Sound c := by
  obtain ⟨-, -, -, -, htyped, hcommon, hvalid, hother, hread⟩ := parseDriverConfig_ok_iff.1 h
  refine ⟨hvalid, hother, ?_, ?_, ?_⟩
  · have hport := congrArg DriverConfig.httpPort hcommon
    have hnat := toNat_of_isPort htyped.httpPort
    have hlow := htyped.httpPort.1
    simp only [DriverConfig.common, fieldsOf] at hport
    rw [hport]
    omega
  · intro hmode
    simp only [TransportRead, hmode] at hread
    obtain ⟨x, n, -, -, -, hrange, hport⟩ := hread
    have hnat := toNat_of_isPort hrange
    have hlow := hrange.1
    rw [hport]
    omega
  · intro hmode
    simp only [TransportRead, hmode] at hread
    exact hread.2

end Sound

/-! ## Values of a configuration -/

/-- The members are the fields: an integer in any type, and the fields of the other mode in any
way. -/
structure Represents (v : Json F) (c : DriverConfig F) : Prop where
  isObject : v.isObject = true
  known : ∀ key, (v.member key).isSome = true → key ∈ allowedFields
  mode : v.member "mode" = some (.string c.mode.toString)
  captureType : v.member "capture_type" = some (.string c.captureType.toString)
  text : ∀ field ∈ c.texts ++ c.transportTexts, v.member field.1 = some (.string field.2)
  flag : ∀ field ∈ c.flags, v.member field.1 = some (.boolean field.2)
  number : ∀ field ∈ c.numbers, v.member field.1 = some (.numberFloat field.2)
  integer : ∀ field ∈ c.integers ++ c.transportIntegers,
    ∃ x, v.member field.1 = some x ∧ ∀ key, getInteger key x = .ok field.2

theorem typed_of_member {α : Type} {get : Json F → Parsed α} {v x : Json F} {key : String} {a : α}
    (h : v.member key = some x) (hx : get x = .ok a) : Typed get v key := by
  intro y hy
  cases h.symm.trans hy
  exact ⟨a, hx⟩

theorem known_set {v : Json F} {key : String} {x : Json F}
    (hv : ∀ k, (v.member k).isSome = true → k ∈ allowedFields) (hkey : key ∈ allowedFields) :
    ∀ k, ((v.set key x).member k).isSome = true → k ∈ allowedFields := by
  intro k h
  rw [member_set] at h
  split at h
  · next heq => exact heq ▸ hkey
  · exact hv k h

/-! ## What is written -/

/-- Only allowed fields are written. -/
theorem known_driverConfigToJson (c : DriverConfig F) :
    ∀ key, ((driverConfigToJson c).member key).isSome = true → key ∈ allowedFields := by
  have hcommon : ∀ key ∈ ["mode", "capture_type", "name", "topic", "pointcloud_topic", "frame_id",
      "angle_offset_deg", "safety_debug", "safety_zones_topic", "safety_zones_status_topic",
      "safety_debug_period_s", "diagnostics_enabled", "diagnostics_topic", "diagnostics_period_s",
      "no_data_timeout_s", "udp_reconnect_initial_ms", "udp_reconnect_max_ms", "http_host",
      "http_port", "http_timeout_ms"], key ∈ allowedFields := by decide
  rw [driverConfigToJson]
  cases c.mode with
  | udp =>
    refine known_set (known_set ?_ (by decide)) (by decide)
    intro key h
    exact hcommon key (member_isSome_iff.1 h)
  | pcap =>
    refine known_set ?_ (by decide)
    intro key h
    exact hcommon key (member_isSome_iff.1 h)

theorem represents_toJson (c : DriverConfig F) : Represents (driverConfigToJson c) c := by
  refine ⟨?_, known_driverConfigToJson c, ?_, ?_, ?_, ?_, ?_, ?_⟩
  · rw [driverConfigToJson]
    cases c.mode with
    | udp => exact isObject_set _ _ _
    | pcap => exact isObject_set _ _ _
  · cases hmode : c.mode <;> simp [driverConfigToJson, hmode]
  · cases hmode : c.mode <;> simp [driverConfigToJson, hmode, List.lookup_cons]
  · cases hmode : c.mode <;>
      simp [DriverConfig.texts, DriverConfig.transportTexts, driverConfigToJson, hmode,
        List.lookup_cons]
  · cases hmode : c.mode <;>
      simp [DriverConfig.flags, driverConfigToJson, hmode, List.lookup_cons]
  · cases hmode : c.mode <;>
      simp [DriverConfig.numbers, driverConfigToJson, hmode, List.lookup_cons]
  · cases hmode : c.mode <;>
      simp [DriverConfig.integers, DriverConfig.transportIntegers, driverConfigToJson, hmode,
        List.lookup_cons]

/-! ## Parsing again -/

section Parse

variable [Arith F] [IntCast F] {v : Json F} {c : DriverConfig F}

theorem parse_of_represents (h : Represents v c) (hc : Sound c) : parseDriverConfig v = .ok c := by
  have htext := h.text
  have hflag := h.flag
  have hnumber := h.number
  have hinteger := h.integer
  simp only [List.forall_mem_append, DriverConfig.texts, DriverConfig.flags, DriverConfig.numbers,
    DriverConfig.integers, List.forall_mem_cons] at htext hflag hnumber hinteger
  obtain ⟨⟨hname, htopic, hpointcloud, hframe, hzones, hstatus, hdiagnostics, hhost, -⟩,
    htransportText⟩ := htext
  obtain ⟨hdebug, henabled, -⟩ := hflag
  obtain ⟨hangle, hperiod, hdiagnosticsPeriod, hnoData, -⟩ := hnumber
  obtain ⟨⟨⟨x₁, hinitial, hget₁⟩, ⟨x₂, hmax, hget₂⟩, ⟨x₃, hport, hget₃⟩, ⟨x₄, htimeout, hget₄⟩, -⟩,
    htransportInteger⟩ := hinteger
  refine parseDriverConfig_ok_iff.2 ⟨h.isObject, h.known, h.mode, h.captureType, ?_, ?_,
    hc.validated, hc.otherDefault, ?_⟩
  · refine ⟨?_, ?_, ?_, ?_, ⟨_, htopic⟩, ?_⟩
    · simp [textFields, typed_of_member hname (getString_string _),
        typed_of_member hpointcloud (getString_string _),
        typed_of_member hframe (getString_string _), typed_of_member hzones (getString_string _),
        typed_of_member hstatus (getString_string _),
        typed_of_member hdiagnostics (getString_string _),
        typed_of_member hhost (getString_string _)]
    · simp [flagFields, typed_of_member hdebug (getBoolean_boolean _),
        typed_of_member henabled (getBoolean_boolean _)]
    · simp [numberFields, typed_of_member hangle (getDouble_numberFloat _),
        typed_of_member hperiod (getDouble_numberFloat _),
        typed_of_member hdiagnosticsPeriod (getDouble_numberFloat _),
        typed_of_member hnoData (getDouble_numberFloat _)]
    · simp [integerFields, typed_of_member hinitial (hget₁ _), typed_of_member hmax (hget₂ _),
        typed_of_member hport (hget₃ _), typed_of_member htimeout (hget₄ _)]
    · rw [readOr_some hport (hget₃ _)]
      exact isPort_portInt hc.httpPort
  · simp only [fieldsOf, readOr_string hname, readOr_string htopic, readOr_string hpointcloud,
      readOr_string hframe, readOr_string hzones, readOr_string hstatus,
      readOr_string hdiagnostics, readOr_string hhost, readOr_boolean hdebug,
      readOr_boolean henabled, readOr_float hangle, readOr_float hperiod,
      readOr_float hdiagnosticsPeriod, readOr_float hnoData,
      readOr_some hinitial (hget₁ _), readOr_some hmax (hget₂ _), readOr_some hport (hget₃ _),
      readOr_some htimeout (hget₄ _), portInt_back]
    rfl
  · rw [TransportRead]
    cases hmode : c.mode with
    | udp =>
      simp only [DriverConfig.transportTexts, DriverConfig.transportIntegers, hmode,
        List.forall_mem_singleton] at htransportText htransportInteger
      obtain ⟨x, hx, hget⟩ := htransportInteger
      exact ⟨x, portInt c.port, htransportText, hx, hget _, isPort_portInt (hc.port hmode),
        (portInt_back c.port).symm⟩
    | pcap =>
      simp only [DriverConfig.transportTexts, hmode, List.forall_mem_singleton] at htransportText
      exact ⟨htransportText, hc.pcapPath hmode⟩

/-- What was parsed is written and parsed again without a change, and every key written is one that
is allowed. -/
theorem config_round_trip (h : parseDriverConfig v = .ok c) :
    parseDriverConfig (driverConfigToJson c) = .ok c ∧
      ∀ key ∈ (driverConfigToJson c).members.map Prod.fst, key ∈ allowedFields := by
  refine ⟨parse_of_represents (represents_toJson c) (sound_of_parse h), ?_⟩
  intro key hkey
  exact known_driverConfigToJson c key (member_isSome_iff.2 hkey)

end Parse

/-- The configuration of the tests, of which most fields are left out. -/
def udpJson : Json ℝ :=
  .object [("mode", .string "UDP"), ("capture_type", .string "FULL"), ("ip", .string "0.0.0.0"),
    ("port", .numberUnsigned 50007), ("topic", .string "scan")]

noncomputable def udpConfig : DriverConfig ℝ :=
  { DriverConfig.initial .udp .full with ip := "0.0.0.0", port := 50007, topic := "scan" }

theorem validated_udpConfig : Validated udpConfig where
  name := by decide
  topic := by decide
  frameId := by decide
  safetyZonesTopic := by decide
  safetyZonesStatusTopic := by decide
  httpHost := by decide
  diagnosticsTopic := by decide
  angleOffsetDeg := rfl
  safetyDebugPeriodS := by simp [udpConfig, DriverConfig.initial, Flt.isPositive]
  httpTimeoutMs := by decide
  diagnosticsPeriodS := by simp [udpConfig, DriverConfig.initial, Flt.isPositive]
  noDataTimeoutS := by simp [udpConfig, DriverConfig.initial, Flt.isPositive]
  udpReconnectInitialMs := by decide
  udpReconnectMaxMs := by decide

theorem parse_udpJson : parseDriverConfig udpJson = .ok udpConfig := by
  refine parseDriverConfig_ok_iff.2 ⟨rfl, ?_, rfl, rfl, ?_, ?_, validated_udpConfig, rfl, ?_⟩
  · have hallowed : ∀ key ∈ ["mode", "capture_type", "ip", "port", "topic"],
        key ∈ allowedFields := by decide
    intro key h
    exact hallowed key (member_isSome_iff.1 h)
  · refine ⟨?_, ?_, ?_, ?_, ⟨"scan", rfl⟩, ?_⟩
    · simp [textFields, Typed, udpJson, List.lookup_cons]
    · simp [flagFields, Typed, udpJson, List.lookup_cons]
    · simp [numberFields, Typed, udpJson, List.lookup_cons]
    · simp [integerFields, Typed, udpJson, List.lookup_cons]
    · exact ⟨by decide, by decide⟩
  · rfl
  · exact ⟨_, 50007, rfl, rfl, rfl, ⟨by decide, by decide⟩, rfl⟩

/-- Fields of every type, the numbers in all their forms. -/
def givenFields : List (String × Json ℝ) :=
  [("capture_type", .string "SINGLE"), ("topic", .string "scan"), ("name", .string "rear"),
    ("frame_id", .string "laser"), ("angle_offset_deg", .numberInteger (-45)),
    ("safety_debug", .boolean true), ("no_data_timeout_s", .numberUnsigned 3),
    ("diagnostics_period_s", .numberFloat (.fin 5)),
    ("udp_reconnect_initial_ms", .numberUnsigned 100),
    ("udp_reconnect_max_ms", .numberInteger 2000), ("http_port", .numberUnsigned 8080),
    ("http_timeout_ms", .numberInteger 1500)]

def givenJson : DriverMode → Json ℝ
  | .udp => .object ([("mode", .string "UDP"), ("ip", .string "192.168.0.3"),
      ("port", .numberInteger 50007)] ++ givenFields)
  | .pcap => .object ([("mode", .string "PCAP"), ("pcap_path", .string "/tmp/lidar.pcap")] ++
      givenFields)

noncomputable def givenConfig (mode : DriverMode) : DriverConfig ℝ :=
  { DriverConfig.initial mode .single with
    ip := match mode with | .udp => "192.168.0.3" | .pcap => ""
    port := match mode with | .udp => 50007 | .pcap => 0
    pcapPath := match mode with | .udp => "" | .pcap => "/tmp/lidar.pcap"
    topic := "scan"
    name := "rear"
    frameId := "laser"
    angleOffsetDeg := .fin ((-45 : Int) : ℝ)
    safetyDebug := true
    noDataTimeoutS := .fin ((3 : Nat) : ℝ)
    diagnosticsPeriodS := .fin 5
    udpReconnectInitialMs := 100
    udpReconnectMaxMs := 2000
    httpPort := 8080
    httpTimeoutMs := 1500 }

theorem validated_givenConfig (mode : DriverMode) : Validated (givenConfig mode) where
  name := by simp [givenConfig]
  topic := by simp [givenConfig]
  frameId := by simp [givenConfig]
  safetyZonesTopic := by simp [givenConfig, DriverConfig.initial]
  safetyZonesStatusTopic := by simp [givenConfig, DriverConfig.initial]
  httpHost := by simp [givenConfig, DriverConfig.initial]
  diagnosticsTopic := by simp [givenConfig, DriverConfig.initial]
  angleOffsetDeg := rfl
  safetyDebugPeriodS := by simp [givenConfig, DriverConfig.initial, Flt.isPositive]
  httpTimeoutMs := by cases mode <;> decide
  diagnosticsPeriodS := by simp [givenConfig, Flt.isPositive]
  noDataTimeoutS := by simp [givenConfig, Flt.isPositive]
  udpReconnectInitialMs := by cases mode <;> decide
  udpReconnectMaxMs := by cases mode <;> decide

theorem fieldsTyped_givenJson (mode : DriverMode) : FieldsTyped (givenJson mode) := by
  refine ⟨?_, ?_, ?_, ?_, ⟨"scan", ?_⟩, ?_⟩
  · cases mode <;> simp [textFields, Typed, givenJson, givenFields, List.lookup_cons]
  · cases mode <;> simp [flagFields, Typed, givenJson, givenFields, List.lookup_cons]
  · cases mode <;> simp [numberFields, Typed, givenJson, givenFields, List.lookup_cons, getDouble]
  · have hinteger : (∃ n, getInteger "udp_reconnect_initial_ms" (numberUnsigned 100 : Json ℝ) =
          .ok n) ∧
        (∃ n, getInteger "udp_reconnect_max_ms" (numberInteger 2000 : Json ℝ) = .ok n) ∧
        (∃ n, getInteger "http_port" (numberUnsigned 8080 : Json ℝ) = .ok n) ∧
        ∃ n, getInteger "http_timeout_ms" (numberInteger 1500 : Json ℝ) = .ok n :=
      ⟨⟨100, rfl⟩, ⟨2000, rfl⟩, ⟨8080, rfl⟩, ⟨1500, rfl⟩⟩
    cases mode <;>
      simpa [integerFields, Typed, givenJson, givenFields, List.lookup_cons] using hinteger
  · cases mode <;> rfl
  · cases mode <;> exact ⟨by decide, by decide⟩

theorem parse_givenJson (mode : DriverMode) :
    parseDriverConfig (givenJson mode) = .ok (givenConfig mode) := by
  have hallowed : ∀ key ∈ (givenJson mode).members.map Prod.fst, key ∈ allowedFields := by
    cases mode <;> decide
  refine parseDriverConfig_ok_iff.2 ⟨?_, ?_, ?_, ?_, fieldsTyped_givenJson mode, ?_,
    validated_givenConfig mode, ?_, ?_⟩
  · cases mode <;> rfl
  · exact fun key h => hallowed key (member_isSome_iff.1 h)
  · cases mode <;> rfl
  · cases mode <;> rfl
  · cases mode <;> rfl
  · cases mode with
    | udp => rfl
    | pcap => exact ⟨rfl, rfl⟩
  · cases mode with
    | udp => exact ⟨_, 50007, rfl, rfl, rfl, ⟨by decide, by decide⟩, rfl⟩
    | pcap => exact ⟨rfl, by decide⟩

/-- In both modes, with most fields left out and with most fields given. -/
theorem config_round_trip_both :
    (parseDriverConfig (driverConfigToJson udpConfig) = .ok udpConfig ∧
      ∀ key ∈ (driverConfigToJson udpConfig).members.map Prod.fst, key ∈ allowedFields) ∧
    parseDriverConfig (driverConfigToJson (givenConfig .pcap)) = .ok (givenConfig .pcap) ∧
      ∀ key ∈ (driverConfigToJson (givenConfig .pcap)).members.map Prod.fst,
        key ∈ allowedFields :=
  ⟨config_round_trip parse_udpJson, config_round_trip (parse_givenJson .pcap)⟩

end MechLidar
