import MechLidar.ConfigIntegers
import MechLidar.OptionOrder
import MechLidar.Overrides
import MechLidar.Recovery
import MechLidar.SafetyDebug

/-!
# MechLidar.Startup

From the command line to the driver: `main` (`dephan_node.cpp`), `load_driver_configuration`
(`driver_cli.cpp`), and `run_driver_runtime` up to the constructor (`driver_runtime.cpp`).

* `makeRuntimeOptions`: the options of the driver. `RuntimeOptions.Valid` is what they keep of the
  checks of the configuration.
* `Launch`: the arguments that a driver is constructed with. There are no invalid ones.
* `startup`: what `main` comes to
* `startup_dispatch`: which of the arguments decide what is done
* `startup_effective`: where every option of the driver comes from
-/

namespace MechLidar

open Lib Json

variable {F : Type}

/-! ## The options of the driver -/

/-- `DriverRuntimeOptions` -/
structure RuntimeOptions (F : Type) where
  pointcloudTopic : String
  frameId : String
  angleOffsetRad : Flt F
  safetyDebug : Bool
  httpHost : String
  httpPort : Int
  httpTimeoutMs : Int
  safetyZonesTopic : String
  safetyStatusTopic : String
  safetyDebugPeriodS : Flt F
  diagnosticsEnabled : Bool
  diagnosticsTopic : String
  diagnosticsPeriodS : Flt F
  noDataTimeoutS : Flt F
  udpReconnectInitialMs : Int
  udpReconnectMaxMs : Int
  transport : String

/-- A function of finite numbers that keeps the others. -/
def Flt.map (f : F → F) : Flt F → Flt F
  | .fin v => .fin (f v)
  | .inf => .inf
  | .nan => .nan

theorem Flt.isFinite_map (f : F → F) (x : Flt F) : (x.map f).isFinite = x.isFinite := by
  cases x <;> rfl

def Flt.finite (x : Flt F) (h : x.isFinite = true) : F :=
  match x, h with
  | .fin v, _ => v

section Options

variable [Arith F]

def makeRuntimeOptions (configuration : DriverConfig F) : RuntimeOptions F where
  pointcloudTopic := configuration.pointcloudTopic
  frameId := configuration.frameId
  angleOffsetRad := configuration.angleOffsetDeg.map radians
  safetyDebug := configuration.safetyDebug
  httpHost := configuration.httpHost
  httpPort := configuration.httpPort.toNat
  httpTimeoutMs := configuration.httpTimeoutMs.toInt
  safetyZonesTopic := configuration.safetyZonesTopic
  safetyStatusTopic := configuration.safetyZonesStatusTopic
  safetyDebugPeriodS := configuration.safetyDebugPeriodS
  diagnosticsEnabled := configuration.diagnosticsEnabled
  diagnosticsTopic := configuration.diagnosticsTopic
  diagnosticsPeriodS := configuration.diagnosticsPeriodS
  noDataTimeoutS := configuration.noDataTimeoutS
  udpReconnectInitialMs := configuration.udpReconnectInitialMs.toInt
  udpReconnectMaxMs := configuration.udpReconnectMaxMs.toInt
  transport := configuration.mode.toString

structure RuntimeOptions.Valid (o : RuntimeOptions F) : Prop where
  frameId : o.frameId ≠ ""
  angleOffsetRad : o.angleOffsetRad.isFinite = true
  httpHost : o.httpHost ≠ ""
  httpPort : 1 ≤ o.httpPort ∧ o.httpPort ≤ 65535
  httpTimeoutMs : 0 < o.httpTimeoutMs
  safetyZonesTopic : o.safetyZonesTopic ≠ ""
  safetyStatusTopic : o.safetyStatusTopic ≠ ""
  safetyDebugPeriodS : o.safetyDebugPeriodS.isPositive = true
  diagnosticsTopic : o.diagnosticsTopic ≠ ""
  diagnosticsPeriodS : o.diagnosticsPeriodS.isPositive = true
  noDataTimeoutS : o.noDataTimeoutS.isPositive = true
  udpReconnectInitialMs : 0 < o.udpReconnectInitialMs
  udpReconnectMaxMs : o.udpReconnectInitialMs ≤ o.udpReconnectMaxMs ∧ o.udpReconnectMaxMs < 2 ^ 31

theorem valid_makeRuntimeOptions {c : DriverConfig F} (h : Sound c) :
    (makeRuntimeOptions c).Valid where
  frameId := h.validated.frameId
  angleOffsetRad := (Flt.isFinite_map _ _).trans h.validated.angleOffsetDeg
  httpHost := h.validated.httpHost
  httpPort := by
    have hlow := h.httpPort
    have hhigh := c.httpPort.toNat_lt
    simp only [makeRuntimeOptions]
    omega
  httpTimeoutMs := h.validated.httpTimeoutMs
  safetyZonesTopic := h.validated.safetyZonesTopic
  safetyStatusTopic := h.validated.safetyZonesStatusTopic
  safetyDebugPeriodS := h.validated.safetyDebugPeriodS
  diagnosticsTopic := h.validated.diagnosticsTopic
  diagnosticsPeriodS := h.validated.diagnosticsPeriodS
  noDataTimeoutS := h.validated.noDataTimeoutS
  udpReconnectInitialMs := h.validated.udpReconnectInitialMs
  udpReconnectMaxMs := ⟨h.validated.udpReconnectMaxMs, Int32.toInt_lt _⟩

/-- The arguments of the constructor. UDP mode has the first two, PCAP mode the third one. -/
structure Launch (F : Type) [Arith F] where
  mode : DriverMode
  captureType : CaptureType
  ipAddr : String
  port : Nat
  pcapPath : String
  topic : String
  options : RuntimeOptions F
  valid : options.Valid
  topic_ne : topic ≠ ""
  port_pos : mode = .udp → 1 ≤ port ∧ port ≤ 65535
  pcapPath_ne : mode = .pcap → pcapPath ≠ ""

def launchOf (c : DriverConfig F) (h : Sound c) : Launch F where
  mode := c.mode
  captureType := c.captureType
  ipAddr := c.ip
  port := c.port.toNat
  pcapPath := c.pcapPath
  topic := c.topic
  options := makeRuntimeOptions c
  valid := valid_makeRuntimeOptions h
  topic_ne := h.validated.topic
  port_pos hmode := ⟨h.port hmode, Nat.le_of_lt_succ c.port.toNat_lt⟩
  pcapPath_ne := h.pcapPath

namespace Launch

/-- The options that the data stream uses. -/
def stream (l : Launch F) : DriverRuntimeOptions F where
  frameId := l.options.frameId
  angleOffsetRad := l.options.angleOffsetRad.finite l.valid.angleOffsetRad
  udpReconnectInitialMs := l.options.udpReconnectInitialMs
  udpReconnectMaxMs := l.options.udpReconnectMaxMs

theorem isFinite_of_isPositive {x : Flt F} (h : x.isPositive = true) : x.isFinite = true := by
  cases x with
  | fin => rfl
  | inf => cases h
  | nan => cases h

def safety (l : Launch F) : SafetyOptions F F where
  safetyDebug := l.options.safetyDebug
  safetyDebugPeriodS :=
    l.options.safetyDebugPeriodS.finite (isFinite_of_isPositive l.valid.safetyDebugPeriodS)
  frameId := l.options.frameId
  angleOffsetRad := l.options.angleOffsetRad.finite l.valid.angleOffsetRad
  httpHost := utf8 l.options.httpHost
  httpPort := l.options.httpPort
  httpTimeoutMs := l.options.httpTimeoutMs

/-- The options that `receive_udp_packet` waits by. -/
def backoff (l : Launch F) : Backoff :=
  ⟨l.stream.udpReconnectInitialMs, l.stream.udpReconnectMaxMs⟩

/-- The delays are those of the options: the bounds in front of them do nothing. -/
theorem backoff_exact (l : Launch F) :
    l.backoff.firstDelayMs = l.options.udpReconnectInitialMs ∧
      l.backoff.maxDelayMs = l.options.udpReconnectMaxMs := by
  have hinitial := l.valid.udpReconnectInitialMs
  have hmax := l.valid.udpReconnectMaxMs.1
  simp only [Backoff.firstDelayMs, Backoff.maxDelayMs, backoff, stream]
  omega

/-- The constructor of `HttpClient` does not fail in `publish_safety_debug`. -/
theorem httpClient_ok (l : Launch F) :
    httpClient l.safety.httpHost l.safety.httpPort l.safety.httpTimeoutMs =
      .ok ⟨utf8 l.options.httpHost, l.options.httpPort, l.options.httpTimeoutMs⟩ := by
  have hhost : ¬ l.safety.httpHost = [] := utf8_ne_nil l.valid.httpHost
  have hport : ¬ (l.safety.httpPort ≤ 0 ∨ 65535 < l.safety.httpPort) := by
    have hrange := l.valid.httpPort
    simp only [safety]
    omega
  have htimeout : ¬ l.safety.httpTimeoutMs ≤ 0 := not_le.2 l.valid.httpTimeoutMs
  rw [httpClient, if_neg hhost, if_neg hport, if_neg htimeout]
  rfl

end Launch

end Options

/-! ## `main` -/

/-- The exceptions that `main` catches. -/
inductive StartupError where
  | cli (e : CliError)
  | file (what : Bytes)
  | parse
  | config (e : ConfigException)
deriving DecidableEq, Repr

/-- The files and the ROS parameters; `json::parse`; and, for an HTTP command, the output file and
the other side. -/
structure StartupEnv (F : Type) extends CliEnv where
  parse : Bytes → Option (Json F)
  nh : NodeHandle F
  privateNh : NodeHandle F
  file : OutputFile
  peer : Peer

def DEFAULT_DRIVER_CONFIG : Bytes := bytes "./src/mech_lidar_driver/configs/default_udp_config.json"

/-- What is printed, and the JSON value. -/
def loadDriverConfiguration (env : StartupEnv F) (options : CliOptions) :
    List Bytes × Except StartupError (Json F) :=
  let path := if options.configProvided then options.configPath else DEFAULT_DRIVER_CONFIG
  let output := if options.configProvided then []
    else [bytes "Config was not provided; using default config\n"]
  (output,
    match env.readFile path with
    | none => .error (.file (bytes "Failed to open config file: " ++ path))
    | some input =>
      if input = [] then .error (.file (bytes "Config file is empty: " ++ path))
      else
        match env.parse input with
        | none => .error .parse
        | some v => .ok v)

section Main

variable [Arith F] [IntCast F]

/-- What `main` comes to, with what it has printed before that. -/
inductive Outcome (F : Type) [Arith F] where
  | helped
  | command (run : CommandRun)
  | failed (output : List Bytes) (e : StartupError)
  /-- The driver is constructed. -/
  | launched (output : List Bytes) (l : Launch F)

theorem sound_of_overrides {c c' : DriverConfig F} {nh privateNh : NodeHandle F}
    (h : applyParameterOverrides c nh privateNh = (.ok (), c')) : Sound c' := by
  rw [applyParameterOverrides] at h
  split at h
  · next hparse =>
    cases h
    obtain ⟨values, -, hvalues⟩ := bind_ok_iff.1 hparse
    exact sound_of_parse hvalues
  · cases h

/-- `run_driver_runtime` up to the constructor. -/
def runDriverRuntime (env : StartupEnv F) (output : List Bytes) (configuration : DriverConfig F) :
    Outcome F :=
  match h : applyParameterOverrides configuration env.nh env.privateNh with
  | (.error e, _) => .failed output (.config e)
  | (.ok (), configuration) => .launched output (launchOf configuration (sound_of_overrides h))

def runDriver (env : StartupEnv F) (options : CliOptions) : Outcome F :=
  match loadDriverConfiguration env options with
  | (output, .error e) => .failed output e
  | (output, .ok v) =>
    match parseDriverConfig v with
    | .error e => .failed output (.config e)
    | .ok configuration => runDriverRuntime env output configuration

def startup (env : StartupEnv F) (arguments : List Bytes) : Outcome F :=
  match parseCli env.toCliEnv arguments with
  | .error e => .failed [] (.cli e)
  | .ok options =>
    if options.help then .helped
    else if hasHttpCommand options then .command (runHttpCommand options env.file env.peer)
    else runDriver env options

end Main

/-! ## The arguments that decide -/

def OptionGroup.isHelp (g : OptionGroup) : Bool := flag g.argument = some .help

/-- The value of the last `--config`, and else `path`. -/
def configArgument (path : Option Bytes) (gs : List OptionGroup) : Option Bytes :=
  gs.foldl (fun path g => if flag g.argument = some .config then g.values.head? else path) path

def CliOptions.config (o : CliOptions) : Option Bytes :=
  if o.configProvided then some o.configPath else none

section Decide

variable {env : CliEnv} {o o' : CliOptions} {taken : Nat} {arguments : List Bytes}

/-- What one flag decides. -/
theorem parseFlag_decides {f : Flag} {argument : Bytes} {rest : List Bytes}
    (hf : flag argument = some f) (h : parseFlag env o f argument rest = .ok (o', taken)) :
    o'.help = (o.help || OptionGroup.isHelp ⟨argument, (cut taken rest).1⟩) ∧
      o'.config = configArgument o.config [⟨argument, (cut taken rest).1⟩] ∧
      hasHttpCommand o' =
        (hasHttpCommand o || OptionGroup.isCommand ⟨argument, (cut taken rest).1⟩) := by
  simp only [OptionGroup.isHelp, OptionGroup.isCommand, configArgument, List.foldl_cons,
    List.foldl_nil, hf]
  cases f with
  | config =>
    obtain ⟨value, more, rfl, hvalue, rfl⟩ := withValue_ok h
    cases hvalue
    simp [cut, CliOptions.config, hasHttpCommand, Flag.isCommand]
  | simple type path =>
    have htype := simpleCommands_select _ (selects_of_flag hf)
    cases parseFlag_step h
    simp [CliOptions.config, hasHttpCommand, Flag.isCommand, htype]
  | _ =>
    cases parseFlag_step h <;> simp [CliOptions.config, hasHttpCommand, Flag.isCommand]

/-- What the groups of a command line decide. -/
theorem parseArguments_decides (h : parseArguments env o taken arguments = .ok o') :
    o'.help = (o.help || (cut taken arguments).2.any OptionGroup.isHelp) ∧
      o'.config = configArgument o.config (cut taken arguments).2 ∧
      hasHttpCommand o' =
        (hasHttpCommand o || (cut taken arguments).2.any OptionGroup.isCommand) := by
  induction arguments generalizing o taken with
  | nil =>
    cases h
    simp [cut, configArgument]
  | cons argument rest ih =>
    cases taken with
    | succ taken => exact ih h
    | zero =>
      obtain ⟨rfl, rfl⟩ | ⟨hne, hros, hrest⟩ | ⟨hne, hros, f, o₁, taken, hf, hp, hrest⟩ :=
        parseArguments_cons_ok h
      · simp [cut, configArgument]
      · rw [cut, if_neg hne, if_pos hros]
        exact ih hrest
      · have hcount : valueCount argument rest = taken := by
          simp only [valueCount, hf, (parseFlag_taken hp).1]
        obtain ⟨hhelp, hconfig, hcommand⟩ := ih hrest
        obtain ⟨hhelp₁, hconfig₁, hcommand₁⟩ := parseFlag_decides hf hp
        rw [cut_option hne hros hcount, hhelp, hconfig, hcommand, hhelp₁, hconfig₁, hcommand₁]
        simp [configArgument, Bool.or_assoc]

end Decide

section Dispatch

variable [Arith F] [IntCast F]

/-- An accepted command line with `--help` prints the help, whatever else it has. Without it, a
command is run and no driver is started. Else the driver is started, and of the command line only
the last `--config` matters. -/
theorem startup_dispatch {env : StartupEnv F} {program : Bytes} {arguments : List Bytes}
    {options : CliOptions} (h : parseCli env.toCliEnv (program :: arguments) = .ok options) :
    startup env (program :: arguments) =
      if (groups arguments).any OptionGroup.isHelp then .helped
      else if (groups arguments).any OptionGroup.isCommand then
        .command (runHttpCommand options env.file env.peer)
      else
        let path := configArgument none (groups arguments)
        runDriver env { configPath := path.getD [], configProvided := path.isSome } := by
  obtain ⟨hhelp, hconfig, hcommand⟩ := parseArguments_decides (o := {}) h
  have hload : loadDriverConfiguration env options = loadDriverConfiguration env
      { configPath := options.config.getD [], configProvided := options.config.isSome } := by
    cases hprovided : options.configProvided with
    | false => simp [loadDriverConfiguration, CliOptions.config, hprovided]
    | true => simp [loadDriverConfiguration, CliOptions.config, hprovided]
  simp only [hasHttpCommand, Bool.false_or] at hhelp hcommand
  rw [startup, h]
  simp only [hhelp, groups, hasHttpCommand, hcommand, runDriver, hload, hconfig]
  rfl

/-- The default configuration can be read, and there are no parameters. -/
noncomputable def udpStart : StartupEnv ℝ where
  toCliEnv := { plainEnv with
    readFile := fun path => if path = DEFAULT_DRIVER_CONFIG then some [123] else none }
  parse _ := some udpJson
  nh := noParameters
  privateNh := noParameters
  file := .written
  peer := { recv := [] }

theorem startup_dispatch_help :
    startup udpStart [bytes "mech_driver", bytes "--get-status", bytes "--help"] = .helped := by
  have hparse : parseCli udpStart.toCliEnv
      (bytes "mech_driver" :: [bytes "--get-status", bytes "--help"]) =
        .ok { help := true, httpCommand := .get, httpPath := bytes "/status.json" } := by
    decide
  have hhelp : (groups [bytes "--get-status", bytes "--help"]).any OptionGroup.isHelp = true := by
    decide
  rw [startup_dispatch hparse, if_pos hhelp]

end Dispatch

/-! ## Where the options come from -/

section Effective

variable [Arith F] [IntCast F]

/-! Each is the private parameter, and else the member of the configuration file, or its default. -/

def stringOption (privateNh : NodeHandle F) (v : Json F) (parameter key d : String) : String :=
  (privateNh.string parameter).getD (readOr getString v key d)

def boolOption (privateNh : NodeHandle F) (v : Json F) (key : String) (d : Bool) : Bool :=
  (privateNh.bool key).getD (readOr getBoolean v key d)

def intOption (privateNh : NodeHandle F) (v : Json F) (key : String) (d : Int32) : Int32 :=
  (privateNh.int key).getD (readOr (getInteger key) v key d)

def doubleOption (privateNh : NodeHandle F) (v : Json F) (key : String) (d : F) : Flt F :=
  (privateNh.double key).getD (readOr getDouble v key (.fin d))

/-- The `frame_id` and the angle are public parameters, too, which stand behind the private ones.
The members of a transport count only in a file of that mode. -/
structure Effective (nh privateNh : NodeHandle F) (v : Json F) (l : Launch F) : Prop where
  mode : l.mode.toString = stringOption privateNh v "mode" "mode" ""
  captureType : l.captureType.toString = stringOption privateNh v "capture_type" "capture_type" ""
  ipAddr : l.mode = .udp → l.ipAddr = (privateNh.string "source_ip").getD
    (if readOr getString v "mode" "" = "UDP" then readOr getString v "ip" "" else "")
  port : l.mode = .udp → (l.port : Int) = ((privateNh.int "udp_port").getD
    (if readOr getString v "mode" "" = "UDP" then readOr (getInteger "port") v "port" 0
      else 0)).toInt
  pcapPath : l.mode = .pcap → l.pcapPath = (privateNh.string "pcap_path").getD
    (if readOr getString v "mode" "" = "PCAP" then readOr getString v "pcap_path" "" else "")
  topic : l.topic = stringOption privateNh v "scan_topic" "topic" ""
  pointcloudTopic : l.options.pointcloudTopic =
    stringOption privateNh v "pointcloud_topic" "pointcloud_topic" ""
  frameId : l.options.frameId = (privateNh.string "frame_id").getD
    ((nh.string "frame_id").getD (readOr getString v "frame_id" "base_link"))
  angleOffsetRad : l.options.angleOffsetRad = ((privateNh.double "angle_offset_deg").getD
    ((nh.double "angle_offset_deg").getD
      (readOr getDouble v "angle_offset_deg" (.fin ((90 : Nat) : F))))).map radians
  safetyDebug : l.options.safetyDebug = boolOption privateNh v "safety_debug" false
  safetyZonesTopic : l.options.safetyZonesTopic =
    stringOption privateNh v "safety_zones_topic" "safety_zones_topic" "safety_zones_markers"
  safetyStatusTopic : l.options.safetyStatusTopic = stringOption privateNh v
    "safety_zones_status_topic" "safety_zones_status_topic" "safety_zones_status"
  safetyDebugPeriodS : l.options.safetyDebugPeriodS =
    doubleOption privateNh v "safety_debug_period_s" ((1 : Nat) : F)
  httpHost : l.options.httpHost = stringOption privateNh v "http_host" "http_host" "192.168.0.120"
  httpPort : l.options.httpPort = (intOption privateNh v "http_port" 80).toInt
  httpTimeoutMs : l.options.httpTimeoutMs = (intOption privateNh v "http_timeout_ms" 3000).toInt
  diagnosticsEnabled : l.options.diagnosticsEnabled =
    boolOption privateNh v "diagnostics_enabled" true
  diagnosticsTopic : l.options.diagnosticsTopic =
    stringOption privateNh v "diagnostics_topic" "diagnostics_topic" "diagnostics"
  diagnosticsPeriodS : l.options.diagnosticsPeriodS =
    doubleOption privateNh v "diagnostics_period_s" ((1 : Nat) : F)
  noDataTimeoutS : l.options.noDataTimeoutS =
    doubleOption privateNh v "no_data_timeout_s" ((2 : Nat) : F)
  udpReconnectInitialMs : l.options.udpReconnectInitialMs =
    (intOption privateNh v "udp_reconnect_initial_ms" 250).toInt
  udpReconnectMaxMs : l.options.udpReconnectMaxMs =
    (intOption privateNh v "udp_reconnect_max_ms" 5000).toInt
  transport : l.options.transport = l.mode.toString

/-- The fields of the transport that is read. -/
theorem transport_of_parse {v : Json F} {c : DriverConfig F} (h : parseDriverConfig v = .ok c) :
    readOr getString v "mode" "" = c.mode.toString ∧
      c.ip = (if readOr getString v "mode" "" = "UDP" then readOr getString v "ip" "" else "") ∧
      portInt c.port = (if readOr getString v "mode" "" = "UDP" then
        readOr (getInteger "port") v "port" 0 else 0) ∧
      c.pcapPath = (if readOr getString v "mode" "" = "PCAP" then
        readOr getString v "pcap_path" "" else "") := by
  obtain ⟨-, -, hmode, -, -, -, -, hother, hread⟩ := parseDriverConfig_ok_iff.1 h
  rw [readOr_string hmode]
  rw [DriverConfig.OtherDefault] at hother
  rw [TransportRead] at hread
  cases htransport : c.mode with
  | udp =>
    simp only [htransport] at hother hread
    obtain ⟨x, n, hip, hx, hn, hrange, hport⟩ := hread
    simp [DriverMode.toString, readOr_string hip, readOr_some hx hn, hport, hother,
      portInt_of_isPort hrange]
  | pcap =>
    simp only [htransport] at hother hread
    simp [DriverMode.toString, readOr_string hread.1, hother.1, hother.2, portInt]

theorem effective_of_overlaid {v : Json F} {c c' : DriverConfig F} {nh privateNh : NodeHandle F}
    (hparse : parseDriverConfig v = .ok c) (h : Overlaid c nh privateNh c') (hsound : Sound c') :
    Effective nh privateNh v (launchOf c' hsound) := by
  obtain ⟨-, -, -, hcapture, htyped, hcommon, -, -, -⟩ := parseDriverConfig_ok_iff.1 hparse
  obtain ⟨hmode, hip, hport, hpath⟩ := transport_of_parse hparse
  have hrange := htyped.httpPort
  have hfields := hcommon
  simp only [DriverConfig.common, fieldsOf, DriverConfig.mk.injEq] at hfields
  obtain ⟨-, -, -, -, -, -, htopic, hpointcloud, hframe, hangle, hdebug, hzones, hstatus, hperiod,
    henabled, hdiagnostics, hdiagnosticsPeriod, hnoData, hinitial, hmax, hhost, hhttp,
    htimeout⟩ := hfields
  constructor
  case mode => exact h.mode.trans (by rw [stringOption, hmode])
  case captureType => exact h.captureType.trans (by rw [stringOption, readOr_string hcapture])
  case ipAddr => exact fun hudp => (h.ip hudp).trans (by rw [hip])
  case port =>
    intro hudp
    rw [← hport, ← h.port hudp]
    exact (toInt_portInt _).symm
  case pcapPath => exact fun hpcap => (h.pcapPath hpcap).trans (by rw [hpath])
  case httpPort =>
    have hfile : portInt c.httpPort = readOr (getInteger "http_port") v "http_port" 80 := by
      rw [hhttp, portInt_of_isPort hrange]
    rw [intOption, ← hfile, ← h.httpPort]
    exact (toInt_portInt _).symm
  case topic => exact h.topic.trans (by rw [htopic]; rfl)
  case pointcloudTopic => exact h.pointcloudTopic.trans (by rw [hpointcloud]; rfl)
  case frameId => exact h.frameId.trans (by rw [hframe]; rfl)
  case angleOffsetRad =>
    exact congrArg (Flt.map radians) (h.angleOffsetDeg.trans (by rw [hangle]; rfl))
  case safetyDebug => exact h.safetyDebug.trans (by rw [hdebug]; rfl)
  case safetyZonesTopic => exact h.safetyZonesTopic.trans (by rw [hzones]; rfl)
  case safetyStatusTopic => exact h.safetyZonesStatusTopic.trans (by rw [hstatus]; rfl)
  case safetyDebugPeriodS => exact h.safetyDebugPeriodS.trans (by rw [hperiod]; rfl)
  case httpHost => exact h.httpHost.trans (by rw [hhost]; rfl)
  case httpTimeoutMs =>
    exact congrArg Int32.toInt (h.httpTimeoutMs.trans (by rw [htimeout]; rfl))
  case diagnosticsEnabled => exact h.diagnosticsEnabled.trans (by rw [henabled]; rfl)
  case diagnosticsTopic => exact h.diagnosticsTopic.trans (by rw [hdiagnostics]; rfl)
  case diagnosticsPeriodS => exact h.diagnosticsPeriodS.trans (by rw [hdiagnosticsPeriod]; rfl)
  case noDataTimeoutS => exact h.noDataTimeoutS.trans (by rw [hnoData]; rfl)
  case udpReconnectInitialMs =>
    exact congrArg Int32.toInt (h.udpReconnectInitialMs.trans (by rw [hinitial]; rfl))
  case udpReconnectMaxMs =>
    exact congrArg Int32.toInt (h.udpReconnectMaxMs.trans (by rw [hmax]; rfl))
  case transport => rfl

theorem runDriverRuntime_launched {env : StartupEnv F} {output output' : List Bytes}
    {c : DriverConfig F} {l : Launch F}
    (h : runDriverRuntime env output c = .launched output' l) :
    ∃ c', ∃ hsound : Sound c', applyParameterOverrides c env.nh env.privateNh = (.ok (), c') ∧
      l = launchOf c' hsound := by
  rw [runDriverRuntime] at h
  split at h
  · cases h
  · next c' happly =>
    cases h
    exact ⟨c', _, happly, rfl⟩

theorem startup_launched {env : StartupEnv F} {arguments output : List Bytes} {l : Launch F}
    (h : startup env arguments = .launched output l) :
    ∃ options v c, parseCli env.toCliEnv arguments = .ok options ∧ options.help = false ∧
      hasHttpCommand options = false ∧ (loadDriverConfiguration env options).2 = .ok v ∧
      parseDriverConfig v = .ok c ∧ runDriverRuntime env output c = .launched output l := by
  rw [startup] at h
  split at h
  · cases h
  · next options hcli =>
    split at h
    · cases h
    · next hhelp =>
      split at h
      · cases h
      · next hcommand =>
        rw [runDriver] at h
        split at h
        · cases h
        · next output' v hload =>
          split at h
          · cases h
          · next c hparse =>
            obtain rfl : output' = output := by
              rw [runDriverRuntime] at h
              split at h
              · cases h
              · cases h
                rfl
            exact ⟨options, v, c, hcli, by simpa using hhelp, by simpa using hcommand,
              by rw [hload], hparse, h⟩

/-- A driver that is started has each option from where it is said to come from, all of them in
their bounds: the backoff waits as configured, and an `HttpClient` can be made of them. -/
theorem startup_effective {env : StartupEnv F} {arguments output : List Bytes} {l : Launch F}
    (h : startup env arguments = .launched output l) :
    (∃ options input v, parseCli env.toCliEnv arguments = .ok options ∧
      env.readFile (options.config.getD DEFAULT_DRIVER_CONFIG) = some input ∧
      env.parse input = some v ∧ Effective env.nh env.privateNh v l) ∧
    l.backoff.firstDelayMs = l.options.udpReconnectInitialMs ∧
    l.backoff.maxDelayMs = l.options.udpReconnectMaxMs ∧
    httpClient l.safety.httpHost l.safety.httpPort l.safety.httpTimeoutMs =
      .ok ⟨utf8 l.options.httpHost, l.options.httpPort, l.options.httpTimeoutMs⟩ := by
  refine ⟨?_, l.backoff_exact.1, l.backoff_exact.2, l.httpClient_ok⟩
  obtain ⟨options, v, c, hcli, -, -, hload, hparse, hruntime⟩ := startup_launched h
  obtain ⟨c', hsound, happly, rfl⟩ := runDriverRuntime_launched hruntime
  have hc := (sound_of_parse hparse).otherDefault
  have hover := ((applyParameterOverrides_ok_iff hc).1 happly).1
  obtain ⟨input, hread, hv⟩ : ∃ input, env.readFile
      (options.config.getD DEFAULT_DRIVER_CONFIG) = some input ∧ env.parse input = some v := by
    have hpath : options.config.getD DEFAULT_DRIVER_CONFIG =
        if options.configProvided then options.configPath else DEFAULT_DRIVER_CONFIG := by
      rw [CliOptions.config]
      split <;> rfl
    rw [hpath]
    simp only [loadDriverConfiguration] at hload
    split at hload
    · cases hload
    · next input hread =>
      split at hload
      · cases hload
      · split at hload
        · cases hload
        · next w hw =>
          cases hload
          exact ⟨input, hread, hw⟩
  exact ⟨options, input, v, hcli, hread, hv, effective_of_overlaid hparse hover hsound⟩

/-- Without an argument the driver is started with the default configuration and the parameters. -/
theorem startup_default {env : StartupEnv F} {input : Bytes} {v : Json F} {c c' : DriverConfig F}
    (hread : env.readFile DEFAULT_DRIVER_CONFIG = some input) (hinput : input ≠ [])
    (hv : env.parse input = some v) (hparse : parseDriverConfig v = .ok c)
    (happly : applyParameterOverrides c env.nh env.privateNh = (.ok (), c')) :
    ∃ output, ∃ hsound : Sound c',
      startup env [bytes "mech_driver"] = .launched output (launchOf c' hsound) := by
  have hcli : parseCli env.toCliEnv [bytes "mech_driver"] = .ok {} := rfl
  have hload : loadDriverConfiguration env {} =
      ([bytes "Config was not provided; using default config\n"], .ok v) := by
    simp [loadDriverConfiguration, hread, hinput, hv]
  refine ⟨[bytes "Config was not provided; using default config\n"],
    sound_of_overrides happly, ?_⟩
  rw [startup, hcli]
  simp only [hasHttpCommand, runDriver, hload, hparse, Bool.false_eq_true, if_false, ne_eq,
    not_true_eq_false, decide_false]
  rw [runDriverRuntime]
  split
  · next e happly' => rw [happly] at happly'; cases happly'
  · next d happly' =>
    obtain rfl : c' = d := congrArg Prod.snd (happly.symm.trans happly')
    rfl

/-- The default configuration is one for a capture file, and the parameters change the mode. -/
noncomputable def switchStart : StartupEnv ℝ :=
  { udpStart with
    parse := fun _ => some (givenJson .pcap)
    nh := publicParameters
    privateNh := switchParameters }

theorem startup_switched : ∃ output, startup switchStart [bytes "mech_driver"] =
    .launched output (launchOf switchedConfig sound_switchedConfig) := by
  have hc := (sound_of_parse (parse_givenJson .pcap)).otherDefault
  have hread : switchStart.readFile DEFAULT_DRIVER_CONFIG = some [123] := by
    simp [switchStart, udpStart]
  obtain ⟨output, _, hstart⟩ := startup_default hread (by simp) rfl (parse_givenJson .pcap)
    ((applyParameterOverrides_ok_iff hc).2 ⟨overlaid_switchedConfig, sound_switchedConfig⟩)
  exact ⟨output, hstart⟩

theorem startup_effective_switched : ∃ output l,
    startup switchStart [bytes "mech_driver"] = .launched output l ∧
      Effective publicParameters switchParameters (givenJson .pcap) l ∧
      l.mode = .udp ∧ l.topic = "front" ∧ l.options.frameId = "base_laser" ∧
      l.options.httpPort = 8081 ∧ l.backoff.firstDelayMs = 100 ∧ l.backoff.maxDelayMs = 2000 := by
  obtain ⟨output, hstart⟩ := startup_switched
  obtain ⟨⟨options, input, v, -, -, hv, heffective⟩, hfirst, hmax, -⟩ := startup_effective hstart
  obtain rfl : givenJson .pcap = v := Option.some.inj hv
  exact ⟨output, _, hstart, heffective, rfl, rfl, rfl, rfl, hfirst, hmax⟩

end Effective

end MechLidar
