import MechLidar.Http
import MechLidar.Lib.Result

/-!
# MechLidar.Cli

The command line (`driver_cli.cpp`): `parse_cli` and `run_http_command`.

* `Flag`, `flag`: the branch of `parse_cli` that an argument selects
* `parseFlag`: what the branch does with the arguments behind it; it returns how many of them it
  has taken (`++i`)
* `parseCli`: the loop over the arguments
* `runHttpCommand`: what is sent, written and returned for the selected command
-/

namespace MechLidar

open Lib

inductive HttpCommandType where
  | none
  | get
  | post
  | setConfig
  | download
  | stream
deriving DecidableEq, Repr

structure CliOptions where
  configPath : Bytes := []
  configProvided : Bool := false
  help : Bool := false
  httpHost : Bytes := bytes "192.168.0.120"
  httpPort : Int := 80
  httpTimeoutMs : Int := 3000
  httpCommand : HttpCommandType := .none
  httpPath : Bytes := []
  httpBody : Bytes := []
  outputPath : Bytes := []
  configName : Bytes := []
  configValue : Bytes := []
deriving DecidableEq, Repr

/-- What `parse_cli` throws. -/
inductive CliError where
  | runtimeError (what : Bytes)
  | invalidArgument (what : Bytes)
  | outOfRange (what : Bytes)
  | jsonError
deriving DecidableEq, Repr

/-- The files that can be read, and the JSON text of a string, none where `dump` throws. -/
structure CliEnv where
  readFile : Bytes → Option Bytes
  dumpString : Bytes → Option Bytes

def SIMPLE_COMMANDS : List (Bytes × HttpCommandType × Bytes) :=
  [(bytes "--get-config", .get, bytes "/config.json"),
   (bytes "--get-status", .get, bytes "/status.json"),
   (bytes "--get-features", .get, bytes "/features.json"),
   (bytes "--get-version", .get, bytes "/version.txt"),
   (bytes "--get-version-string", .get, bytes "/version_string.txt"),
   (bytes "--get-log", .get, bytes "/log.txt"),
   (bytes "--get-timestamp", .get, bytes "/timestamp.txt"),
   (bytes "--log-events", .stream, bytes "/log_events"),
   (bytes "--get-contamination-status", .get, bytes "/contamination/status.json"),
   (bytes "--contamination-events", .stream, bytes "/contamination_events"),
   (bytes "--get-zones", .get, bytes "/zones.json"),
   (bytes "--get-zone-settings", .get, bytes "/zones/settings.json"),
   (bytes "--get-zone-status", .get, bytes "/zones/status.json"),
   (bytes "--save-zones", .post, bytes "/zones/save"),
   (bytes "--safety-events", .stream, bytes "/safety_events"),
   (bytes "--save-preset", .post, bytes "/save_preset.cgi"),
   (bytes "--jump-to-bootloader", .post, bytes "/jump_to_bootloader.cgi")]

/-- `paths` of the commands that post a body from the command line. -/
def BODY_PATHS : List (Bytes × Bytes) :=
  [(bytes "--set-zones", bytes "/zones.json"),
   (bytes "--add-zone", bytes "/zones/add.json"),
   (bytes "--set-zone-settings", bytes "/zones/settings.json"),
   (bytes "--set-config-json", bytes "/config.json")]

def rosArgs : Bytes := bytes "--ros-args"

def isRosArgument (value : Bytes) : Bool :=
  find (bytes ":=") value ≠ none || find (bytes "__") value = some 0

/-! ## Arguments -/

/-- `std::stoi`, with the number of characters it has used. -/
def stoi (value : Bytes) : Except CliError (Int × Nat) :=
  let (v, rest) := scanInteger (value.dropWhile isspace)
  match v with
  | none => .error (.invalidArgument (bytes "stoi"))
  | some v =>
    if v < INT_MIN ∨ INT_MAX < v then .error (.outOfRange (bytes "stoi"))
    else .ok (v, value.length - rest.length)

def parseInteger (option value : Bytes) : Except CliError Int :=
  match stoi value with
  | .error e => .error e
  | .ok (result, parsed) =>
    if parsed ≠ value.length then
      .error (.runtimeError (bytes "Invalid integer for " ++ option ++ bytes ": " ++ value))
    else .ok result

def missingValue (option : Bytes) : CliError :=
  .runtimeError (bytes "Missing value for " ++ option)

def hasHttpCommand (options : CliOptions) : Bool := options.httpCommand ≠ .none

/-- Begins with `ensure_no_http_command`. -/
def selectHttpCommand (options : CliOptions) (type : HttpCommandType) (path : Bytes) :
    Except CliError CliOptions :=
  if hasHttpCommand options then
    .error (.runtimeError (bytes "Only one HTTP command can be used at a time"))
  else .ok { options with httpCommand := type, httpPath := path }

def readFile (env : CliEnv) (path : Bytes) : Except CliError Bytes :=
  match env.readFile path with
  | none => .error (.runtimeError (bytes "Failed to open file: " ++ path))
  | some data => .ok data

def readBodyArgument (env : CliEnv) (value : Bytes) : Except CliError Bytes :=
  match value with
  | 64 :: path =>
    if path = [] then .error (.runtimeError (bytes "Missing file path after @"))
    else readFile env path
  | _ => .ok value

def zoneNameBody (env : CliEnv) (key name : Bytes) : Except CliError Bytes :=
  match env.dumpString name with
  | none => .error .jsonError
  | some text => .ok (bytes "\x7b\"" ++ key ++ bytes "\":" ++ text ++ bytes "\x7d")

/-! ## The parser -/

inductive Flag where
  | help
  | config
  | httpHost
  | httpPort
  | httpTimeoutMs
  | simple (type : HttpCommandType) (path : Bytes)
  | body (path : Bytes)
  | deleteZone
  | resetZones
  | getZonesLut
  | setConfig
deriving DecidableEq, Repr

def flag (argument : Bytes) : Option Flag :=
  if argument = bytes "-h" ∨ argument = bytes "--help" then some .help
  else if argument = bytes "-c" ∨ argument = bytes "--config" then some .config
  else if argument = bytes "--http-host" ∨ argument = bytes "--lidar-ip" then some .httpHost
  else if argument = bytes "--http-port" then some .httpPort
  else if argument = bytes "--http-timeout-ms" then some .httpTimeoutMs
  else
    match SIMPLE_COMMANDS.lookup argument with
    | some (type, path) => some (.simple type path)
    | none =>
      match BODY_PATHS.lookup argument with
      | some path => some (.body path)
      | none =>
        if argument = bytes "--delete-zone" then some .deleteZone
        else if argument = bytes "--reset-zones" then some .resetZones
        else if argument = bytes "--get-zones-lut" then some .getZonesLut
        else if argument = bytes "--set-config" then some .setConfig
        else none

/-- A branch for one value: `require_value(arguments, i, argument); … arguments[++i] …`. -/
def withValue (argument : Bytes) (rest : List Bytes) (f : Bytes → Except CliError CliOptions) :
    Except CliError (CliOptions × Nat) :=
  match rest with
  | [] => .error (missingValue argument)
  | value :: _ => (f value).map (·, 1)

def parseFlag (env : CliEnv) (options : CliOptions) (flag : Flag) (argument : Bytes)
    (rest : List Bytes) : Except CliError (CliOptions × Nat) :=
  match flag with
  | .help => .ok ({ options with help := true }, 0)
  | .config => withValue argument rest fun value =>
      .ok { options with configPath := value, configProvided := true }
  | .httpHost => withValue argument rest fun value => .ok { options with httpHost := value }
  | .httpPort => withValue argument rest fun value => do
      let port ← parseInteger argument value
      if port < 1 ∨ 65535 < port then
        .error (.runtimeError (bytes "--http-port must be in range 1..65535"))
      else .ok { options with httpPort := port }
  | .httpTimeoutMs => withValue argument rest fun value => do
      let timeoutMs ← parseInteger argument value
      if timeoutMs ≤ 0 then .error (.runtimeError (bytes "--http-timeout-ms must be positive"))
      else .ok { options with httpTimeoutMs := timeoutMs }
  | .simple type path => (selectHttpCommand options type path).map (·, 0)
  | .body path => withValue argument rest fun value => do
      let options ← selectHttpCommand options .post path
      let body ← readBodyArgument env value
      .ok { options with httpBody := body }
  | .deleteZone => withValue argument rest fun value => do
      let options ← selectHttpCommand options .post (bytes "/zones/delete.json")
      let body ← zoneNameBody env (bytes "name") value
      .ok { options with httpBody := body }
  | .resetZones => do
      let options ← selectHttpCommand options .post (bytes "/zones/reset")
      match rest with
      | [] => .ok (options, 0)
      | next :: _ =>
        if next.head? = some 45 then .ok (options, 0)
        else
          let body ← zoneNameBody env (bytes "zone_name") next
          .ok ({ options with httpBody := body }, 1)
  | .getZonesLut => withValue argument rest fun value => do
      let options ← selectHttpCommand options .download (bytes "/zones/lut.bin")
      .ok { options with outputPath := value }
  | .setConfig =>
    match rest with
    | name :: value :: _ => do
      let options ← selectHttpCommand options .setConfig []
      if name = [] ∨ 47 ∈ name then
        .error (.runtimeError (bytes "Invalid config parameter name"))
      else .ok ({ options with configName := name, configValue := value }, 2)
    | _ => .error (missingValue argument)

/-- The arguments that select a branch. -/
def Selects (argument : Bytes) : Flag → Prop
  | .help => argument = bytes "-h" ∨ argument = bytes "--help"
  | .config => argument = bytes "-c" ∨ argument = bytes "--config"
  | .httpHost => argument = bytes "--http-host" ∨ argument = bytes "--lidar-ip"
  | .httpPort => argument = bytes "--http-port"
  | .httpTimeoutMs => argument = bytes "--http-timeout-ms"
  | .simple type path => (argument, type, path) ∈ SIMPLE_COMMANDS
  | .body path => (argument, path) ∈ BODY_PATHS
  | .deleteZone => argument = bytes "--delete-zone"
  | .resetZones => argument = bytes "--reset-zones"
  | .getZonesLut => argument = bytes "--get-zones-lut"
  | .setConfig => argument = bytes "--set-config"

theorem mem_of_lookup {α : Type} {table : List (Bytes × α)} {key : Bytes} {value : α}
    (h : table.lookup key = some value) : (key, value) ∈ table := by
  obtain ⟨l₁, l₂, rfl, -⟩ := List.lookup_eq_some_iff.1 h
  simp

theorem selects_of_flag {argument : Bytes} {f : Flag} (h : flag argument = some f) :
    Selects argument f := by
  rw [flag] at h
  iterate 5
    split at h
    · next harg =>
      cases h
      exact harg
  split at h
  · next hlookup =>
    cases h
    exact mem_of_lookup hlookup
  · split at h
    · next hlookup =>
      cases h
      exact mem_of_lookup hlookup
    · iterate 4
        split at h
        · next harg =>
          cases h
          exact harg
      cases h

/-- What the branches can do to the options. -/
inductive FlagStep (o : CliOptions) : Flag → CliOptions → Prop where
  | help : FlagStep o .help { o with help := true }
  | config (value) : FlagStep o .config { o with configPath := value, configProvided := true }
  | httpHost (value) : FlagStep o .httpHost { o with httpHost := value }
  | httpPort {port} : 1 ≤ port → port ≤ 65535 → FlagStep o .httpPort { o with httpPort := port }
  | httpTimeoutMs {timeoutMs} : 0 < timeoutMs →
      FlagStep o .httpTimeoutMs { o with httpTimeoutMs := timeoutMs }
  | simple (type path) : o.httpCommand = .none →
      FlagStep o (.simple type path) { o with httpCommand := type, httpPath := path }
  | body (path body) : o.httpCommand = .none →
      FlagStep o (.body path) { o with httpCommand := .post, httpPath := path, httpBody := body }
  | deleteZone (body) : o.httpCommand = .none → FlagStep o .deleteZone
      { o with httpCommand := .post, httpPath := bytes "/zones/delete.json", httpBody := body }
  | resetZones : o.httpCommand = .none → FlagStep o .resetZones
      { o with httpCommand := .post, httpPath := bytes "/zones/reset" }
  | resetZone {body} : o.httpCommand = .none → body ≠ [] → FlagStep o .resetZones
      { o with httpCommand := .post, httpPath := bytes "/zones/reset", httpBody := body }
  | getZonesLut (value) : o.httpCommand = .none → FlagStep o .getZonesLut
      { o with httpCommand := .download, httpPath := bytes "/zones/lut.bin", outputPath := value }
  | setConfig {name} (value) : o.httpCommand = .none → name ≠ [] → 47 ∉ name →
      FlagStep o .setConfig { o with httpCommand := .setConfig, httpPath := []
                                     configName := name, configValue := value }

theorem selectHttpCommand_ok {o o' : CliOptions} {type : HttpCommandType} {path : Bytes}
    (h : selectHttpCommand o type path = .ok o') :
    o.httpCommand = .none ∧ o' = { o with httpCommand := type, httpPath := path } := by
  obtain ⟨hnone, heq⟩ := ite_error_ok_iff.1 h
  cases heq
  exact ⟨by simpa [hasHttpCommand] using hnone, rfl⟩

theorem selectHttpCommand_free {o : CliOptions} (h : o.httpCommand = .none)
    (type : HttpCommandType) (path : Bytes) :
    selectHttpCommand o type path = .ok { o with httpCommand := type, httpPath := path } := by
  simp [selectHttpCommand, hasHttpCommand, h]

/-- A branch that selects a command first. -/
theorem selectHttpCommand_bind_ok_iff {α : Type} {o : CliOptions} {type : HttpCommandType}
    {path : Bytes} {g : CliOptions → Except CliError α} {a : α} :
    selectHttpCommand o type path >>= g = .ok a ↔
      o.httpCommand = .none ∧ g { o with httpCommand := type, httpPath := path } = .ok a := by
  rw [bind_ok_iff]
  constructor
  · intro ⟨o', hselect, h⟩
    obtain ⟨hnone, rfl⟩ := selectHttpCommand_ok hselect
    exact ⟨hnone, h⟩
  · intro ⟨hnone, h⟩
    exact ⟨_, selectHttpCommand_free hnone type path, h⟩

theorem zoneNameBody_ne {env : CliEnv} {key name body : Bytes}
    (h : zoneNameBody env key name = .ok body) : body ≠ [] := by
  rw [zoneNameBody] at h
  cases hdump : env.dumpString name with
  | none =>
    rw [hdump] at h
    cases h
  | some text =>
    rw [hdump] at h
    cases h
    exact List.append_ne_nil_of_right_ne_nil _ (by decide)

theorem withValue_ok {argument : Bytes} {rest : List Bytes} {o : CliOptions} {taken : Nat}
    {f : Bytes → Except CliError CliOptions} (h : withValue argument rest f = .ok (o, taken)) :
    ∃ value more, rest = value :: more ∧ f value = .ok o ∧ taken = 1 := by
  cases rest with
  | nil => cases h
  | cons value more =>
    obtain ⟨_, hf, heq⟩ := map_ok_iff.1 h
    cases heq
    exact ⟨value, more, rfl, hf, rfl⟩

/-- Behind `--reset-zones` stands the name of a zone, or an option, or nothing. -/
theorem parseFlag_resetZones_iff {env : CliEnv} {o o' : CliOptions} {argument : Bytes}
    {rest : List Bytes} {taken : Nat} :
    parseFlag env o .resetZones argument rest = .ok (o', taken) ↔ o.httpCommand = .none ∧
      (((∀ next ∈ rest.head?, next.head? = some 45) ∧ taken = 0 ∧
          o' = { o with httpCommand := .post, httpPath := bytes "/zones/reset" }) ∨
        ∃ next ∈ rest.head?, next.head? ≠ some 45 ∧ taken = 1 ∧ ∃ body,
          zoneNameBody env (bytes "zone_name") next = .ok body ∧
          o' = { o with httpCommand := .post, httpPath := bytes "/zones/reset"
                        httpBody := body }) := by
  refine selectHttpCommand_bind_ok_iff.trans (and_congr_right fun _ => ?_)
  cases rest with
  | nil => simp [eq_comm, and_comm]
  | cons next rest =>
    by_cases hdash : next.head? = some 45
    · simp [hdash, eq_comm, and_comm]
    · simp only [if_neg hdash, bind_ok_iff]
      constructor
      · rintro ⟨body, hbody, h⟩
        cases h
        exact .inr ⟨next, rfl, hdash, rfl, body, hbody, rfl⟩
      · rintro (⟨hnext, -⟩ | ⟨next', hnext, -, rfl, body, hbody, rfl⟩)
        · exact absurd (hnext next rfl) hdash
        · cases hnext
          exact ⟨body, hbody, rfl⟩

theorem parseFlag_step {env : CliEnv} {o o' : CliOptions} {f : Flag} {argument : Bytes}
    {rest : List Bytes} {taken : Nat} (h : parseFlag env o f argument rest = .ok (o', taken)) :
    FlagStep o f o' := by
  cases f with
  | help =>
    cases h
    exact .help
  | config =>
    obtain ⟨value, _, _, h, _⟩ := withValue_ok h
    cases h
    exact .config value
  | httpHost =>
    obtain ⟨value, _, _, h, _⟩ := withValue_ok h
    cases h
    exact .httpHost value
  | httpPort =>
    obtain ⟨value, _, _, h, _⟩ := withValue_ok h
    obtain ⟨port, _, h⟩ := bind_ok_iff.1 h
    obtain ⟨hrange, h⟩ := ite_error_ok_iff.1 h
    cases h
    exact .httpPort (by omega) (by omega)
  | httpTimeoutMs =>
    obtain ⟨value, _, _, h, _⟩ := withValue_ok h
    obtain ⟨timeoutMs, _, h⟩ := bind_ok_iff.1 h
    obtain ⟨hrange, h⟩ := ite_error_ok_iff.1 h
    cases h
    exact .httpTimeoutMs (by omega)
  | simple type path =>
    obtain ⟨_, hselect, h⟩ := map_ok_iff.1 h
    obtain ⟨hnone, rfl⟩ := selectHttpCommand_ok hselect
    cases h
    exact .simple type path hnone
  | body path =>
    obtain ⟨value, _, _, h, _⟩ := withValue_ok h
    obtain ⟨hnone, h⟩ := selectHttpCommand_bind_ok_iff.1 h
    obtain ⟨body, _, h⟩ := bind_ok_iff.1 h
    cases h
    exact .body path body hnone
  | deleteZone =>
    obtain ⟨value, _, _, h, _⟩ := withValue_ok h
    obtain ⟨hnone, h⟩ := selectHttpCommand_bind_ok_iff.1 h
    obtain ⟨body, _, h⟩ := bind_ok_iff.1 h
    cases h
    exact .deleteZone body hnone
  | resetZones =>
    obtain ⟨hnone, ⟨-, -, rfl⟩ | ⟨next, -, -, -, body, hbody, rfl⟩⟩ :=
      parseFlag_resetZones_iff.1 h
    · exact .resetZones hnone
    · exact .resetZone hnone (zoneNameBody_ne hbody)
  | getZonesLut =>
    obtain ⟨value, _, _, h, _⟩ := withValue_ok h
    obtain ⟨hnone, h⟩ := selectHttpCommand_bind_ok_iff.1 h
    cases h
    exact .getZonesLut value hnone
  | setConfig =>
    match rest, h with
    | name :: value :: rest, h =>
      obtain ⟨hnone, h⟩ := selectHttpCommand_bind_ok_iff.1 h
      obtain ⟨hname, h⟩ := ite_error_ok_iff.1 h
      cases h
      exact .setConfig value hnone (fun h => hname (.inl h)) fun h => hname (.inr h)

/-- The loop of `parse_cli`; `taken` arguments at the front are values of the last option. -/
def parseArguments (env : CliEnv) (options : CliOptions) (taken : Nat) :
    List Bytes → Except CliError CliOptions
  | [] => .ok options
  | argument :: rest =>
    match taken with
    | taken + 1 => parseArguments env options taken rest
    | 0 =>
      if argument = rosArgs then .ok options
      else if isRosArgument argument then parseArguments env options 0 rest
      else
        match flag argument with
        | none => .error (.runtimeError (bytes "Bad command line flag: " ++ argument))
        | some flag =>
          match parseFlag env options flag argument rest with
          | .error e => .error e
          | .ok (options, taken) => parseArguments env options taken rest

/-- One turn of the loop that does not fail. -/
theorem parseArguments_cons_ok {env : CliEnv} {o o' : CliOptions} {argument : Bytes}
    {rest : List Bytes} (h : parseArguments env o 0 (argument :: rest) = .ok o') :
    (argument = rosArgs ∧ o' = o) ∨
    (argument ≠ rosArgs ∧ isRosArgument argument = true ∧ parseArguments env o 0 rest = .ok o') ∨
    (argument ≠ rosArgs ∧ isRosArgument argument = false ∧ ∃ f o₁ taken,
      flag argument = some f ∧ parseFlag env o f argument rest = .ok (o₁, taken) ∧
        parseArguments env o₁ taken rest = .ok o') := by
  simp only [parseArguments] at h
  split at h
  · next hstop =>
    cases h
    exact .inl ⟨hstop, rfl⟩
  · next hne =>
    split at h
    · next hros => exact .inr (.inl ⟨hne, hros, h⟩)
    · next hros =>
      refine .inr (.inr ⟨hne, by simpa using hros, ?_⟩)
      cases hf : flag argument with
      | none =>
        rw [hf] at h
        cases h
      | some f =>
        simp only [hf] at h
        cases hp : parseFlag env o f argument rest with
        | error e =>
          rw [hp] at h
          cases h
        | ok r =>
          rw [hp] at h
          exact ⟨f, r.1, r.2, rfl, hp, h⟩

/-- What every branch keeps, the parser keeps. -/
theorem parseArguments_keeps {env : CliEnv} {P : CliOptions → Prop}
    (hstep : ∀ {argument f o o'}, flag argument = some f → P o → FlagStep o f o' → P o')
    {o o' : CliOptions} {taken : Nat} {arguments : List Bytes}
    (h : parseArguments env o taken arguments = .ok o') (ho : P o) : P o' := by
  induction arguments generalizing o taken with
  | nil =>
    cases h
    exact ho
  | cons argument rest ih =>
    cases taken with
    | succ taken => exact ih h ho
    | zero =>
      obtain ⟨_, rfl⟩ | ⟨_, _, hrest⟩ | ⟨_, _, f, o₁, taken, hf, hp, hrest⟩ :=
        parseArguments_cons_ok h
      · exact ho
      · exact ih hrest ho
      · exact ih hrest (hstep hf ho (parseFlag_step hp))

/-- `parse_cli`. The first argument is the name of the program. -/
def parseCli (env : CliEnv) (arguments : List Bytes) : Except CliError CliOptions :=
  parseArguments env {} 0 arguments.tail

/-- No file can be read, and a string is dumped as it is for plain text. -/
def plainEnv : CliEnv where
  readFile _ := none
  dumpString text := some (bytes "\"" ++ text ++ bytes "\"")

example : parseCli plainEnv [bytes "mech_driver", bytes "--lidar-ip",
    bytes "192.168.0.42", bytes "--http-port", bytes "8080", bytes "--get-contamination-status"] =
    .ok { httpHost := bytes "192.168.0.42", httpPort := 8080, httpCommand := .get
          httpPath := bytes "/contamination/status.json" } := by decide

/-! ## Running a command -/

inductive OutputFile where
  | written
  | notOpened
  | notWritten
deriving DecidableEq, Repr

def writeBinaryFile (file : OutputFile) (path : Bytes) : Except HttpError Unit :=
  match file with
  | .written => .ok ()
  | .notOpened => .error (.runtimeError (bytes "Failed to open output file: " ++ path))
  | .notWritten => .error (.runtimeError (bytes "Failed to write output file: " ++ path))

/-- What goes to the other side and to the output stream, and the exit code. -/
structure CommandRun where
  sent : Bytes
  output : List Bytes
  exitCode : Except HttpError Int
deriving Repr

def responseOk (response : HttpResponse) : Bool :=
  200 ≤ response.statusCode && response.statusCode < 300

def exitCode (response : HttpResponse) : Int := if responseOk response then 0 else 1

def printResponseBody (body : Bytes) : List Bytes :=
  if body = [] then []
  else if body.getLast? ≠ some 10 then [body, bytes "\n"]
  else [body]

/-- Behind the `switch`: the response is printed, and a download is saved. -/
def printResponse (options : CliOptions) (file : OutputFile) (sent : Bytes) :
    Except HttpError HttpResponse → CommandRun
  | .error e => ⟨sent, [], .error e⟩
  | .ok response =>
    if options.httpCommand = .download ∧ responseOk response then
      match writeBinaryFile file options.outputPath with
      | .error e => ⟨sent, [statusText response], .error e⟩
      | .ok () =>
        ⟨sent, [statusText response, bytes "Saved " ++ bytes (toString response.body.length) ++
          bytes " bytes to " ++ options.outputPath ++ bytes "\n"], .ok (exitCode response)⟩
    else
      ⟨sent, statusText response :: printResponseBody response.body, .ok (exitCode response)⟩

/-- For a stream the output stream takes the status line and then the body. -/
def runHttpCommand (options : CliOptions) (file : OutputFile) (peer : Peer) : CommandRun :=
  if !hasHttpCommand options then
    ⟨[], [], .error (.runtimeError (bytes "No HTTP command selected"))⟩
  else
    match httpClient options.httpHost options.httpPort options.httpTimeoutMs with
    | .error e => ⟨[], [], .error e⟩
    | .ok client =>
      match options.httpCommand with
      | .get =>
        let (sent, response) := client.get options.httpPath peer
        printResponse options file sent response
      | .post =>
        let (sent, response) := client.post options.httpPath options.httpBody peer
        printResponse options file sent response
      | .setConfig =>
        let (sent, response) :=
          client.post (bytes "/config/" ++ options.configName) options.configValue peer
        printResponse options file sent response
      | .download =>
        let (sent, response) := client.get options.httpPath peer
        printResponse options file sent response
      | .stream =>
        let (sent, s, response) := client.streamGet options.httpPath true peer
        ⟨sent, s.statusStream ++ s.bodyStream, response.map exitCode⟩
      | .none => ⟨[], [], .error (.runtimeError (bytes "No HTTP command selected"))⟩

end MechLidar
