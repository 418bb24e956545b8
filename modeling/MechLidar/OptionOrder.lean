import MechLidar.Lib.Swaps
import MechLidar.Requests
import MechLidar.RosArguments

/-!
# MechLidar.OptionOrder

The order of the options on the command line.

* `groups`: the loop of `parse_cli` cuts a command line into flags with the values they take
* `Setting`: what a group does to the options, whatever they are before
* `runGroup_swap`: groups that do not set the same option can be swapped
* `parseArguments_commands`: two HTTP commands are never accepted
* `parseCli_permuted`: every order of the groups gives the same options
-/

namespace MechLidar

open Lib

/-! ## Groups -/

/-- A flag with the values that it takes. -/
structure OptionGroup where
  argument : Bytes
  values : List Bytes
deriving DecidableEq, Repr

inductive OptionKey where
  | config
  | httpHost
  | httpPort
  | httpTimeoutMs
deriving DecidableEq, Repr

/-- The option that is set, for a flag that may be repeated. -/
def Flag.key : Flag → Option OptionKey
  | .config => some .config
  | .httpHost => some .httpHost
  | .httpPort => some .httpPort
  | .httpTimeoutMs => some .httpTimeoutMs
  | _ => none

def Flag.isCommand : Flag → Bool
  | .help => false
  | .config => false
  | .httpHost => false
  | .httpPort => false
  | .httpTimeoutMs => false
  | _ => true

namespace OptionGroup

def tokens (g : OptionGroup) : List Bytes := g.argument :: g.values

def key (g : OptionGroup) : Option OptionKey := (flag g.argument).bind Flag.key

def isCommand (g : OptionGroup) : Bool := (flag g.argument).any Flag.isCommand

/-- The flag is known and has all its values. -/
def Whole (g : OptionGroup) : Prop :=
  ∃ f, flag g.argument = some f ∧ valuesOf f g.values = g.values.length

end OptionGroup

def valueCount (argument : Bytes) (rest : List Bytes) : Nat :=
  match flag argument with
  | none => 0
  | some f => valuesOf f rest

/-- The values of the group that has begun, and the groups behind it. -/
def cut : Nat → List Bytes → List Bytes × List OptionGroup
  | _, [] => ([], [])
  | taken + 1, value :: rest => (value :: (cut taken rest).1, (cut taken rest).2)
  | 0, argument :: rest =>
    if argument = rosArgs then ([], [])
    else if isRosArgument argument then ([], (cut 0 rest).2)
    else
      let behind := cut (valueCount argument rest) rest
      ([], ⟨argument, behind.1⟩ :: behind.2)

def groups (arguments : List Bytes) : List OptionGroup := (cut 0 arguments).2

example : groups [bytes "--http-port", bytes "--help", bytes "--reset-zones", bytes "-h"] =
    [⟨bytes "--http-port", [bytes "--help"]⟩, ⟨bytes "--reset-zones", []⟩, ⟨bytes "-h", []⟩] := by
  decide

/-- The arguments in option position. -/
def optionArguments : Nat → List Bytes → List Bytes
  | _, [] => []
  | taken + 1, _ :: rest => optionArguments taken rest
  | 0, argument :: rest => argument :: optionArguments (valueCount argument rest) rest

/-- No ROS argument and no `--ros-args` in option position. -/
def WithoutRos (taken : Nat) (arguments : List Bytes) : Prop :=
  ∀ argument ∈ optionArguments taken arguments, argument ≠ rosArgs ∧ isRosArgument argument = false

/-! ## What a group does -/

structure Command where
  type : HttpCommandType
  path : Bytes
  body : Option Bytes := none
  output : Option Bytes := none
  parameter : Option (Bytes × Bytes) := none
  selects : type ≠ .none

inductive Setting where
  | help
  | config (value : Bytes)
  | httpHost (value : Bytes)
  | httpPort (port : Int)
  | httpTimeoutMs (timeoutMs : Int)
  | command (c : Command)

namespace Setting

def key : Setting → Option OptionKey
  | .config _ => some .config
  | .httpHost _ => some .httpHost
  | .httpPort _ => some .httpPort
  | .httpTimeoutMs _ => some .httpTimeoutMs
  | _ => none

def isCommand : Setting → Bool
  | .command _ => true
  | _ => false

def set (o : CliOptions) : Setting → CliOptions
  | .help => { o with help := true }
  | .config value => { o with configPath := value, configProvided := true }
  | .httpHost value => { o with httpHost := value }
  | .httpPort port => { o with httpPort := port }
  | .httpTimeoutMs timeoutMs => { o with httpTimeoutMs := timeoutMs }
  | .command c =>
    { o with
      httpCommand := c.type
      httpPath := c.path
      httpBody := c.body.getD o.httpBody
      outputPath := c.output.getD o.outputPath
      configName := (c.parameter.map Prod.fst).getD o.configName
      configValue := (c.parameter.map Prod.snd).getD o.configValue }

/-- `ensure_no_http_command` lets it through. -/
def Fits (s : Setting) (o : CliOptions) : Prop := s.isCommand = true → o.httpCommand = .none

theorem set_free_iff (s : Setting) (o : CliOptions) :
    (s.set o).httpCommand = .none ↔ s.isCommand = false ∧ o.httpCommand = .none := by
  cases s with
  | command c => simp [set, isCommand, c.selects]
  | _ => simp [set, isCommand]

theorem set_comm {s t : Setting} (hkey : ∀ k, s.key = some k → t.key ≠ some k)
    (hcommand : s.isCommand = true → t.isCommand = false) (o : CliOptions) :
    t.set (s.set o) = s.set (t.set o) := by
  cases s with
  | help => cases t <;> rfl
  | config value =>
    cases t with
    | config => exact absurd rfl (hkey .config rfl)
    | _ => rfl
  | httpHost value =>
    cases t with
    | httpHost => exact absurd rfl (hkey .httpHost rfl)
    | _ => rfl
  | httpPort port =>
    cases t with
    | httpPort => exact absurd rfl (hkey .httpPort rfl)
    | _ => rfl
  | httpTimeoutMs timeoutMs =>
    cases t with
    | httpTimeoutMs => exact absurd rfl (hkey .httpTimeoutMs rfl)
    | _ => rfl
  | command c =>
    cases t with
    | command => cases hcommand rfl
    | _ => rfl

end Setting

theorem simpleCommands_select : ∀ command ∈ SIMPLE_COMMANDS, command.2.1 ≠ .none := by decide

/-- What the branch does to all options that it accepts. -/
structure ActsAs (env : CliEnv) (f : Flag) (argument : Bytes) (rest : List Bytes) (taken : Nat)
    (s : Setting) : Prop where
  key : s.key = f.key
  isCommand : s.isCommand = f.isCommand
  run : ∀ o, s.Fits o → parseFlag env o f argument rest = .ok (s.set o, taken)

/-- The branches that post a body made of their value. -/
theorem run_body {argument : Bytes} {rest : List Bytes} {taken : Nat} {o o' : CliOptions}
    {path : Bytes} {makeBody : Bytes → Except CliError Bytes}
    (h : withValue argument rest (fun value => do
      let options ← selectHttpCommand o .post path
      let body ← makeBody value
      .ok { options with httpBody := body }) = .ok (o', taken)) :
    ∃ body, ∀ o₁ : CliOptions, o₁.httpCommand = .none →
      withValue argument rest (fun value => do
        let options ← selectHttpCommand o₁ .post path
        let body ← makeBody value
        .ok { options with httpBody := body }) =
      .ok ({ o₁ with httpCommand := .post, httpPath := path, httpBody := body }, taken) := by
  obtain ⟨value, more, rfl, hvalue, rfl⟩ := withValue_ok h
  obtain ⟨_, hvalue⟩ := selectHttpCommand_bind_ok_iff.1 hvalue
  obtain ⟨body, hbody, _⟩ := bind_ok_iff.1 hvalue
  refine ⟨body, fun o₁ hnone => ?_⟩
  exact map_ok_iff.2
    ⟨_, selectHttpCommand_bind_ok_iff.2 ⟨hnone, bind_ok_iff.2 ⟨body, hbody, rfl⟩⟩, rfl⟩

/-- The branches that set a number, with the check of its range. -/
theorem run_integer {argument : Bytes} {rest : List Bytes} {taken : Nat} {o' : CliOptions}
    {P : Int → Prop} [DecidablePred P] {e : CliError} {set : Int → CliOptions}
    (h : withValue argument rest (fun value => do
      let n ← parseInteger argument value
      if P n then .error e else .ok (set n)) = .ok (o', taken)) :
    ∃ n, ∀ set' : Int → CliOptions, withValue argument rest (fun value => do
      let n ← parseInteger argument value
      if P n then .error e else .ok (set' n)) = .ok (set' n, taken) := by
  obtain ⟨value, more, rfl, hvalue, rfl⟩ := withValue_ok h
  obtain ⟨n, hn, hvalue⟩ := bind_ok_iff.1 hvalue
  obtain ⟨hrange, _⟩ := ite_error_ok_iff.1 hvalue
  refine ⟨n, fun set' => ?_⟩
  exact map_ok_iff.2 ⟨_, bind_ok_iff.2 ⟨n, hn, ite_error_ok_iff.2 ⟨hrange, rfl⟩⟩, rfl⟩

theorem exists_actsAs {env : CliEnv} {o o' : CliOptions} {f : Flag} {argument : Bytes}
    {rest : List Bytes} {taken : Nat} (hf : flag argument = some f)
    (h : parseFlag env o f argument rest = .ok (o', taken)) :
    ∃ s, ActsAs env f argument rest taken s := by
  cases f with
  | help =>
    cases h
    exact ⟨.help, rfl, rfl, fun _ _ => rfl⟩
  | config =>
    obtain ⟨value, more, rfl, _, rfl⟩ := withValue_ok h
    exact ⟨.config value, rfl, rfl, fun _ _ => rfl⟩
  | httpHost =>
    obtain ⟨value, more, rfl, _, rfl⟩ := withValue_ok h
    exact ⟨.httpHost value, rfl, rfl, fun _ _ => rfl⟩
  | httpPort =>
    obtain ⟨port, hport⟩ := run_integer h
    exact ⟨.httpPort port, rfl, rfl, fun o₁ _ => hport fun n => { o₁ with httpPort := n }⟩
  | httpTimeoutMs =>
    obtain ⟨timeoutMs, htimeout⟩ := run_integer h
    exact ⟨.httpTimeoutMs timeoutMs, rfl, rfl,
      fun o₁ _ => htimeout fun n => { o₁ with httpTimeoutMs := n }⟩
  | simple type path =>
    obtain ⟨_, _, heq⟩ := map_ok_iff.1 h
    cases heq
    have htype := simpleCommands_select _ (selects_of_flag hf)
    refine ⟨.command { type, path, selects := htype }, rfl, rfl, fun o₁ hfits => ?_⟩
    exact map_ok_iff.2 ⟨_, selectHttpCommand_free (hfits rfl) type path, rfl⟩
  | body path =>
    obtain ⟨body, hbody⟩ := run_body h
    exact ⟨.command { type := .post, path, body := some body, selects := nofun }, rfl, rfl,
      fun o₁ hfits => hbody o₁ (hfits rfl)⟩
  | deleteZone =>
    obtain ⟨body, hbody⟩ := run_body h
    exact ⟨.command { type := .post, path := bytes "/zones/delete.json", body := some body
                      selects := nofun }, rfl, rfl, fun o₁ hfits => hbody o₁ (hfits rfl)⟩
  | resetZones =>
    obtain ⟨-, ⟨hbare, rfl, -⟩ | ⟨next, hnext, hdash, rfl, body, hbody, -⟩⟩ :=
      parseFlag_resetZones_iff.1 h
    · refine ⟨.command { type := .post, path := bytes "/zones/reset", selects := nofun }, rfl,
        rfl, fun o₁ hfits => ?_⟩
      exact parseFlag_resetZones_iff.2 ⟨hfits rfl, .inl ⟨hbare, rfl, rfl⟩⟩
    · refine ⟨.command { type := .post, path := bytes "/zones/reset", body := some body
                         selects := nofun }, rfl, rfl, fun o₁ hfits => ?_⟩
      exact parseFlag_resetZones_iff.2
        ⟨hfits rfl, .inr ⟨next, hnext, hdash, rfl, body, hbody, rfl⟩⟩
  | getZonesLut =>
    obtain ⟨value, more, rfl, _, rfl⟩ := withValue_ok h
    refine ⟨.command { type := .download, path := bytes "/zones/lut.bin", output := some value
                       selects := nofun }, rfl, rfl, fun o₁ hfits => ?_⟩
    exact map_ok_iff.2 ⟨_, selectHttpCommand_bind_ok_iff.2 ⟨hfits rfl, rfl⟩, rfl⟩
  | setConfig =>
    match rest, h with
    | name :: value :: rest, h =>
      obtain ⟨_, h⟩ := selectHttpCommand_bind_ok_iff.1 h
      obtain ⟨hname, heq⟩ := ite_error_ok_iff.1 h
      cases heq
      refine ⟨.command { type := .setConfig, path := [], parameter := some (name, value)
                         selects := nofun }, rfl, rfl, fun o₁ hfits => ?_⟩
      exact selectHttpCommand_bind_ok_iff.2 ⟨hfits rfl, ite_error_ok_iff.2 ⟨hname, rfl⟩⟩

theorem FlagStep.free {o o' : CliOptions} {f : Flag} (h : FlagStep o f o')
    (hcommand : f.isCommand = true) : o.httpCommand = .none := by
  cases h with
  | simple _ _ hnone => exact hnone
  | body _ _ hnone => exact hnone
  | deleteZone _ hnone => exact hnone
  | resetZones hnone => exact hnone
  | resetZone hnone => exact hnone
  | getZonesLut _ hnone => exact hnone
  | setConfig _ hnone => exact hnone
  | _ => cases hcommand

/-- A branch does the same to all options that it accepts. -/
theorem parseFlag_setting {env : CliEnv} {o o' : CliOptions} {f : Flag} {argument : Bytes}
    {rest : List Bytes} {taken : Nat} (hf : flag argument = some f)
    (h : parseFlag env o f argument rest = .ok (o', taken)) :
    ∃ s, ActsAs env f argument rest taken s ∧ s.Fits o ∧ o' = s.set o := by
  obtain ⟨s, hs⟩ := exists_actsAs hf h
  have hfits : s.Fits o := fun hcommand => (parseFlag_step h).free (hs.isCommand ▸ hcommand)
  have heq := Except.ok.inj (h.symm.trans (hs.run o hfits))
  exact ⟨s, hs, hfits, congrArg Prod.fst heq⟩

/-- One turn of the loop of `parse_cli`, on a whole group. -/
def runGroup (env : CliEnv) (o : CliOptions) (g : OptionGroup) : Except CliError CliOptions :=
  match flag g.argument with
  | none => .error (.runtimeError (bytes "Bad command line flag: " ++ g.argument))
  | some f => (parseFlag env o f g.argument g.values).map Prod.fst

theorem runGroup_of_flag {g : OptionGroup} {f : Flag} (hf : flag g.argument = some f) (env : CliEnv)
    (o : CliOptions) : runGroup env o g = (parseFlag env o f g.argument g.values).map Prod.fst := by
  rw [runGroup, hf]

theorem runGroup_setting {env : CliEnv} {o o' : CliOptions} {g : OptionGroup}
    (h : runGroup env o g = .ok o') :
    ∃ s : Setting, s.key = g.key ∧ s.Fits o ∧ o' = s.set o ∧
      ∀ o₁, s.Fits o₁ → runGroup env o₁ g = .ok (s.set o₁) := by
  cases hf : flag g.argument with
  | none =>
    rw [runGroup, hf] at h
    cases h
  | some f =>
    simp only [runGroup_of_flag hf] at h ⊢
    obtain ⟨⟨_, taken⟩, hparse, rfl⟩ := map_ok_iff.1 h
    obtain ⟨s, hs, hfits, hset⟩ := parseFlag_setting hf hparse
    refine ⟨s, ?_, hfits, hset, fun o₁ h₁ => map_ok_iff.2 ⟨_, hs.run o₁ h₁, rfl⟩⟩
    simp [OptionGroup.key, hf, hs.key]

theorem runGroup_swap {env : CliEnv} {g g' : OptionGroup} (h : Unlike OptionGroup.key g g')
    (o o' : CliOptions) (hrun : [g, g'].foldlM (runGroup env) o = .ok o') :
    [g', g].foldlM (runGroup env) o = .ok o' := by
  simp only [List.foldlM_cons, List.foldlM_nil, bind_pure, bind_ok_iff] at hrun ⊢
  obtain ⟨o₁, hfirst, hsecond⟩ := hrun
  obtain ⟨s, hkey, hfits, rfl, hall⟩ := runGroup_setting hfirst
  obtain ⟨t, hkey', hfits', rfl, hall'⟩ := runGroup_setting hsecond
  -- of two commands the second one is not accepted
  have hone : s.isCommand = true → t.isCommand = false := by
    intro hs
    by_contra ht
    have hfree := (Setting.set_free_iff s o).1 (hfits' (by simpa using ht))
    simp [hs] at hfree
  have hunlike : ∀ k, s.key = some k → t.key ≠ some k := by
    intro k hk
    rw [hkey] at hk
    rw [hkey']
    exact h k hk
  refine ⟨t.set o, hall' o ?_, ?_⟩
  · intro ht
    exact ((Setting.set_free_iff s o).1 (hfits' ht)).2
  · rw [Setting.set_comm hunlike hone]
    refine hall _ ?_
    intro hs
    exact (Setting.set_free_iff t o).2 ⟨hone hs, hfits hs⟩

/-! ## The loop, group by group -/

/-- An argument that begins an option, for every flag. -/
def BeginsOption (argument : Bytes) : Prop :=
  argument ≠ rosArgs ∧ isRosArgument argument = false ∧ argument.head? = some 45

instance (argument : Bytes) : Decidable (BeginsOption argument) :=
  inferInstanceAs (Decidable (_ ∧ _ ∧ _))

theorem simpleCommands_begin : ∀ command ∈ SIMPLE_COMMANDS, BeginsOption command.1 := by decide

theorem bodyPaths_begin : ∀ command ∈ BODY_PATHS, BeginsOption command.1 := by decide

theorem flag_begins {argument : Bytes} {f : Flag} (h : flag argument = some f) :
    BeginsOption argument := by
  have hselects := selects_of_flag h
  cases f with
  | simple type path => exact simpleCommands_begin _ hselects
  | body path => exact bodyPaths_begin _ hselects
  | help => rcases hselects with rfl | rfl <;> decide
  | config => rcases hselects with rfl | rfl <;> decide
  | httpHost => rcases hselects with rfl | rfl <;> decide
  | httpPort => rw [show argument = _ from hselects]; decide
  | httpTimeoutMs => rw [show argument = _ from hselects]; decide
  | deleteZone => rw [show argument = _ from hselects]; decide
  | resetZones => rw [show argument = _ from hselects]; decide
  | getZonesLut => rw [show argument = _ from hselects]; decide
  | setConfig => rw [show argument = _ from hselects]; decide

theorem valuesOf_cons (f : Flag) (value : Bytes) (values rest : List Bytes) :
    valuesOf f (value :: values ++ rest) = valuesOf f (value :: values) := valuesOf_congr rfl

/-- The values are complete without what stands behind them. -/
theorem valuesOf_values {f : Flag} {values rest : List Bytes}
    (h : valuesOf f (values ++ rest) = values.length) : valuesOf f values = values.length := by
  cases values with
  | cons value values => rwa [valuesOf_cons] at h
  | nil =>
    cases f with
    | resetZones => rfl
    | _ => exact h

/-- Behind a bare `--reset-zones` the next group is no zone name, as it begins with a dash. -/
theorem valuesOf_groups {f : Flag} {values : List Bytes} {gs : List OptionGroup}
    (h : valuesOf f values = values.length) (hgs : ∀ g ∈ gs, g.Whole) :
    valuesOf f (values ++ gs.flatMap OptionGroup.tokens) = values.length := by
  cases values with
  | cons value values => rwa [valuesOf_cons]
  | nil =>
    cases gs with
    | nil => exact h
    | cons g gs =>
      obtain ⟨f', hf', -⟩ := hgs g (by simp)
      have hdash := (flag_begins hf').2.2
      cases f with
      | resetZones => simp [valuesOf, OptionGroup.tokens, hdash]
      | _ => exact h

theorem parseArguments_groups (env : CliEnv) {gs : List OptionGroup} (hgs : ∀ g ∈ gs, g.Whole)
    (o : CliOptions) :
    parseArguments env o 0 (gs.flatMap OptionGroup.tokens) = gs.foldlM (runGroup env) o := by
  induction gs generalizing o with
  | nil => rfl
  | cons g gs ih =>
    obtain ⟨⟨f, hf, hvalues⟩, hrest⟩ := List.forall_mem_cons.1 hgs
    obtain ⟨hne, hros, -⟩ := flag_begins hf
    have hv := valuesOf_groups hvalues hrest
    have hv' : valuesOf f (g.values ++ []) = g.values.length := by rwa [List.append_nil]
    have hcongr := parseFlag_congr env o f g.argument g.values _ [] hv hv'
    rw [List.append_nil] at hcongr
    rw [List.flatMap_cons, OptionGroup.tokens, List.cons_append,
      parseArguments_option env o g.values hne hros hf hv, hcongr, List.foldlM_cons,
      runGroup_of_flag hf]
    cases parseFlag env o f g.argument g.values with
    | error e => rfl
    | ok r => exact ih hrest r.1

/-! ## The groups of a command line -/

/-- The command line consists of these groups. -/
def CutInto (arguments : List Bytes) (gs : List OptionGroup) : Prop :=
  (∀ g ∈ gs, g.Whole) ∧ gs.flatMap OptionGroup.tokens = arguments

theorem cut_option {argument : Bytes} {rest : List Bytes} {taken : Nat}
    (hne : argument ≠ rosArgs) (hros : isRosArgument argument = false)
    (hcount : valueCount argument rest = taken) : cut 0 (argument :: rest) =
      ([], ⟨argument, (cut taken rest).1⟩ :: (cut taken rest).2) := by
  simp only [cut, if_neg hne, hros, Bool.false_eq_true, if_false, hcount]

theorem cut_nothing (arguments : List Bytes) : (cut 0 arguments).1 = [] := by
  cases arguments with
  | nil => rfl
  | cons argument rest =>
    rw [cut]
    split
    · rfl
    · split <;> rfl

theorem cut_values (values rest : List Bytes) :
    cut values.length (values ++ rest) = (values, (cut 0 rest).2) := by
  induction values with
  | nil => exact Prod.ext (cut_nothing rest) rfl
  | cons value values ih => simp only [List.length_cons, List.cons_append, cut, ih]

/-- There is one way only to cut a command line. -/
theorem groups_flatMap {gs : List OptionGroup} (hgs : ∀ g ∈ gs, g.Whole) :
    groups (gs.flatMap OptionGroup.tokens) = gs := by
  induction gs with
  | nil => rfl
  | cons g gs ih =>
    obtain ⟨⟨f, hf, hvalues⟩, hrest⟩ := List.forall_mem_cons.1 hgs
    obtain ⟨hne, hros, -⟩ := flag_begins hf
    have hcount : valueCount g.argument (g.values ++ gs.flatMap OptionGroup.tokens) =
        g.values.length := by
      simp only [valueCount, hf, valuesOf_groups hvalues hrest]
    have hbehind : (cut 0 (gs.flatMap OptionGroup.tokens)).2 = gs := ih hrest
    rw [groups, List.flatMap_cons, OptionGroup.tokens, List.cons_append,
      cut_option hne hros hcount, cut_values, hbehind]

section CommandLine

variable {env : CliEnv} {o o' : CliOptions} {taken : Nat} {arguments : List Bytes}

/-- The groups of an accepted command line without ROS arguments make it up. -/
theorem cut_whole (h : parseArguments env o taken arguments = .ok o')
    (htaken : taken ≤ arguments.length) (hros : WithoutRos taken arguments) :
    (cut taken arguments).1.length = taken ∧
      (cut taken arguments).1 ++ (cut taken arguments).2.flatMap OptionGroup.tokens = arguments ∧
      ∀ g ∈ (cut taken arguments).2, g.Whole := by
  induction arguments generalizing o taken with
  | nil =>
    obtain rfl : taken = 0 := by simpa using htaken
    simp [cut]
  | cons argument rest ih =>
    cases taken with
    | succ taken =>
      obtain ⟨hlength, happend, hwhole⟩ := ih h (by simpa using htaken) hros
      refine ⟨by simp [cut, hlength], ?_, hwhole⟩
      rw [cut, List.cons_append, happend]
    | zero =>
      obtain ⟨⟨hne, hnot⟩, hbehind⟩ := List.forall_mem_cons.1 hros
      obtain ⟨hstop, _⟩ | ⟨_, hros, _⟩ | ⟨_, _, f, o₁, taken, hf, hp, hrest⟩ :=
        parseArguments_cons_ok h
      · exact absurd hstop hne
      · exact absurd hros (by simp [hnot])
      · obtain ⟨htake, hle⟩ := parseFlag_taken hp
        have hcount : valueCount argument rest = taken := by simp only [valueCount, hf, htake]
        rw [hcount] at hbehind
        obtain ⟨hlength, happend, hwhole⟩ := ih hrest hle hbehind
        have hvalues : valuesOf f ((cut taken rest).1 ++
            (cut taken rest).2.flatMap OptionGroup.tokens) = (cut taken rest).1.length := by
          rw [happend, hlength, htake]
        rw [cut_option hne hnot hcount]
        refine ⟨rfl, ?_, ?_⟩
        · simpa [OptionGroup.tokens] using happend
        · exact List.forall_mem_cons.2 ⟨⟨f, hf, valuesOf_values hvalues⟩, hwhole⟩

/-- A command is accepted only where there was none, with ROS arguments in between as well. -/
theorem parseArguments_commands (h : parseArguments env o taken arguments = .ok o') :
    (cut taken arguments).2.countP OptionGroup.isCommand ≤
      if o.httpCommand = .none then 1 else 0 := by
  induction arguments generalizing o taken with
  | nil => simp [cut]
  | cons argument rest ih =>
    cases taken with
    | succ taken => exact ih h
    | zero =>
      obtain ⟨rfl, rfl⟩ | ⟨hne, hros, hrest⟩ | ⟨hne, hros, f, o₁, taken, hf, hp, hrest⟩ :=
        parseArguments_cons_ok h
      · simp [cut]
      · rw [cut, if_neg hne, if_pos hros]
        exact ih hrest
      · obtain ⟨s, hs, hfits, hset⟩ := parseFlag_setting hf hp
        have hcount : valueCount argument rest = taken := by
          simp only [valueCount, hf, (parseFlag_taken hp).1]
        have hle := ih hrest
        simp only [hset, Setting.set_free_iff, hs.isCommand] at hle
        have hgroup : OptionGroup.isCommand ⟨argument, (cut taken rest).1⟩ = f.isCommand := by
          simp [OptionGroup.isCommand, hf]
        rw [cut_option hne hros hcount, List.countP_cons, hgroup]
        cases hc : f.isCommand with
        | false => simpa [hc] using hle
        | true =>
          have hfree := hfits (hs.isCommand.trans hc)
          simpa [hc, hfree] using hle

/-- An accepted command line without ROS arguments has one cut into groups, with one HTTP command at
most; the groups in another order give the same options, as long as those that set one option keep
theirs. A command line with two HTTP commands is rejected. -/
theorem parseCli_permuted {program : Bytes} (h : parseCli env (program :: arguments) = .ok o)
    (hros : WithoutRos 0 arguments) :
    (∀ gs, CutInto arguments gs ↔ gs = groups arguments) ∧
    (groups arguments).countP OptionGroup.isCommand ≤ 1 ∧
    (1 ≤ o.httpPort ∧ o.httpPort ≤ 65535) ∧ 0 < o.httpTimeoutMs ∧
    (o.httpCommand ≠ .none → o.httpCommand ≠ .setConfig → o.httpPath.head? = some 47) ∧
    (∀ gs, (groups arguments).Perm gs → SameOrder OptionGroup.key (groups arguments) gs →
      parseCli env (program :: gs.flatMap OptionGroup.tokens) = .ok o) ∧
    ∀ other, 2 ≤ (groups other).countP OptionGroup.isCommand →
      ∃ e, parseCli env (program :: other) = .error e := by
  have hloop : parseArguments env {} 0 arguments = .ok o := h
  obtain ⟨hlength, happend, hcutWhole⟩ := cut_whole hloop (Nat.zero_le _) hros
  have hwhole : ∀ g ∈ groups arguments, g.Whole := hcutWhole
  have hcut : (groups arguments).flatMap OptionGroup.tokens = arguments := by
    rwa [List.length_eq_zero_iff.1 hlength, List.nil_append] at happend
  have haccepted := accepted_of_parseCli h
  refine ⟨?_, parseArguments_commands hloop, ⟨haccepted.port_pos, haccepted.port_le⟩,
    haccepted.timeout_pos, ?_, ?_, ?_⟩
  · intro gs
    constructor
    · intro ⟨hgs, htokens⟩
      rw [← htokens, groups_flatMap hgs]
    · rintro rfl
      exact ⟨hwhole, hcut⟩
  · intro hcommand hset
    exact ((haccepted.path.resolve_left hcommand).resolve_left hset).1
  · intro gs hperm horder
    have hrun : (groups arguments).foldlM (runGroup env) {} = .ok o := by
      rw [← parseArguments_groups env hwhole, hcut, hloop]
    have hgs : ∀ g ∈ gs, g.Whole := fun g hg => hwhole g (hperm.symm.subset hg)
    have hswaps := swaps_of_perm hperm horder
    exact (parseArguments_groups env hgs {}).trans
      (hswaps.foldlM (fun _ _ hunlike => runGroup_swap hunlike) hrun)
  · intro other htwo
    cases hother : parseCli env (program :: other) with
    | error e => exact ⟨e, rfl⟩
    | ok o₁ =>
      have hle : (groups other).countP OptionGroup.isCommand ≤ 1 :=
        parseArguments_commands (o := {}) hother
      omega

end CommandLine

/-- A value that looks like a flag, a command without its optional value, and an option twice. -/
def mixedArguments : List Bytes :=
  [bytes "--config", bytes "--help", bytes "--reset-zones", bytes "-c", bytes "lidar.json",
    bytes "--http-port", bytes "8080"]

def mixedOptions : CliOptions where
  configPath := bytes "lidar.json"
  configProvided := true
  httpPort := 8080
  httpCommand := .post
  httpPath := bytes "/zones/reset"

theorem parseCli_permuted_mixed :
    (groups mixedArguments).countP OptionGroup.isCommand ≤ 1 ∧
    parseCli plainEnv [bytes "mech_driver", bytes "--http-port", bytes "8080", bytes "--config",
      bytes "--help", bytes "-c", bytes "lidar.json", bytes "--reset-zones"] =
        .ok mixedOptions := by
  have hparse : parseCli plainEnv (bytes "mech_driver" :: mixedArguments) = .ok mixedOptions := by
    decide
  have hros : WithoutRos 0 mixedArguments := by
    unfold WithoutRos
    decide
  obtain ⟨-, hone, -, -, -, hany, -⟩ := parseCli_permuted hparse hros
  refine ⟨hone, hany [⟨bytes "--http-port", [bytes "8080"]⟩, ⟨bytes "--config", [bytes "--help"]⟩,
    ⟨bytes "-c", [bytes "lidar.json"]⟩, ⟨bytes "--reset-zones", []⟩] (by decide) ?_⟩
  intro k
  cases k <;> decide

end MechLidar
