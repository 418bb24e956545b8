import MechLidar.Cli

/-!
# MechLidar.RosArguments

ROS arguments between the options of the command line. They are skipped where an option may
stand, but the zone name of `--reset-zones` is optional, and a ROS argument behind it is taken for
one.

* `Boundary`: a place between two complete options, or behind `--ros-args`
* `EndsBare`: the place behind a `--reset-zones` without a zone name
* `parseCli_insert_iff`: when a ROS argument may be inserted, and that `--ros-args` may be appended
-/

namespace MechLidar

open Lib

/-- How many of the arguments behind an option are its values. -/
def valuesOf : Flag → List Bytes → Nat
  | .help, _ => 0
  | .simple _ _, _ => 0
  | .setConfig, _ => 2
  | .resetZones, [] => 0
  | .resetZones, next :: _ => if next.head? = some 45 then 0 else 1
  | _, _ => 1

/-- `pre` are whole options with their values, if `post` follows. -/
inductive Boundary (post : List Bytes) : List Bytes → Prop where
  | start : Boundary post []
  | ignored {argument pre} : isRosArgument argument = true → Boundary post pre →
      Boundary post (argument :: pre)
  | option {argument f values pre} : argument ≠ rosArgs → isRosArgument argument = false →
      flag argument = some f → valuesOf f (values ++ (pre ++ post)) = values.length →
      Boundary post pre → Boundary post (argument :: (values ++ pre))
  | stopped {pre} : Boundary post (rosArgs :: pre)

/-- The last option of `pre` is `--reset-zones`, without a zone name. -/
inductive EndsBare (post : List Bytes) : List Bytes → Prop where
  | last : valuesOf .resetZones post = 0 → EndsBare post [bytes "--reset-zones"]
  | ignored {argument pre} : isRosArgument argument = true → EndsBare post pre →
      EndsBare post (argument :: pre)
  | option {argument f values pre} : argument ≠ rosArgs → isRosArgument argument = false →
      flag argument = some f → valuesOf f (values ++ (pre ++ post)) = values.length →
      EndsBare post pre → EndsBare post (argument :: (values ++ pre))

/-! ## One option -/

theorem valuesOf_congr {f : Flag} {rest rest' : List Bytes} (h : rest.head? = rest'.head?) :
    valuesOf f rest = valuesOf f rest' := by
  cases f with
  | resetZones =>
    cases rest with
    | nil =>
      cases rest' with
      | nil => rfl
      | cons b rest' => cases h
    | cons a rest =>
      cases rest' with
      | nil => cases h
      | cons b rest' =>
        obtain rfl : a = b := by simpa using h
        rfl
  | _ => rfl

theorem parseFlag_bare {env : CliEnv} {o : CliOptions} {argument : Bytes} {rest : List Bytes}
    (h : valuesOf .resetZones rest = 0) :
    parseFlag env o .resetZones argument rest =
      (selectHttpCommand o .post (bytes "/zones/reset")).map (·, 0) := by
  cases rest with
  | nil => rfl
  | cons next rest =>
    have hdash : next.head? = some 45 := by
      by_contra hne
      simp [valuesOf, hne] at h
    simp only [parseFlag, if_pos hdash]
    rfl

/-- A branch reads its values and nothing else. -/
theorem parseFlag_congr (env : CliEnv) (o : CliOptions) (f : Flag) (argument : Bytes)
    (values rest rest' : List Bytes) (h : valuesOf f (values ++ rest) = values.length)
    (h' : valuesOf f (values ++ rest') = values.length) :
    parseFlag env o f argument (values ++ rest) = parseFlag env o f argument (values ++ rest') := by
  have hone : 1 = values.length → ∃ value, values = [value] := fun hlen =>
    List.length_eq_one_iff.1 hlen.symm
  cases f with
  | help => rfl
  | simple type path => rfl
  | resetZones =>
    cases values with
    | nil =>
      rw [List.nil_append] at h h' ⊢
      rw [parseFlag_bare h, List.nil_append, parseFlag_bare h']
    | cons value values => rfl
  | setConfig =>
    obtain ⟨name, value, rfl⟩ := List.length_eq_two.1 (show values.length = 2 from h.symm)
    rfl
  | _ =>
    obtain ⟨value, rfl⟩ := hone h
    rfl

theorem parseFlag_taken {env : CliEnv} {o o' : CliOptions} {f : Flag} {argument : Bytes}
    {rest : List Bytes} {taken : Nat} (h : parseFlag env o f argument rest = .ok (o', taken)) :
    taken = valuesOf f rest ∧ taken ≤ rest.length := by
  cases f with
  | help =>
    cases h
    exact ⟨rfl, Nat.zero_le _⟩
  | simple type path =>
    obtain ⟨_, _, heq⟩ := map_ok_iff.1 h
    cases heq
    exact ⟨rfl, Nat.zero_le _⟩
  | resetZones =>
    cases rest with
    | nil =>
      obtain ⟨-, ⟨-, rfl, -⟩ | ⟨next, hnext, -⟩⟩ := parseFlag_resetZones_iff.1 h
      · exact ⟨rfl, le_rfl⟩
      · cases hnext
    | cons next rest =>
      obtain ⟨-, ⟨hdash, rfl, -⟩ | ⟨next, hnext, hdash, rfl, -⟩⟩ := parseFlag_resetZones_iff.1 h
      · exact ⟨by simp [valuesOf, hdash next rfl], Nat.zero_le _⟩
      · cases hnext
        exact ⟨by simp [valuesOf, hdash], by simp⟩
  | setConfig =>
    match rest, h with
    | name :: value :: rest, h =>
      obtain ⟨o₁, _, h⟩ := bind_ok_iff.1 h
      obtain ⟨_, h⟩ := ite_error_ok_iff.1 h
      cases h
      exact ⟨rfl, by simp⟩
  | _ =>
    obtain ⟨value, more, rfl, _, rfl⟩ := withValue_ok h
    exact ⟨rfl, by simp⟩

/-! ## The loop -/

theorem parseArguments_skip (env : CliEnv) (o : CliOptions) (values rest : List Bytes) :
    parseArguments env o values.length (values ++ rest) = parseArguments env o 0 rest := by
  induction values with
  | nil => rfl
  | cons value values ih => exact ih

theorem parseArguments_ros {env : CliEnv} {o : CliOptions} {argument : Bytes} {rest : List Bytes}
    (h : isRosArgument argument = true) :
    parseArguments env o 0 (argument :: rest) = parseArguments env o 0 rest := by
  have hne : argument ≠ rosArgs := by
    rintro rfl
    exact absurd h (by decide)
  simp only [parseArguments, if_neg hne, h, if_true]

/-- An option and its values, in front of the rest of the command line. -/
theorem parseArguments_option (env : CliEnv) (o : CliOptions) {argument : Bytes} {f : Flag}
    (values : List Bytes) {rest : List Bytes} (hne : argument ≠ rosArgs)
    (hros : isRosArgument argument = false)
    (hf : flag argument = some f) (hv : valuesOf f (values ++ rest) = values.length) :
    parseArguments env o 0 (argument :: (values ++ rest)) =
      (parseFlag env o f argument (values ++ rest)) >>= fun r => parseArguments env r.1 0 rest := by
  simp only [parseArguments, if_neg hne, hros, Bool.false_eq_true, if_false, hf]
  cases hp : parseFlag env o f argument (values ++ rest) with
  | error e => rfl
  | ok r =>
    obtain ⟨o', taken⟩ := r
    obtain ⟨rfl, _⟩ := parseFlag_taken hp
    rw [hv]
    exact parseArguments_skip env o' values rest

/-- Only the argument right behind an option decides how many values it has. -/
theorem valuesOf_insert {f : Flag} {values pre post : List Bytes} {t : Bytes}
    (h : values = [] → pre ≠ []) :
    valuesOf f (values ++ (pre ++ t :: post)) = valuesOf f (values ++ (pre ++ post)) := by
  refine valuesOf_congr ?_
  cases values with
  | cons value values => rfl
  | nil =>
    cases pre with
    | cons a pre => rfl
    | nil => exact absurd rfl (h rfl)

theorem resetZones_flag : flag (bytes "--reset-zones") = some .resetZones := by decide

theorem resetZones_ne : bytes "--reset-zones" ≠ rosArgs := by decide

theorem resetZones_not_ros : isRosArgument (bytes "--reset-zones") = false := by decide

/-- A ROS argument at a boundary is skipped, unless it can be the name of a zone. -/
theorem parseArguments_insert (env : CliEnv) {pre post : List Bytes} {t : Bytes}
    (hb : Boundary post pre) (ht : isRosArgument t = true)
    (h : ¬ (EndsBare post pre ∧ t.head? ≠ some 45)) (o : CliOptions) :
    parseArguments env o 0 (pre ++ t :: post) = parseArguments env o 0 (pre ++ post) := by
  induction hb generalizing o with
  | start => exact parseArguments_ros ht
  | ignored hros _ ih =>
    rw [List.cons_append, List.cons_append, parseArguments_ros hros, parseArguments_ros hros]
    exact ih (fun hbare => h ⟨.ignored hros hbare.1, hbare.2⟩) o
  | @option argument f values pre hne hros hf hv _ ih =>
    have hv' : valuesOf f (values ++ (pre ++ t :: post)) = values.length := by
      by_cases hempty : values = [] ∧ pre = []
      · obtain ⟨rfl, rfl⟩ := hempty
        cases f with
        | resetZones =>
          have hbare : EndsBare post [argument] := by
            rw [show argument = bytes "--reset-zones" from selects_of_flag hf]
            exact .last hv
          have hdash : t.head? = some 45 := by
            by_contra hdash
            exact h ⟨hbare, hdash⟩
          simp [valuesOf, hdash]
        | _ => exact hv
      · rw [valuesOf_insert (by simpa using hempty), hv]
    rw [List.cons_append, List.cons_append, List.append_assoc, List.append_assoc,
      parseArguments_option env o values hne hros hf hv,
      parseArguments_option env o values hne hros hf hv',
      parseFlag_congr env o f argument _ _ _ hv' hv]
    congr 1
    funext r
    exact ih (fun hbare => h ⟨.option hne hros hf hv hbare.1, hbare.2⟩) r.1
  | stopped => rfl

/-! ## A swallowed argument -/

/-- The body of the request is not set again once a command is selected. -/
theorem parseArguments_body {env : CliEnv} {o o' : CliOptions} {taken : Nat}
    {arguments : List Bytes} (h : parseArguments env o taken arguments = .ok o')
    (ho : o.httpCommand ≠ .none) : o'.httpBody = o.httpBody := by
  have hkeeps := parseArguments_keeps
    (P := fun o₁ => o₁.httpCommand ≠ .none ∧ o₁.httpBody = o.httpBody) ?_ h ⟨ho, rfl⟩
  · exact hkeeps.2
  · intro argument f o₁ o₂ _ h₁ hstep
    cases hstep with
    | help => exact h₁
    | config => exact h₁
    | httpHost => exact h₁
    | httpPort => exact h₁
    | httpTimeoutMs => exact h₁
    | simple _ _ hnone => exact absurd hnone h₁.1
    | body _ _ hnone => exact absurd hnone h₁.1
    | deleteZone _ hnone => exact absurd hnone h₁.1
    | resetZones hnone => exact absurd hnone h₁.1
    | resetZone hnone => exact absurd hnone h₁.1
    | getZonesLut _ hnone => exact absurd hnone h₁.1
    | setConfig _ hnone => exact absurd hnone h₁.1

/-- Without a command there is no body. -/
def Bodiless (o : CliOptions) : Prop := o.httpCommand = .none → o.httpBody = []

theorem Bodiless.step {o o' : CliOptions} {f : Flag} (ho : Bodiless o) (h : FlagStep o f o') :
    Bodiless o' := by
  cases h with
  | help => exact ho
  | config => exact ho
  | httpHost => exact ho
  | httpPort => exact ho
  | httpTimeoutMs => exact ho
  | simple _ _ hnone => exact fun _ => ho hnone
  | body => exact fun h => nomatch h
  | deleteZone => exact fun h => nomatch h
  | resetZones => exact fun h => nomatch h
  | resetZone => exact fun h => nomatch h
  | getZonesLut => exact fun h => nomatch h
  | setConfig => exact fun h => nomatch h

theorem EndsBare.ne_nil {post pre : List Bytes} (h : EndsBare post pre) : pre ≠ [] := by
  cases h with
  | last => exact List.cons_ne_nil _ _
  | ignored => exact List.cons_ne_nil _ _
  | option => exact List.cons_ne_nil _ _

theorem parseFlag_zone {env : CliEnv} {o o' : CliOptions} {argument t : Bytes} {rest : List Bytes}
    {taken : Nat} (hdash : t.head? ≠ some 45)
    (h : parseFlag env o .resetZones argument (t :: rest) = .ok (o', taken)) :
    o'.httpCommand ≠ .none ∧ o'.httpBody ≠ [] := by
  obtain ⟨-, ⟨hbare, -⟩ | ⟨next, -, -, -, body, hbody, rfl⟩⟩ := parseFlag_resetZones_iff.1 h
  · exact absurd (hbare t rfl) hdash
  · exact ⟨by simp, zoneNameBody_ne hbody⟩

/-- Behind a bare `--reset-zones` a ROS argument becomes the name of the zone to reset. -/
theorem parseArguments_swallow (env : CliEnv) {pre post : List Bytes} {t : Bytes}
    (hb : EndsBare post pre) (hdash : t.head? ≠ some 45) {o o' : CliOptions} (ho : Bodiless o)
    (h : parseArguments env o 0 (pre ++ post) = .ok o') :
    parseArguments env o 0 (pre ++ t :: post) ≠ .ok o' := by
  induction hb generalizing o with
  | last hpost =>
    intro h'
    have hname : valuesOf .resetZones (t :: post) = 1 := by simp [valuesOf, hdash]
    have hbare := parseArguments_option env o [] resetZones_ne resetZones_not_ros resetZones_flag
      hpost
    have hzone := parseArguments_option env o [t] resetZones_ne resetZones_not_ros resetZones_flag
      hname
    simp only [List.nil_append, List.singleton_append] at hbare hzone h h'
    rw [hbare] at h
    rw [hzone] at h'
    obtain ⟨⟨o₁, _⟩, hr, h⟩ := bind_ok_iff.1 h
    obtain ⟨⟨o₂, _⟩, hr', h'⟩ := bind_ok_iff.1 h'
    rw [parseFlag_bare hpost] at hr
    obtain ⟨_, hselect, heq⟩ := map_ok_iff.1 hr
    obtain ⟨hnone, rfl⟩ := selectHttpCommand_ok hselect
    cases heq
    obtain ⟨hcommand, hbody⟩ := parseFlag_zone hdash hr'
    have hempty := parseArguments_body h (by simp)
    have hzoneBody := parseArguments_body h' hcommand
    exact hbody (hzoneBody.symm.trans (hempty.trans (ho hnone)))
  | ignored hros _ ih =>
    rw [List.cons_append, parseArguments_ros hros] at h ⊢
    exact ih ho h
  | @option argument f values pre hne hros hf hv hb ih =>
    have hv' : valuesOf f (values ++ (pre ++ t :: post)) = values.length := by
      rw [valuesOf_insert (by simp [hb.ne_nil]), hv]
    rw [List.cons_append, List.append_assoc, parseArguments_option env o values hne hros hf hv] at h
    rw [List.cons_append, List.append_assoc, parseArguments_option env o values hne hros hf hv',
      parseFlag_congr env o f argument _ _ _ hv' hv]
    obtain ⟨r, hr, h⟩ := bind_ok_iff.1 h
    intro h'
    obtain ⟨r', hr', h'⟩ := bind_ok_iff.1 h'
    obtain rfl : r = r' := Except.ok.inj (hr.symm.trans hr')
    exact ih (ho.step (parseFlag_step hr)) h h'

/-! ## Arguments behind the options -/

theorem valuesOf_rosArgs (f : Flag) (rest more : List Bytes) :
    valuesOf f (rest ++ rosArgs :: more) = valuesOf f rest := by
  cases rest with
  | cons a rest => exact valuesOf_congr rfl
  | nil =>
    cases f with
    | resetZones =>
      have hdash : rosArgs.head? = some 45 := by decide
      simp [valuesOf, hdash]
    | _ => rfl

/-- Everything from `--ros-args` on may be appended. -/
theorem parseArguments_append {env : CliEnv} {o o' : CliOptions} {taken : Nat}
    {arguments : List Bytes} (more : List Bytes) (htaken : taken ≤ arguments.length)
    (h : parseArguments env o taken arguments = .ok o') :
    parseArguments env o taken (arguments ++ rosArgs :: more) = .ok o' := by
  induction arguments generalizing o taken with
  | nil =>
    obtain rfl : taken = 0 := by simpa using htaken
    simpa [parseArguments] using h
  | cons argument rest ih =>
    cases taken with
    | succ taken => exact ih (by simpa using htaken) h
    | zero =>
      obtain ⟨rfl, rfl⟩ | ⟨_, hros, hrest⟩ | ⟨hne, hros, f, o₁, taken, hf, hp, hrest⟩ :=
        parseArguments_cons_ok h
      · simp [parseArguments]
      · rw [List.cons_append, parseArguments_ros hros]
        exact ih (Nat.zero_le _) hrest
      · obtain ⟨rfl, hlen⟩ := parseFlag_taken hp
        have hcut : (rest.take (valuesOf f rest)).length = valuesOf f rest := by
          rw [List.length_take, Nat.min_eq_left hlen]
        have hsame := parseFlag_congr env o f argument (rest.take (valuesOf f rest))
          (rest.drop (valuesOf f rest)) (rest.drop (valuesOf f rest) ++ rosArgs :: more)
          (by rw [List.take_append_drop, hcut])
          (by rw [← List.append_assoc, List.take_append_drop, valuesOf_rosArgs, hcut])
        rw [← List.append_assoc, List.take_append_drop] at hsame
        simp only [List.cons_append, parseArguments, if_neg hne, hros, Bool.false_eq_true, if_false,
          hf, ← hsame, hp]
        exact ih hlen hrest

/-- A ROS argument at a boundary of an accepted command line changes nothing, except that it
becomes the zone name of a bare `--reset-zones` unless it begins with a dash; and `--ros-args`, with
whatever follows, changes nothing at the end. -/
theorem parseCli_insert_iff (env : CliEnv) (program : Bytes) {pre post : List Bytes} {t : Bytes}
    {options : CliOptions} (hok : parseCli env (program :: (pre ++ post)) = .ok options)
    (hb : Boundary post pre) (ht : isRosArgument t = true) :
    (parseCli env (program :: (pre ++ t :: post)) = .ok options ↔
      ¬ (EndsBare post pre ∧ t.head? ≠ some 45)) ∧
    ∀ more, parseCli env (program :: (pre ++ post) ++ rosArgs :: more) = .ok options := by
  have hok' : parseArguments env {} 0 (pre ++ post) = .ok options := hok
  refine ⟨⟨fun h => ?_, fun h => ?_⟩, fun more => ?_⟩
  · rintro ⟨hbare, hdash⟩
    exact parseArguments_swallow env hbare hdash (fun _ => rfl) hok' h
  · exact (parseArguments_insert env hb ht h {}).trans hok'
  · exact parseArguments_append more (Nat.zero_le _) hok'

theorem boundary_host :
    Boundary [bytes "--get-status"] (bytes "--http-host" :: ([bytes "10.0.0.7"] ++ [])) :=
  have hflag : flag (bytes "--http-host") = some .httpHost := by decide
  .option (by decide) (by decide) hflag rfl .start

theorem parseCli_insert_iff_plain :
    (parseCli plainEnv (bytes "mech_driver" :: ([bytes "--http-host", bytes "10.0.0.7"] ++
        bytes "__name:=lidar" :: [bytes "--get-status"])) =
      .ok { httpHost := bytes "10.0.0.7", httpCommand := .get, httpPath := bytes "/status.json" } ↔
      ¬ (EndsBare [bytes "--get-status"] [bytes "--http-host", bytes "10.0.0.7"] ∧
        (bytes "__name:=lidar").head? ≠ some 45)) ∧
    ∀ more, parseCli plainEnv (bytes "mech_driver" :: ([bytes "--http-host", bytes "10.0.0.7"] ++
        [bytes "--get-status"]) ++ rosArgs :: more) =
      .ok { httpHost := bytes "10.0.0.7", httpCommand := .get, httpPath := bytes "/status.json" } :=
  parseCli_insert_iff plainEnv _ (by decide) boundary_host (by decide)

theorem boundary_resetZones : Boundary [] (bytes "--reset-zones" :: ([] ++ [])) :=
  .option resetZones_ne resetZones_not_ros resetZones_flag rfl .start

/-- The name of the node, as roslaunch appends it, becomes the name of the zone to reset. -/
theorem resetZones_takes_node_name :
    parseCli plainEnv (bytes "mech_driver" :: ([bytes "--reset-zones"] ++ [])) =
      .ok { httpCommand := .post, httpPath := bytes "/zones/reset" } ∧
    Boundary [] [bytes "--reset-zones"] ∧ isRosArgument (bytes "__name:=lidar") = true ∧
    parseCli plainEnv
        (bytes "mech_driver" :: ([bytes "--reset-zones"] ++ [bytes "__name:=lidar"])) =
      .ok { httpCommand := .post, httpPath := bytes "/zones/reset"
            httpBody := bytes "\x7b\"zone_name\":\"__name:=lidar\"\x7d" } :=
  ⟨by decide, boundary_resetZones, by decide, by decide⟩

end MechLidar
