import MechLidar.RoundTrip

/-!
# MechLidar.ConfigCheck

Which JSON values `parse_driver_config` accepts, against what its header promises: it rejects
missing, mistyped and unknown fields.

* `Kind`, `declaredFields`: the declared type of each field
* `Meets typed v mode captureType`: the requirements, with the fields whose type counts in `typed`
* `parse_ok_iff_meets`: the fields whose type counts are those that the mode reads
* `invalidOnly_parse`: nothing but a `std::invalid_argument` is thrown
* `keepsPromise_iff`: the promise is kept but for a mistyped field of the other mode
-/

namespace MechLidar

open Lib Json

variable {F α β : Type}

/-! ## Requirements -/

inductive Kind where
  | text
  | flag
  | number
  | integer
deriving DecidableEq, Repr

/-- The value of a number without a fraction. -/
def Json.exactInteger : Json F → Option Int
  | .numberInteger n => some n.toInt
  | .numberUnsigned n => some n.toNat
  | _ => none

/-- The value has the declared type. An integer is one of the `int` of the field. -/
def Kind.Has : Kind → Json F → Prop
  | .text, x => ∃ s, x = .string s
  | .flag, x => ∃ b, x = .boolean b
  | .number, x =>
    (∃ n, x = .numberInteger n) ∨ (∃ n, x = .numberUnsigned n) ∨ ∃ r, x = .numberFloat r
  | .integer, x => ∃ n, x.exactInteger = some n ∧ -2 ^ 31 ≤ n ∧ n < 2 ^ 31

def DriverMode.other : DriverMode → DriverMode
  | .udp => .pcap
  | .pcap => .udp

def DriverMode.ownFields : DriverMode → List (String × Kind)
  | .udp => [("ip", .text), ("port", .integer)]
  | .pcap => [("pcap_path", .text)]

def commonFields : List (String × Kind) :=
  ["mode", "capture_type", "topic"].map (·, .text) ++ textFields.map (·, .text) ++
    flagFields.map (·, .flag) ++ numberFields.map (·, .number) ++
    integerFields.map (·, .integer)

def declaredFields : List (String × Kind) :=
  commonFields ++ DriverMode.udp.ownFields ++ DriverMode.pcap.ownFields

example : (declaredFields.map Prod.fst).Perm allowedFields := by decide

def Json.exactNumber [IntCast F] [NatCast F] : Json F → Option (Flt F)
  | .numberInteger n => some (.fin (n.toInt : F))
  | .numberUnsigned n => some (.fin (n.toNat : F))
  | .numberFloat r => some r
  | _ => none

/-- A number field, or its default. -/
def Json.numberOr [IntCast F] [NatCast F] (v : Json F) (key : String) (defaultValue : Nat) :
    Flt F :=
  ((v.member key).bind exactNumber).getD (.fin (defaultValue : F))

/-- An integer field, or its default. -/
def Json.integerOr (v : Json F) (key : String) (defaultValue : Int) : Int :=
  ((v.member key).bind exactInteger).getD defaultValue

def HasKinds (typed : List (String × Kind)) (v : Json F) : Prop :=
  ∀ field ∈ typed, ∀ x, v.member field.1 = some x → field.2.Has x

def nonEmptyFields : DriverMode → List String
  | .udp => ["name", "topic", "frame_id", "safety_zones_topic", "safety_zones_status_topic",
      "http_host", "diagnostics_topic"]
  | .pcap => ["name", "topic", "frame_id", "safety_zones_topic", "safety_zones_status_topic",
      "http_host", "diagnostics_topic", "pcap_path"]

/-- The periods in seconds and in milliseconds, with their defaults. -/
def positiveFields : List (String × Nat) :=
  [("safety_debug_period_s", 1), ("diagnostics_period_s", 1), ("no_data_timeout_s", 2)]

def positiveMsFields : List (String × Int) :=
  [("http_timeout_ms", 3000), ("udp_reconnect_initial_ms", 250)]

/-- The ports of the mode, with their defaults. -/
def portFields : DriverMode → List (String × Int)
  | .udp => [("http_port", 80), ("port", 0)]
  | .pcap => [("http_port", 80)]

section Meets

variable [Arith F] [IntCast F]

structure Meets (typed : List (String × Kind)) (v : Json F) (mode : DriverMode)
    (captureType : CaptureType) : Prop where
  isObject : v.isObject = true
  known : ∀ key, (v.member key).isSome = true → key ∈ allowedFields
  typed : HasKinds typed v
  modeText : v.member "mode" = some (.string mode.toString)
  captureTypeText : v.member "capture_type" = some (.string captureType.toString)
  required : ∀ key ∈ "topic" :: mode.ownFields.map Prod.fst, (v.member key).isSome = true
  nonEmpty : ∀ key ∈ nonEmptyFields mode, v.member key ≠ some (.string "")
  finite : (v.numberOr "angle_offset_deg" 90).isFinite = true
  positive : ∀ field ∈ positiveFields, (v.numberOr field.1 field.2).isPositive = true
  positiveMs : ∀ field ∈ positiveMsFields, 0 < v.integerOr field.1 field.2
  ordered : v.integerOr "udp_reconnect_initial_ms" 250 ≤ v.integerOr "udp_reconnect_max_ms" 5000
  ports : ∀ field ∈ portFields mode,
    1 ≤ v.integerOr field.1 field.2 ∧ v.integerOr field.1 field.2 ≤ 65535

end Meets

/-! ## Fields of one kind -/

section Kinds

variable {v : Json F} {key : String}

theorem typed_text_iff :
    Typed getString v key ↔ ∀ x, v.member key = some x → Kind.text.Has x := by
  refine forall_congr' fun x => imp_congr_right fun _ => ?_
  simp [getString_ok_iff, Kind.Has]

theorem typed_flag_iff :
    Typed getBoolean v key ↔ ∀ x, v.member key = some x → Kind.flag.Has x := by
  refine forall_congr' fun x => imp_congr_right fun _ => ?_
  cases x <;> simp [getBoolean, Kind.Has]

theorem typed_number_iff [IntCast F] [NatCast F] :
    Typed (getDouble (F := F)) v key ↔ ∀ x, v.member key = some x → Kind.number.Has x := by
  refine forall_congr' fun x => imp_congr_right fun _ => ?_
  cases x <;> simp [getDouble, Kind.Has]

/-- A text that may not be empty: the default is not. -/
theorem readOr_text_ne_iff {d : String} (hd : d ≠ "" ∨ (v.member key).isSome = true)
    (h : Typed getString v key) :
    readOr getString v key d ≠ "" ↔ v.member key ≠ some (.string "") := by
  cases hx : v.member key with
  | none => simpa [readOr, hx] using hd
  | some x =>
    obtain ⟨s, hs⟩ := h x hx
    rw [readOr_some hx hs]
    rw [getString_ok_iff] at hs
    simp [hs]

theorem readOr_number [IntCast F] [NatCast F] (d : Nat) :
    readOr getDouble v key (.fin (d : F)) = v.numberOr key d := by
  rw [readOr, numberOr]
  cases v.member key with
  | none => rfl
  | some x => cases x <;> rfl

theorem getInteger_ok_iff {x : Json F} {n : Int32} :
    getInteger key x = .ok n ↔ ∃ m, x.integer = some m ∧ m.toInt = n.toInt := by
  constructor
  · intro h
    rw [getInteger] at h
    split at h
    · cases h
    · next m hm =>
      split at h
      · cases h
      · next hrange =>
        cases h
        refine ⟨m, hm, ?_⟩
        rw [Int64.toInt_toInt32, Int.bmod_eq_of_le] <;> omega
  · rintro ⟨m, hm, hn⟩
    exact getInteger_of_toInt hm hn

/-- An unsigned number from `2^63` on is read as a negative one, and no other value changes. -/
theorem getInteger_pos_iff {x : Json F} {n : Int32} (hn : 0 < n.toInt) :
    getInteger key x = .ok n ↔ x.exactInteger = some n.toInt := by
  rw [getInteger_ok_iff]
  cases x with
  | numberUnsigned u =>
    have hint : u.toInt64.toInt = u.toBitVec.toInt := rfl
    have hnat : u.toBitVec.toNat = u.toNat := rfl
    have hlt := u.toNat_lt
    have hhigh := n.toInt_lt
    simp only [integer, exactInteger, Option.some.injEq, exists_eq_left', hint,
      BitVec.toInt_eq_toNat_cond, hnat]
    split <;> omega
  | numberInteger m => simp [integer, exactInteger]
  | null => simp [integer, exactInteger]
  | boolean b => simp [integer, exactInteger]
  | numberFloat r => simp [integer, exactInteger]
  | string s => simp [integer, exactInteger]
  | array xs => simp [integer, exactInteger]
  | object ms => simp [integer, exactInteger]

theorem has_integer_iff {x : Json F} :
    Kind.integer.Has x ↔ ∃ n : Int32, x.exactInteger = some n.toInt := by
  constructor
  · intro ⟨m, hm, hlow, hhigh⟩
    exact ⟨Int32.ofInt m, by rw [hm, Int32.toInt_ofInt_of_le hlow hhigh]⟩
  · intro ⟨n, hn⟩
    exact ⟨n.toInt, hn, n.le_toInt, n.toInt_lt⟩

/-- An integer that has to be positive, as its default is. -/
theorem integer_field_iff (v : Json F) (key : String) {d : Int32} (hd : 0 < d.toInt) :
    Typed (getInteger key) v key ∧ 0 < (readOr (getInteger key) v key d).toInt ↔
      (∀ x, v.member key = some x → Kind.integer.Has x) ∧ 0 < v.integerOr key d.toInt := by
  cases hx : v.member key with
  | none => simp [Typed, readOr, integerOr, hx, hd]
  | some x =>
    constructor
    · rintro ⟨htyped, hpos⟩
      obtain ⟨n, hn⟩ := htyped x hx
      rw [readOr_some hx hn] at hpos
      rw [getInteger_pos_iff hpos] at hn
      refine ⟨?_, by simpa [integerOr, hx, hn] using hpos⟩
      intro y hy
      cases hy
      exact has_integer_iff.2 ⟨n, hn⟩
    · rintro ⟨hkind, hpos⟩
      obtain ⟨n, hn⟩ := has_integer_iff.1 (hkind x rfl)
      have hpos' : 0 < n.toInt := by simpa [integerOr, hx, hn] using hpos
      have hget : getInteger key x = .ok n := (getInteger_pos_iff hpos').2 hn
      refine ⟨typed_of_member hx hget, ?_⟩
      rwa [readOr_some hx hget]

theorem toInt_readOr {d : Int32} (htyped : Typed (getInteger key) v key)
    (hpos : 0 < (readOr (getInteger key) v key d).toInt) :
    (readOr (getInteger key) v key d).toInt = v.integerOr key d.toInt := by
  cases hx : v.member key with
  | none => simp [readOr, integerOr, hx]
  | some x =>
    obtain ⟨n, hn⟩ := htyped x hx
    rw [readOr_some hx hn] at hpos ⊢
    rw [getInteger_pos_iff hpos] at hn
    simp [integerOr, hx, hn]

theorem port_field_iff (v : Json F) (key : String) {d : Int32} (hd : 0 < d.toInt) :
    Typed (getInteger key) v key ∧ IsPort (readOr (getInteger key) v key d) ↔
      (∀ x, v.member key = some x → Kind.integer.Has x) ∧
        1 ≤ v.integerOr key d.toInt ∧ v.integerOr key d.toInt ≤ 65535 := by
  constructor
  · intro ⟨htyped, hlow, hhigh⟩
    have heq := toInt_readOr htyped hlow
    refine ⟨((integer_field_iff v key hd).1 ⟨htyped, hlow⟩).1, ?_⟩
    rw [← heq]
    exact ⟨hlow, hhigh⟩
  · intro ⟨hkind, hlow, hhigh⟩
    obtain ⟨htyped, hpos⟩ := (integer_field_iff v key hd).2 ⟨hkind, hlow⟩
    refine ⟨htyped, ?_⟩
    rw [IsPort, toInt_readOr htyped hpos]
    exact ⟨hlow, hhigh⟩

theorem required_text_iff : (∃ s, v.member key = some (.string s)) ↔
    (v.member key).isSome = true ∧ ∀ x, v.member key = some x → Kind.text.Has x := by
  cases v.member key with
  | none => simp
  | some x => simp [Kind.Has]

theorem required_port_iff :
    (∃ x n, v.member key = some x ∧ getInteger key x = .ok n ∧ IsPort n) ↔
      (v.member key).isSome = true ∧ (∀ x, v.member key = some x → Kind.integer.Has x) ∧
        1 ≤ v.integerOr key 0 ∧ v.integerOr key 0 ≤ 65535 := by
  cases hx : v.member key with
  | none => simp
  | some x =>
    constructor
    · intro ⟨y, n, hy, hn, hlow, hhigh⟩
      cases hy
      rw [getInteger_pos_iff hlow] at hn
      refine ⟨rfl, ?_, ?_⟩
      · intro y hy
        cases hy
        exact has_integer_iff.2 ⟨n, hn⟩
      · simpa [integerOr, hx, hn] using And.intro hlow hhigh
    · intro ⟨_, hkind, hrange⟩
      obtain ⟨n, hn⟩ := has_integer_iff.1 (hkind x rfl)
      have hport : IsPort n := by simpa [IsPort, integerOr, hx, hn] using hrange
      exact ⟨x, n, rfl, (getInteger_pos_iff hport.1).2 hn, hport⟩

theorem hasKinds_append {typed typed' : List (String × Kind)} :
    HasKinds (typed ++ typed') v ↔ HasKinds typed v ∧ HasKinds typed' v :=
  List.forall_mem_append

theorem hasKinds_map {keys : List String} {kind : Kind} : HasKinds (keys.map (·, kind)) v ↔
    ∀ key ∈ keys, ∀ x, v.member key = some x → kind.Has x := by
  simp [HasKinds]

/-- The fields of the mode can be read. -/
def Transportable (v : Json F) : DriverMode → Prop
  | .udp => (∃ ip, v.member "ip" = some (.string ip)) ∧
      ∃ x n, v.member "port" = some x ∧ getInteger "port" x = .ok n ∧ IsPort n
  | .pcap => ∃ path, v.member "pcap_path" = some (.string path) ∧ path ≠ ""

theorem transportable_iff {mode : DriverMode} : Transportable v mode ↔ HasKinds mode.ownFields v ∧
    (∀ key ∈ mode.ownFields.map Prod.fst, (v.member key).isSome = true) ∧
      match mode with
      | .udp => 1 ≤ v.integerOr "port" 0 ∧ v.integerOr "port" 0 ≤ 65535
      | .pcap => v.member "pcap_path" ≠ some (.string "") := by
  cases mode with
  | udp =>
    rw [Transportable, required_text_iff, required_port_iff]
    simp only [HasKinds, DriverMode.ownFields, List.map_cons, List.map_nil, List.forall_mem_cons]
    constructor
    · intro ⟨⟨hip, hiptext⟩, hport, hportint, hrange⟩
      exact ⟨⟨hiptext, hportint, by simp⟩, ⟨hip, hport, by simp⟩, hrange⟩
    · intro ⟨⟨hiptext, hportint, _⟩, ⟨hip, hport, _⟩, hrange⟩
      exact ⟨⟨hip, hiptext⟩, hport, hportint, hrange⟩
  | pcap =>
    simp only [HasKinds, DriverMode.ownFields, List.map_cons, List.map_nil,
      List.forall_mem_singleton, Transportable]
    constructor
    · intro ⟨path, hpath, hne⟩
      obtain ⟨hsome, hkind⟩ := required_text_iff.1 ⟨path, hpath⟩
      exact ⟨hkind, hsome, by simpa [hpath] using hne⟩
    · intro ⟨hkind, hsome, hne⟩
      obtain ⟨path, hpath⟩ := required_text_iff.2 ⟨hsome, hkind⟩
      exact ⟨path, hpath, by simpa [hpath] using hne⟩

end Kinds

section Groups

variable {v : Json F}

/-- The texts that may not be empty, as they are read. -/
theorem nonEmpty_iff (htext : ∀ key ∈ textFields, Typed getString v key)
    (htopic : (v.member "topic").isSome = true) (htopicText : Typed getString v "topic") :
    (readOr getString v "name" "lidar_driver" ≠ "" ∧ readOr getString v "topic" "" ≠ "" ∧
      readOr getString v "frame_id" "base_link" ≠ "" ∧
      readOr getString v "safety_zones_topic" "safety_zones_markers" ≠ "" ∧
      readOr getString v "safety_zones_status_topic" "safety_zones_status" ≠ "" ∧
      readOr getString v "http_host" "192.168.0.120" ≠ "" ∧
      readOr getString v "diagnostics_topic" "diagnostics" ≠ "") ↔
    ∀ key ∈ nonEmptyFields .udp, v.member key ≠ some (.string "") := by
  simp only [textFields, List.forall_mem_cons] at htext
  obtain ⟨hname, -, hframe, hzones, hstatus, hdiagnostics, hhost, -⟩ := htext
  rw [readOr_text_ne_iff (.inl (by decide)) hname, readOr_text_ne_iff (.inr htopic) htopicText,
    readOr_text_ne_iff (.inl (by decide)) hframe, readOr_text_ne_iff (.inl (by decide)) hzones,
    readOr_text_ne_iff (.inl (by decide)) hstatus, readOr_text_ne_iff (.inl (by decide)) hhost,
    readOr_text_ne_iff (.inl (by decide)) hdiagnostics]
  simp [nonEmptyFields]

/-- The integers, as they are read. -/
theorem integers_iff :
    ((∀ key ∈ integerFields, Typed (getInteger key) v key) ∧
      IsPort (readOr (getInteger "http_port") v "http_port" 80) ∧
      0 < (readOr (getInteger "http_timeout_ms") v "http_timeout_ms" 3000).toInt ∧
      0 < (readOr (getInteger "udp_reconnect_initial_ms") v "udp_reconnect_initial_ms" 250).toInt ∧
      (readOr (getInteger "udp_reconnect_initial_ms") v "udp_reconnect_initial_ms" 250).toInt ≤
        (readOr (getInteger "udp_reconnect_max_ms") v "udp_reconnect_max_ms" 5000).toInt) ↔
    HasKinds (integerFields.map (·, .integer)) v ∧
      (1 ≤ v.integerOr "http_port" 80 ∧ v.integerOr "http_port" 80 ≤ 65535) ∧
      (∀ field ∈ positiveMsFields, 0 < v.integerOr field.1 field.2) ∧
      v.integerOr "udp_reconnect_initial_ms" 250 ≤ v.integerOr "udp_reconnect_max_ms" 5000 := by
  have hinitial := integer_field_iff v "udp_reconnect_initial_ms" (d := 250) (by decide)
  have hmax := integer_field_iff v "udp_reconnect_max_ms" (d := 5000) (by decide)
  have htimeout := integer_field_iff v "http_timeout_ms" (d := 3000) (by decide)
  have hport := port_field_iff v "http_port" (d := 80) (by decide)
  simp only [hasKinds_map, integerFields, positiveMsFields, List.forall_mem_cons]
  constructor
  · rintro ⟨⟨t₁, t₂, t₃, t₄, -⟩, hp, ht, hi, hle⟩
    obtain ⟨k₁, p₁⟩ := hinitial.1 ⟨t₁, hi⟩
    obtain ⟨k₂, p₂⟩ := hmax.1 ⟨t₂, by omega⟩
    obtain ⟨k₃, p₃⟩ := hport.1 ⟨t₃, hp⟩
    obtain ⟨k₄, p₄⟩ := htimeout.1 ⟨t₄, ht⟩
    rw [toInt_readOr t₁ hi, toInt_readOr t₂ (by omega)] at hle
    exact ⟨⟨k₁, k₂, k₃, k₄, by simp⟩, p₃, ⟨p₄, p₁, by simp⟩, hle⟩
  · rintro ⟨⟨k₁, k₂, k₃, k₄, -⟩, p₃, ⟨p₄, p₁, -⟩, hle⟩
    obtain ⟨t₁, hi⟩ := hinitial.2 ⟨k₁, p₁⟩
    obtain ⟨t₂, hm⟩ := hmax.2 ⟨k₂, lt_of_lt_of_le p₁ hle⟩
    obtain ⟨t₃, hp⟩ := hport.2 ⟨k₃, p₃⟩
    obtain ⟨t₄, ht⟩ := htimeout.2 ⟨k₄, p₄⟩
    refine ⟨⟨t₁, t₂, t₃, t₄, by simp⟩, hp, ht, hi, ?_⟩
    rw [toInt_readOr t₁ hi, toInt_readOr t₂ hm]
    exact hle

/-- The requirements of the mode on top of the common ones. -/
theorem own_requirements_iff {mode : DriverMode} :
    (∀ key ∈ nonEmptyFields mode, v.member key ≠ some (.string "")) ∧
      (∀ field ∈ portFields mode,
        1 ≤ v.integerOr field.1 field.2 ∧ v.integerOr field.1 field.2 ≤ 65535) ↔
    (∀ key ∈ nonEmptyFields .udp, v.member key ≠ some (.string "")) ∧
      (1 ≤ v.integerOr "http_port" 80 ∧ v.integerOr "http_port" 80 ≤ 65535) ∧
      match mode with
      | .udp => 1 ≤ v.integerOr "port" 0 ∧ v.integerOr "port" 0 ≤ 65535
      | .pcap => v.member "pcap_path" ≠ some (.string "") := by
  cases mode with
  | udp => simp [portFields]
  | pcap =>
    have happend : nonEmptyFields .pcap = nonEmptyFields .udp ++ ["pcap_path"] := rfl
    rw [happend, List.forall_mem_append]
    simp only [portFields, List.forall_mem_singleton]
    constructor
    · intro ⟨⟨hcommon, hpath⟩, hport⟩
      exact ⟨hcommon, hport, hpath⟩
    · intro ⟨hcommon, hport, hpath⟩
      exact ⟨⟨hcommon, hpath⟩, hport⟩

end Groups

section Accepts

variable [Arith F] [IntCast F] {v : Json F} {mode : DriverMode} {captureType : CaptureType}

theorem parse_isOk_iff : (∃ c, parseDriverConfig v = .ok c) ↔ ∃ mode captureType,
    v.isObject = true ∧ (∀ key, (v.member key).isSome = true → key ∈ allowedFields) ∧
      v.member "mode" = some (.string mode.toString) ∧
      v.member "capture_type" = some (.string captureType.toString) ∧ FieldsTyped v ∧
      Validated (fieldsOf v mode captureType) ∧ Transportable v mode := by
  simp only [parseDriverConfig_ok_iff]
  constructor
  · rintro ⟨c, hobject, hknown, hmode, hcapture, htyped, hcommon, hvalid, hother, hread⟩
    refine ⟨c.mode, c.captureType, hobject, hknown, hmode, hcapture, htyped, ?_, ?_⟩
    · rw [← hcommon]
      exact validated_common.2 hvalid
    · rw [TransportRead] at hread
      cases hm : c.mode with
      | udp =>
        simp only [hm] at hread
        obtain ⟨x, n, hip, hx, hn, hrange, -⟩ := hread
        exact ⟨⟨_, hip⟩, x, n, hx, hn, hrange⟩
      | pcap =>
        simp only [hm] at hread
        exact ⟨_, hread⟩
  · rintro ⟨mode, captureType, hobject, hknown, hmode, hcapture, htyped, hvalid, htransport⟩
    cases mode with
    | udp =>
      obtain ⟨⟨ip, hip⟩, x, n, hx, hn, hrange⟩ := htransport
      refine ⟨{ fieldsOf v .udp captureType with ip, port := n.toUInt32.toUInt16 }, hobject,
        hknown, hmode, hcapture, htyped, rfl, validated_common.1 hvalid, rfl, ?_⟩
      exact ⟨x, n, hip, hx, hn, hrange, rfl⟩
    | pcap =>
      obtain ⟨path, hpath, hne⟩ := htransport
      exact ⟨{ fieldsOf v .pcap captureType with pcapPath := path }, hobject, hknown, hmode,
        hcapture, htyped, rfl, validated_common.1 hvalid, ⟨rfl, rfl⟩, hpath, hne⟩

/-- The numbers, as they are read. -/
theorem numbers_iff (mode : DriverMode) (captureType : CaptureType) :
    ((fieldsOf v mode captureType).angleOffsetDeg.isFinite = true ∧
      (fieldsOf v mode captureType).safetyDebugPeriodS.isPositive = true ∧
      (fieldsOf v mode captureType).diagnosticsPeriodS.isPositive = true ∧
      (fieldsOf v mode captureType).noDataTimeoutS.isPositive = true) ↔
    (v.numberOr "angle_offset_deg" 90).isFinite = true ∧
      ∀ field ∈ positiveFields, (v.numberOr field.1 field.2).isPositive = true := by
  simp only [fieldsOf, DriverConfig.initial, readOr_number, positiveFields, List.forall_mem_cons]
  simp

/-- Exactly the values are accepted that meet the requirements, with the types of the fields that
the mode reads. -/
theorem parse_ok_iff_meets : (∃ c, parseDriverConfig v = .ok c) ↔
    ∃ mode captureType, Meets (commonFields ++ mode.ownFields) v mode captureType := by
  rw [parse_isOk_iff]
  refine exists_congr fun mode => exists_congr fun captureType => ?_
  constructor
  · intro ⟨hobject, hknown, hmode, hcapture, htyped, hvalid, htransport⟩
    obtain ⟨hown, hrequired, hconstraint⟩ := transportable_iff.1 htransport
    obtain ⟨topic, htopic⟩ := htyped.topic
    have hsome : (v.member "topic").isSome = true := by simp [htopic]
    have hnonEmpty := (nonEmpty_iff htyped.text hsome
      (typed_of_member htopic (getString_ok_iff.2 rfl))).1
      ⟨hvalid.name, hvalid.topic, hvalid.frameId, hvalid.safetyZonesTopic,
        hvalid.safetyZonesStatusTopic, hvalid.httpHost, hvalid.diagnosticsTopic⟩
    obtain ⟨hintegers, hport, hpositiveMs, hordered⟩ := integers_iff.1
      ⟨htyped.integer, htyped.httpPort, hvalid.httpTimeoutMs, hvalid.udpReconnectInitialMs,
        hvalid.udpReconnectMaxMs⟩
    obtain ⟨hfinite, hpositive⟩ := (numbers_iff mode captureType).1
      ⟨hvalid.angleOffsetDeg, hvalid.safetyDebugPeriodS, hvalid.diagnosticsPeriodS,
        hvalid.noDataTimeoutS⟩
    obtain ⟨hnonEmptyOwn, hports⟩ := own_requirements_iff.2 ⟨hnonEmpty, hport, hconstraint⟩
    refine ⟨hobject, hknown, ?_, hmode, hcapture, ?_, hnonEmptyOwn, hfinite, hpositive,
      hpositiveMs, hordered, hports⟩
    · simp only [commonFields, hasKinds_append, hasKinds_map]
      refine ⟨⟨⟨⟨⟨?_, ?_⟩, ?_⟩, ?_⟩, hasKinds_map.1 hintegers⟩, hown⟩
      · simp [hmode, hcapture, htopic, Kind.Has]
      · exact fun key hkey => typed_text_iff.1 (htyped.text key hkey)
      · exact fun key hkey => typed_flag_iff.1 (htyped.flag key hkey)
      · exact fun key hkey => typed_number_iff.1 (htyped.number key hkey)
    · exact List.forall_mem_cons.2 ⟨hsome, hrequired⟩
  · intro h
    have htyped := h.typed
    simp only [commonFields, hasKinds_append, hasKinds_map] at htyped
    obtain ⟨⟨⟨⟨⟨hmodes, htext⟩, hflag⟩, hnumber⟩, hinteger⟩, hown⟩ := htyped
    obtain ⟨hsome, hrequired⟩ := List.forall_mem_cons.1 h.required
    obtain ⟨topic, htopic⟩ := required_text_iff.2 ⟨hsome, hmodes "topic" (by simp)⟩
    obtain ⟨hnonEmpty, hport, hconstraint⟩ := own_requirements_iff.1 ⟨h.nonEmpty, h.ports⟩
    have htextTyped : ∀ key ∈ textFields, Typed getString v key :=
      fun key hkey => typed_text_iff.2 (htext key hkey)
    obtain ⟨hname, htopicNe, hframe, hzones, hstatus, hhost, hdiagnostics⟩ :=
      (nonEmpty_iff htextTyped hsome (typed_of_member htopic (getString_ok_iff.2 rfl))).2 hnonEmpty
    obtain ⟨hintegerTyped, hportRange, htimeout, hinitial, hmax⟩ :=
      integers_iff.2 ⟨hasKinds_map.2 hinteger, hport, h.positiveMs, h.ordered⟩
    obtain ⟨hangle, hperiod, hdiagnosticsPeriod, hnoData⟩ :=
      (numbers_iff mode captureType).2 ⟨h.finite, h.positive⟩
    refine ⟨h.isObject, h.known, h.modeText, h.captureTypeText, ?_, ?_,
      transportable_iff.2 ⟨hown, hrequired, hconstraint⟩⟩
    · exact ⟨htextTyped, fun key hkey => typed_flag_iff.2 (hflag key hkey),
        fun key hkey => typed_number_iff.2 (hnumber key hkey), hintegerTyped, ⟨topic, htopic⟩,
        hportRange⟩
    · exact ⟨hname, htopicNe, hframe, hzones, hstatus, hhost, hdiagnostics, hangle, hperiod,
        htimeout, hdiagnosticsPeriod, hnoData, hinitial, hmax⟩

end Accepts

/-! ## Exceptions -/

/-- Nothing but a `std::invalid_argument` is thrown. -/
def InvalidOnly (r : Parsed α) : Prop := r ≠ .error .json

section InvalidOnly

theorem invalidOnly_ok (a : α) : InvalidOnly (.ok a : Parsed α) := by simp [InvalidOnly]

theorem invalidOnly_invalid (what : String) : InvalidOnly (invalid what : Parsed α) := by
  simp [InvalidOnly, invalid]

theorem invalidOnly_ite {p : Prop} [Decidable p] {r r' : Parsed α} (h : InvalidOnly r)
    (h' : InvalidOnly r') : InvalidOnly (if p then r else r') := by
  split
  · exact h
  · exact h'

theorem InvalidOnly.bind {r : Parsed α} {f : α → Parsed β} (h : InvalidOnly r)
    (hf : ∀ a, InvalidOnly (f a)) : InvalidOnly (r >>= f) := by
  cases r with
  | ok a => exact hf a
  | error e =>
    intro he
    exact h (congrArg Except.error (Except.error.inj he))

/-- The exceptions of `get<T>()` are caught. -/
theorem invalidOnly_rethrow (what : String) (r : Parsed α) : InvalidOnly (rethrow what r) := by
  cases r with
  | ok a => exact invalidOnly_ok a
  | error e =>
    cases e with
    | invalidArgument m => simp [rethrow, InvalidOnly]
    | json => exact invalidOnly_invalid what

variable {get : Json F → Parsed α} {v : Json F} {key : String}

theorem invalidOnly_required : InvalidOnly (required get v key) := by
  rw [required]
  split
  · exact invalidOnly_invalid _
  · exact invalidOnly_rethrow _ _

theorem invalidOnly_optional {d : α} : InvalidOnly (optional get v key d) := by
  rw [optional]
  split
  · exact invalidOnly_ok _
  · exact invalidOnly_rethrow _ _

theorem invalidOnly_integerValue {required : Bool} {d : Int32} :
    InvalidOnly (integerValue v key required d) := by
  rw [integerValue]
  split
  · exact invalidOnly_ite (invalidOnly_invalid _) (invalidOnly_ok _)
  · rw [getInteger]
    split
    · exact invalidOnly_invalid _
    · exact invalidOnly_ite (invalidOnly_invalid _) (invalidOnly_ok _)

theorem invalidOnly_parsePort {required : Bool} {d : Int32} :
    InvalidOnly (parsePort v key required d) :=
  invalidOnly_integerValue.bind fun _ =>
    invalidOnly_ite (invalidOnly_invalid _) (invalidOnly_ok _)

theorem invalidOnly_requireNotEmpty {value : String} : InvalidOnly (requireNotEmpty value key) :=
  invalidOnly_ite (invalidOnly_invalid _) (invalidOnly_ok _)

theorem invalidOnly_requirePositive {value : Bool} : InvalidOnly (requirePositive value key) :=
  invalidOnly_ite (invalidOnly_ok _) (invalidOnly_invalid _)

theorem invalidOnly_parseTransport (c : DriverConfig F) : InvalidOnly (parseTransport v c) := by
  rw [parseTransport]
  split
  · exact invalidOnly_required.bind fun _ => invalidOnly_parsePort.bind fun _ => invalidOnly_ok _
  · exact invalidOnly_required.bind fun _ => invalidOnly_requireNotEmpty.bind fun _ =>
      invalidOnly_ok _

variable [Arith F]

theorem invalidOnly_validate (c : DriverConfig F) : InvalidOnly (validate c) :=
  invalidOnly_requireNotEmpty.bind fun _ => invalidOnly_requireNotEmpty.bind fun _ =>
  invalidOnly_requireNotEmpty.bind fun _ => invalidOnly_requireNotEmpty.bind fun _ =>
  invalidOnly_requireNotEmpty.bind fun _ => invalidOnly_requireNotEmpty.bind fun _ =>
  invalidOnly_requireNotEmpty.bind fun _ =>
  (invalidOnly_ite (invalidOnly_ok _) (invalidOnly_invalid _)).bind fun _ =>
  invalidOnly_requirePositive.bind fun _ => invalidOnly_requirePositive.bind fun _ =>
  invalidOnly_requirePositive.bind fun _ => invalidOnly_requirePositive.bind fun _ =>
  invalidOnly_requirePositive.bind fun _ =>
  invalidOnly_ite (invalidOnly_invalid _) (invalidOnly_ok _)

variable [IntCast F]

theorem invalidOnly_parseFields (mode : DriverMode) (captureType : CaptureType) :
    InvalidOnly (parseFields v mode captureType) :=
  invalidOnly_optional.bind fun _ => invalidOnly_required.bind fun _ =>
  invalidOnly_optional.bind fun _ => invalidOnly_optional.bind fun _ =>
  invalidOnly_optional.bind fun _ => invalidOnly_optional.bind fun _ =>
  invalidOnly_optional.bind fun _ => invalidOnly_optional.bind fun _ =>
  invalidOnly_optional.bind fun _ => invalidOnly_optional.bind fun _ =>
  invalidOnly_optional.bind fun _ => invalidOnly_optional.bind fun _ =>
  invalidOnly_optional.bind fun _ => invalidOnly_integerValue.bind fun _ =>
  invalidOnly_integerValue.bind fun _ => invalidOnly_optional.bind fun _ =>
  invalidOnly_parsePort.bind fun _ => invalidOnly_integerValue.bind fun _ => invalidOnly_ok _

theorem invalidOnly_parse : InvalidOnly (parseDriverConfig v) := by
  rw [parseDriverConfig]
  refine invalidOnly_ite ?_ (invalidOnly_invalid _)
  have hfields : InvalidOnly (checkFields v) := by
    rw [checkFields]
    split
    · exact invalidOnly_invalid _
    · exact invalidOnly_ok _
  have hmode : ∀ text, InvalidOnly (parseMode text) := fun text =>
    invalidOnly_ite (invalidOnly_ok _) (invalidOnly_ite (invalidOnly_ok _) (invalidOnly_invalid _))
  have hcapture : ∀ text, InvalidOnly (parseCaptureType text) := fun text =>
    invalidOnly_ite (invalidOnly_ok _) (invalidOnly_ite (invalidOnly_ok _) (invalidOnly_invalid _))
  exact hfields.bind fun _ => invalidOnly_required.bind fun _ => (hmode _).bind fun _ =>
    invalidOnly_required.bind fun _ => (hcapture _).bind fun _ =>
    (invalidOnly_parseFields _ _).bind fun _ => (invalidOnly_validate _).bind fun _ =>
    invalidOnly_parseTransport _

end InvalidOnly

/-! ## The promise of the header -/

section Promise

theorem hasKinds_declared_iff {v : Json F} (mode : DriverMode) : HasKinds declaredFields v ↔
    HasKinds (commonFields ++ mode.ownFields) v ∧ HasKinds mode.other.ownFields v := by
  cases mode with
  | udp => exact hasKinds_append
  | pcap =>
    simp only [declaredFields, hasKinds_append, DriverMode.other]
    tauto

theorem mode_unique {v : Json F} {mode mode' : DriverMode}
    (h : v.member "mode" = some (.string mode.toString))
    (h' : v.member "mode" = some (.string mode'.toString)) : mode = mode' := by
  have htext : mode.toString = mode'.toString := by simpa using h.symm.trans h'
  cases mode <;> cases mode' <;> simp [DriverMode.toString] at htext ⊢

variable [Arith F] [IntCast F]

/-- A value is accepted if it meets the requirements with the types of all fields, and only then,
and it is rejected by a `std::invalid_argument`. -/
def KeepsPromise (v : Json F) : Prop :=
  ((∃ c, parseDriverConfig v = .ok c) ↔
    ∃ mode captureType, Meets declaredFields v mode captureType) ∧
  ∀ e, parseDriverConfig v = .error e → ∃ what, e = .invalidArgument what

theorem meets_declared_iff {v : Json F} {mode : DriverMode} {captureType : CaptureType} :
    Meets declaredFields v mode captureType ↔
      Meets (commonFields ++ mode.ownFields) v mode captureType ∧
        HasKinds mode.other.ownFields v := by
  constructor
  · intro h
    obtain ⟨htyped, hother⟩ := (hasKinds_declared_iff mode).1 h.typed
    exact ⟨{ h with typed := htyped }, hother⟩
  · intro ⟨h, hother⟩
    exact { h with typed := (hasKinds_declared_iff mode).2 ⟨h.typed, hother⟩ }

/-- The promise is kept exactly if no field of the other mode has the wrong type in a value that
meets all other requirements: those fields are never read. -/
theorem keepsPromise_iff (v : Json F) : KeepsPromise v ↔
    ∀ mode captureType, Meets (commonFields ++ mode.ownFields) v mode captureType →
      HasKinds mode.other.ownFields v := by
  have hexceptions : ∀ e, parseDriverConfig v = .error e → ∃ what, e = .invalidArgument what := by
    intro e he
    cases e with
    | invalidArgument what => exact ⟨what, rfl⟩
    | json => exact absurd he invalidOnly_parse
  rw [KeepsPromise, and_iff_left hexceptions, parse_ok_iff_meets]
  constructor
  · intro h mode captureType hmeets
    obtain ⟨mode', captureType', hdeclared⟩ := h.1 ⟨mode, captureType, hmeets⟩
    rw [mode_unique hmeets.modeText hdeclared.modeText]
    exact (meets_declared_iff.1 hdeclared).2
  · intro h
    constructor
    · intro ⟨mode, captureType, hmeets⟩
      exact ⟨mode, captureType, meets_declared_iff.2 ⟨hmeets, h mode captureType hmeets⟩⟩
    · intro ⟨mode, captureType, hdeclared⟩
      exact ⟨mode, captureType, (meets_declared_iff.1 hdeclared).1⟩

end Promise

/-- A PCAP configuration with a port that is a text. -/
def textPortJson : Json ℝ :=
  .object [("mode", .string "PCAP"), ("capture_type", .string "SINGLE"),
    ("pcap_path", .string "/tmp/lidar.pcap"), ("topic", .string "scan"),
    ("port", .string "50007")]

noncomputable def textPortConfig : DriverConfig ℝ :=
  { DriverConfig.initial .pcap .single with pcapPath := "/tmp/lidar.pcap", topic := "scan" }

/-- It is accepted. -/
theorem textPort_breaks_promise :
    parseDriverConfig textPortJson = .ok textPortConfig ∧ ¬ KeepsPromise textPortJson := by
  have hparse : parseDriverConfig textPortJson = .ok textPortConfig := by
    have hvalid : Validated textPortConfig := by
      have h := validated_udpConfig
      exact ⟨h.1, h.2, h.3, h.4, h.5, h.6, h.7, h.8, h.9, h.10, h.11, h.12, h.13, h.14⟩
    refine parseDriverConfig_ok_iff.2
      ⟨rfl, ?_, rfl, rfl, ?_, ?_, hvalid, ⟨rfl, rfl⟩, rfl, by decide⟩
    · have hallowed : ∀ key ∈ ["mode", "capture_type", "pcap_path", "topic", "port"],
          key ∈ allowedFields := by decide
      intro key h
      exact hallowed key (member_isSome_iff.1 h)
    · refine ⟨?_, ?_, ?_, ?_, ⟨"scan", rfl⟩, by decide, by decide⟩
      · simp [textFields, Typed, textPortJson, List.lookup_cons]
      · simp [flagFields, Typed, textPortJson, List.lookup_cons]
      · simp [numberFields, Typed, textPortJson, List.lookup_cons]
      · simp [integerFields, Typed, textPortJson, List.lookup_cons]
    · rfl
  refine ⟨hparse, ?_⟩
  intro h
  obtain ⟨mode, captureType, hmeets⟩ := h.1.1 ⟨_, hparse⟩
  obtain ⟨n, hn, -⟩ := hmeets.typed ("port", .integer) (by decide) (.string "50007") rfl
  cases hn

end MechLidar
