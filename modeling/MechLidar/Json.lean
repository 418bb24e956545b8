import MechLidar.Number

/-!
# MechLidar.Json

What the driver uses of a `nlohmann::json` value: its members by their keys, and the typed `get`.

* `Json`: the value, an object being the list of its members in the order of `items()`
* `getString`, `getBoolean`, `getDouble`: `get<T>()`, which throws on a value of another type
* `integer`: `get<int64_t>()` of a number without a fraction
* `set`: `value[key] = x`
-/

namespace MechLidar

/-- Two kinds of exceptions: a `std::invalid_argument` and a `json::exception`. -/
inductive ConfigException where
  | invalidArgument (what : String)
  | json
deriving DecidableEq, Repr

inductive Json (F : Type) where
  | null
  | boolean (b : Bool)
  | numberInteger (n : Int64)
  | numberUnsigned (n : UInt64)
  | numberFloat (x : Flt F)
  | string (s : String)
  | array (elements : List (Json F))
  | object (members : List (String × Json F))

namespace Json

variable {F : Type}

def isObject : Json F → Bool
  | .object _ => true
  | _ => false

/-- The members, none of a value that is no object. -/
def members : Json F → List (String × Json F)
  | .object members => members
  | _ => []

/-- `at(key)`, where `contains(key)`. -/
def member (v : Json F) (key : String) : Option (Json F) := v.members.lookup key

def getString : Json F → Except ConfigException String
  | .string s => .ok s
  | _ => .error .json

def getBoolean : Json F → Except ConfigException Bool
  | .boolean b => .ok b
  | _ => .error .json

/-- Any of the three types of numbers, and no boolean. -/
def getDouble [IntCast F] [NatCast F] : Json F → Except ConfigException (Flt F)
  | .numberFloat x => .ok x
  | .numberInteger n => .ok (.fin (n.toInt : F))
  | .numberUnsigned n => .ok (.fin (n.toNat : F))
  | _ => .error .json

@[simp] theorem getString_string (s : String) : getString (string s : Json F) = .ok s := rfl

@[simp] theorem getBoolean_boolean (b : Bool) : getBoolean (boolean b : Json F) = .ok b := rfl

@[simp] theorem getDouble_numberFloat [IntCast F] [NatCast F] (x : Flt F) :
    getDouble (numberFloat x) = .ok x := rfl

/-- `get<int64_t>()`, where `is_number_integer()` or `is_number_unsigned()`. It does not throw, and
it turns the unsigned numbers from `2^63` on into negative ones. -/
def integer : Json F → Option Int64
  | .numberInteger n => some n
  | .numberUnsigned n => some n.toInt64
  | _ => none

/-- `value[key] = x` on an object. -/
def set (v : Json F) (key : String) (x : Json F) : Json F :=
  if (v.member key).isSome then
    .object (v.members.map fun m => if m.1 = key then (key, x) else m)
  else .object (v.members ++ [(key, x)])

/-! ## Members -/

@[simp] theorem member_object (members : List (String × Json F)) (key : String) :
    (object members).member key = members.lookup key := rfl

theorem member_isSome_iff {v : Json F} {key : String} :
    (v.member key).isSome = true ↔ key ∈ v.members.map Prod.fst := by
  rw [member]
  generalize v.members = members
  induction members with
  | nil => simp
  | cons m members ih =>
    obtain ⟨k, y⟩ := m
    rw [List.lookup_cons]
    by_cases hk : key = k
    · simp [hk]
    · simp [hk, ih, beq_eq_false_iff_ne.2 hk]

@[simp] theorem isObject_set (v : Json F) (key : String) (x : Json F) :
    (v.set key x).isObject = true := by
  rw [set]
  split
  · rfl
  · rfl

theorem lookup_map_set (members : List (String × Json F)) (key : String) (x : Json F)
    (k : String) :
    (members.map fun m => if m.1 = key then (key, x) else m).lookup k =
      if k = key then (members.lookup k).map fun _ => x else members.lookup k := by
  induction members with
  | nil => simp
  | cons m members ih =>
    obtain ⟨k', y⟩ := m
    rw [List.map_cons, List.lookup_cons, List.lookup_cons, ih]
    by_cases hk : k = key
    · subst hk
      by_cases hk' : k' = k
      · simp [hk']
      · simp [hk', beq_eq_false_iff_ne.2 (Ne.symm hk')]
    · by_cases hk' : k' = key
      · simp [hk, hk', beq_eq_false_iff_ne.2 hk]
      · simp [hk, hk']

/-- The member that is set, and the others as they were. -/
@[simp] theorem member_set (v : Json F) (key : String) (x : Json F) (k : String) :
    (v.set key x).member k = if k = key then some x else v.member k := by
  rw [set]
  split
  · next hsome =>
    rw [member_object, lookup_map_set]
    by_cases hk : k = key
    · subst hk
      obtain ⟨y, hy⟩ := Option.isSome_iff_exists.1 hsome
      rw [member] at hy
      simp [hy]
    · simp [hk, member]
  · next hnone =>
    rw [member_object, List.lookup_append]
    by_cases hk : k = key
    · subst hk
      rw [Bool.not_eq_true, Option.isSome_eq_false_iff, Option.isNone_iff_eq_none, member] at hnone
      simp [hnone]
    · have hne : (k == key) = false := beq_eq_false_iff_ne.2 hk
      simp [hk, hne, member, List.lookup_cons]

end Json

end MechLidar
