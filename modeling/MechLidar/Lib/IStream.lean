import Mathlib

/-!
# Module Lib.IStream

Extraction from a string stream in the C locale.

* `scanInteger` - an optional sign and a run of digits, as `strtol` reads it
* `IStream` - what is still to be read and the bits eofbit and failbit
* `IStream.string`, `IStream.int` - the formatted extractors, which skip whitespace first
* `IStream.getline` - reads up to the next line feed
-/

namespace MechLidar.Lib

abbrev Bytes := List UInt8

def INT_MAX : Int := 2147483647

def INT_MIN : Int := -2147483648

/-! ## Runs of characters -/

/-- All of `xs` satisfies `p`, and what follows does not go on with it. -/
def Spans {α : Type*} (p : α → Bool) (xs rest : List α) : Prop :=
  (∀ x ∈ xs, p x = true) ∧ ∀ x ∈ rest.head?, p x = false

theorem spans_takeWhile {α : Type*} (p : α → Bool) (xs : List α) :
    Spans p (xs.takeWhile p) (xs.dropWhile p) := by
  refine ⟨fun x hx => List.mem_takeWhile_imp hx, fun x hx => ?_⟩
  have hhead := List.head?_dropWhile_not p xs
  rw [Option.mem_def] at hx
  rw [hx] at hhead
  simpa using hhead

theorem Spans.takeWhile {α : Type*} {p : α → Bool} {xs rest : List α} (h : Spans p xs rest) :
    (xs ++ rest).takeWhile p = xs := by
  rw [List.takeWhile_append_of_pos h.1]
  cases rest with
  | nil => simp
  | cons x rest => simp [h.2 x rfl]

theorem Spans.dropWhile {α : Type*} {p : α → Bool} {xs rest : List α} (h : Spans p xs rest) :
    (xs ++ rest).dropWhile p = rest := by
  rw [List.dropWhile_append_of_pos h.1]
  cases rest with
  | nil => simp
  | cons x rest => simp [h.2 x rfl]

/-- A list is cut in one way only into a run and what follows it. -/
theorem Spans.unique {α : Type*} {p : α → Bool} {xs rest xs' rest' : List α}
    (h : Spans p xs rest) (h' : Spans p xs' rest') (heq : xs ++ rest = xs' ++ rest') :
    xs = xs' ∧ rest = rest' := by
  refine ⟨?_, ?_⟩
  · rw [← h.takeWhile, heq, h'.takeWhile]
  · rw [← h.dropWhile, heq, h'.dropWhile]

/-! ## Characters and numbers -/

/-- Space, tab, line feed, vertical tab, form feed and carriage return. -/
def isspace (b : UInt8) : Bool := b == 32 || (9 ≤ b && b ≤ 13)

def isdigit (b : UInt8) : Bool := 48 ≤ b && b ≤ 57

/-- The value of a run of decimal digits. -/
def decimal (digits : Bytes) : Nat :=
  digits.foldl (fun n b => 10 * n + (b.toNat - 48)) 0

def sign : Bytes → Int × Bytes
  | [] => (1, [])
  | b :: bs => if b = 45 then (-1, bs) else if b = 43 then (1, bs) else (1, b :: bs)

/-- The integer at the front, none if there is no digit, and what is behind it. -/
def scanInteger (xs : Bytes) : Option Int × Bytes :=
  let digits := (sign xs).2.takeWhile isdigit
  (if digits = [] then none else some ((sign xs).1 * decimal digits),
    (sign xs).2.dropWhile isdigit)

/-- The spellings of a sign, and their values. -/
inductive IsSign : Bytes → Int → Prop where
  | none : IsSign [] 1
  | plus : IsSign [43] 1
  | minus : IsSign [45] (-1)

theorem sign_append {sgn digits rest : Bytes} {k : Int} (hs : IsSign sgn k) (hne : digits ≠ [])
    (hd : ∀ b ∈ digits, isdigit b = true) :
    sign (sgn ++ (digits ++ rest)) = (k, digits ++ rest) := by
  cases hs with
  | plus => rfl
  | minus => rfl
  | none =>
    cases digits with
    | nil => exact absurd rfl hne
    | cons b digits =>
      have hb := hd b (by simp)
      have hminus : b ≠ 45 := by rintro rfl; exact absurd hb (by decide)
      have hplus : b ≠ 43 := by rintro rfl; exact absurd hb (by decide)
      simp [sign, hminus, hplus]

theorem sign_cases (xs : Bytes) : ∃ sgn, IsSign sgn (sign xs).1 ∧ xs = sgn ++ (sign xs).2 := by
  cases xs with
  | nil => exact ⟨[], .none, rfl⟩
  | cons b bs =>
    simp only [sign]
    split
    · next h => exact ⟨[45], .minus, by simp [h]⟩
    · split
      · next h => exact ⟨[43], .plus, by simp [h]⟩
      · exact ⟨[], .none, rfl⟩

theorem scanInteger_spans {sgn digits rest : Bytes} {k : Int} (hs : IsSign sgn k)
    (hne : digits ≠ []) (hd : Spans isdigit digits rest) :
    scanInteger (sgn ++ (digits ++ rest)) = (some (k * decimal digits), rest) := by
  simp [scanInteger, sign_append hs hne hd.1, hd.takeWhile, hd.dropWhile, hne]

theorem scanInteger_cases (xs : Bytes) :
    (∃ sgn k digits rest, IsSign sgn k ∧ digits ≠ [] ∧ Spans isdigit digits rest ∧
      xs = sgn ++ (digits ++ rest)) ∨ (scanInteger xs).1 = none := by
  obtain ⟨sgn, hs, hxs⟩ := sign_cases xs
  by_cases hne : (sign xs).2.takeWhile isdigit = []
  · exact .inr (by simp [scanInteger, hne])
  · refine .inl ⟨sgn, _, _, _, hs, hne, spans_takeWhile isdigit _, ?_⟩
    rw [List.takeWhile_append_dropWhile]
    exact hxs

/-! ## The stream -/

structure IStream where
  rest : Bytes
  eofbit : Bool := false
  failbit : Bool := false
deriving DecidableEq, Repr

namespace IStream

def good (s : IStream) : Bool := !s.eofbit && !s.failbit

/-- The sentry of the formatted extractors. -/
def skipws (s : IStream) : IStream :=
  if s.good then
    let rest := s.rest.dropWhile isspace
    if rest = [] then { rest := [], eofbit := true, failbit := true } else { rest }
  else { s with failbit := true }

def string (s : IStream) (str : Bytes) : Bytes × IStream :=
  let s := s.skipws
  if s.good then
    let rest := s.rest.dropWhile fun b => !isspace b
    (s.rest.takeWhile fun b => !isspace b, { rest, eofbit := rest.isEmpty })
  else (str, s)

/-- An integer that does not fit is stored as the nearest bound and sets failbit. -/
def store (v : Int) (rest : Bytes) : Int × IStream :=
  if v < INT_MIN then (INT_MIN, { rest, eofbit := rest.isEmpty, failbit := true })
  else if INT_MAX < v then (INT_MAX, { rest, eofbit := rest.isEmpty, failbit := true })
  else (v, { rest, eofbit := rest.isEmpty })

def int (s : IStream) (n : Int) : Int × IStream :=
  let s := s.skipws
  if s.good then
    let rest := (scanInteger s.rest).2
    match (scanInteger s.rest).1 with
    | none => (0, { rest, eofbit := rest.isEmpty, failbit := true })
    | some v => store v rest
  else (n, s)

def getline (s : IStream) (str : Bytes) : Bytes × IStream :=
  if s.good then
    let line := s.rest.takeWhile (· ≠ 10)
    match s.rest.dropWhile (· ≠ 10) with
    | [] => (line, { rest := [], eofbit := true, failbit := line.isEmpty })
    | _ :: rest => (line, { rest })
  else (str, { s with failbit := true })

theorem store_fits {v : Int} (hlow : INT_MIN ≤ v) (hhigh : v ≤ INT_MAX) (rest : Bytes) :
    store v rest = (v, ⟨rest, rest.isEmpty, false⟩) := by
  rw [store, if_neg (by omega), if_neg (by omega)]

theorem store_pos {v : Int} (h : 0 < v) (rest : Bytes) : 0 < (store v rest).1 := by
  rw [store, if_neg (by simp only [INT_MIN]; omega)]
  by_cases hhigh : INT_MAX < v
  · rw [if_pos hhigh]
    exact (by decide : 0 < INT_MAX)
  · rwa [if_neg hhigh]

theorem store_nonpos {v : Int} (h : v ≤ 0) (rest : Bytes) : (store v rest).1 ≤ 0 := by
  by_cases hlow : v < INT_MIN
  · rw [store, if_pos hlow]
    exact (by decide : INT_MIN ≤ 0)
  · rwa [store, if_neg hlow, if_neg (by simp only [INT_MAX]; omega)]

theorem skipws_spans {skipped rest : Bytes} (h : Spans isspace skipped rest) (hne : rest ≠ []) :
    skipws ⟨skipped ++ rest, false, false⟩ = ⟨rest, false, false⟩ := by
  simp [skipws, good, h.dropWhile, hne]

theorem skipws_cases (text : Bytes) :
    (∃ skipped rest, text = skipped ++ rest ∧ Spans isspace skipped rest ∧ rest ≠ []) ∨
    (skipws ⟨text, false, false⟩).good = false := by
  by_cases hne : text.dropWhile isspace = []
  · exact .inr (by simp [skipws, good, hne])
  · exact .inl ⟨_, _, List.takeWhile_append_dropWhile.symm, spans_takeWhile isspace text, hne⟩

theorem string_spans {skipped word rest : Bytes} (hs : Spans isspace skipped (word ++ rest))
    (hw : Spans (fun b => !isspace b) word rest) (hne : word ≠ []) (str : Bytes) :
    string ⟨skipped ++ (word ++ rest), false, false⟩ str =
      (word, ⟨rest, rest.isEmpty, false⟩) := by
  have hskip := skipws_spans hs (by simp [hne])
  simp [string, hskip, good, hw.takeWhile, hw.dropWhile]

/-- A word is read, or the string keeps its value. -/
theorem string_cases (text str : Bytes) :
    (∃ skipped word rest, text = skipped ++ (word ++ rest) ∧ Spans isspace skipped (word ++ rest) ∧
      Spans (fun b => !isspace b) word rest ∧ word ≠ []) ∨
    (string ⟨text, false, false⟩ str).1 = str := by
  rcases skipws_cases text with ⟨skipped, rest, rfl, hs, hne⟩ | hbad
  · have hcut := List.takeWhile_append_dropWhile (p := fun b => !isspace b) (l := rest)
    refine .inl ⟨skipped, _, _, by rw [hcut], by rwa [hcut], spans_takeWhile _ rest, ?_⟩
    cases rest with
    | nil => exact absurd rfl hne
    | cons b rest => simp [hs.2 b rfl]
  · exact .inr (by simp [string, hbad])

theorem int_spans {skipped sgn digits rest : Bytes} {k : Int}
    (hs : Spans isspace skipped (sgn ++ (digits ++ rest))) (hsign : IsSign sgn k)
    (hne : digits ≠ []) (hd : Spans isdigit digits rest) (n : Int) :
    int ⟨skipped ++ (sgn ++ (digits ++ rest)), false, false⟩ n =
      store (k * decimal digits) rest := by
  have hskip := skipws_spans hs (by simp [hne])
  simp [int, hskip, good, scanInteger_spans hsign hne hd]

/-- A number is read, or zero is stored, or the variable keeps its value. -/
theorem int_cases (text : Bytes) (n : Int) :
    (∃ skipped sgn k digits rest, text = skipped ++ (sgn ++ (digits ++ rest)) ∧
      Spans isspace skipped (sgn ++ (digits ++ rest)) ∧ IsSign sgn k ∧ digits ≠ [] ∧
      Spans isdigit digits rest) ∨
    (int ⟨text, false, false⟩ n).1 = 0 ∨ (int ⟨text, false, false⟩ n).1 = n := by
  rcases skipws_cases text with ⟨skipped, rest, rfl, hs, hne⟩ | hbad
  · rcases scanInteger_cases rest with ⟨sgn, k, digits, rest, hsign, hdne, hd, rfl⟩ | hnone
    · exact .inl ⟨skipped, sgn, k, digits, rest, rfl, hs, hsign, hdne, hd⟩
    · exact .inr (.inl (by simp [int, skipws_spans hs hne, good, hnone]))
  · exact .inr (.inr (by simp [int, hbad]))

end IStream

end MechLidar.Lib
