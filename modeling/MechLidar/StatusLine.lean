import MechLidar.Http

/-!
# MechLidar.StatusLine

Which status lines `parse_response` accepts. The line is read by stream extraction, which skips
any whitespace, reads a sign, and goes on after an integer that does not fit.

* `StatusScan`: a text as the extractors take it apart
* `StatusScan.Strict`: the same text as a status line is written
* `StatusLine`: what a response says about the first line it came from
* `parseResponse_statusLine_iff`: when every accepted response has such a first line
-/

namespace MechLidar

open Lib

/-- A word that begins with `HTTP/` and a positive number behind it, wherever they stand. -/
structure StatusScan (text : Bytes) where
  skipped : Bytes
  token : Bytes
  gap : Bytes
  sgn : Bytes
  digits : Bytes
  rest : Bytes
  text_eq : text = skipped ++ (token ++ (gap ++ (sgn ++ (digits ++ rest))))
  skipped_space : ∀ b ∈ skipped, isspace b = true
  token_word : ∀ b ∈ token, isspace b = false
  token_http : bytes "HTTP/" <+: token
  gap_ne : gap ≠ []
  gap_space : ∀ b ∈ gap, isspace b = true
  sgn_eq : sgn = [] ∨ sgn = [43]
  digits_ne : digits ≠ []
  digits_span : Spans isdigit digits rest
  positive : 0 < decimal digits

/-- The text begins with the token, only spaces stand before the number, and the number has no
sign and fits. -/
structure StatusScan.Strict {text : Bytes} (s : StatusScan text) : Prop where
  skipped : s.skipped = []
  gap : ∀ b ∈ s.gap, b = 32
  sgn : s.sgn = []
  fits : (decimal s.digits : Int) ≤ INT_MAX

def firstLine (raw : Bytes) : Bytes :=
  match find crlf raw with
  | none => raw
  | some i => raw.take i

def dropSpace (text : Bytes) : Bytes := if text.head? = some 32 then text.tail else text

/-- The text behind the number up to its first LF, without the space it begins with and with or
without a CR it ends with. -/
def ReasonOf (rest reason : Bytes) : Prop :=
  reason = dropSpace (rest.takeWhile (· ≠ 10)) ∨
    reason ++ [13] = dropSpace (rest.takeWhile (· ≠ 10))

/-- The first line of `raw` is a status line with the code and the reason of the response. -/
def StatusLine (raw : Bytes) (r : HttpResponse) : Prop :=
  ∃ s : StatusScan (firstLine raw), s.Strict ∧ r.statusCode = decimal s.digits ∧
    ReasonOf s.rest r.reason

/-! ## One text is scanned in one way -/

theorem isdigit_not_space {b : UInt8} (h : isdigit b = true) : isspace b = false := by
  simp only [isdigit, Bool.and_eq_true, decide_eq_true_eq] at h
  have h48 : 48 ≤ b.toNat := UInt8.le_iff_toNat_le.1 h.1
  simp only [isspace, Bool.or_eq_false_iff, beq_eq_false_iff_ne, ne_eq, Bool.and_eq_false_iff,
    decide_eq_false_iff_not]
  refine ⟨?_, .inr fun h13 => ?_⟩
  · rintro rfl
    exact absurd h48 (by decide)
  · have : b.toNat ≤ 13 := UInt8.le_iff_toNat_le.1 h13
    omega

section Scan

variable {text : Bytes} (s : StatusScan text)

theorem StatusScan.token_ne : s.token ≠ [] := by
  intro h
  have := s.token_http.length_le
  rw [h] at this
  exact absurd this (by decide)

/-- What stands behind the gap does not go on with it. -/
theorem StatusScan.number_head (more : Bytes) :
    ∀ b ∈ (s.sgn ++ (s.digits ++ more)).head?, isspace b = false := by
  intro b hb
  rcases s.sgn_eq with h | h
  · rw [h, List.nil_append] at hb
    cases hd : s.digits with
    | nil => exact absurd hd s.digits_ne
    | cons d ds =>
      rw [hd] at hb
      obtain rfl : d = b := by simpa using hb
      exact isdigit_not_space (s.digits_span.1 d (by simp [hd]))
  · rw [h] at hb
    obtain rfl : 43 = b := by simpa using hb
    decide

theorem StatusScan.gap_spans : Spans isspace s.gap (s.sgn ++ (s.digits ++ s.rest)) :=
  ⟨s.gap_space, s.number_head s.rest⟩

theorem StatusScan.token_spans :
    Spans (fun b => !isspace b) s.token (s.gap ++ (s.sgn ++ (s.digits ++ s.rest))) := by
  refine ⟨fun b hb => by simp [s.token_word b hb], fun b hb => ?_⟩
  cases hg : s.gap with
  | nil => exact absurd hg s.gap_ne
  | cons g gs =>
    rw [hg] at hb
    obtain rfl : g = b := by simpa using hb
    simp [s.gap_space g (by simp [hg])]

theorem StatusScan.skipped_spans :
    Spans isspace s.skipped (s.token ++ (s.gap ++ (s.sgn ++ (s.digits ++ s.rest)))) := by
  refine ⟨s.skipped_space, fun b hb => ?_⟩
  cases ht : s.token with
  | nil => exact absurd ht s.token_ne
  | cons t ts =>
    rw [ht] at hb
    obtain rfl : t = b := by simpa using hb
    exact s.token_word t (by simp [ht])

theorem StatusScan.isSign : IsSign s.sgn 1 := by
  rcases s.sgn_eq with h | h
  · rw [h]
    exact .none
  · rw [h]
    exact .plus

theorem StatusScan.unique (s s' : StatusScan text) :
    s.skipped = s'.skipped ∧ s.token = s'.token ∧ s.gap = s'.gap ∧ s.sgn = s'.sgn ∧
    s.digits = s'.digits := by
  obtain ⟨hskipped, h⟩ := s.skipped_spans.unique s'.skipped_spans (s.text_eq.symm.trans s'.text_eq)
  obtain ⟨htoken, h⟩ := s.token_spans.unique s'.token_spans h
  obtain ⟨hgap, h⟩ := s.gap_spans.unique s'.gap_spans h
  have hnumber : s.digits ++ s.rest = s'.digits ++ s'.rest := by
    have hsign := congrArg sign h
    rw [sign_append s.isSign s.digits_ne s.digits_span.1,
      sign_append s'.isSign s'.digits_ne s'.digits_span.1] at hsign
    exact (Prod.ext_iff.1 hsign).2
  obtain ⟨hdigits, _⟩ := s.digits_span.unique s'.digits_span hnumber
  rw [hnumber] at h
  exact ⟨hskipped, htoken, hgap, List.append_cancel_right h, hdigits⟩

/-- The same words with another text behind the number. -/
def StatusScan.withRest (text' rest : Bytes)
    (h : text' = s.skipped ++ (s.token ++ (s.gap ++ (s.sgn ++ (s.digits ++ rest)))))
    (hrest : ∀ b ∈ rest.head?, isdigit b = false) : StatusScan text' :=
  { s with
    rest
    text_eq := h
    digits_span := ⟨s.digits_span.1, hrest⟩ }

theorem StatusScan.withRest_strict {text' rest : Bytes}
    {h : text' = s.skipped ++ (s.token ++ (s.gap ++ (s.sgn ++ (s.digits ++ rest))))}
    {hrest : ∀ b ∈ rest.head?, isdigit b = false} (hs : s.Strict) :
    (s.withRest text' rest h hrest).Strict :=
  ⟨hs.skipped, hs.gap, hs.sgn, hs.fits⟩

theorem StatusScan.Strict.of_scan {s : StatusScan text} (hs : s.Strict) (s' : StatusScan text) :
    s'.Strict := by
  obtain ⟨hskipped, _, hgap, hsgn, hdigits⟩ := s.unique s'
  exact ⟨hskipped ▸ hs.skipped, hgap ▸ hs.gap, hsgn ▸ hs.sgn, hdigits ▸ hs.fits⟩

theorem StatusScan.head_append {more : Bytes} (h : ∀ b ∈ more.head?, isdigit b = false) :
    ∀ b ∈ (s.rest ++ more).head?, isdigit b = false := by
  intro b hb
  cases hrest : s.rest with
  | nil => exact h b (by simpa [hrest] using hb)
  | cons c cs => exact s.digits_span.2 b (by simpa [hrest] using hb)

/-- A scan of a text is one of every longer text, unless the number goes on there. -/
def StatusScan.extend {text' more : Bytes} (h : text' = text ++ more)
    (hmore : ∀ b ∈ more.head?, isdigit b = false) : StatusScan text' :=
  s.withRest text' (s.rest ++ more)
    (h.trans ((congrArg (· ++ more) s.text_eq).trans (by simp))) (s.head_append hmore)

/-- The words of a strict scan stand on one line. -/
theorem StatusScan.Strict.no_cr {s : StatusScan text} (hs : s.Strict) :
    13 ∉ s.token ++ (s.gap ++ s.digits) := by
  intro hmem
  rcases List.mem_append.1 hmem with h | h
  · exact absurd (s.token_word 13 h) (by decide)
  · rcases List.mem_append.1 h with h | h
    · exact absurd (hs.gap 13 h) (by decide)
    · exact absurd (s.digits_span.1 13 h) (by decide)

end Scan

/-! ## The parser on a scanned text -/

/-- What `>> response.status_code` makes of the number. -/
def StatusScan.stored {text : Bytes} (s : StatusScan text) : Int × IStream :=
  IStream.store (decimal s.digits) s.rest

theorem StatusScan.stored_pos {text : Bytes} (s : StatusScan text) : 0 < s.stored.1 :=
  IStream.store_pos (by have := s.positive; omega) s.rest

theorem parseResponse_of_scan {raw : Bytes} {bodyPos : Nat} (h : find sep raw = some bodyPos)
    (s : StatusScan (raw.take bodyPos)) :
    parseResponse raw = .ok
      { statusCode := s.stored.1
        reason := trimReason (s.stored.2.getline []).1
        headers := raw.take bodyPos
        body := raw.drop (bodyPos + sep.length) } := by
  have hword := IStream.string_spans s.skipped_spans s.token_spans s.token_ne []
  have hint := IStream.int_spans s.gap_spans s.isSign s.digits_ne s.digits_span 0
  have hmore : (s.gap ++ (s.sgn ++ (s.digits ++ s.rest))).isEmpty = false := by
    simp [s.gap_ne]
  have hhttp : find (bytes "HTTP/") s.token = some 0 :=
    find_eq_some_iff.2 ⟨occursAt_zero.2 s.token_http, fun j hj => absurd hj (by omega)⟩
  rw [← s.text_eq, hmore] at hword
  rw [one_mul] at hint
  have haccept : ¬ (find (bytes "HTTP/") s.token ≠ some 0 ∨ s.stored.1 ≤ 0) := by
    simpa [hhttp] using s.stored_pos
  simp only [parseResponse, h, hword, hint]
  exact if_neg haccept

theorem parseResponse_inv {raw : Bytes} {r : HttpResponse} (h : parseResponse raw = .ok r) :
    ∃ bodyPos, find sep raw = some bodyPos ∧
      find (bytes "HTTP/") (IStream.string ⟨raw.take bodyPos, false, false⟩ []).1 = some 0 ∧
      0 < ((IStream.string ⟨raw.take bodyPos, false, false⟩ []).2.int 0).1 := by
  cases hfind : find sep raw with
  | none =>
    rw [parseResponse, hfind] at h
    cases h
  | some bodyPos =>
    simp only [parseResponse, hfind] at h
    split at h
    · cases h
    · next haccept =>
      refine ⟨bodyPos, rfl, ?_, ?_⟩
      · simpa using not_or.1 haccept |>.1
      · simpa using not_or.1 haccept |>.2

/-- Every accepted response has a scan. -/
theorem scan_of_parseResponse {raw : Bytes} {r : HttpResponse} (h : parseResponse raw = .ok r) :
    ∃ bodyPos, find sep raw = some bodyPos ∧ Nonempty (StatusScan (raw.take bodyPos)) := by
  obtain ⟨bodyPos, hfind, hhttp, hcode⟩ := parseResponse_inv h
  refine ⟨bodyPos, hfind, ?_⟩
  rcases IStream.string_cases (raw.take bodyPos) [] with
    ⟨skipped, token, text, htext, hskipped, htoken, hne⟩ | hnone
  · rw [htext, IStream.string_spans hskipped htoken hne] at hhttp hcode
    cases text with
    | nil => exact absurd hcode (by simp [IStream.int, IStream.skipws, IStream.good])
    | cons b text =>
      have hspace : isspace b = true := by simpa using htoken.2 b rfl
      rcases IStream.int_cases (b :: text) 0 with
        ⟨gap, sgn, k, digits, rest, hnumber, hgap, hsign, hdne, hdigits⟩ | hzero | hzero
      · simp only [hnumber] at hcode
        have hmore : (gap ++ (sgn ++ (digits ++ rest))).isEmpty = false := by
          rw [← hnumber]
          rfl
        rw [hmore, IStream.int_spans hgap hsign hdne hdigits] at hcode
        have hgapne : gap ≠ [] := by
          rintro rfl
          have := hgap.2 b (by rw [← List.nil_append (sgn ++ (digits ++ rest)), ← hnumber]; rfl)
          rw [hspace] at this
          cases this
        have hplus : sgn = [] ∨ sgn = [43] := by
          cases hsign with
          | none => exact .inl rfl
          | plus => exact .inr rfl
          | minus =>
            have := IStream.store_nonpos (v := -1 * (decimal digits : Int)) (by omega) rest
            omega
        have hpositive : 0 < decimal digits := by
          by_contra hzero
          have := IStream.store_nonpos (v := k * (decimal digits : Int))
            (by rw [show decimal digits = 0 by omega]; simp) rest
          omega
        refine ⟨⟨skipped, token, gap, sgn, digits, rest, by rw [htext, hnumber], hskipped.1,
          fun b hb => by simpa using htoken.1 b hb, ?_, hgapne, hgap.1, hplus, hdne, hdigits,
          hpositive⟩⟩
        simpa using (find_eq_some_iff.1 hhttp).1
      · exact absurd hzero (by simp only [List.isEmpty_cons] at hcode; omega)
      · exact absurd hzero (by simp only [List.isEmpty_cons] at hcode; omega)
  · rw [hnone] at hhttp
    exact absurd hhttp (by decide)

/-! ## The first line -/

/-- The first line and what follows it, which is nothing or begins with CR LF. -/
theorem firstLine_cases (raw : Bytes) :
    ∃ more, raw = firstLine raw ++ more ∧ (more = [] ∨ ∃ tail, more = 13 :: 10 :: tail) := by
  cases h : find crlf raw with
  | none => exact ⟨[], by simp [firstLine, h], .inl rfl⟩
  | some i =>
    refine ⟨raw.drop i, by simp [firstLine, h], .inr ?_⟩
    obtain ⟨tail, htail⟩ := (find_eq_some_iff.1 h).1.2
    exact ⟨tail, by rw [← htail]; rfl⟩

theorem digit_head_of_crlf {more : Bytes} (h : more = [] ∨ ∃ tail, more = 13 :: 10 :: tail) :
    ∀ b ∈ more.head?, isdigit b = false := by
  intro b hb
  rcases h with rfl | ⟨tail, rfl⟩
  · cases hb
  · obtain rfl : 13 = b := by simpa using hb
    decide

/-- The header block is not followed by a digit. -/
theorem digit_head_drop {raw : Bytes} {bodyPos : Nat} (h : find sep raw = some bodyPos) :
    ∀ b ∈ (raw.drop bodyPos).head?, isdigit b = false := by
  obtain ⟨_, tail, htail⟩ := (find_eq_some_iff.1 h).1
  exact digit_head_of_crlf (.inr ⟨13 :: 10 :: tail, htail.symm⟩)

/-- Text without CR at the front is in the first line. -/
theorem firstLine_append {text : Bytes} (h : 13 ∉ text) (more : Bytes) :
    firstLine (text ++ more) = text ++ firstLine more := by
  induction text with
  | nil => rfl
  | cons b text ih =>
    have hb : b ≠ 13 := by rintro rfl; exact h (by simp)
    have hnot : ¬ crlf <+: b :: (text ++ more) := by
      rintro ⟨t, ht⟩
      have : (13 : UInt8) = b := by
        have := congrArg List.head? ht
        simpa [crlf, bytes] using this
      exact hb this.symm
    have ih := ih fun hmem => h (by simp [hmem])
    simp only [firstLine, List.cons_append, find, if_neg hnot] at ih ⊢
    cases hfind : find crlf (text ++ more) with
    | none =>
      rw [hfind] at ih
      simpa using ih
    | some i =>
      rw [hfind] at ih
      simpa using ih

/-- The first line ends at the first CR LF, so in front of any one. -/
theorem firstLine_prefix (text tail : Bytes) : firstLine (text ++ 13 :: 10 :: tail) <+: text := by
  have hocc : OccursAt crlf (text ++ 13 :: 10 :: tail) text.length := by
    have := occursAt_append_self text crlf tail
    simpa [crlf, bytes] using this
  cases h : find crlf (text ++ 13 :: 10 :: tail) with
  | none => exact absurd hocc (find_eq_none_iff.1 h _)
  | some i =>
    have hle : i ≤ text.length := by
      by_contra hlt
      exact (find_eq_some_iff.1 h).2 _ (by omega) hocc
    rw [firstLine, h]
    change (text ++ 13 :: 10 :: tail).take i <+: text
    rw [List.take_append_of_le_length hle]
    exact List.take_prefix i text

/-! ## The reason -/

theorem dropSpace_append_cr (line : Bytes) : dropSpace (line ++ [13]) = dropSpace line ++ [13] := by
  cases line with
  | nil => rfl
  | cons b line =>
    by_cases hb : b = 32
    · simp [dropSpace, hb]
    · simp [dropSpace, hb]

/-- The CR of the line end goes, and a CR in front of it goes when the line end was not read. -/
theorem reasonOf_trimReason {rest text : Bytes}
    (h : text = rest.takeWhile (· ≠ 10) ∨ text = rest.takeWhile (· ≠ 10) ++ [13]) :
    ReasonOf rest (trimReason text) := by
  have htrim : trimReason text =
      if (dropSpace text).getLast? = some 13 then (dropSpace text).dropLast else dropSpace text :=
    rfl
  rw [htrim]
  rcases h with rfl | rfl
  · split
    · next hcr =>
      exact .inr (List.dropLast_append_getLast? 13 hcr)
    · exact .inl rfl
  · rw [dropSpace_append_cr, List.getLast?_concat, if_pos rfl, List.dropLast_concat]
    exact .inl rfl

theorem getline_eq (rest : Bytes) :
    (IStream.getline ⟨rest, rest.isEmpty, false⟩ []).1 = rest.takeWhile (· ≠ 10) := by
  cases rest with
  | nil => rfl
  | cons b rest =>
    simp only [IStream.getline, IStream.good, List.isEmpty_cons]
    cases (b :: rest).dropWhile (· ≠ 10) with
    | nil => rfl
    | cons c cs => rfl

/-- `getline` reads what is left of the line, and the CR behind it when that is in the block. -/
theorem takeWhile_line {rest line more : Bytes} (h : rest <+: line ++ more) (hline : line <+: rest)
    (hmore : more = [] ∨ ∃ tail, more = 13 :: 10 :: tail) :
    rest.takeWhile (· ≠ 10) = line.takeWhile (· ≠ 10) ∨
      rest.takeWhile (· ≠ 10) = line.takeWhile (· ≠ 10) ++ [13] := by
  obtain ⟨behind, rfl⟩ := hline
  have hbehind : behind <+: more := (List.prefix_append_right_inj line).1 h
  by_cases hlf : ∀ b ∈ line, decide (b ≠ 10) = true
  · have hall : line.takeWhile (· ≠ 10) = line := List.takeWhile_eq_self_iff.2 hlf
    rw [List.takeWhile_append_of_pos hlf, hall]
    rcases hmore with rfl | ⟨tail, rfl⟩
    · exact .inl (by simp [List.prefix_nil.1 hbehind])
    · cases behind with
      | nil => exact .inl (by simp)
      | cons b behind =>
        obtain ⟨rfl, hrest⟩ := List.cons_prefix_cons.1 hbehind
        cases behind with
        | nil => exact .inr (by simp)
        | cons c behind =>
          obtain ⟨rfl, -⟩ := List.cons_prefix_cons.1 hrest
          exact .inr (by simp)
  · have hcut : (line.takeWhile (· ≠ 10)).length ≠ line.length := fun hlen => by
      refine hlf (List.takeWhile_eq_self_iff.1 ?_)
      exact (List.takeWhile_prefix _).eq_of_length hlen
    rw [List.takeWhile_append, if_neg hcut]
    exact .inl rfl

/-! ## Strict scans and status lines -/

/-- A strict scan of the header block is one of the first line, and the reason is from there. -/
theorem statusLine_of_strict {raw : Bytes} {bodyPos : Nat} (hfind : find sep raw = some bodyPos)
    {s : StatusScan (raw.take bodyPos)} (hs : s.Strict) {r : HttpResponse}
    (hr : parseResponse raw = .ok r) : StatusLine raw r := by
  have hraw : raw = (s.token ++ (s.gap ++ s.digits)) ++ (s.rest ++ raw.drop bodyPos) := by
    have h := List.take_append_drop bodyPos raw
    rw [s.text_eq, hs.skipped, hs.sgn] at h
    simpa using h.symm
  have hfirst := firstLine_append hs.no_cr (s.rest ++ raw.drop bodyPos)
  rw [← hraw] at hfirst
  have hstored : s.stored = ((decimal s.digits : Int), ⟨s.rest, s.rest.isEmpty, false⟩) :=
    IStream.store_fits (by simp only [INT_MIN]; omega) hs.fits s.rest
  obtain rfl : _ = r := Except.ok.inj ((parseResponse_of_scan hfind s).symm.trans hr)
  obtain ⟨more, hline, hmore⟩ := firstLine_cases (s.rest ++ raw.drop bodyPos)
  have hrest : s.rest <+: firstLine (s.rest ++ raw.drop bodyPos) ++ more :=
    hline ▸ List.prefix_append _ _
  have hin : firstLine (s.rest ++ raw.drop bodyPos) <+: s.rest := by
    obtain ⟨_, tail, htail⟩ := (find_eq_some_iff.1 hfind).1
    have hsep : raw.drop bodyPos = 13 :: 10 :: (13 :: 10 :: tail) := htail.symm
    rw [hsep]
    exact firstLine_prefix s.rest _
  refine ⟨s.withRest _ (firstLine (s.rest ++ raw.drop bodyPos)) ?_ ?_, s.withRest_strict hs,
    ?_, ?_⟩
  · rw [hfirst, hs.skipped, hs.sgn]
    simp
  · intro b hb
    refine s.head_append (digit_head_drop hfind) b ?_
    rw [hline]
    simp only [Option.mem_def] at hb ⊢
    simp [List.head?_append, hb]
  · simp only [hstored]
    rfl
  · simp only [hstored, getline_eq]
    exact reasonOf_trimReason (takeWhile_line hrest hin hmore)

/-- Every response that is accepted for `raw` has its status line on the first line of `raw`
exactly when the header block, however it is scanned, is written as a status line. -/
theorem parseResponse_statusLine_iff (raw : Bytes) :
    (∀ r, parseResponse raw = .ok r → StatusLine raw r) ↔
      ∀ bodyPos, find sep raw = some bodyPos → ∀ s : StatusScan (raw.take bodyPos), s.Strict := by
  constructor
  · intro h bodyPos hfind s
    obtain ⟨s', hs', -, -⟩ := h _ (parseResponse_of_scan hfind s)
    obtain ⟨more, hraw, hmore⟩ := firstLine_cases raw
    -- both scans go on to scans of all of raw, and there is one only
    have hstrict : (s'.extend hraw (digit_head_of_crlf hmore)).Strict := s'.withRest_strict hs'
    have hblock := hstrict.of_scan
      (s.extend (List.take_append_drop bodyPos raw).symm (digit_head_drop hfind))
    exact ⟨hblock.skipped, hblock.gap, hblock.sgn, hblock.fits⟩
  · intro h r hr
    obtain ⟨bodyPos, hfind, ⟨s⟩⟩ := scan_of_parseResponse hr
    exact statusLine_of_strict hfind (h bodyPos hfind s) hr

/-- The status line of this response is its second line. -/
def lateStatusLine : Bytes := bytes "\r\nHTTP/1.0 200 OK\r\n\r\n"

theorem lateStatusLine_accepted :
    ∃ r, parseResponse lateStatusLine = .ok r ∧ ¬ StatusLine lateStatusLine r := by
  refine ⟨⟨200, bytes "OK", bytes "\r\nHTTP/1.0 200 OK", []⟩, by decide, ?_⟩
  rintro ⟨s, -⟩
  have hempty : firstLine lateStatusLine = [] := by decide
  have htext := s.text_eq.symm.trans hempty
  simp only [List.append_eq_nil_iff] at htext
  exact s.token_ne htext.2.1

end MechLidar
