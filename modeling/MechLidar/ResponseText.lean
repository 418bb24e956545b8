import MechLidar.StatusLine
import MechLidar.Requests

/-!
# MechLidar.ResponseText

A response that is written out and parsed again.

* `responseText`: the status line and the header lines joined by CR LF, the empty line, the body
* `decimal_toString`: a number is read back from its digits
* `find_sep_responseText`: the first empty line is the one behind the header lines
* `parseResponse_responseText`: the parser gives back every part
-/

namespace MechLidar

open Lib

def statusLineText (version : Bytes) (code : Nat) (reason : Bytes) : Bytes :=
  version ++ (bytes " " ++ (bytes (toString code) ++ (bytes " " ++ reason)))

/-- The status line and the header lines, joined by CR LF. -/
def headText (version : Bytes) (code : Nat) (reason : Bytes) (headerLines : List Bytes) : Bytes :=
  crlf.intercalate (statusLineText version code reason :: headerLines)

def responseText (version : Bytes) (code : Nat) (reason : Bytes) (headerLines : List Bytes)
    (body : Bytes) : Bytes :=
  headText version code reason headerLines ++ (sep ++ body)

/-- Text without CR and LF. -/
def Unbroken (text : Bytes) : Prop := 13 ∉ text ∧ 10 ∉ text

instance (text : Bytes) : Decidable (Unbroken text) := inferInstanceAs (Decidable (_ ∧ _))

/-! ## The digits of a number -/

theorem byte_of_digit {c : Char} (h : c.isDigit = true) :
    isdigit c.toNat.toUInt8 = true ∧ c.toNat.toUInt8.toNat = c.toNat := by
  have hdigit := Char.isDigit_iff_toNat.mp h
  have hlow : 48 ≤ c.toNat := hdigit.1
  have hhigh : c.toNat ≤ 57 := hdigit.2
  have hval : c.toNat.toUInt8.toNat = c.toNat := by
    rw [Nat.toUInt8_eq, UInt8.toNat_ofNat', Nat.mod_eq_of_lt (by omega)]
  refine ⟨?_, hval⟩
  simp only [isdigit, Bool.and_eq_true, decide_eq_true_eq, UInt8.le_iff_toNat_le, hval]
  exact ⟨hlow, hhigh⟩

theorem isdigit_toString (n : Nat) : ∀ b ∈ bytes (toString n), isdigit b = true := by
  intro b hb
  obtain ⟨c, hc, rfl⟩ := List.mem_map.mp hb
  rw [Nat.toString_eq_repr, Nat.toList_repr] at hc
  exact (byte_of_digit (Nat.isDigit_of_mem_toDigits (by decide) (by decide) hc)).1

theorem toString_ne_nil (n : Nat) : bytes (toString n) ≠ [] := by
  intro h
  have hlength := congrArg List.length h
  have hpos : 0 < n.repr.length := Nat.length_repr_pos
  rw [bytes, List.length_map, Nat.toString_eq_repr, String.length_toList] at hlength
  simp only [List.length_nil] at hlength
  omega

/-- The bytes of digits stand for the same number as the characters. -/
theorem foldl_digits (cs : List Char) (h : ∀ c ∈ cs, c.isDigit = true) :
    ∀ n, (cs.map fun c => c.toNat.toUInt8).foldl (fun n b => 10 * n + (b.toNat - 48)) n =
      Nat.ofDigitChars 10 cs n := by
  induction cs with
  | nil => intro n; rfl
  | cons c cs ih =>
    intro n
    have hval := (byte_of_digit (h c List.mem_cons_self)).2
    rw [List.map_cons, List.foldl_cons, hval, Nat.ofDigitChars_cons]
    exact ih (fun c' hc' => h c' (List.mem_cons_of_mem c hc')) _

theorem decimal_toString (n : Nat) : decimal (bytes (toString n)) = n := by
  have hdigits : ∀ c ∈ Nat.toDigits 10 n, c.isDigit = true := fun c hc =>
    Nat.isDigit_of_mem_toDigits (by decide) (by decide) hc
  rw [decimal, bytes, Nat.toString_eq_repr, Nat.toList_repr, foldl_digits _ hdigits]
  exact Nat.ofDigitChars_ten_toDigits

/-! ## The lines -/

/-- The lines joined by CR LF, with the empty line and the body behind them. -/
theorem intercalate_block (l : Bytes) (ls : List Bytes) (body : Bytes) :
    crlf.intercalate (l :: ls) ++ (sep ++ body) = block body (l :: ls) := by
  induction ls generalizing l with
  | nil =>
    show [l].flatten ++ (crlf ++ (crlf ++ body)) = l ++ (crlf ++ (crlf ++ body))
    simp
  | cons l' ls ih =>
    rw [List.intercalate_cons_of_ne_nil (List.cons_ne_nil l' ls), block, ← ih l']
    simp

theorem Unbroken.find_crlf {text : Bytes} (h : Unbroken text) : find crlf text = none :=
  find_crlf_of_no_cr h.1

theorem Unbroken.append {a b : Bytes} (ha : Unbroken a) (hb : Unbroken b) : Unbroken (a ++ b) := by
  simp only [Unbroken, List.mem_append, not_or]
  exact ⟨⟨ha.1, hb.1⟩, ha.2, hb.2⟩

theorem unbroken_of_not_space {text : Bytes} (h : ∀ b ∈ text, isspace b = false) :
    Unbroken text :=
  ⟨fun hcr => absurd (h 13 hcr) (by decide), fun hlf => absurd (h 10 hlf) (by decide)⟩

section Response

variable {version reason : Bytes} {code : Nat} {headerLines : List Bytes}

theorem unbroken_statusLineText (hversion : ∀ b ∈ version, isspace b = false)
    (hreason : Unbroken reason) : Unbroken (statusLineText version code reason) := by
  have hspace : Unbroken (bytes " ") := by decide
  have hcode : Unbroken (bytes (toString code)) :=
    unbroken_of_not_space fun b hb => isdigit_not_space (isdigit_toString code b hb)
  exact (unbroken_of_not_space hversion).append
    (hspace.append (hcode.append (hspace.append hreason)))

theorem statusLineText_ne_nil : statusLineText version code reason ≠ [] := by
  simp [statusLineText, bytes]

/-- The first empty line ends the head. -/
theorem find_sep_responseText (hversion : ∀ b ∈ version, isspace b = false)
    (hreason : Unbroken reason) (hlines : ∀ l ∈ headerLines, l ≠ [] ∧ Unbroken l) (body : Bytes) :
    find sep (responseText version code reason headerLines body) =
      some (headText version code reason headerLines).length := by
  have hls : ∀ l ∈ statusLineText version code reason :: headerLines,
      l ≠ [] ∧ find crlf l = none := by
    intro l hl
    rcases List.mem_cons.mp hl with rfl | hl
    · exact ⟨statusLineText_ne_nil, (unbroken_statusLineText hversion hreason).find_crlf⟩
    · exact ⟨(hlines l hl).1, (hlines l hl).2.find_crlf⟩
  obtain ⟨headEnd, hfind, hsplit, -⟩ := find_sep_block hls (List.cons_ne_nil _ _) body
  have hhead : crlf.intercalate
      (split crlf ((block body (statusLineText version code reason :: headerLines)).take headEnd)) =
      (block body (statusLineText version code reason :: headerLines)).take headEnd :=
    intercalate_split (by decide)
  have hle : headEnd ≤ (block body (statusLineText version code reason :: headerLines)).length :=
    (find_eq_some_iff.mp hfind).1.1
  have hlength := congrArg List.length hhead
  rw [hsplit, List.length_take, Nat.min_eq_left hle] at hlength
  rw [responseText, headText, intercalate_block, hfind, hlength]

theorem take_head (body : Bytes) :
    (responseText version code reason headerLines body).take
      (headText version code reason headerLines).length =
        headText version code reason headerLines := List.take_left

theorem drop_head (body : Bytes) :
    (responseText version code reason headerLines body).drop
      ((headText version code reason headerLines).length + sep.length) = body := by
  rw [← List.drop_drop, responseText, List.drop_left, List.drop_left]

/-- What stands behind the reason in the head: nothing, or the end of the line. -/
theorem headText_eq : ∃ more, headText version code reason headerLines =
      statusLineText version code reason ++ more ∧
      (more = [] ∨ ∃ tail, more = 13 :: 10 :: tail) := by
  cases headerLines with
  | nil => exact ⟨[], by simp [headText], .inl rfl⟩
  | cons l ls =>
    rw [headText, List.intercalate_cons_of_ne_nil (List.cons_ne_nil l ls)]
    exact ⟨_, List.append_assoc _ _ _, .inr ⟨_, rfl⟩⟩

/-- The words of the status line, as the extractors find them. -/
def headScan {text more : Bytes} (htext : text = statusLineText version code reason ++ more)
    (hhttp : bytes "HTTP/" <+: version) (hversion : ∀ b ∈ version, isspace b = false)
    (hcode : 1 ≤ code) : StatusScan text where
  skipped := []
  token := version
  gap := bytes " "
  sgn := []
  digits := bytes (toString code)
  rest := bytes " " ++ reason ++ more
  text_eq := by simp [htext, statusLineText]
  skipped_space := by simp
  token_word := hversion
  token_http := hhttp
  gap_ne := by decide
  gap_space := by simp [bytes, isspace]
  sgn_eq := .inl rfl
  digits_ne := toString_ne_nil code
  digits_span := ⟨isdigit_toString code, by simp [bytes, isdigit]⟩
  positive := by rw [decimal_toString]; exact hcode

/-- The rest of the line is the reason, with the space before it and the CR behind it. -/
theorem trimReason_line (hreason : Unbroken reason) {more : Bytes}
    (hmore : more = [] ∨ ∃ tail, more = 13 :: 10 :: tail) :
    trimReason ((bytes " " ++ reason ++ more).takeWhile (· ≠ 10)) = reason := by
  have hnolf : ∀ b ∈ bytes " " ++ reason, decide (b ≠ 10) = true := by
    intro b hb
    rcases List.mem_append.mp hb with hb | hb
    · obtain rfl : b = 32 := by simpa [bytes] using hb
      decide
    · exact decide_eq_true fun h => hreason.2 (h ▸ hb)
  have hnocr : reason.getLast? ≠ some 13 := fun h => hreason.1 (List.mem_of_getLast? h)
  rw [List.takeWhile_append_of_pos hnolf]
  rcases hmore with rfl | ⟨tail, rfl⟩
  · rw [List.takeWhile_nil, List.append_nil]
    simp [trimReason, bytes, hnocr]
  · have hcr : (13 :: 10 :: tail : Bytes).takeWhile (· ≠ 10) = [13] := rfl
    rw [hcr]
    simp [trimReason, bytes]

/-- Every well-formed response is given back by the parser: the code, the reason, the text before
the first empty line as the headers, and the body. -/
theorem parseResponse_responseText (hhttp : bytes "HTTP/" <+: version)
    (hversion : ∀ b ∈ version, isspace b = false) (hcode : 1 ≤ code)
    (hfits : (code : Int) ≤ INT_MAX) (hreason : 13 ∉ reason ∧ 10 ∉ reason)
    (hlines : ∀ l ∈ headerLines, l ≠ [] ∧ 13 ∉ l ∧ 10 ∉ l) (body : Bytes) :
    let text := responseText version code reason headerLines body
    let head := headText version code reason headerLines
    find sep text = some head.length ∧ text.take head.length = head ∧
      parseResponse text =
        .ok { statusCode := code, reason := reason, headers := head, body := body } := by
  intro text head
  have hfind : find sep text = some head.length :=
    find_sep_responseText hversion hreason hlines body
  have htake : text.take head.length = head := take_head body
  refine ⟨hfind, htake, ?_⟩
  obtain ⟨more, hhead, hmore⟩ : ∃ more, head = statusLineText version code reason ++ more ∧ _ :=
    headText_eq
  let s := headScan (htake.trans hhead) hhttp hversion hcode
  have hstored : s.stored = ((code : Int), ⟨s.rest, s.rest.isEmpty, false⟩) := by
    have hdecimal : decimal s.digits = code := decimal_toString code
    rw [StatusScan.stored, hdecimal]
    exact IStream.store_fits (by simp only [INT_MIN]; omega) hfits s.rest
  have hline : trimReason (s.stored.2.getline []).1 = reason := by
    rw [hstored, getline_eq]
    exact trimReason_line hreason hmore
  have hnumber : s.stored.1 = code := by rw [hstored]
  rw [parseResponse_of_scan hfind s, hline, hnumber, take_head, drop_head]

/-- A reason with spaces at both ends, two header lines, and a body with an empty line in it. -/
theorem parseResponse_responseText_plain :
    let head := headText (bytes "HTTP/1.1") 404 (bytes " Not found ") [bytes "A: b", bytes " "]
    parseResponse (responseText (bytes "HTTP/1.1") 404 (bytes " Not found ")
        [bytes "A: b", bytes " "] (bytes "\r\n\r\nB")) =
      .ok ⟨404, bytes " Not found ", head, bytes "\r\n\r\nB"⟩ :=
  have hversion : ∀ b ∈ bytes "HTTP/1.1", isspace b = false := by simp [bytes, isspace]
  (parseResponse_responseText (by decide) hversion (by decide) (by decide) (by decide)
    (by decide) _).2.2

end Response

end MechLidar
