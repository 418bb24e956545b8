import MechLidar.Cli

/-!
# MechLidar.Requests

What the HTTP commands send, read back as a request. `parse_cli` refuses a `--set-config` name that
is empty or has a slash, and nothing else; the name and the host are then written into the request
as they are.

* `OneRequest`: the bytes are one HTTP/1.0 request with this method, target, header and body
* `Accepted`: what `parse_cli` promises about the options
* `oneRequest_requestText`: a request whose parts fit its format is read back
* `runHttpCommand_request_iff`: when the bytes are the request of the selected command
-/

namespace MechLidar

open Lib

/-! ## Reading a request -/

/-- The header block ends at the first empty line, its first line has three words, and what is
behind it is the body. -/
def OneRequest (sent method target : Bytes) (headers : List Bytes) (body : Bytes) : Prop :=
  ∃ headEnd requestLine, find sep sent = some headEnd ∧
    split crlf (sent.take headEnd) = requestLine :: headers ∧
    split [32] requestLine = [method, target, bytes "HTTP/1.0"] ∧
    sent.drop (headEnd + sep.length) = body

def requestMethod (o : CliOptions) : Bytes :=
  match o.httpCommand with
  | .post => bytes "POST"
  | .setConfig => bytes "POST"
  | _ => bytes "GET"

def requestTarget (o : CliOptions) : Bytes :=
  match o.httpCommand with
  | .setConfig => bytes "/config/" ++ o.configName
  | _ => o.httpPath

def requestBody (o : CliOptions) : Bytes :=
  match o.httpCommand with
  | .post => o.httpBody
  | .setConfig => o.configValue
  | _ => []

def requestHeaders (host method body : Bytes) : List Bytes :=
  [bytes "Host: " ++ host, bytes "Connection: close"] ++
  if method = bytes "POST" then
    [bytes "Content-Type: application/json",
     bytes "Content-Length: " ++ bytes (toString body.length)]
  else []

/-- The other side takes the connection and all of the request. -/
def Peer.Delivers (peer : Peer) : Prop :=
  peer.connect = .ok () ∧
    ∀ answer ∈ peer.send, answer ≠ .accepted 0 ∧ ∀ errno, answer = .failed errno → errno = EINTR

/-! ## Lines -/

theorem crlf_prefix_cons {b : UInt8} {xs : Bytes} :
    crlf <+: b :: xs ↔ b = 13 ∧ xs.head? = some 10 := by
  cases xs with
  | nil => simp [crlf, bytes]
  | cons c xs => simp [crlf, bytes, eq_comm]

theorem find_crlf_cons {b : UInt8} {xs : Bytes} :
    find crlf (b :: xs) = none ↔ ¬ (b = 13 ∧ xs.head? = some 10) ∧ find crlf xs = none := by
  rw [find, ← crlf_prefix_cons]
  by_cases h : crlf <+: b :: xs
  · simp [h]
  · simp [h]

theorem find_crlf_append {a b : Bytes} (ha : find crlf a = none) (hb : find crlf b = none)
    (h : a.getLast? ≠ some 13 ∨ b.head? ≠ some 10) : find crlf (a ++ b) = none := by
  induction a with
  | nil => exact hb
  | cons x a ih =>
    obtain ⟨hx, ha⟩ := find_crlf_cons.1 ha
    cases a with
    | nil =>
      refine find_crlf_cons.2 ⟨?_, hb⟩
      rintro ⟨rfl, hhead⟩
      rcases h with h | h
      · exact h rfl
      · exact h hhead
    | cons y a =>
      exact find_crlf_cons.2 ⟨hx, ih ha (by simpa using h)⟩

theorem find_crlf_of_no_cr {a : Bytes} (h : 13 ∉ a) : find crlf a = none := by
  induction a with
  | nil => rfl
  | cons x a ih =>
    refine find_crlf_cons.2 ⟨?_, ih fun hmem => h (by simp [hmem])⟩
    rintro ⟨rfl, _⟩
    exact h (by simp)

theorem crlf_ne_head {b : UInt8} {l : Bytes} (h : find crlf (b :: l) = none) (more : Bytes) :
    ¬ crlf <+: b :: (l ++ (crlf ++ more)) := by
  obtain ⟨hb, -⟩ := find_crlf_cons.1 h
  rw [crlf_prefix_cons]
  rintro ⟨rfl, hhead⟩
  cases l with
  | nil => simp [crlf, bytes] at hhead
  | cons c l => exact hb ⟨rfl, by simpa using hhead⟩

theorem find_crlf_line {l : Bytes} (h : find crlf l = none) (more : Bytes) :
    find crlf (l ++ (crlf ++ more)) = some l.length := by
  induction l with
  | nil => simp [find, crlf, bytes]
  | cons b l ih =>
    rw [List.cons_append, find, if_neg (crlf_ne_head h more), ih (find_crlf_cons.1 h).2]
    rfl

theorem sep_eq : sep = crlf ++ crlf := by decide

theorem find_sep_line {l : Bytes} (h : find crlf l = none) (more : Bytes) :
    find sep (l ++ (crlf ++ more)) =
      if crlf <+: more then some l.length else (find sep more).map (· + (l.length + 2)) := by
  induction l with
  | nil =>
    have hsep : sep <+: 13 :: 10 :: more ↔ crlf <+: more := by
      rw [sep_eq, show 13 :: 10 :: more = crlf ++ more from rfl, List.prefix_append_right_inj]
    have hlf : ¬ sep <+: 10 :: more := by simp [sep, bytes]
    rw [List.nil_append, show crlf ++ more = 13 :: 10 :: more from rfl, find, find, if_neg hlf]
    by_cases hmore : crlf <+: more
    · rw [if_pos (hsep.2 hmore), if_pos hmore]
      rfl
    · rw [if_neg (mt hsep.1 hmore), if_neg hmore, Option.map_map]
      rfl
  | cons b l ih =>
    have hnot : ¬ sep <+: b :: (l ++ (crlf ++ more)) := fun hsep =>
      crlf_ne_head h more ((sep_eq ▸ List.prefix_append crlf crlf).trans hsep)
    rw [List.cons_append, find, if_neg hnot, ih (find_crlf_cons.1 h).2]
    by_cases hmore : crlf <+: more
    · simp [hmore]
    · simp only [hmore, if_false, Option.map_map, List.length_cons]
      rfl

theorem split_crlf_line {l : Bytes} (h : find crlf l = none) (more : Bytes) :
    split crlf (l ++ (crlf ++ more)) = l :: split crlf more := by
  rw [split_some (by decide) (find_crlf_line h more), List.take_left, ← List.drop_drop,
    List.drop_left, List.drop_left]

/-! ## A block of lines -/

/-- The lines, each with its CR LF, the empty line, and the body. -/
def block (body : Bytes) : List Bytes → Bytes
  | [] => crlf ++ body
  | l :: ls => l ++ (crlf ++ block body ls)

/-- Lines that are neither empty nor broken are read back. -/
theorem find_sep_block {ls : List Bytes} (hls : ∀ l ∈ ls, l ≠ [] ∧ find crlf l = none)
    (hne : ls ≠ []) (body : Bytes) :
    ∃ headEnd, find sep (block body ls) = some headEnd ∧
      split crlf ((block body ls).take headEnd) = ls ∧
      (block body ls).drop (headEnd + sep.length) = body := by
  induction ls with
  | nil => exact absurd rfl hne
  | cons l ls ih =>
    obtain ⟨-, hl⟩ := hls l (by simp)
    cases ls with
    | nil =>
      refine ⟨l.length, ?_, ?_, ?_⟩
      · simp only [block]
        rw [find_sep_line hl, if_pos (List.prefix_append crlf body)]
      · simp only [block]
        rw [List.take_left, split_none hl]
      · simp only [block]
        rw [← List.drop_drop, List.drop_left]
        rfl
    | cons l' ls =>
      obtain ⟨hne', hl'⟩ := hls l' (by simp)
      obtain ⟨k, hk, hlines, hbody⟩ := ih (fun x hx => hls x (by simp [hx])) (List.cons_ne_nil _ _)
      have hnext : ¬ crlf <+: block body (l' :: ls) := by
        cases l' with
        | nil => exact absurd rfl hne'
        | cons b l' => exact crlf_ne_head hl' _
      refine ⟨k + (l.length + 2), ?_, ?_, ?_⟩
      · rw [block, find_sep_line hl, if_neg hnext, hk]
        rfl
      · have htake : (l ++ (crlf ++ block body (l' :: ls))).take (k + (l.length + 2)) =
            l ++ (crlf ++ (block body (l' :: ls)).take k) := by
          rw [show k + (l.length + 2) = l.length + (crlf.length + k) by
            rw [show crlf.length = 2 from rfl]; omega, List.take_length_add_append,
            List.take_length_add_append]
        rw [block, htake, split_crlf_line hl, hlines]
      · have hlength :
            k + (l.length + 2) + sep.length = l.length + (crlf.length + (k + sep.length)) := by
          rw [show crlf.length = 2 from rfl]
          omega
        rw [block, hlength, List.drop_length_add_append, List.drop_length_add_append]
        exact hbody

/-! ## Words -/

theorem find_space {l : Bytes} (h : 32 ∉ l) : find [32] l = none := by
  induction l with
  | nil => rfl
  | cons b l ih =>
    have hb : ¬ [32] <+: b :: l := by
      rintro ⟨t, ht⟩
      have hb : 32 = b := by simpa using congrArg List.head? ht
      exact h (by simp [hb])
    rw [find, if_neg hb, ih fun hmem => h (by simp [hmem])]
    rfl

theorem not_mem_of_find_space {l : Bytes} (h : find [32] l = none) : 32 ∉ l := by
  intro hmem
  obtain ⟨a, b, rfl⟩ := List.append_of_mem hmem
  have hocc := occursAt_append_self a [32] b
  rw [List.append_assoc, List.singleton_append] at hocc
  exact find_eq_none_iff.1 h _ hocc

theorem split_space {l : Bytes} (h : 32 ∉ l) (more : Bytes) :
    split [32] (l ++ 32 :: more) = l :: split [32] more := by
  have hocc := occursAt_append_self l [32] more
  rw [List.append_assoc, List.singleton_append] at hocc
  have hfind : find [32] (l ++ 32 :: more) = some l.length := by
    refine find_eq_some_iff.2 ⟨hocc, fun j hj hearly => ?_⟩
    exact find_eq_none_iff.1 (find_space h) j (hearly.of_append (by simpa using hj))
  rw [split_some (by simp) hfind, List.take_left, ← List.drop_drop, List.drop_left]
  rfl

theorem split_words {method target version : Bytes} (hmethod : 32 ∉ method) (htarget : 32 ∉ target)
    (hversion : 32 ∉ version) :
    split [32] (method ++ 32 :: (target ++ 32 :: version)) = [method, target, version] := by
  rw [split_space hmethod, split_space htarget, split_none (find_space hversion)]

/-! ## The text of a request -/

def requestLine (method target : Bytes) : Bytes :=
  method ++ 32 :: (target ++ 32 :: bytes "HTTP/1.0")

theorem requestText_eq (c : HttpClient) (method target body : Bytes) :
    requestText c method target body =
      block body (requestLine method target :: requestHeaders c.mHost method body) := by
  have hversion : bytes " HTTP/1.0\r\n" = 32 :: bytes "HTTP/1.0" ++ crlf := by decide
  have hclose : bytes "Connection: close\r\n" = bytes "Connection: close" ++ crlf := by decide
  have htype : bytes "Content-Type: application/json\r\n" =
      bytes "Content-Type: application/json" ++ crlf := by decide
  have hcrlf : bytes "\r\n" = crlf := rfl
  have hspace : bytes " " = [32] := by decide
  simp only [requestText, hversion, hclose, htype, hcrlf, hspace, requestHeaders, requestLine]
  by_cases hpost : method = bytes "POST"
  · simp [hpost, block]
  · simp [hpost, block]

/-- A request whose parts fit its format is read back. -/
theorem oneRequest_requestText (c : HttpClient) {method target : Bytes} (body : Bytes)
    (hmethod : 32 ∉ method) (htarget : 32 ∉ target)
    (hline : find crlf (requestLine method target) = none)
    (hheaders : ∀ l ∈ requestHeaders c.mHost method body, l ≠ [] ∧ find crlf l = none) :
    OneRequest (requestText c method target body) method target
      (requestHeaders c.mHost method body) body := by
  have hls : ∀ l ∈ requestLine method target :: requestHeaders c.mHost method body,
      l ≠ [] ∧ find crlf l = none := by
    intro l hl
    rcases List.mem_cons.1 hl with rfl | hl
    · exact ⟨by simp [requestLine], hline⟩
    · exact hheaders l hl
  obtain ⟨headEnd, hfind, hlines, hbody⟩ := find_sep_block hls (List.cons_ne_nil _ _) body
  rw [requestText_eq]
  exact ⟨headEnd, _, hfind, hlines, split_words hmethod htarget (by decide), hbody⟩

/-! ## Accepted options -/

def GoodPath (path : Bytes) : Prop := path.head? = some 47 ∧ 32 ∉ path ∧ 13 ∉ path

instance (path : Bytes) : Decidable (GoodPath path) :=
  inferInstanceAs (Decidable (_ ∧ _ ∧ _))

/-- What `parse_cli` promises about its result. -/
structure Accepted (o : CliOptions) : Prop where
  port_pos : 1 ≤ o.httpPort
  port_le : o.httpPort ≤ 65535
  timeout_pos : 0 < o.httpTimeoutMs
  path : o.httpCommand = .none ∨ o.httpCommand = .setConfig ∨ GoodPath o.httpPath
  name : o.httpCommand = .setConfig → o.configName ≠ [] ∧ 47 ∉ o.configName

theorem simpleCommands_good :
    ∀ command ∈ SIMPLE_COMMANDS, command.2.1 ≠ .setConfig ∧ GoodPath command.2.2 := by
  decide

theorem bodyPaths_good : ∀ command ∈ BODY_PATHS, GoodPath command.2 := by
  decide

theorem zonesDelete_good : GoodPath (bytes "/zones/delete.json") := by decide

theorem zonesReset_good : GoodPath (bytes "/zones/reset") := by decide

theorem zonesLut_good : GoodPath (bytes "/zones/lut.bin") := by decide

theorem Accepted.step {argument : Bytes} {f : Flag} {o o' : CliOptions}
    (hf : flag argument = some f) (ho : Accepted o) (h : FlagStep o f o') : Accepted o' := by
  cases h with
  | help => exact { ho with }
  | config => exact { ho with }
  | httpHost => exact { ho with }
  | httpPort hlow hhigh => exact { ho with port_pos := hlow, port_le := hhigh }
  | httpTimeoutMs hpos => exact { ho with timeout_pos := hpos }
  | simple type path =>
    obtain ⟨htype, hpath⟩ := simpleCommands_good _ (selects_of_flag hf)
    exact { ho with path := .inr (.inr hpath), name := fun h => absurd h htype }
  | body path =>
    have hpath := bodyPaths_good _ (selects_of_flag hf)
    exact { ho with path := .inr (.inr hpath), name := fun h => nomatch h }
  | deleteZone =>
    exact { ho with path := .inr (.inr zonesDelete_good), name := fun h => nomatch h }
  | resetZones =>
    exact { ho with path := .inr (.inr zonesReset_good), name := fun h => nomatch h }
  | resetZone =>
    exact { ho with path := .inr (.inr zonesReset_good), name := fun h => nomatch h }
  | getZonesLut =>
    exact { ho with path := .inr (.inr zonesLut_good), name := fun h => nomatch h }
  | setConfig _ _ hne hslash =>
    exact { ho with path := .inr (.inl rfl), name := fun _ => ⟨hne, hslash⟩ }

theorem accepted_of_parseCli {env : CliEnv} {arguments : List Bytes} {o : CliOptions}
    (h : parseCli env arguments = .ok o) : Accepted o :=
  parseArguments_keeps (P := Accepted) Accepted.step h
    ⟨by decide, by decide, by decide, .inl rfl, fun h => nomatch h⟩

/-! ## What a command sends -/

theorem sendAll_delivers {answers : List SendAnswer}
    (h : ∀ answer ∈ answers,
      answer ≠ .accepted 0 ∧ ∀ errno, answer = .failed errno → errno = EINTR)
    (data : Bytes) : sendAll data answers = (data, .ok ()) := by
  induction answers generalizing data with
  | nil => rfl
  | cons answer answers ih =>
    have ih := ih fun a ha => h a (by simp [ha])
    obtain ⟨hzero, hfailed⟩ := h answer (by simp)
    by_cases hdata : data = []
    · cases answer <;> simp [sendAll, hdata]
    · cases answer with
      | failed errno => simp [sendAll, hdata, hfailed errno rfl, ih]
      | accepted n =>
        have hn : n ≠ 0 := by
          rintro rfl
          exact hzero rfl
        simp [sendAll, hdata, hn, ih]

section Sent

variable {peer : Peer} (hd : peer.Delivers) (c : HttpClient)
include hd

theorem request_sent (method body : Bytes) {path : Bytes} (hp : badPath path = false) :
    (c.request method path body peer).1 = requestText c method path body := by
  simp only [HttpClient.request, hp, Bool.false_eq_true, if_false, hd.1,
    sendAll_delivers hd.2]

theorem streamGet_sent {path : Bytes} (hp : badPath path = false) :
    (c.streamGet path true peer).1 = requestText c (bytes "GET") path [] := by
  simp only [HttpClient.streamGet, hp, Bool.false_eq_true, if_false, hd.1,
    sendAll_delivers hd.2, streamText_eq]

end Sent

theorem printResponse_sent (o : CliOptions) (file : OutputFile) (sent : Bytes)
    (response : Except HttpError HttpResponse) :
    (printResponse o file sent response).sent = sent := by
  cases response with
  | error e => rfl
  | ok response =>
    rw [printResponse]
    split
    · cases writeBinaryFile file o.outputPath with
      | error e => rfl
      | ok => rfl
    · rfl

theorem runHttpCommand_sent {o : CliOptions} (ho : Accepted o) (hc : hasHttpCommand o = true)
    (hhost : o.httpHost ≠ []) (file : OutputFile) {peer : Peer} (hd : peer.Delivers) :
    (runHttpCommand o file peer).sent =
      requestText ⟨o.httpHost, o.httpPort, o.httpTimeoutMs⟩ (requestMethod o) (requestTarget o)
        (requestBody o) := by
  have hclient : httpClient o.httpHost o.httpPort o.httpTimeoutMs =
      .ok ⟨o.httpHost, o.httpPort, o.httpTimeoutMs⟩ := by
    have hlow := ho.port_pos
    have hhigh := ho.port_le
    have htimeout := ho.timeout_pos
    rw [httpClient, if_neg hhost, if_neg (by omega), if_neg (by omega)]
  have hconfig : badPath (bytes "/config/" ++ o.configName) = false := by
    simp [badPath, bytes]
  have hpath : o.httpCommand ≠ .none → o.httpCommand ≠ .setConfig →
      badPath o.httpPath = false := by
    intro hnone hset
    rcases ho.path with h | h | h
    · exact absurd h hnone
    · exact absurd h hset
    · simp [badPath, h.1]
  simp only [runHttpCommand, hc, Bool.not_true, Bool.false_eq_true, if_false, hclient]
  cases hcommand : o.httpCommand with
  | none => simp [hasHttpCommand, hcommand] at hc
  | get =>
    simp only [requestMethod, requestTarget, requestBody, hcommand, printResponse_sent]
    exact request_sent hd _ _ _ (hpath (by simp [hcommand]) (by simp [hcommand]))
  | post =>
    simp only [requestMethod, requestTarget, requestBody, hcommand, printResponse_sent]
    exact request_sent hd _ _ _ (hpath (by simp [hcommand]) (by simp [hcommand]))
  | setConfig =>
    simp only [requestMethod, requestTarget, requestBody, hcommand, printResponse_sent]
    exact request_sent hd _ _ _ hconfig
  | download =>
    simp only [requestMethod, requestTarget, requestBody, hcommand, printResponse_sent]
    exact request_sent hd _ _ _ (hpath (by simp [hcommand]) (by simp [hcommand]))
  | stream =>
    simp only [requestMethod, requestTarget, requestBody, hcommand]
    exact streamGet_sent hd _ (hpath (by simp [hcommand]) (by simp [hcommand]))

/-! ## Names and hosts that fit -/

/-- Nothing is sent, or the host and the name of the parameter can stand where they are written. -/
def FitsRequest (o : CliOptions) : Prop :=
  o.httpHost = [] ∨ find crlf o.httpHost = none ∧
    (o.httpCommand = .setConfig → 32 ∉ o.configName ∧ find crlf o.configName = none)

theorem digits_no_cr (n : Nat) : 13 ∉ bytes (toString n) := by
  intro h
  obtain ⟨c, hc, hcr⟩ := List.mem_map.1 h
  rw [Nat.toString_eq_repr, Nat.toList_repr] at hc
  have hdigit := Nat.isDigit_of_mem_toDigits (by decide) (by decide) hc
  simp only [Char.isDigit, Bool.and_eq_true, decide_eq_true_eq] at hdigit
  have hlow : 48 ≤ c.toNat := UInt32.le_iff_toNat_le.1 hdigit.1
  have hhigh : c.toNat ≤ 57 := UInt32.le_iff_toNat_le.1 hdigit.2
  have hval := congrArg UInt8.toNat hcr
  rw [Nat.toUInt8_eq, UInt8.toNat_ofNat', Nat.mod_eq_of_lt (by omega)] at hval
  have : (13 : UInt8).toNat = 13 := rfl
  omega

theorem requestHeaders_fit {host : Bytes} (method body : Bytes) (h : find crlf host = none) :
    ∀ l ∈ requestHeaders host method body, l ≠ [] ∧ find crlf l = none := by
  have hhost : find crlf (bytes "Host: " ++ host) = none :=
    find_crlf_append (by decide) h (.inl (by decide))
  have hlength : find crlf (bytes "Content-Length: " ++ bytes (toString body.length)) = none :=
    find_crlf_append (by decide) (find_crlf_of_no_cr (digits_no_cr _)) (.inl (by decide))
  have hclose : find crlf (bytes "Connection: close") = none := by decide
  have htype : find crlf (bytes "Content-Type: application/json") = none := by decide
  intro l hl
  rw [requestHeaders] at hl
  split at hl
  · simp only [List.cons_append, List.nil_append, List.mem_cons, List.not_mem_nil, or_false] at hl
    rcases hl with rfl | rfl | rfl | rfl
    · exact ⟨by simp [bytes], hhost⟩
    · exact ⟨by decide, hclose⟩
    · exact ⟨by decide, htype⟩
    · exact ⟨by simp [bytes], hlength⟩
  · simp only [List.append_nil, List.mem_cons, List.not_mem_nil, or_false] at hl
    rcases hl with rfl | rfl
    · exact ⟨by simp [bytes], hhost⟩
    · exact ⟨by decide, hclose⟩

theorem requestMethod_cases (o : CliOptions) :
    requestMethod o = bytes "GET" ∨ requestMethod o = bytes "POST" := by
  rw [requestMethod]
  split
  · exact .inr rfl
  · exact .inr rfl
  · exact .inl rfl

theorem requestLine_fits {o : CliOptions} (h : find crlf (requestTarget o) = none) :
    find crlf (requestLine (requestMethod o) (requestTarget o)) = none := by
  have hrest : find crlf (32 :: (requestTarget o ++ 32 :: bytes "HTTP/1.0")) = none := by
    refine find_crlf_cons.2 ⟨by simp, find_crlf_append h ?_ (.inr (by simp))⟩
    decide
  rcases requestMethod_cases o with hm | hm
  · rw [hm]
    exact find_crlf_append (by decide) hrest (.inl (by decide))
  · rw [hm]
    exact find_crlf_append (by decide) hrest (.inl (by decide))

theorem requestTarget_fits {o : CliOptions} (ho : Accepted o) (hc : hasHttpCommand o = true)
    (h : o.httpCommand = .setConfig → 32 ∉ o.configName ∧ find crlf o.configName = none) :
    32 ∉ requestTarget o ∧ find crlf (requestTarget o) = none := by
  by_cases hset : o.httpCommand = .setConfig
  · obtain ⟨hspace, hcrlf⟩ := h hset
    simp only [requestTarget, hset]
    refine ⟨fun hmem => ?_, find_crlf_append (by decide) hcrlf (.inl (by decide))⟩
    rcases List.mem_append.1 hmem with hmem | hmem
    · exact absurd hmem (by decide)
    · exact hspace hmem
  · have htarget : requestTarget o = o.httpPath := by
      rw [requestTarget]
      split
      · next hcommand => exact absurd hcommand hset
      · rfl
    rcases ho.path with hnone | hset' | hpath
    · simp [hasHttpCommand, hnone] at hc
    · exact absurd hset' hset
    · rw [htarget]
      exact ⟨hpath.2.1, find_crlf_of_no_cr hpath.2.2⟩

/-- What can be read back holds no separator of its own. -/
theorem OneRequest.parts {sent method target body : Bytes} {headers : List Bytes}
    (h : OneRequest sent method target headers body) :
    find [32] target = none ∧
      find crlf (method ++ [32] ++ (target ++ [32] ++ bytes "HTTP/1.0")) = none ∧
      ∀ l ∈ headers, find crlf l = none := by
  obtain ⟨headEnd, line, -, hlines, hwords, -⟩ := h
  have hpart : ∀ l ∈ line :: headers, find crlf l = none :=
    fun l hl => find_of_mem_split (by decide) (hlines ▸ hl)
  have hline : line = method ++ [32] ++ (target ++ [32] ++ bytes "HTTP/1.0") := by
    have hsplit : ([32] : Bytes).intercalate (split [32] line) = line :=
      intercalate_split (by simp)
    rw [hwords] at hsplit
    simpa using hsplit.symm
  refine ⟨find_of_mem_split (by simp) (by rw [hwords]; simp), ?_, ?_⟩
  · rw [← hline]
    exact hpart line (by simp)
  · intro l hl
    exact hpart l (by simp [hl])

/-- For accepted options the bytes sent are the request of the selected command exactly when the
host and the name of the parameter do not break the format. -/
theorem runHttpCommand_request_iff {env : CliEnv} {arguments : List Bytes} {o : CliOptions}
    (h : parseCli env arguments = .ok o) (hc : hasHttpCommand o = true) :
    (∀ file peer, peer.Delivers → (runHttpCommand o file peer).sent ≠ [] →
      OneRequest (runHttpCommand o file peer).sent (requestMethod o) (requestTarget o)
        (requestHeaders o.httpHost (requestMethod o) (requestBody o)) (requestBody o) ∧
      (o.httpCommand = .setConfig → 47 ∉ o.configName)) ↔ FitsRequest o := by
  have ho := accepted_of_parseCli h
  constructor
  · intro hall
    by_cases hhost : o.httpHost = []
    · exact .inl hhost
    · have hd : Peer.Delivers { recv := [] } := ⟨rfl, fun _ h => nomatch h⟩
      have hsent := runHttpCommand_sent ho hc hhost .written hd
      have hne : (runHttpCommand o .written { recv := [] }).sent ≠ [] := by
        rw [hsent, requestText_eq]
        simp [block, requestLine]
      obtain ⟨hspace, hline, hheaders⟩ := (hall .written _ hd hne).1.parts
      have hhostLine := hheaders (bytes "Host: " ++ o.httpHost) (by simp [requestHeaders])
      refine .inr ⟨?_, fun hset => ?_⟩
      · rw [← List.append_nil (bytes "Host: " ++ o.httpHost)] at hhostLine
        exact find_none_between hhostLine
      · have htarget : requestTarget o = bytes "/config/" ++ o.configName := by
          simp only [requestTarget, hset]
        refine ⟨fun hmem => not_mem_of_find_space hspace ?_, ?_⟩
        · rw [htarget]
          exact List.mem_append_right _ hmem
        · rw [htarget, show requestMethod o ++ [32] ++
            (bytes "/config/" ++ o.configName ++ [32] ++ bytes "HTTP/1.0") =
            (requestMethod o ++ [32] ++ bytes "/config/") ++ o.configName ++
              ([32] ++ bytes "HTTP/1.0") by simp] at hline
          exact find_none_between hline
  · intro hfits file peer hd hsent
    by_cases hempty : o.httpHost = []
    · have hnone : httpClient o.httpHost o.httpPort o.httpTimeoutMs =
          .error (.invalidArgument (bytes "HTTP host is empty")) := by
        rw [httpClient, if_pos hempty]
      simp [runHttpCommand, hc, hnone] at hsent
    · obtain ⟨hhost, hname⟩ := hfits.resolve_left hempty
      obtain ⟨hspace, hcrlf⟩ := requestTarget_fits ho hc hname
      rw [runHttpCommand_sent ho hc hempty file hd]
      refine ⟨oneRequest_requestText _ _ ?_ hspace (requestLine_fits hcrlf)
        (requestHeaders_fit _ _ hhost), fun hset => (ho.name hset).2⟩
      rcases requestMethod_cases o with hm | hm
      · rw [hm]
        decide
      · rw [hm]
        decide

/-- The options of `--set-config motor_speed 10`. -/
def motorSpeed : CliOptions where
  httpCommand := .setConfig
  configName := bytes "motor_speed"
  configValue := bytes "10"

theorem motorSpeed_request_iff :
    (∀ file peer, peer.Delivers → (runHttpCommand motorSpeed file peer).sent ≠ [] →
      OneRequest (runHttpCommand motorSpeed file peer).sent (requestMethod motorSpeed)
        (requestTarget motorSpeed)
        (requestHeaders motorSpeed.httpHost (requestMethod motorSpeed) (requestBody motorSpeed))
        (requestBody motorSpeed) ∧
      (motorSpeed.httpCommand = .setConfig → 47 ∉ motorSpeed.configName)) ↔
    FitsRequest motorSpeed :=
  have harguments : parseCli plainEnv [bytes "mech_driver", bytes "--set-config",
    bytes "motor_speed", bytes "10"] = .ok motorSpeed := by decide
  runHttpCommand_request_iff harguments (by decide)

/-- The options of `--set-config "motor speed" 10`. -/
def spaced : CliOptions where
  httpCommand := .setConfig
  configName := bytes "motor speed"
  configValue := bytes "10"

theorem setConfig_breaks_line :
    parseCli plainEnv [bytes "mech_driver", bytes "--set-config", bytes "motor speed",
      bytes "10"] = .ok spaced ∧
    Peer.Delivers { recv := [] } ∧ (runHttpCommand spaced .written { recv := [] }).sent ≠ [] ∧
    ¬ OneRequest (runHttpCommand spaced .written { recv := [] }).sent (requestMethod spaced)
      (requestTarget spaced)
      (requestHeaders spaced.httpHost (requestMethod spaced) (requestBody spaced))
      (requestBody spaced) := by
  refine ⟨by decide, ⟨rfl, fun _ h => nomatch h⟩, by decide, ?_⟩
  rintro ⟨headEnd, line, -, -, hwords, -⟩
  have hspace : find [32] (requestTarget spaced) = none :=
    find_of_mem_split (by simp) (by rw [hwords]; simp)
  exact absurd hspace (by decide)

end MechLidar
