import MechLidar.ConfigCheck
import MechLidar.Http
import MechLidar.Recovery

/-!
# MechLidar.ConfigIntegers

The integers of a configuration that was accepted: none of them is another one than in the JSON
value, and the code that uses them has nothing left to reject or to correct.

* `DriverConfig.storedIntegers`: the integer fields that the mode reads, as they are stored
* `storedIntegers_exact`: the range check comes after a conversion that wraps, and the checks for
  positive values repair that
* `parsed_integers_exact`: the whole of it
-/

namespace MechLidar

open Lib Json

variable {F : Type}

def DriverConfig.storedIntegers (c : DriverConfig F) : List (String × Int) :=
  [("udp_reconnect_initial_ms", c.udpReconnectInitialMs.toInt),
    ("udp_reconnect_max_ms", c.udpReconnectMaxMs.toInt),
    ("http_port", c.httpPort.toNat), ("http_timeout_ms", c.httpTimeoutMs.toInt)] ++
  match c.mode with
  | .udp => [("port", (c.port.toNat : Int))]
  | .pcap => []

/-- The options that `receive_udp_packet` waits by. -/
def DriverConfig.backoff (c : DriverConfig F) : Backoff where
  initialMs := c.udpReconnectInitialMs.toInt
  maxMs := c.udpReconnectMaxMs.toInt

/-- The bytes of a `std::string` in UTF-8. -/
def utf8 (s : String) : Bytes := s.toUTF8.data.toList

theorem utf8_ne_nil {s : String} (h : s ≠ "") : utf8 s ≠ [] := by
  intro hnil
  apply h
  rw [← String.toByteArray_inj, ByteArray.ext_iff]
  exact Array.toList_eq_nil_iff.mp hnil

/-! ## The stored values -/

section Stored

variable {v : Json F} {key : String}

/-- `integer_value` alone takes `2^64 - 1` for `-1`. -/
example : getInteger "port" (.numberUnsigned 18446744073709551615 : Json F) = .ok (-1) :=
  getInteger_of_toInt rfl (by decide)

/-- A field that is stored with a positive value has that value. -/
theorem readOr_exact {d : Int32} {x : Json F} (htyped : Typed (getInteger key) v key)
    (hpos : 0 < (readOr (getInteger key) v key d).toInt) (hx : v.member key = some x) :
    x.exactInteger = some (readOr (getInteger key) v key d).toInt := by
  obtain ⟨n, hn⟩ := htyped x hx
  rw [readOr_some hx hn] at hpos ⊢
  exact (getInteger_pos_iff hpos).1 hn

/-- A port is stored in 16 bits, which hold it. -/
theorem readOr_port_exact {d : Int32} {x : Json F} (htyped : Typed (getInteger key) v key)
    (hport : IsPort (readOr (getInteger key) v key d)) (hx : v.member key = some x) :
    x.exactInteger = some ((readOr (getInteger key) v key d).toUInt32.toUInt16.toNat : Int) := by
  rw [toNat_of_isPort hport]
  exact readOr_exact htyped hport.1 hx

variable [Arith F] [IntCast F] {c : DriverConfig F}

theorem storedIntegers_exact (h : parseDriverConfig v = .ok c) : ∀ field ∈ c.storedIntegers,
    ∀ x, v.member field.1 = some x → x.exactInteger = some field.2 := by
  obtain ⟨-, -, -, -, htyped, hcommon, hvalid, -, hread⟩ := parseDriverConfig_ok_iff.1 h
  have htimeout := hvalid.httpTimeoutMs
  have hinitial := hvalid.udpReconnectInitialMs
  have hmax := hvalid.udpReconnectMaxMs
  have hinteger := htyped.integer
  simp only [integerFields, List.forall_mem_cons] at hinteger
  obtain ⟨htypedInitial, htypedMax, htypedPort, htypedTimeout, -⟩ := hinteger
  have hinitialEq := congrArg DriverConfig.udpReconnectInitialMs hcommon
  have hmaxEq := congrArg DriverConfig.udpReconnectMaxMs hcommon
  have hportEq := congrArg DriverConfig.httpPort hcommon
  have htimeoutEq := congrArg DriverConfig.httpTimeoutMs hcommon
  simp only [DriverConfig.common, fieldsOf] at hinitialEq hmaxEq hportEq htimeoutEq
  -- the maximum is positive because it is not below the initial delay
  have hmaxPos : 0 < c.udpReconnectMaxMs.toInt := by omega
  rw [hinitialEq] at hinitial
  rw [hmaxEq] at hmaxPos
  rw [htimeoutEq] at htimeout
  rw [DriverConfig.storedIntegers, List.forall_mem_append]
  refine ⟨?_, ?_⟩
  · simp only [List.forall_mem_cons, hinitialEq, hmaxEq, hportEq, htimeoutEq]
    refine ⟨?_, ?_, ?_, ?_, by simp⟩
    · exact fun x hx => readOr_exact htypedInitial hinitial hx
    · exact fun x hx => readOr_exact htypedMax hmaxPos hx
    · exact fun x hx => readOr_port_exact htypedPort htyped.httpPort hx
    · exact fun x hx => readOr_exact htypedTimeout htimeout hx
  · cases hmode : c.mode with
    | pcap => simp
    | udp =>
      simp only [TransportRead, hmode] at hread
      obtain ⟨y, n, -, hy, hn, hrange, hport⟩ := hread
      simp only [List.forall_mem_singleton]
      intro x hx
      cases hy.symm.trans hx
      rw [hport, toNat_of_isPort hrange]
      exact (getInteger_pos_iff hrange.1).1 hn

/-! ## Where they are used -/

/-- The constructor of `HttpClient` accepts what was parsed. -/
theorem httpClient_of_parse (h : parseDriverConfig v = .ok c) :
    httpClient (utf8 c.httpHost) c.httpPort.toNat c.httpTimeoutMs.toInt =
      .ok ⟨utf8 c.httpHost, c.httpPort.toNat, c.httpTimeoutMs.toInt⟩ := by
  have hsound := sound_of_parse h
  have hhost := utf8_ne_nil hsound.validated.httpHost
  have htimeout := hsound.validated.httpTimeoutMs
  have hlow := hsound.httpPort
  have hhigh := c.httpPort.toNat_lt
  rw [httpClient, if_neg hhost, if_neg (by omega), if_neg (by omega)]

/-- The two clamps of `receive_udp_packet` change nothing. -/
theorem backoff_of_parse (h : parseDriverConfig v = .ok c) :
    c.backoff.firstDelayMs = c.udpReconnectInitialMs.toInt ∧
      c.backoff.maxDelayMs = c.udpReconnectMaxMs.toInt := by
  have hvalid := (sound_of_parse h).validated
  have hinitial := hvalid.udpReconnectInitialMs
  have hmax := hvalid.udpReconnectMaxMs
  have hfirst : c.backoff.firstDelayMs = c.udpReconnectInitialMs.toInt := by
    simp only [Backoff.firstDelayMs, DriverConfig.backoff]
    omega
  refine ⟨hfirst, ?_⟩
  rw [Backoff.maxDelayMs, hfirst]
  exact max_eq_right hmax

/-- No integer is accepted with a changed value, and what is accepted needs no further check. -/
theorem parsed_integers_exact (h : parseDriverConfig v = .ok c) :
    (∀ field ∈ c.storedIntegers, ∀ x, v.member field.1 = some x →
      x.exactInteger = some field.2) ∧
    (∃ client,
      httpClient (utf8 c.httpHost) c.httpPort.toNat c.httpTimeoutMs.toInt = .ok client) ∧
    c.backoff.firstDelayMs = c.udpReconnectInitialMs.toInt ∧
      c.backoff.maxDelayMs = c.udpReconnectMaxMs.toInt :=
  ⟨storedIntegers_exact h, ⟨_, httpClient_of_parse h⟩, backoff_of_parse h⟩

end Stored

/-- All five integers are given, as signed and as unsigned numbers. -/
theorem parsed_integers_exact_given :
    (givenConfig .udp).storedIntegers =
      [("udp_reconnect_initial_ms", 100), ("udp_reconnect_max_ms", 2000), ("http_port", 8080),
        ("http_timeout_ms", 1500), ("port", 50007)] ∧
    (∀ field ∈ (givenConfig .udp).storedIntegers, ((givenJson .udp).member field.1).isSome) ∧
    (∀ field ∈ (givenConfig .udp).storedIntegers, ∀ x, (givenJson .udp).member field.1 = some x →
      x.exactInteger = some field.2) ∧
    (∃ client, httpClient (utf8 (givenConfig .udp).httpHost) (givenConfig .udp).httpPort.toNat
      (givenConfig .udp).httpTimeoutMs.toInt = .ok client) ∧
    (givenConfig .udp).backoff.firstDelayMs = (givenConfig .udp).udpReconnectInitialMs.toInt ∧
      (givenConfig .udp).backoff.maxDelayMs = (givenConfig .udp).udpReconnectMaxMs.toInt :=
  ⟨by decide, by decide, parsed_integers_exact (parse_givenJson .udp)⟩

end MechLidar
