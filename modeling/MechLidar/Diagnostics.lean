import MechLidar.Polling
import MechLidar.Lib.Loads
import MechLidar.Lib.Throttle

/-!
# MechLidar.Diagnostics

`publish_diagnostics` (`ros_driver.cpp`), as the diagnostics thread runs it next to the main thread:
the members are loaded one after the other, and the main thread goes on in between. Seconds are
exact numbers in place of `double`.

* `publishDiagnostics`: one call. `Report` is what it publishes, `Report.status` the message.
* `publishDiagnostics_sees`, `loadValues_sees`: the states that the parts of a report are loaded in
* `publishDiagnostics_held`: a call that reports nothing
-/

namespace MechLidar

open Lib

variable {F : Type}

/-- `diagnostic_hardware_id` (`driver_diagnostics.cpp`). -/
def diagnosticHardwareId (sourceIp pcapPath httpHost : String) : String :=
  if pcapPath ≠ "" then pcapPath
  else if sourceIp = "" ∨ sourceIp = "0.0.0.0" then httpHost
  else sourceIp

/-- A driver is never named after a wildcard address, or not at all. -/
theorem diagnosticHardwareId_names {sourceIp pcapPath httpHost : String}
    (hpath : pcapPath ≠ "0.0.0.0") (hhost : httpHost ≠ "" ∧ httpHost ≠ "0.0.0.0") :
    diagnosticHardwareId sourceIp pcapPath httpHost ≠ "" ∧
      diagnosticHardwareId sourceIp pcapPath httpHost ≠ "0.0.0.0" := by
  rw [diagnosticHardwareId]
  split
  · next hfile => exact ⟨hfile, hpath⟩
  · split
    · exact hhost
    · next hip => exact not_or.1 hip

/-- The members of `Driver` that stay as the constructor sets them. -/
structure DiagnosticOptions (S : Type) where
  nodeName : String
  ipAddr : String
  pcapPath : String
  httpHost : String
  transport : String
  diagnosticsPeriodS : S
  noDataTimeoutS : S
  startedAtNs : Nat
  /-- `socket` is set: the driver is one of the UDP mode. -/
  hasSocket : Bool

inductive DiagnosticLevel where
  | ok
  | warn
  | error
deriving DecidableEq, Repr

structure DiagnosticStatus where
  level : DiagnosticLevel
  name : String
  message : String
  hardwareId : String
  values : List (String × String)

/-- The values of one `DiagnosticArray`. -/
structure Report (S : Type) where
  nowNs : Nat
  level : DiagnosticLevel
  message : String
  ageS : S
  packetsReceived : Nat
  messagesPublished : Nat
  invalidPackets : Nat
  discardedRevolutions : Nat
  socketState : String
  socketErrors : Nat
  socketReconnects : Nat
  socketRetryDelayMs : Int
  socketLastError : String

/-- The message. `toString` of the age is left open. -/
def Report.status {S : Type} (o : DiagnosticOptions S) (ageText : S → String) (r : Report S) :
    DiagnosticStatus where
  level := r.level
  name := o.nodeName ++ "/data_stream"
  message := r.message
  hardwareId := diagnosticHardwareId o.ipAddr o.pcapPath o.httpHost
  values :=
    [("transport", o.transport),
      ("last_scan_age_s", ageText r.ageS),
      ("packets_received", toString r.packetsReceived),
      ("messages_published", toString r.messagesPublished),
      ("invalid_packets", toString r.invalidPackets),
      ("discarded_revolutions", toString r.discardedRevolutions),
      ("socket_state", r.socketState),
      ("socket_errors", toString r.socketErrors),
      ("socket_reconnects", toString r.socketReconnects),
      ("socket_retry_delay_ms", toString r.socketRetryDelayMs),
      ("socket_last_error", r.socketLastError)]

section Call

variable {S : Type}

/-- One load of a shared member. -/
def loadMember {α : Type} (member : SharedMembers → α) : Loads (Poller F) α :=
  .get fun p => member p.members

/-- The level and its message. -/
def streamHealth [LinearOrder S] (o : DiagnosticOptions S) (ageS : S) :
    Loads (Poller F) (DiagnosticLevel × String) := do
  if ← loadMember fun m => m.socketRecovering then
    return (.error, "UDP socket recovering")
  else if o.noDataTimeoutS < ageS then
    return (.warn, "No scan data")
  else if (← loadMember fun m => m.messagesPublished) = 0 then
    return (.ok, "Waiting for first scan")
  else
    return (.ok, "Streaming")

/-- `socket_state` -/
def socketState (o : DiagnosticOptions S) : Loads (Poller F) String := do
  if o.hasSocket then
    if ← loadMember fun m => m.socketRecovering then return "recovering" else return "ready"
  else
    return "not_applicable"

/-- The values, in the order of the message. -/
def loadValues (o : DiagnosticOptions S) (nowNs : Nat) (ageS : S)
    (health : DiagnosticLevel × String) : Loads (Poller F) (Report S) := do
  let packetsReceived ← loadMember fun m => m.packetsReceived
  let messagesPublished ← loadMember fun m => m.messagesPublished
  let invalidPackets ← loadMember fun m => m.invalidPackets
  let discardedRevolutions ← loadMember fun m => m.discardedRevolutions
  let socketState ← socketState o
  let socketErrors ← loadMember fun m => m.socketErrors
  let socketReconnects ← loadMember fun m => m.socketReconnects
  let socketRetryDelayMs ← loadMember fun m => m.socketRetryDelayMs
  let socketLastError ← loadMember fun m => m.lastSocketError
  return { nowNs, ageS, packetsReceived, messagesPublished, invalidPackets, discardedRevolutions
           socketState, socketErrors, socketReconnects, socketRetryDelayMs, socketLastError
           level := health.1, message := health.2 }

/-- The time since the last publication, or since the start of the driver if there is none. -/
def scanAge [Field S] (o : DiagnosticOptions S) (nowNs publishedNs : Nat) : S :=
  if publishedNs = 0 then seconds (nowNs - o.startedAtNs) else seconds (nowNs - publishedNs)

/-- `publish_diagnostics`, of `last_diagnostics_publish`. -/
def publishDiagnostics [Field S] [LinearOrder S] (o : DiagnosticOptions S) (lastNs : Nat) :
    Loads (Poller F) (Nat × Option (Report S)) := do
  let nowNs ← loadMember fun m => m.nowNs
  if Due (clampPeriod o.diagnosticsPeriodS) (seconds lastNs) (seconds nowNs) then
    let publishedNs ← loadMember fun m => m.lastPublishNs
    let ageS := scanAge o nowNs publishedNs
    let health ← streamHealth o ageS
    let report ← loadValues o nowNs ageS health
    return (nowNs, some report)
  else
    return (lastNs, none)

/-! ## One call -/

section Sees

variable {α : Type} {step : Poller F → α → Poller F → Prop} {s u : Poller F} {as : List α}
  {o : DiagnosticOptions S}

theorem sees_member_bind {β ρ : Type} {member : SharedMembers → β} {f : β → Loads (Poller F) ρ}
    {r : ρ} : Sees step s (loadMember member >>= f) as u r ↔
      ∃ t bs cs, as = bs ++ cs ∧ Runs step s bs t ∧
        Sees step t (f (member t.members)) cs u r :=
  Sees.get_bind_iff

theorem streamHealth_sees [LinearOrder S] {ageS : S} {health : DiagnosticLevel × String}
    (h : Sees step s (streamHealth o ageS) as u health) :
    ∃ t bs cs, as = bs ++ cs ∧ Runs step s bs t ∧ Runs step t cs u ∧
      ((t.members.socketRecovering = true ∧ health = (.error, "UDP socket recovering")) ∨
      (t.members.socketRecovering = false ∧ o.noDataTimeoutS < ageS ∧
        health = (.warn, "No scan data")) ∨
      (t.members.socketRecovering = false ∧ ageS ≤ o.noDataTimeoutS ∧
        ∃ t' cs₁ cs₂, cs = cs₁ ++ cs₂ ∧ Runs step t cs₁ t' ∧ Runs step t' cs₂ u ∧
          health = (.ok, if t'.members.messagesPublished = 0 then "Waiting for first scan"
            else "Streaming"))) := by
  obtain ⟨t, bs, cs, rfl, hbs, h⟩ := sees_member_bind.1 h
  refine ⟨t, bs, cs, rfl, hbs, ?_⟩
  split at h
  · rename_i hrecovering
    obtain ⟨hcs, rfl⟩ := Sees.done_iff.1 h
    exact ⟨hcs, .inl ⟨hrecovering, rfl⟩⟩
  · rename_i hrecovering
    split at h
    · rename_i hage
      obtain ⟨hcs, rfl⟩ := Sees.done_iff.1 h
      exact ⟨hcs, .inr (.inl ⟨by simpa using hrecovering, hage, rfl⟩)⟩
    · rename_i hage
      obtain ⟨t', cs₁, cs₂, rfl, hcs₁, h⟩ := sees_member_bind.1 h
      have hok : Runs step t' cs₂ u ∧ health = (.ok, if t'.members.messagesPublished = 0
          then "Waiting for first scan" else "Streaming") := by
        split at h
        · rename_i hzero
          obtain ⟨hcs₂, rfl⟩ := Sees.done_iff.1 h
          exact ⟨hcs₂, by rw [if_pos hzero]⟩
        · rename_i hpos
          obtain ⟨hcs₂, rfl⟩ := Sees.done_iff.1 h
          exact ⟨hcs₂, by rw [if_neg hpos]⟩
      exact ⟨hcs₁.trans hok.1, .inr (.inr ⟨by simpa using hrecovering, not_lt.1 hage, t', cs₁, cs₂,
        rfl, hcs₁, hok.1, hok.2⟩)⟩

theorem socketState_sees {state : String} (h : Sees step s (socketState o) as u state) :
    ∃ t bs cs, as = bs ++ cs ∧ Runs step s bs t ∧ Runs step t cs u ∧
      state = if o.hasSocket then if t.members.socketRecovering then "recovering" else "ready"
        else "not_applicable" := by
  rw [socketState] at h
  split at h
  · rename_i hsocket
    obtain ⟨t, bs, cs, rfl, hbs, h⟩ := sees_member_bind.1 h
    refine ⟨t, bs, cs, rfl, hbs, ?_⟩
    rw [if_pos hsocket]
    split at h
    · rename_i hrecovering
      obtain ⟨hcs, rfl⟩ := Sees.done_iff.1 h
      exact ⟨hcs, by rw [if_pos hrecovering]⟩
    · rename_i hrecovering
      obtain ⟨hcs, rfl⟩ := Sees.done_iff.1 h
      exact ⟨hcs, by rw [if_neg hrecovering]⟩
  · rename_i hsocket
    obtain ⟨has, rfl⟩ := Sees.done_iff.1 h
    exact ⟨s, [], as, rfl, .start, has, by rw [if_neg hsocket]⟩

theorem loadValues_sees {nowNs : Nat} {ageS : S} {health : DiagnosticLevel × String}
    {r : Report S} (h : Sees step s (loadValues o nowNs ageS health) as u r) :
    ∃ t₁ t₂ t₃ t₄ t₅ t₆ t₇ t₈ t₉ a₁ a₂ a₃ a₄ a₅ a₆ a₇ a₈ a₉ a₁₀,
      as = a₁ ++ (a₂ ++ (a₃ ++ (a₄ ++ (a₅ ++ (a₆ ++ (a₇ ++ (a₈ ++ (a₉ ++ a₁₀)))))))) ∧
      Runs step s a₁ t₁ ∧ Runs step t₁ a₂ t₂ ∧ Runs step t₂ a₃ t₃ ∧ Runs step t₃ a₄ t₄ ∧
      Runs step t₄ a₅ t₅ ∧ Runs step t₅ a₆ t₆ ∧ Runs step t₆ a₇ t₇ ∧ Runs step t₇ a₈ t₈ ∧
      Runs step t₈ a₉ t₉ ∧ Runs step t₉ a₁₀ u ∧
      r = { nowNs, ageS, level := health.1, message := health.2
            packetsReceived := t₁.members.packetsReceived
            messagesPublished := t₂.members.messagesPublished
            invalidPackets := t₃.members.invalidPackets
            discardedRevolutions := t₄.members.discardedRevolutions
            socketState := if o.hasSocket then
              if t₅.members.socketRecovering then "recovering" else "ready" else "not_applicable"
            socketErrors := t₆.members.socketErrors
            socketReconnects := t₇.members.socketReconnects
            socketRetryDelayMs := t₈.members.socketRetryDelayMs
            socketLastError := t₉.members.lastSocketError } := by
  rw [loadValues] at h
  obtain ⟨t₁, a₁, _, rfl, h₁, h⟩ := sees_member_bind.1 h
  obtain ⟨t₂, a₂, _, rfl, h₂, h⟩ := sees_member_bind.1 h
  obtain ⟨t₃, a₃, _, rfl, h₃, h⟩ := sees_member_bind.1 h
  obtain ⟨t₄, a₄, _, rfl, h₄, h⟩ := sees_member_bind.1 h
  obtain ⟨v, b₅, _, state, rfl, hstate, h⟩ := Sees.bind_iff.1 h
  obtain ⟨t₅, a₅, c₅, rfl, h₅, hv, rfl⟩ := socketState_sees hstate
  obtain ⟨t₆, b₆, _, rfl, h₆, h⟩ := sees_member_bind.1 h
  obtain ⟨t₇, a₇, _, rfl, h₇, h⟩ := sees_member_bind.1 h
  obtain ⟨t₈, a₈, _, rfl, h₈, h⟩ := sees_member_bind.1 h
  obtain ⟨t₉, a₉, a₁₀, rfl, h₉, h⟩ := sees_member_bind.1 h
  obtain ⟨h₁₀, rfl⟩ := Sees.done_iff.1 h
  exact ⟨t₁, t₂, t₃, t₄, t₅, t₆, t₇, t₈, t₉, a₁, a₂, a₃, a₄, a₅, c₅ ++ b₆, a₇, a₈, a₉, a₁₀,
    by simp, h₁, h₂, h₃, h₄, h₅, hv.trans h₆, h₇, h₈, h₉, h₁₀, rfl⟩

/-- A call that reports something. -/
theorem publishDiagnostics_sees [Field S] [LinearOrder S] {lastNs keptNs : Nat} {r : Report S}
    (h : Sees step s (publishDiagnostics o lastNs) as u (keptNs, some r)) :
    ∃ t₁ t₂ t₃ a₁ a₂ a₃ a₄ health, as = a₁ ++ (a₂ ++ (a₃ ++ a₄)) ∧ Runs step s a₁ t₁ ∧
      Runs step t₁ a₂ t₂ ∧ keptNs = t₁.members.nowNs ∧
      Due (clampPeriod o.diagnosticsPeriodS) (seconds lastNs) (seconds t₁.members.nowNs) ∧
      Sees step t₂ (streamHealth o (scanAge o t₁.members.nowNs t₂.members.lastPublishNs)) a₃ t₃
        health ∧
      Sees step t₃ (loadValues o t₁.members.nowNs
        (scanAge o t₁.members.nowNs t₂.members.lastPublishNs) health) a₄ u r := by
  rw [publishDiagnostics] at h
  obtain ⟨t₁, a₁, _, rfl, h₁, h⟩ := sees_member_bind.1 h
  split at h
  · rename_i hdue
    obtain ⟨t₂, a₂, _, rfl, h₂, h⟩ := sees_member_bind.1 h
    obtain ⟨t₃, a₃, _, health, rfl, h₃, h⟩ := Sees.bind_iff.1 h
    obtain ⟨v, a₄, c₄, x, rfl, h₄, h⟩ := Sees.bind_iff.1 h
    obtain ⟨hv, hx⟩ := Sees.done_iff.1 h
    obtain ⟨rfl, rfl⟩ : t₁.members.nowNs = keptNs ∧ x = r := by simpa using hx
    exact ⟨t₁, t₂, t₃, a₁, a₂, a₃, a₄ ++ c₄, health, rfl, h₁, h₂, rfl, hdue, h₃, h₄.before hv⟩
  · obtain ⟨-, hx⟩ := Sees.done_iff.1 h
    cases hx

/-- A call that reports nothing. -/
theorem publishDiagnostics_held [Field S] [LinearOrder S] {lastNs keptNs : Nat}
    (h : Sees step s (publishDiagnostics o lastNs) as u (keptNs, none)) :
    keptNs = lastNs ∧ ∃ t bs cs, as = bs ++ cs ∧ Runs step s bs t ∧ Runs step t cs u ∧
      ¬ Due (clampPeriod o.diagnosticsPeriodS) (seconds lastNs) (seconds t.members.nowNs) := by
  rw [publishDiagnostics] at h
  obtain ⟨t₁, a₁, _, rfl, h₁, h⟩ := sees_member_bind.1 h
  split at h
  · obtain ⟨t₂, a₂, _, rfl, h₂, h⟩ := sees_member_bind.1 h
    obtain ⟨t₃, a₃, _, health, rfl, h₃, h⟩ := Sees.bind_iff.1 h
    obtain ⟨v, a₄, c₄, x, rfl, h₄, h⟩ := Sees.bind_iff.1 h
    obtain ⟨-, hx⟩ := Sees.done_iff.1 h
    cases hx
  · rename_i hdue
    obtain ⟨hu, hx⟩ := Sees.done_iff.1 h
    cases hx
    exact ⟨rfl, t₁, _, _, rfl, h₁, hu, hdue⟩

end Sees

end Call

end MechLidar
