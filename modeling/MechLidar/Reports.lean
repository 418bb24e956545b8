import MechLidar.Diagnostics

/-!
# MechLidar.Reports

What the diagnostics say, whatever the main thread does between two loads of a report.

* `Diagnosed`: a run of the main thread and the diagnostics thread
* `Reporting`: a call that makes a report, in such a run
* `reports_bounded`: a counter is never above or below what it was during the call, and never goes
  back
* `reports_consistent`: which counters of a report, or of two reports, fit together
* `reports_health`: what the level says about the socket and about the last scan
* `reports_spaced`: no two reports within a period, and none left out
* `reports_last_error`: which error the text of a report is of
-/

namespace MechLidar

open Lib

variable {F : Type}

/-- The members that are only ever incremented. -/
inductive Counter where
  | packetsReceived
  | messagesPublished
  | invalidPackets
  | discardedRevolutions
  | socketErrors
  | socketReconnects
deriving DecidableEq, Repr

def SharedMembers.count (m : SharedMembers) : Counter → Nat
  | .packetsReceived => m.packetsReceived
  | .messagesPublished => m.messagesPublished
  | .invalidPackets => m.invalidPackets
  | .discardedRevolutions => m.discardedRevolutions
  | .socketErrors => m.socketErrors
  | .socketReconnects => m.socketReconnects

def Report.count {S : Type} (r : Report S) : Counter → Nat
  | .packetsReceived => r.packetsReceived
  | .messagesPublished => r.messagesPublished
  | .invalidPackets => r.invalidPackets
  | .discardedRevolutions => r.discardedRevolutions
  | .socketErrors => r.socketErrors
  | .socketReconnects => r.socketReconnects

/-- The key in the message. -/
def Counter.key : Counter → String
  | .packetsReceived => "packets_received"
  | .messagesPublished => "messages_published"
  | .invalidPackets => "invalid_packets"
  | .discardedRevolutions => "discarded_revolutions"
  | .socketErrors => "socket_errors"
  | .socketReconnects => "socket_reconnects"

/-- The message shows each counter under its own key. -/
theorem Report.lookup_count {S : Type} (o : DiagnosticOptions S) (ageText : S → String)
    (r : Report S) (c : Counter) :
    (r.status o ageText).values.lookup c.key = some (toString (r.count c)) := by
  cases c <;> rfl

namespace Poller

variable [Arith F] {mode : DriverMode} {captureType : CaptureType}
  {options : DriverRuntimeOptions F} {p p' : Poller F} {x : PollAction F}
  {as bs : List (PollAction F)}

theorem Step.count_le (h : Step mode captureType options p x p') (c : Counter) :
    p.members.count c ≤ p'.members.count c := by
  cases h with
  | receive _ hs => cases hs <;> cases c <;> simp [SharedMembers.count]
  | _ => cases c <;> simp [SharedMembers.count]

theorem Step.nowNs_le (h : Step mode captureType options p x p') :
    p.members.nowNs ≤ p'.members.nowNs := by
  cases h with
  | time hle => exact hle
  | _ => exact Nat.le_refl _

theorem count_le (h : Runs (Step mode captureType options) p as p') (c : Counter) :
    p.members.count c ≤ p'.members.count c :=
  h.mono (m := fun p => p.members.count c) fun _ _ _ hs => hs.count_le c

theorem nowNs_le (h : Runs (Step mode captureType options) p as p') :
    p.members.nowNs ≤ p'.members.nowNs :=
  h.mono (m := fun p => p.members.nowNs) fun _ _ _ hs => hs.nowNs_le

end Poller

section Threads

variable [Arith F] {S : Type} [Field S] [LinearOrder S]

/-- A run of the main thread and the diagnostics thread, from the end of the constructor on. -/
abbrev Diagnosed (mode : DriverMode) (captureType : CaptureType) (options : DriverRuntimeOptions F)
    (o : DiagnosticOptions S) (startNs : Nat) (ls : List (Seen (PollAction F) (Report S)))
    (m : Monitored (Poller F) Nat (Report S)) : Prop :=
  Runs (Monitor (Poller.Step mode captureType options) (publishDiagnostics o))
    ⟨Poller.initial startNs, 0, none⟩ ls m

/-- In such a run, a call of `publish_diagnostics` makes the report `r`. It begins in `u`, when the
main thread has made the steps `as`, and returns in `v`, when the main thread has made `bs` more. -/
def Reporting (mode : DriverMode) (captureType : CaptureType) (options : DriverRuntimeOptions F)
    (o : DiagnosticOptions S) (startNs : Nat) (as : List (PollAction F)) (u : Poller F)
    (bs : List (PollAction F)) (v : Poller F) (r : Report S) : Prop :=
  ∃ ls k k', Diagnosed mode captureType options o startNs ls ⟨u, k, none⟩ ∧ others ls = as ∧
    Sees (Poller.Step mode captureType options) u (publishDiagnostics o k) bs v (k', some r)

/-! ## Two reports -/

def plainDiagnostics : DiagnosticOptions ℚ where
  nodeName := "/dephan_ros"
  ipAddr := "192.168.0.120"
  pcapPath := ""
  httpHost := "192.168.0.120"
  transport := "UDP"
  diagnosticsPeriodS := 1
  noDataTimeoutS := 2
  startedAtNs := 1
  hasSocket := true

/-- A report in front of the first poll, and one two seconds behind it. -/
theorem exists_diagnosed : ∃ ls m r r',
    Diagnosed .udp .single (plainOptions : DriverRuntimeOptions ℝ) plainDiagnostics 1 ls m ∧
      reports ls = [r, r'] ∧ r.messagesPublished = 0 ∧ r'.messagesPublished = 1 ∧
      r'.level = .ok ∧ r'.socketErrors = 0 := by
  obtain ⟨as, members, hpoll, rfl, -⟩ := Poller.exists_single_poll plainOptions 1
  have hfirst : ∃ r, (publishDiagnostics plainDiagnostics 0).eval (Poller.initial 1 : Poller ℝ) =
      (1, some r) ∧ r.messagesPublished = 0 := by
    norm_num [publishDiagnostics, loadMember, Due, seconds, streamHealth, loadValues, socketState,
      clampPeriod, scanAge, plainDiagnostics, Poller.initial, SharedMembers.initial,
      SocketStatus.initial]
  have hsecond : ∃ r, (publishDiagnostics plainDiagnostics 1).eval
      (⟨{ SharedMembers.initial 1 with packetsReceived := 1, messagesPublished := 1
                                       lastPublishNs := 1, nowNs := 2 * 10 ^ 9 }, .mainLoop⟩ :
        Poller ℝ) = (2 * 10 ^ 9, some r) ∧ r.messagesPublished = 1 ∧ r.level = .ok ∧
      r.socketErrors = 0 := by
    norm_num [publishDiagnostics, loadMember, Due, seconds, streamHealth, loadValues, socketState,
      clampPeriod, scanAge, plainDiagnostics, Poller.initial, SharedMembers.initial,
      SocketStatus.initial]
  obtain ⟨r, heval, hnone⟩ := hfirst
  obtain ⟨r', heval', hone, hlevel, herrors⟩ := hsecond
  have hlater : (1 : Nat) ≤ 2 * 10 ^ 9 := by norm_num
  have hcalls := (((Calls.start.report heval).idle hpoll).other (.time hlater)).report heval'
  obtain ⟨ls, hruns, -, hreports⟩ := hcalls.monitor
  exact ⟨ls, _, r, r', hruns, hreports, hnone, hone, hlevel, herrors⟩

variable {mode : DriverMode} {captureType : CaptureType} {options : DriverRuntimeOptions F}
  {o : DiagnosticOptions S} {startNs : Nat} {ls : List (Seen (PollAction F) (Report S))}
  {m : Monitored (Poller F) Nat (Report S)} {as bs : List (PollAction F)} {s u v : Poller F}
  {lastNs keptNs : Nat} {r : Report S}

/-- Every report is made by a call. -/
theorem exists_reporting (h : Diagnosed mode captureType options o startNs ls m) :
    ∀ r ∈ reports ls, ∃ as u bs v cs, others ls = as ++ bs ++ cs ∧
      Reporting mode captureType options o startNs as u bs v r := by
  obtain ⟨as, bs, t, hls, hcalls, -⟩ := Monitored.calls h
  refine hcalls.forall_reports ?_
  intro before as₁ u k₁ as₂ v k₂ as₃ r has hbefore hsees _
  obtain ⟨ls', hruns, hothers, -⟩ := calls_iff_runs.1 hbefore
  exact ⟨as₁, u, as₂, v, as₃ ++ bs, by rw [hls, has, List.append_assoc], ls', k₁, k₂, hruns,
    hothers, hsees⟩

theorem Reporting.reached (h : Reporting mode captureType options o startNs as u bs v r) :
    Poller.Reached mode captureType options startNs as u := by
  obtain ⟨ls, k, k', hruns, rfl, -⟩ := h
  exact (calls_iff_runs.2 ⟨ls, hruns, rfl, rfl⟩).runs

/-! ## Bounds -/

omit [Arith F] in
/-- Each counter of a report is loaded during the call. -/
theorem count_loaded {step : Poller F → PollAction F → Poller F → Prop}
    (h : Sees step s (publishDiagnostics o lastNs) as u (keptNs, some r)) (c : Counter) :
    ∃ t, Inside step s as u t ∧ r.count c = t.members.count c := by
  obtain ⟨v₁, v₂, v₃, b₁, b₂, b₃, b₄, health, rfl, h₁, h₂, -, -, h₃, hvalues⟩ :=
    publishDiagnostics_sees h
  have hin : ∀ t, Inside step v₃ b₄ u t → Inside step s (b₁ ++ (b₂ ++ (b₃ ++ b₄))) u t :=
    fun t ht => .before h₁ (.before h₂ (.before h₃.runs ht))
  obtain ⟨t₁, t₂, t₃, t₄, t₅, t₆, t₇, t₈, t₉, a₁, a₂, a₃, a₄, a₅, a₆, a₇, a₈, a₉, a₁₀, rfl, g₁, g₂,
    g₃, g₄, g₅, g₆, g₇, g₈, g₉, g₁₀, rfl⟩ := loadValues_sees hvalues
  have hrest₇ := g₈.trans (g₉.trans g₁₀)
  have hrest₄ := g₅.trans (g₆.trans (g₇.trans hrest₇))
  cases c with
  | packetsReceived =>
    exact ⟨t₁, hin _ (.before g₁ (.start (g₂.trans (g₃.trans (g₄.trans hrest₄))))), rfl⟩
  | messagesPublished =>
    exact ⟨t₂, hin _ (.before g₁ (.before g₂ (.start (g₃.trans (g₄.trans hrest₄))))), rfl⟩
  | invalidPackets =>
    exact ⟨t₃, hin _ (.before g₁ (.before g₂ (.before g₃ (.start (g₄.trans hrest₄))))), rfl⟩
  | discardedRevolutions =>
    exact ⟨t₄, hin _ (.before g₁ (.before g₂ (.before g₃ (.before g₄ (.start hrest₄))))), rfl⟩
  | socketErrors =>
    exact ⟨t₆, hin _ (.before g₁ (.before g₂ (.before g₃ (.before g₄ (.before g₅ (.before g₆
      (.start (g₇.trans hrest₇)))))))), rfl⟩
  | socketReconnects =>
    exact ⟨t₇, hin _ (.before g₁ (.before g₂ (.before g₃ (.before g₄ (.before g₅ (.before g₆
      (.before g₇ (.start hrest₇)))))))), rfl⟩

theorem count_between
    (h : Sees (Poller.Step mode captureType options) s (publishDiagnostics o lastNs) as u
      (keptNs, some r)) (c : Counter) :
    s.members.count c ≤ r.count c ∧ r.count c ≤ u.members.count c := by
  obtain ⟨t, ⟨bs, cs, -, hbs, hcs⟩, hcount⟩ := count_loaded h c
  rw [hcount]
  exact ⟨Poller.count_le hbs c, Poller.count_le hcs c⟩

/-- However the threads are interleaved, every report is made by a call, and each counter of it lies
between what it was when that call began and what it was when that call ended. It stands in the
message under its key. No counter is ever reported to go back. -/
theorem reports_bounded (h : Diagnosed mode captureType options o startNs ls m) :
    (∀ r ∈ reports ls, ∃ as u bs v cs, others ls = as ++ bs ++ cs ∧
      Reporting mode captureType options o startNs as u bs v r) ∧
    (∀ {as u bs v r}, Reporting mode captureType options o startNs as u bs v r →
      ∀ c, u.members.count c ≤ r.count c ∧ r.count c ≤ v.members.count c ∧
        ∀ ageText, (r.status o ageText).values.lookup c.key = some (toString (r.count c))) ∧
    (reports ls).Pairwise fun r r' => ∀ c, r.count c ≤ r'.count c := by
  refine ⟨exists_reporting h, ?_, ?_⟩
  · intro as u bs v r hcall c
    obtain ⟨-, k, k', -, -, hsees⟩ := hcall
    obtain ⟨hbegan, hended⟩ := count_between hsees c
    exact ⟨hbegan, hended, fun ageText => r.lookup_count o ageText c⟩
  · obtain ⟨as, bs, t, hls, hcalls, -⟩ := Monitored.calls h
    refine hcalls.pairwise_reports ?_
    intro before as₁ u k₁ as₂ v k₂ between as₃ u' k₃ as₄ v' k₄ r r' _ hbefore hsees hbetween
      hsees' c
    exact ((count_between hsees c).2.trans (Poller.count_le hbetween.runs c)).trans
      (count_between hsees' c).1

theorem reports_bounded_plain : ∃ ls m r r' as u bs v,
    Diagnosed .udp .single (plainOptions : DriverRuntimeOptions ℝ) plainDiagnostics 1 ls m ∧
      reports ls = [r, r'] ∧ (∀ c, r.count c ≤ r'.count c) ∧
      Reporting .udp .single (plainOptions : DriverRuntimeOptions ℝ) plainDiagnostics 1 as u bs v
        r' ∧
      ∀ c, u.members.count c ≤ r'.count c ∧ r'.count c ≤ v.members.count c ∧
        ∀ ageText, (r'.status plainDiagnostics ageText).values.lookup c.key =
          some (toString (r'.count c)) := by
  obtain ⟨ls, m, r, r', h, hreports, -⟩ := exists_diagnosed
  obtain ⟨hmade, hbounds, hpairs⟩ := reports_bounded h
  rw [hreports, List.pairwise_pair] at hpairs
  obtain ⟨as, u, bs, v, -, -, hcall⟩ := hmade r' (by simp [hreports])
  exact ⟨ls, m, r, r', as, u, bs, v, h, hreports, hpairs, hcall, hbounds hcall⟩

/-! ## Counters that fit together -/

/-- The packets are loaded first. -/
theorem received_loaded
    (h : Sees (Poller.Step mode captureType options) s (publishDiagnostics o lastNs) as u
      (keptNs, some r)) :
    ∃ bs t, Runs (Poller.Step mode captureType options) s bs t ∧
      r.packetsReceived = t.members.packetsReceived ∧
      t.members.messagesPublished ≤ r.messagesPublished := by
  obtain ⟨v₁, v₂, v₃, b₁, b₂, b₃, b₄, health, -, h₁, h₂, -, -, h₃, hvalues⟩ :=
    publishDiagnostics_sees h
  obtain ⟨t₁, t₂, -, -, -, -, -, -, -, a₁, a₂, -, -, -, -, -, -, -, -, -, g₁, g₂, -, -, -, -, -, -,
    -, -, rfl⟩ := loadValues_sees hvalues
  exact ⟨_, t₁, ((h₁.trans h₂).trans h₃.runs).trans g₁, rfl,
    Poller.count_le g₂ .messagesPublished⟩

/-- What always holds of two counters at one moment holds of the first one in a report and of the
second one in a later report. -/
theorem pairwise_of_reached (c c' : Counter) (n k : Nat) {rs : List (Report S)}
    (h : Calls (Poller.Step mode captureType options) (publishDiagnostics o)
      (Poller.initial startNs) lastNs as rs u keptNs)
    (hinv : ∀ bs p, bs <+: as → Poller.Reached mode captureType options startNs bs p →
      n * p.members.count c ≤ p.members.count c' + k) :
    rs.Pairwise fun r r' => n * r.count c ≤ r'.count c' + k := by
  refine h.pairwise_reports ?_
  intro before as₁ u k₁ as₂ v k₂ between as₃ u' k₃ as₄ v' k₄ r r' hpre hbefore hsees hbetween hsees'
  have hreached := hbefore.runs.trans hsees.runs
  have hfront : as₁ ++ as₂ <+: as := by
    rw [List.append_assoc] at hpre
    exact (List.prefix_append _ _).trans hpre
  have hthere := hinv _ v hfront hreached
  have hfirst := Nat.mul_le_mul_left n (count_between hsees c).2
  have hlater := Poller.count_le hbetween.runs c'
  have hsecond := (count_between hsees' c').1
  omega

omit [Arith F] in
theorem Poller.OkStays.of_prefix {bs : List (PollAction F)} (h : OkStays bs) (hp : as <+: bs) :
    OkStays as :=
  List.Pairwise.sublist (hp.sublist.filterMap _) h

/-- In SINGLE mode a report has at most one packet that is not published, and every message that
was reported is among the packets of the next reports. In FULL mode the next reports have 20 packets
for each message, but for one that the shutdown may have cut short. Every reconnect that was
reported is among the errors of the next reports. -/
theorem reports_consistent (h : Diagnosed mode captureType options o startNs ls m) :
    (captureType = .single →
      (∀ r ∈ reports ls, r.packetsReceived ≤ r.messagesPublished + 1) ∧
      (reports ls).Pairwise fun r r' => r.messagesPublished ≤ r'.packetsReceived) ∧
    (captureType = .full → Poller.OkStays (others ls) →
      (reports ls).Pairwise fun r r' => 20 * r.messagesPublished ≤ r'.packetsReceived + 20) ∧
    (reports ls).Pairwise fun r r' => r.socketReconnects ≤ r'.socketErrors := by
  obtain ⟨as, bs, t, hls, hcalls, -⟩ := Monitored.calls h
  refine ⟨?_, ?_, ?_⟩
  · rintro rfl
    constructor
    · refine hcalls.forall_reports ?_
      intro before as₁ u k₁ as₂ v k₂ as₃ r _ hbefore hsees _
      obtain ⟨bs, t, hbs, hpackets, hmessages⟩ := received_loaded hsees
      have hsingle := Poller.single_published (hbefore.runs.trans hbs)
      have hone : t.position.unpublished ≤ 1 := by
        cases t.position <;> simp [Position.unpublished]
      omega
    · have hpairs := pairwise_of_reached .messagesPublished .packetsReceived 1 0 hcalls (by
          intro bs p _ hreached
          have hsingle := Poller.single_published hreached
          simp only [SharedMembers.count]
          omega)
      simpa [Report.count] using hpairs
  · rintro rfl hok
    have hpairs := pairwise_of_reached .messagesPublished .packetsReceived 20 20 hcalls (by
        intro cs p hcs hreached
        have hfull := Poller.full_published hreached
        have hcut := Poller.cutShort_le_one hreached
          (hok.of_prefix (hls ▸ hcs.trans (List.prefix_append as bs)))
        simp only [SharedMembers.count]
        omega)
    simpa [Report.count] using hpairs
  · have hpairs := pairwise_of_reached .socketReconnects .socketErrors 1 0 hcalls (by
        intro bs p _ hreached
        simpa [SharedMembers.count] using Poller.reconnects_le_errors hreached)
    simpa [Report.count] using hpairs

theorem reports_consistent_plain : ∃ ls m r r',
    Diagnosed .udp .single (plainOptions : DriverRuntimeOptions ℝ) plainDiagnostics 1 ls m ∧
      reports ls = [r, r'] ∧ r.packetsReceived ≤ r.messagesPublished + 1 ∧
        r.messagesPublished ≤ r'.packetsReceived := by
  obtain ⟨ls, m, r, r', h, hreports, -⟩ := exists_diagnosed
  obtain ⟨hall, hpairs⟩ := (reports_consistent h).1 rfl
  rw [hreports, List.pairwise_pair] at hpairs
  exact ⟨ls, m, r, r', h, hreports, hall r (by simp [hreports]), hpairs⟩

/-! ## The level -/

section Health

variable [IsStrictOrderedRing S]

/-- What the level of a report says, of what the main thread had done when the call began in `u`
(`as₁`) and what it did until the call returned in `v` (`as₂`). -/
structure HealthTold (mode : DriverMode) (captureType : CaptureType)
    (options : DriverRuntimeOptions F) (o : DiagnosticOptions S) (as₁ : List (PollAction F))
    (u : Poller F) (as₂ : List (PollAction F)) (v : Poller F) (r : Report S) : Prop where
  /-- ERROR is told at one moment of the call: the last system error of `get_packet` has not been
  followed by a successful reopen, unless the flag is just being assigned. -/
  error : ∃ bs cs p, as₂ = bs ++ cs ∧ Runs (Poller.Step mode captureType options) u bs p ∧
    Runs (Poller.Step mode captureType options) p cs v ∧
      (p.position.socketPoint.assigning = false →
        (r.level = .error ↔ recoveringAfter (socketActions (as₁ ++ bs)) = true))
  /-- No false alarm: nothing was published within the timeout. -/
  warn : r.level = .warn → o.noDataTimeoutS < seconds (r.nowNs - o.startedAtNs) ∧
    ∀ ns ∈ recordedNs as₁, o.noDataTimeoutS < seconds (r.nowNs - ns)
  /-- No missed stall: something was published within the timeout, or the driver is new. -/
  ok : r.level = .ok →
    (∃ ns ∈ recordedNs (as₁ ++ as₂), seconds (r.nowNs - ns) ≤ o.noDataTimeoutS) ∨
      recordedNs as₁ = [] ∧ seconds (r.nowNs - o.startedAtNs) ≤ o.noDataTimeoutS
  /-- The first scan was at most on its way. -/
  waiting : r.message = "Waiting for first scan" →
    recordedNs as₁ = [] ∧ publishedScans as₁ ≤ 1
  streaming : r.message = "Streaming" → 1 ≤ r.messagesPublished

omit [Arith F] in
theorem recordedNs_append (as bs : List (PollAction F)) :
    recordedNs (as ++ bs) = recordedNs as ++ recordedNs bs := List.filterMap_append

omit [LinearOrder S] [IsStrictOrderedRing S] in
/-- The age against the stored times, at the moment when the last one is loaded. -/
theorem scanAge_cases (hstart : 0 < startNs) (hstarted : o.startedAtNs ≤ startNs) {p : Poller F}
    (h : Poller.Reached mode captureType options startNs as p) (nowNs : Nat) :
    (recordedNs as = [] ∧
      scanAge o nowNs p.members.lastPublishNs = seconds (nowNs - o.startedAtNs)) ∨
    ∃ last ∈ recordedNs as, o.startedAtNs ≤ last ∧ (∀ ns ∈ recordedNs as, ns ≤ last) ∧
      scanAge o nowNs p.members.lastPublishNs = seconds (nowNs - last) := by
  rcases (Poller.timed h).last_cases hstart with ⟨hnil, hzero⟩ | ⟨hmem, hne, hge, hle⟩
  · exact .inl ⟨hnil, if_pos hzero⟩
  · exact .inr ⟨_, hmem, hstarted.trans hge, hle, if_neg hne⟩

/-- While nothing is counted, nothing is stored, and at most one scan is published. -/
theorem nothing_published {p : Poller F}
    (h : Poller.Reached mode captureType options startNs as p)
    (hzero : p.members.messagesPublished = 0) : recordedNs as = [] ∧ publishedScans as ≤ 1 := by
  obtain ⟨-, -, hpublished, htimes⟩ := Poller.balanced h
  have hone : p.position.owed.published ≤ 1 := by
    cases p.position <;> simp [Position.owed]
  rw [hzero] at hpublished htimes
  exact ⟨List.eq_nil_of_length_eq_zero (by omega), by omega⟩

theorem health_told (hstart : 0 < startNs) (hstarted : o.startedAtNs ≤ startNs)
    {as₁ as₂ : List (PollAction F)} (hs : Poller.Reached mode captureType options startNs as₁ s)
    (h : Sees (Poller.Step mode captureType options) s (publishDiagnostics o lastNs) as₂ u
      (keptNs, some r)) : HealthTold mode captureType options o as₁ s as₂ u r := by
  obtain ⟨v₁, v₂, v₃, b₁, b₂, b₃, b₄, health, rfl, h₁, h₂, -, -, h₃, hvalues⟩ :=
    publishDiagnostics_sees h
  obtain ⟨w, c₁, c₂, rfl, g₁, g₂, hhealth⟩ := streamHealth_sees h₃
  have hrest := hvalues.runs
  obtain ⟨t₁, t₂, -, -, -, -, -, -, -, a₁, a₂, -, -, -, -, -, -, -, -, -, f₁, f₂, -, -, -, -, -, -,
    -, -, rfl⟩ := loadValues_sees hvalues
  have hv₂ := (hs.trans h₁).trans h₂
  have hw := hv₂.trans g₁
  have hage := scanAge_cases hstart hstarted hv₂ v₁.members.nowNs
  constructor
  case error =>
    refine ⟨b₁ ++ (b₂ ++ c₁), c₂ ++ b₄, w, by simp, h₁.trans (h₂.trans g₁),
      g₂.trans hrest, ?_⟩
    intro hassigning
    have hflag := Receiver.recovering_eq (Poller.socket_reached hw) hassigning
    simp only [List.append_assoc] at hflag
    rw [← hflag]
    rcases hhealth with ⟨hr, rfl⟩ | ⟨hr, -, rfl⟩ | ⟨hr, -, t', d₁, d₂, -, -, -, rfl⟩ <;> simp [hr]
  case warn =>
    intro hlevel
    have hlate : o.noDataTimeoutS < scanAge o v₁.members.nowNs v₂.members.lastPublishNs := by
      rcases hhealth with ⟨-, rfl⟩ | ⟨-, hlate, -⟩ | ⟨-, -, t', d₁, d₂, -, -, -, rfl⟩
      · cases hlevel
      · exact hlate
      · cases hlevel
    rcases hage with ⟨hnil, heq⟩ | ⟨last, -, hge, hle, heq⟩
    · rw [recordedNs_append, recordedNs_append, List.append_eq_nil_iff,
        List.append_eq_nil_iff] at hnil
      rw [heq] at hlate
      exact ⟨hlate, by simp [hnil.1.1]⟩
    · rw [heq] at hlate
      have hwithin : ∀ ns ≤ last, o.noDataTimeoutS < seconds (v₁.members.nowNs - ns) := by
        intro ns hns
        exact hlate.trans_le (seconds_le (by omega))
      refine ⟨hwithin _ hge, ?_⟩
      intro ns hns
      exact hwithin ns (hle ns (by simp [recordedNs_append, hns]))
  case ok =>
    intro hlevel
    have hsoon : scanAge o v₁.members.nowNs v₂.members.lastPublishNs ≤ o.noDataTimeoutS := by
      rcases hhealth with ⟨-, rfl⟩ | ⟨-, -, rfl⟩ | ⟨-, hsoon, -⟩
      · cases hlevel
      · cases hlevel
      · exact hsoon
    rcases hage with ⟨hnil, heq⟩ | ⟨last, hmem, -, -, heq⟩
    · rw [recordedNs_append, recordedNs_append, List.append_eq_nil_iff,
        List.append_eq_nil_iff] at hnil
      rw [heq] at hsoon
      exact .inr ⟨hnil.1.1, hsoon⟩
    · rw [heq] at hsoon
      refine .inl ⟨last, ?_, hsoon⟩
      simp only [recordedNs_append, List.mem_append] at hmem ⊢
      tauto
  case waiting =>
    intro hmessage
    rcases hhealth with ⟨-, rfl⟩ | ⟨-, -, rfl⟩ | ⟨-, -, t', d₁, d₂, -, hd₁, -, rfl⟩
    · simp at hmessage
    · simp at hmessage
    · have hzero : t'.members.messagesPublished = 0 := by
        by_contra hne
        simp [hne] at hmessage
      have hle := Poller.count_le (((h₁.trans h₂).trans g₁).trans hd₁) .messagesPublished
      simp only [SharedMembers.count, hzero, Nat.le_zero] at hle
      exact nothing_published hs hle
  case streaming =>
    intro hmessage
    rcases hhealth with ⟨-, rfl⟩ | ⟨-, -, rfl⟩ | ⟨-, -, t', d₁, d₂, -, -, hd₂, rfl⟩
    · simp at hmessage
    · simp at hmessage
    · have hpos : t'.members.messagesPublished ≠ 0 := by
        intro hzero
        simp [hzero] at hmessage
      have hle := Poller.count_le ((hd₂.trans f₁).trans f₂) .messagesPublished
      simp only [SharedMembers.count] at hle
      exact (Nat.pos_of_ne_zero hpos).trans_le hle

/-- What the level of a report says, whichever call made it. -/
theorem reports_health (hstart : 0 < startNs) (hstarted : o.startedAtNs ≤ startNs)
    (h : Reporting mode captureType options o startNs as u bs v r) :
    HealthTold mode captureType options o as u bs v r := by
  have hreached := h.reached
  obtain ⟨-, k, k', -, -, hsees⟩ := h
  exact health_told hstart hstarted hreached hsees

theorem reports_health_plain : ∃ as u bs v r,
    Reporting .udp .single (plainOptions : DriverRuntimeOptions ℝ) plainDiagnostics 1 as u bs v r ∧
      r.level = .ok ∧ HealthTold .udp .single plainOptions plainDiagnostics as u bs v r := by
  obtain ⟨ls, m, r, r', h, hreports, -, -, hlevel, -⟩ := exists_diagnosed
  obtain ⟨as, u, bs, v, -, -, hcall⟩ := exists_reporting h r' (by simp [hreports])
  exact ⟨as, u, bs, v, r', hcall, hlevel, reports_health Nat.one_pos (Nat.le_refl 1) hcall⟩

/-! ## Spacing -/

/-- The thread keeps the time of its last report. -/
theorem kept_spaced (hstart : 0 < startNs) {rs : List (Report S)}
    (h : Calls (Poller.Step mode captureType options) (publishDiagnostics o)
      (Poller.initial startNs) 0 as rs u keptNs) :
    keptNs ≤ u.members.nowNs ∧ Spaced (clampPeriod o.diagnosticsPeriodS) (seconds keptNs)
      (rs.map fun r => seconds r.nowNs) := by
  induction h with
  | start => exact ⟨Nat.zero_le _, by simpa using Spaced.none⟩
  | other _ hs ih => exact ⟨ih.1.trans hs.nowNs_le, ih.2⟩
  | @call as bs rs t u k k' report hcalls hsees ih =>
    cases report with
    | none =>
      obtain ⟨rfl, -⟩ := publishDiagnostics_held hsees
      exact ⟨ih.1.trans (Poller.nowNs_le hsees.runs), by simpa using ih.2⟩
    | some r =>
      obtain ⟨v₁, v₂, v₃, b₁, b₂, b₃, b₄, health, rfl, h₁, h₂, rfl, hdue, h₃, hvalues⟩ :=
        publishDiagnostics_sees hsees
      have hstarted := Poller.nowNs_le (hcalls.runs.trans h₁)
      have hkept := ih.1.trans (Poller.nowNs_le h₁)
      have hrest := Poller.nowNs_le ((h₂.trans h₃.runs).trans hvalues.runs)
      obtain ⟨-, -, -, -, -, -, -, -, -, -, -, -, -, -, -, -, -, -, -, -, -, -, -, -, -, -, -, -, -,
        -, rfl⟩ := loadValues_sees hvalues
      refine ⟨hrest, ?_⟩
      have hpass := ih.2.pass hdue (seconds_pos (hstart.trans_le hstarted))
        (seconds_le (by exact_mod_cast hkept))
      simpa using hpass

/-- Two reports are at least a period apart, and never less than 0.1 s. A call reports nothing only
if a report was made less than a period before the call began: no call is skipped by mistake. -/
theorem reports_spaced (hstart : 0 < startNs)
    (h : Diagnosed mode captureType options o startNs ls m) :
    ((reports ls).Pairwise fun r r' =>
      clampPeriod o.diagnosticsPeriodS ≤ (seconds r'.nowNs - seconds r.nowNs : S)) ∧
    ∀ {as rs u k bs v k'}, Calls (Poller.Step mode captureType options) (publishDiagnostics o)
        (Poller.initial startNs) 0 as rs u k →
      Sees (Poller.Step mode captureType options) u (publishDiagnostics o k) bs v (k', none) →
      ∃ r, rs.getLast? = some r ∧
        (seconds u.members.nowNs - seconds r.nowNs : S) < clampPeriod o.diagnosticsPeriodS := by
  constructor
  · obtain ⟨as, bs, t, -, hcalls, -⟩ := Monitored.calls h
    exact List.pairwise_map.1 (kept_spaced hstart hcalls).2.pairwise
  · intro as rs u k bs v k' hcalls hsees
    obtain ⟨-, t, cs₁, cs₂, -, hruns, -, hdue⟩ := publishDiagnostics_held hsees
    obtain ⟨ns, hlast, hlt⟩ := (kept_spaced hstart hcalls).2.held hdue
    rw [List.getLast?_map, Option.map_eq_some_iff] at hlast
    obtain ⟨r, hr, rfl⟩ := hlast
    have hbegan : (seconds u.members.nowNs : S) ≤ seconds t.members.nowNs :=
      seconds_le (by exact_mod_cast Poller.nowNs_le hruns)
    exact ⟨r, hr, (sub_le_sub_right hbegan _).trans_lt hlt⟩

theorem reports_spaced_plain : ∃ ls m r r',
    Diagnosed .udp .single (plainOptions : DriverRuntimeOptions ℝ) plainDiagnostics 1 ls m ∧
      reports ls = [r, r'] ∧ clampPeriod 1 ≤ (seconds r'.nowNs - seconds r.nowNs : ℚ) := by
  obtain ⟨ls, m, r, r', h, hreports, -⟩ := exists_diagnosed
  have hpairs := (reports_spaced Nat.one_pos h).1
  rw [hreports, List.pairwise_pair] at hpairs
  exact ⟨ls, m, r, r', h, hreports, hpairs⟩

end Health

/-! ## The last error -/

def Action.errorText : Action → Option String
  | .getPacket (.threw what) => some what
  | .reopen failure => failure
  | _ => none

/-- The texts of all socket errors. -/
def errorTexts (as : List Action) : List String := as.filterMap Action.errorText

omit [Arith F] in
@[simp] theorem errorTexts_concat (as : List Action) (a : Action) :
    errorTexts (as ++ [a]) = errorTexts as ++ a.errorText.toList := by
  cases h : a.errorText <;> simp [errorTexts, h]

omit [Arith F] in
theorem errorTexts_append (as bs : List (PollAction F)) :
    errorTexts (socketActions (as ++ bs)) =
      errorTexts (socketActions as) ++ errorTexts (socketActions bs) := by
  simp [errorTexts, socketActions]

namespace Statement

/-- The text that is not yet stored. -/
def unstored : Statement → List String
  | .caught what => [what]
  | .countError what _ => [what]
  | .storeError what _ => [what]
  | _ => []

/-- Between the two assignments of `record_socket_error`. -/
def countedEarly : Statement → Nat
  | .storeError _ _ => 1
  | _ => 0

end Statement

/-- The text is that of the last error, once the error is stored. -/
theorem Receiver.lastSocketError_eq {b : Backoff} {xs : List Action} {r : Receiver}
    (h : Reached b xs r) : ∃ texts, errorTexts xs = texts ++ r.point.unstored ∧
      r.socketErrors = texts.length + r.point.countedEarly ∧
      r.lastSocketError = texts.getLastD "" := by
  refine h.invariant (P := fun xs r => ∃ texts, errorTexts xs = texts ++ r.point.unstored ∧
    r.socketErrors = texts.length + r.point.countedEarly ∧
    r.lastSocketError = texts.getLastD "") ⟨[], rfl, rfl, rfl⟩ ?_
  intro xs t a u ih hs
  obtain ⟨texts, htexts, hcount, hlast⟩ := ih
  cases hs with
  | @storeError s what retryDelayMs =>
    refine ⟨texts ++ [what], ?_, ?_, ?_⟩
    · simpa [Action.errorText, Statement.unstored] using htexts
    · simpa [Statement.countedEarly] using hcount
    · simp
  | _ =>
    refine ⟨texts, ?_, ?_, hlast⟩
    · simpa [Action.errorText, Statement.unstored] using htexts
    · simpa [Statement.countedEarly] using hcount

theorem getElem?_length_append (d : String) (texts rest : List String) :
    (d :: (texts ++ rest))[texts.length]? = some (texts.getLastD d) := by
  rcases List.eq_nil_or_concat texts with rfl | ⟨init, last, rfl⟩ <;> simp

/-- The text of a report is that of an error: of the last one that the report counts, of one after
it, or of the one before it, as `record_socket_error` counts an error first and stores its text
then. The error is one of those that were thrown until the call returned. -/
theorem reports_last_error (h : Reporting mode captureType options o startNs as u bs v r) :
    ∃ k, r.socketErrors ≤ k + 1 ∧ k ≤ v.members.socketErrors ∧
      ("" :: errorTexts (socketActions (as ++ bs)))[k]? = some r.socketLastError := by
  have hreached := h.reached
  obtain ⟨-, k, k', -, -, hsees⟩ := h
  obtain ⟨v₁, v₂, v₃, b₁, b₂, b₃, b₄, health, hb, h₁, h₂, -, -, h₃, hvalues⟩ :=
    publishDiagnostics_sees hsees
  obtain ⟨t₁, t₂, t₃, t₄, t₅, t₆, t₇, t₈, t₉, a₁, a₂, a₃, a₄, a₅, a₆, a₇, a₈, a₉, a₁₀, ha, g₁, g₂,
    g₃, g₄, g₅, g₆, g₇, g₈, g₉, g₁₀, rfl⟩ := loadValues_sees hvalues
  have hsix := ((((((((hreached.trans h₁).trans h₂).trans h₃.runs).trans g₁).trans g₂).trans
    g₃).trans g₄).trans g₅).trans g₆
  have hnine := ((hsix.trans g₇).trans g₈).trans g₉
  have hgrown := Poller.count_le ((g₇.trans g₈).trans g₉) .socketErrors
  have hend := Poller.count_le g₁₀ .socketErrors
  obtain ⟨texts, htexts, hcount, hlast⟩ := Receiver.lastSocketError_eq (Poller.socket_reached hnine)
  have hearly : t₉.position.socketPoint.countedEarly ≤ 1 := by
    cases t₉.position.socketPoint <;> simp [Statement.countedEarly]
  simp only [SharedMembers.count] at hgrown hend
  refine ⟨texts.length, ?_, ?_, ?_⟩
  · dsimp only at hcount ⊢
    omega
  · dsimp only at hcount
    omega
  · -- what the call does behind the last load comes after the texts
    have hall : errorTexts (socketActions (as ++ bs)) =
        texts ++ (t₉.position.socketPoint.unstored ++ errorTexts (socketActions a₁₀)) := by
      rw [hb, ha, ← List.append_assoc texts, ← htexts, ← errorTexts_append]
      simp only [List.append_assoc]
    rw [hall, hlast, getElem?_length_append]

theorem reports_last_error_plain : ∃ as u bs v r,
    Reporting .udp .single (plainOptions : DriverRuntimeOptions ℝ) plainDiagnostics 1 as u bs v r ∧
      r.socketErrors = 0 ∧ ∃ k, r.socketErrors ≤ k + 1 ∧ k ≤ v.members.socketErrors ∧
        ("" :: errorTexts (socketActions (as ++ bs)))[k]? = some r.socketLastError := by
  obtain ⟨ls, m, r, r', h, hreports, -, -, -, herrors⟩ := exists_diagnosed
  obtain ⟨as, u, bs, v, -, -, hcall⟩ := exists_reporting h r' (by simp [hreports])
  exact ⟨as, u, bs, v, r', hcall, herrors, reports_last_error hcall⟩

end Threads

end MechLidar
