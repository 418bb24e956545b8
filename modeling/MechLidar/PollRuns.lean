import MechLidar.Polling
import MechLidar.ScanLayout

/-!
# MechLidar.PollRuns

The polls as functions, as they are modelled for their results, are runs of the main thread as it is
modelled statement by statement.

* `Asks`: statements inside of one call of `receive_udp_packet`
* `Leads`: a run of the main thread that sees the events of a trace and uses up answers of
  `ros::ok()`
* `receiveUdpPacket_leads`, `trySingle_leads`, `tryAdd_leads`, `publishFull_leads`: the parts
* `pollUdp_simulates`, `pollFullUdp_simulates`, `pollPcap_leads`, `fullReplay_leads`: the four polls
* `driven_reached`: every driver that a run of polls can reach
-/

namespace MechLidar

open Lib

variable {F : Type}

/-! ## The receive loop -/

namespace Receiver

/-- A statement inside of one call. -/
def Inner (o : Backoff) (r : Receiver) (a : Action) (r' : Receiver) : Prop :=
  Step o r a r' ∧ ∀ value, a ≠ .ret value

/-- Statements of one call that use up these answers of `ros::ok()`. -/
def Asks (o : Backoff) (r : Receiver) (ok : Stream' Bool) (r' : Receiver) (ok' : Stream' Bool) :
    Prop :=
  ∃ as, Runs (Inner o) r as r' ∧ okAnswers as ++ₛ ok' = ok

section Asks

variable {o : Backoff} {r t r' : Receiver} {ok ok' ok'' : Stream' Bool}

theorem Asks.refl : Asks o r ok r ok := ⟨[], .start, rfl⟩

theorem Asks.trans (h : Asks o r ok t ok') (h' : Asks o t ok' r' ok'') : Asks o r ok r' ok'' := by
  obtain ⟨as, has, rfl⟩ := h
  obtain ⟨bs, hbs, rfl⟩ := h'
  exact ⟨as ++ bs, has.trans hbs, by simp [okAnswers_append]⟩

theorem Asks.cons {a : Action} (hs : Inner o r a t) (ha : a.okAnswer = none)
    (h : Asks o t ok r' ok') : Asks o r ok r' ok' := by
  obtain ⟨as, has, hok⟩ := h
  exact ⟨a :: as, .cons hs has, by simpa [okAnswers, ha] using hok⟩

theorem Asks.silent (hs : Step o r .silent t) (h : Asks o t ok r' ok') : Asks o r ok r' ok' :=
  .cons ⟨hs, by simp⟩ rfl h

theorem Asks.ask {answer : Bool} (hok : ok.head = answer) (hs : Step o r (.ok answer) t)
    (h : Asks o t ok.tail r' ok') : Asks o r ok r' ok' := by
  obtain ⟨as, has, htail⟩ := h
  refine ⟨.ok answer :: as, .cons ⟨hs, by simp⟩ has, ?_⟩
  rw [← Stream'.eta ok, hok, ← htail]
  rfl

end Asks

end Receiver

namespace UdpDriver

open Receiver

theorem sleepSlices_asks (o : Backoff) (s : SocketStatus) (retryDelayMs remainingMs : Int)
    (ok : Stream' Bool) (sleepsMs : List Int) :
    Asks o ⟨s, .sleepLoop retryDelayMs remainingMs⟩ ok ⟨s, .check retryDelayMs⟩
      (sleepSlices remainingMs ok sleepsMs).1 := by
  fun_induction sleepSlices remainingMs ok sleepsMs with
  | case1 remainingMs ok sleepsMs hpos hok stepMs ih =>
    exact .ask hok (.sleepLoop hpos) (.cons ⟨.sleep, by simp⟩ rfl ih)
  | case2 remainingMs ok sleepsMs hpos hok =>
    exact .ask (by simpa using hok) (.sleepStop hpos) .refl
  | case3 remainingMs ok sleepsMs hpos => exact .silent (.sleepEnd hpos) .refl

/-- The retry loop up to the check behind the delay. -/
theorem retry_asks (o : Backoff) (s : SocketStatus) {retryDelayMs : Int} {ok ok' : Stream' Bool}
    {sleepsMs sleepsMs' : List Int} (hok : ¬ ok.head = false)
    (hsleep : sleepSlices retryDelayMs ok.tail sleepsMs = (ok', sleepsMs')) :
    Asks o ⟨s, .retryLoop retryDelayMs⟩ ok
      ⟨{ s with socketRetryDelayMs := retryDelayMs }, .check retryDelayMs⟩ ok' := by
  have hslices := sleepSlices_asks o { s with socketRetryDelayMs := retryDelayMs } retryDelayMs
    retryDelayMs ok.tail sleepsMs
  rw [hsleep] at hslices
  exact .ask (by simpa using hok) .retryLoop (.silent .setDelay hslices)

theorem recover_asks (o : Backoff) (opens : List OpenCalls) (retryDelayMs : Int) (w : World)
    (d : UdpDriver F) {r : Recovery} {w' : World} {d' : UdpDriver F}
    (h : recover o.maxDelayMs opens retryDelayMs w d = (r, w', d')) :
    ∃ p, r.Stands p ∧ Asks o ⟨d.status, .retryLoop retryDelayMs⟩ w.ok ⟨d'.status, p⟩ w'.ok := by
  fun_induction recover o.maxDelayMs opens retryDelayMs w d with
  | case1 opens retryDelayMs w d hok =>
    cases h
    exact ⟨_, rfl, .ask hok .retryEnd .refl⟩
  | case2 opens retryDelayMs w d hok ok' sleepsMs' hsleep _ _ hcheck =>
    obtain ⟨rfl, rfl, rfl⟩ := by simpa only [Prod.mk.injEq] using h
    exact ⟨_, rfl, (retry_asks o d.status hok hsleep).trans (.ask hcheck .checkStop .refl)⟩
  | case3 retryDelayMs w d hok ok' sleepsMs' hsleep _ _ hcheck =>
    have hreopen := (retry_asks o d.status hok hsleep).trans
      (.ask (by simpa using hcheck) .check .refl)
    obtain ⟨rfl, rfl, rfl⟩ := by simpa only [Prod.mk.injEq] using h
    exact ⟨_, ⟨_, rfl⟩, hreopen⟩
  | case4 retryDelayMs w d hok ok' sleepsMs' hsleep _ _ hcheck k opens socket _ =>
    have hreopen := (retry_asks o d.status hok hsleep).trans
      (.ask (by simpa using hcheck) .check .refl)
    cases h
    exact ⟨_, rfl, hreopen.trans (.cons ⟨.reopened, by simp⟩ rfl (.silent .countReconnect
      (.silent .clearRecovering (.silent .clearDelay .refl))))⟩
  | case5 retryDelayMs w d hok ok' sleepsMs' hsleep _ _ hcheck k opens e socket _ _ ih =>
    have hreopen := (retry_asks o d.status hok hsleep).trans
      (.ask (by simpa using hcheck) .check .refl)
    obtain ⟨p, hp, hrest⟩ := ih h
    exact ⟨p, hp, hreopen.trans (.cons ⟨.reopenThrew, by simp⟩ rfl (.silent .countError
      (.silent .storeError hrest)))⟩

/-- From the outer loop into the retry loop, where `get_packet` has thrown. -/
theorem threw_asks (w : World) (d : UdpDriver F) {what : String} (hok : ¬ w.ok.head = false) :
    Asks d.backoff ⟨d.status, .outerLoop⟩ w.ok
      ⟨({ d with socketRecovering := true }.recordSocketError what).status,
        .retryLoop d.backoff.firstDelayMs⟩ w.ok.tail :=
  .ask (by simpa using hok) .outerLoop (.cons ⟨.threw, by simp⟩ rfl (.silent .caught
    (.silent .countError (.silent .storeError .refl))))

theorem receiveLoop_asks (gets : List Arrival) (buffer : RawPacket) (w : World) (d : UdpDriver F)
    {r : Received} {w' : World} {d' : UdpDriver F}
    (h : receiveLoop gets buffer w d = (r, w', d')) :
    ∃ p, ReceivedAt r p ∧ Asks d.backoff ⟨d.status, .outerLoop⟩ w.ok ⟨d'.status, p⟩ w'.ok := by
  fun_induction receiveLoop gets buffer w d with
  | case1 gets buffer w d hok =>
    cases h
    exact ⟨_, rfl, .ask hok .outerEnd .refl⟩
  | case2 buffer w d hok =>
    cases h
    exact ⟨_, .inl rfl, .ask (by simpa using hok) .outerLoop .refl⟩
  | case3 buffer w d hok =>
    cases h
    exact ⟨_, rfl, .ask (by simpa using hok) .outerLoop (.cons ⟨.received, by simp⟩ rfl .refl)⟩
  | case4 buffer w d hok _ k gets c buffer' _ hc ih =>
    obtain ⟨p, hp, hrest⟩ := ih h
    exact ⟨p, hp, .ask (by simpa using hok) .outerLoop (.cons ⟨.skipped hc, by simp⟩ rfl hrest)⟩
  | case5 buffer w d hok _ k gets e buffer' _ _ _ _ w₁ d₁ hre ih =>
    obtain ⟨hcore₁, -⟩ := recover_uses d.backoff _ _ _ _ hre
    obtain ⟨p₁, rfl, huses⟩ := recover_asks d.backoff _ _ _ _ hre
    obtain ⟨p, hp, hrest⟩ := ih h
    have hbackoff : d₁.backoff = d.backoff := by
      rw [backoff, hcore₁]
      rfl
    rw [hbackoff] at hrest
    exact ⟨p, hp, ((threw_asks w d hok).trans huses).trans hrest⟩
  | case6 buffer w d hok _ k gets e buffer' _ _ _ _ w₁ d₁ hre =>
    obtain ⟨p, hp, huses⟩ := recover_asks d.backoff _ _ _ _ hre
    cases h
    exact ⟨p, hp, (threw_asks w d hok).trans huses⟩
  | case7 buffer w d hok _ k gets e buffer' _ _ _ _ w₁ d₁ hre =>
    obtain ⟨p, hp, huses⟩ := recover_asks d.backoff _ _ _ _ hre
    cases h
    exact ⟨p, .inr hp, (threw_asks w d hok).trans huses⟩

end UdpDriver

/-! ## Runs of the main thread -/

/-- An answer of `ros::ok()` that is given inside of a poll. -/
def PollAction.pollAnswer : PollAction F → Option Bool
  | .ok answer => some answer
  | .receive a => a.okAnswer
  | _ => none

def pollAnswers (as : List (PollAction F)) : List Bool := as.filterMap PollAction.pollAnswer

/-- The members as the driver has them, with the time of the last publication and the clock. -/
def Driver.members (d : Driver F) (status : SocketStatus) (lastPublishNs nowNs : Nat) :
    SharedMembers where
  toSocketStatus := status
  packetsReceived := d.packetsReceived
  messagesPublished := d.messagesPublished
  invalidPackets := d.invalidPackets
  discardedRevolutions := d.discardedRevolutions
  lastPublishNs := lastPublishNs
  nowNs := nowNs

/-- A trace so far, and the answers of `ros::ok()` to come. -/
abbrev Log (F : Type) := List (Event F) × Stream' Bool

section Leads

variable [Arith F]

/-- Statements of the main thread that add to the trace and use up answers. -/
def Leads (mode : DriverMode) (captureType : CaptureType) (options : DriverRuntimeOptions F)
    (p : Poller F) (l : Log F) (p' : Poller F) (l' : Log F) : Prop :=
  ∃ as, Runs (Poller.Step mode captureType options) p as p' ∧ l'.1 = l.1 ++ eventsOf as ∧
    pollAnswers as ++ₛ l'.2 = l.2

namespace Leads

variable {mode : DriverMode} {captureType : CaptureType} {options : DriverRuntimeOptions F}
  {p q p' : Poller F} {l l₁ l' : Log F} {trace : List (Event F)} {ok : Stream' Bool}

theorem refl : Leads mode captureType options p l p l := ⟨[], .start, by simp [eventsOf], rfl⟩

theorem trans (h : Leads mode captureType options p l q l₁)
    (h' : Leads mode captureType options q l₁ p' l') :
    Leads mode captureType options p l p' l' := by
  obtain ⟨as, has, htrace, hok⟩ := h
  obtain ⟨bs, hbs, htrace', hok'⟩ := h'
  refine ⟨as ++ bs, has.trans hbs, ?_, ?_⟩
  · simp [htrace', htrace, eventsOf]
  · rw [← hok, ← hok', pollAnswers, List.filterMap_append, Stream'.append_append_stream]
    rfl

theorem step {x : PollAction F} (hs : Poller.Step mode captureType options p x q)
    (hx : x.pollAnswer = none)
    (h : Leads mode captureType options q (trace ++ x.event?.toList, ok) p' l') :
    Leads mode captureType options p (trace, ok) p' l' := by
  refine trans ⟨[x], .single hs, ?_, ?_⟩ h
  · cases he : x.event? <;> simp [eventsOf, he]
  · simp [pollAnswers, hx]

/-- A statement without an event and without an answer. -/
theorem silent {x : PollAction F} (hs : Poller.Step mode captureType options p x q)
    (hx : x.pollAnswer = none) (he : x.event? = none)
    (h : Leads mode captureType options q l p' l') : Leads mode captureType options p l p' l' :=
  step hs hx (by simpa [he] using h)

theorem ask {answer : Bool} (hok : ok.head = answer)
    (hs : Poller.Step mode captureType options p (.ok answer) q)
    (h : Leads mode captureType options q (trace, ok.tail) p' l') :
    Leads mode captureType options p (trace, ok) p' l' := by
  refine trans ⟨[.ok answer], .single hs, by simp [eventsOf, PollAction.event?], ?_⟩ h
  rw [← Stream'.eta ok, hok]
  rfl

end Leads

/-! ### The parts -/

section Parts

variable (mode : DriverMode) (captureType : CaptureType) {options : DriverRuntimeOptions F}
  (status : SocketStatus) (ns nowNs : Nat) (ok : Stream' Bool)

/-- The statements of one call of `receive_udp_packet`. -/
theorem inner_runs {r r' : Receiver} {bs : List Action} {m : SharedMembers}
    (a : Option (FullScanAssembler F)) (hm : m.toSocketStatus = r.toSocketStatus)
    (h : Runs (Receiver.Inner (Poller.backoff options)) r bs r') :
    Runs (Poller.Step mode captureType options) ⟨m, .receiving r.point a⟩
      (bs.map PollAction.receive)
      ⟨{ m with toSocketStatus := r'.toSocketStatus }, .receiving r'.point a⟩ := by
  induction h with
  | start =>
    rw [← hm]
    exact .start
  | after _ hs ih =>
    rw [List.map_append]
    exact ih.after (.receive hs.2 hs.1)

theorem asks_leads {s s' : SocketStatus} {point point' : Statement} {ok ok' : Stream' Bool}
    (h : Receiver.Asks (Poller.backoff options) ⟨s, point⟩ ok ⟨s', point'⟩ ok') (d : Driver F)
    (a : Option (FullScanAssembler F)) :
    Leads mode captureType options ⟨d.members s ns nowNs, .receiving point a⟩ (d.trace, ok)
      ⟨d.members s' ns nowNs, .receiving point' a⟩ (d.trace, ok') := by
  obtain ⟨bs, hbs, hok⟩ := h
  refine ⟨_, inner_runs mode captureType a (rfl : (d.members s ns nowNs).toSocketStatus = s) hbs,
    ?_, ?_⟩
  · simp [eventsOf, PollAction.event?, List.filterMap_map, Function.comp_def]
  · rw [pollAnswers, List.filterMap_map]
    exact hok

/-- `_poll_udp` and `_poll_pcap`, from the buffer on. -/
theorem trySingle_leads (d : Driver F) (raw : RawPacket) (hd : d.options = options) :
    ∃ ns', Leads mode captureType options ⟨d.members status ns nowNs, .handing raw none⟩
      (d.trace, ok) ⟨(d.trySingle raw).members status ns' nowNs, .mainLoop⟩
      ((d.trySingle raw).trace, ok) := by
  subst hd
  unfold Driver.trySingle
  cases hraw : (decode raw : Except PacketError (PktHdlMech F)) with
  | error e =>
    exact ⟨ns, .step (.handing_error hraw) rfl (.silent .countInvalid rfl rfl .refl)⟩
  | ok pkt =>
    exact ⟨nowNs, .step (.handing_ok hraw) rfl (.silent .countReceived rfl rfl
      (.step .publishing rfl (.silent .countPublished rfl rfl (.silent .readClock rfl rfl
        (.silent .storeTime rfl rfl .refl)))))⟩

theorem trySingle_options (d : Driver F) (raw : RawPacket) :
    (d.trySingle raw).options = d.options := by
  unfold Driver.trySingle
  cases (decode raw : Except PacketError (PktHdlMech F)) <;> rfl

theorem tryAdd_options (d : Driver F) (a : FullScanAssembler F) (raw : RawPacket) :
    (d.tryAdd a raw).1.options = d.options := by
  cases hraw : (decode raw : Except PacketError (PktHdlMech F)) with
  | error e =>
    rw [tryAdd_error d a hraw]
    rfl
  | ok pkt =>
    rw [tryAdd_ok d a hraw]
    rfl

/-- The try block of a FULL poll. -/
theorem tryAdd_leads (d : Driver F) (a : FullScanAssembler F) (raw : RawPacket) :
    Leads mode captureType options ⟨d.members status ns nowNs, .handing raw (some a)⟩
      (d.trace, ok) ⟨(d.tryAdd a raw).1.members status ns nowNs, .loop (d.tryAdd a raw).2⟩
      ((d.tryAdd a raw).1.trace, ok) := by
  cases hraw : (decode raw : Except PacketError (PktHdlMech F)) with
  | error e =>
    rw [tryAdd_error d a hraw]
    exact .step (.handing_error hraw) rfl (.silent .countInvalid rfl rfl .refl)
  | ok pkt =>
    rw [tryAdd_ok d a hraw]
    exact .step (.handing_ok hraw) rfl
      (.silent .countReceived rfl rfl (.silent .adding_loop rfl rfl .refl))

/-- The end of a FULL poll. -/
theorem publishFull_leads (d : Driver F) (a : FullScanAssembler F) (hd : d.options = options) :
    Leads mode captureType options ⟨d.members status ns nowNs, .countDiscarded a⟩ (d.trace, ok)
      ⟨(d.publishFull a).members status nowNs nowNs, .mainLoop⟩ ((d.publishFull a).trace, ok) := by
  subst hd
  have hmembers : (d.publishFull a).members status nowNs nowNs =
      { d.members status ns nowNs with
        discardedRevolutions := d.discardedRevolutions + a.discardedRevolutions
        messagesPublished := d.messagesPublished + 1
        lastPublishNs := nowNs } := by
    obtain ⟨-, -, hpublished, hdiscarded, hreceived, hinvalid⟩ := publishFull_eq d a
    simp [Driver.members, hpublished, hdiscarded, hreceived, hinvalid]
  have htrace : (d.publishFull a).trace = d.trace ++ [.published a.rotationCounter
      (fullScan d.options a) (makePointcloudMsg (fullScan d.options a))] := by
    unfold Driver.publishFull
    split <;> rfl
  rw [hmembers, htrace]
  exact .silent .countDiscarded rfl rfl (.step .publishing rfl
    (.silent .countPublished rfl rfl (.silent .readClock rfl rfl
      (.silent .storeTime rfl rfl .refl))))

end Parts

/-! ### Polls over UDP -/

section Udp

open UdpDriver

/-- Where the main thread is behind a call of `receive_udp_packet`, or in the middle of it. -/
def Received.Leaves (a : Option (FullScanAssembler F)) : Received → Position F → Prop
  | .packet raw, p => p = .handing raw a
  | .stopped, p => p = .mainLoop
  | .waiting, p => ∃ point, p = .receiving point a

/-- Where the main thread is behind a poll, or in the middle of it. -/
def Polled.Leaves {σ : Type} : Polled σ → Position F → Prop
  | .returned _, p => p = .mainLoop
  | .waiting _, p => ∃ point a, p = .receiving point a

variable {captureType : CaptureType} {options : DriverRuntimeOptions F} (ns nowNs : Nat)

theorem receiveUdpPacket_leads (captureType : CaptureType) (a : Option (FullScanAssembler F))
    {w w' : World} {d d' : UdpDriver F} {r : Received} (hd : d.options = options)
    (h : receiveUdpPacket w d = (r, w', d')) :
    ∃ p, r.Leaves a p ∧ Leads .udp captureType options
      ⟨d.members d.status ns nowNs, .receiving .idle a⟩ (d.trace, w.ok)
      ⟨d'.members d'.status ns nowNs, p⟩ (d'.trace, w'.ok) := by
  subst hd
  obtain ⟨point, hpoint, hasks⟩ := receiveLoop_asks w.gets w.memory w d h
  have hcore := receiveUdpPacket_toDriver h
  have hleads := asks_leads .udp captureType ns nowNs (.cons ⟨.call, by simp⟩ rfl hasks)
    d.toDriver a
  rw [hcore]
  cases r with
  | packet raw =>
    obtain rfl := hpoint
    exact ⟨_, rfl, hleads.trans (.silent (.receiveTrue raw) rfl rfl .refl)⟩
  | stopped =>
    obtain rfl := hpoint
    exact ⟨_, rfl, hleads.trans (.silent .receiveFalse rfl rfl .refl)⟩
  | waiting => exact ⟨_, ⟨point, rfl⟩, hleads⟩

/-- From `p` on, the main thread gets to where a poll leaves it. -/
structure Simulates (captureType : CaptureType) (options : DriverRuntimeOptions F) (nowNs : Nat)
    (p : Poller F) (l : Log F) (r : Polled (World × UdpDriver F)) : Prop where
  options_eq : r.state.2.options = options
  leads : ∃ ns p', r.Leaves p' ∧ Leads .udp captureType options p l
    ⟨r.state.2.members r.state.2.status ns nowNs, p'⟩ (r.state.2.trace, r.state.1.ok)

theorem Simulates.after {p q : Poller F} {l l' : Log F} {r : Polled (World × UdpDriver F)}
    (h : Leads .udp captureType options p l q l')
    (hr : Simulates captureType options nowNs q l' r) :
    Simulates captureType options nowNs p l r where
  options_eq := hr.options_eq
  leads := by
    obtain ⟨ns, p', hp', hleads⟩ := hr.leads
    exact ⟨ns, p', hp', h.trans hleads⟩

theorem pollUdp_simulates {w : World} {d : UdpDriver F} (hd : d.options = options) :
    Simulates .single options nowNs ⟨d.members d.status ns nowNs, .mainLoop⟩ (d.trace, w.ok)
      (pollUdp (w, d)) := by
  rw [pollUdp]
  cases hr : receiveUdpPacket w d with
  | mk r s =>
    obtain ⟨w', d'⟩ := s
    have hd' : d'.options = options := by rw [receiveUdpPacket_toDriver hr, hd]
    obtain ⟨p, hp, hleads⟩ := receiveUdpPacket_leads ns nowNs .single none hd hr
    refine .after nowNs (.silent (.poll rfl) rfl rfl hleads) ?_
    cases r with
    | packet raw =>
      obtain rfl := hp
      obtain ⟨ns', htry⟩ := trySingle_leads .udp .single d'.status ns nowNs w'.ok
        d'.toDriver raw hd'
      exact ⟨(trySingle_options d'.toDriver raw).trans hd', ns', _, rfl, htry⟩
    | stopped =>
      obtain rfl := hp
      exact ⟨hd', ns, _, rfl, .refl⟩
    | waiting =>
      obtain ⟨point, rfl⟩ := hp
      exact ⟨hd', ns, _, ⟨point, none, rfl⟩, .refl⟩

theorem fullUdpLoop_simulates (a : FullScanAssembler F) (w : World) (d : UdpDriver F)
    (hd : d.options = options) :
    Simulates .full options nowNs ⟨d.members d.status ns nowNs, .loop a⟩ (d.trace, w.ok)
      (fullUdpLoop a w d) := by
  fun_induction fullUdpLoop a w d with
  | case1 a w d hloop raw w' d' hr core a' hadd ih =>
    obtain ⟨p, rfl, hleads⟩ := receiveUdpPacket_leads ns nowNs .full (some a) hd hr
    have htry := @tryAdd_leads F _ .udp .full options d'.status ns nowNs w'.ok d'.toDriver a raw
    have hcore := tryAdd_options d'.toDriver a raw
    rw [hadd] at htry hcore
    rw [receiveUdpPacket_toDriver hr, hd] at hcore
    exact .after nowNs (.ask hloop.1 (.loop hloop.2) (hleads.trans htry)) (ih hcore)
  | case2 a w d hloop w' d' hr =>
    obtain ⟨p, rfl, hleads⟩ := receiveUdpPacket_leads ns nowNs .full (some a) hd hr
    refine ⟨?_, ns, _, rfl, .ask hloop.1 (.loop hloop.2) hleads⟩
    rw [← hd, ← receiveUdpPacket_toDriver hr]
    rfl
  | case3 a w d hloop w' d' hr =>
    obtain ⟨p, ⟨point, rfl⟩, hleads⟩ :=
      receiveUdpPacket_leads ns nowNs .full (some a) hd hr
    refine ⟨?_, ns, _, ⟨point, some a, rfl⟩, .ask hloop.1 (.loop hloop.2) hleads⟩
    rw [← hd, ← receiveUdpPacket_toDriver hr]
    rfl
  | case4 a w d hloop =>
    refine ⟨(publishFull_eq d.toDriver a).1.trans hd, nowNs, _, rfl, ?_⟩
    have hfinish := publishFull_leads .udp .full d.status ns nowNs w.ok.tail
      d.toDriver a hd
    by_cases hok : w.ok.head = true
    · exact .ask hok (.loopComplete (by simpa [hok] using hloop)) hfinish
    · exact .ask (by simpa using hok) .loopStop hfinish

theorem pollFullUdp_simulates {w : World} {d : UdpDriver F} (hd : d.options = options) :
    Simulates .full options nowNs ⟨d.members d.status ns nowNs, .mainLoop⟩ (d.trace, w.ok)
      (pollFullUdp (w, d)) :=
  .after nowNs (.silent (.pollFull rfl) rfl rfl .refl)
    (fullUdpLoop_simulates ns nowNs FullScanAssembler.fresh w d hd)

/-- Any number of polls of one kind. -/
theorem polls_simulates {poll : World × UdpDriver F → Polled (World × UdpDriver F)}
    (hpoll : ∀ ns w d, d.options = options →
      Simulates captureType options nowNs ⟨d.members d.status ns nowNs, .mainLoop⟩
        (d.trace, w.ok) (poll (w, d))) (n : Nat) :
    ∀ ns w d, d.options = options →
      Simulates captureType options nowNs ⟨d.members d.status ns nowNs, .mainLoop⟩
        (d.trace, w.ok) (polls poll n (w, d)) := by
  induction n with
  | zero =>
    intro ns w d hd
    exact ⟨hd, ns, _, rfl, .refl⟩
  | succ n ih =>
    intro ns w d hd
    have hfirst := hpoll ns w d hd
    rw [polls]
    cases hr : poll (w, d) with
    | returned s =>
      rw [hr] at hfirst
      obtain ⟨hs, ns₁, p, rfl, hleads⟩ := hfirst
      exact .after nowNs hleads (ih ns₁ s.1 s.2 hs)
    | waiting s =>
      rw [hr] at hfirst
      exact hfirst

end Udp

/-! ### Polls of a capture file -/

section Pcap

variable {options : DriverRuntimeOptions F} (status : SocketStatus) (ns nowNs : Nat)
  (ok : Stream' Bool)

/-- A frame with a payload, up to the payload. -/
theorem pause_leads (captureType : CaptureType) {d d' : Driver F} {f : Frame}
    {payload : List UInt8} (hf : f.rawPdu = some payload) (a : Option (FullScanAssembler F))
    (h : d' = d ∨ ∃ us, d' = d.log (.slept us)) :
    Leads .pcap captureType options ⟨d.members status ns nowNs, .reading a⟩ (d.trace, ok)
      ⟨d'.members status ns nowNs, .payloadRead payload a⟩ (d'.trace, ok) := by
  rcases h with rfl | ⟨us, rfl⟩
  · exact .silent .frame rfl rfl (.silent .noPause rfl rfl (.silent (.payload hf) rfl rfl .refl))
  · exact .silent .frame rfl rfl (.step .pause rfl (.silent (.payload hf) rfl rfl .refl))

theorem singlePayload_leads (d : Driver F) (payload : List UInt8) (hd : d.options = options) :
    ∃ ns', Leads .pcap .single options
      ⟨d.members status ns nowNs, .payloadRead payload none⟩ (d.trace, ok)
      ⟨(d.singlePayload payload).members status ns' nowNs, .mainLoop⟩
      ((d.singlePayload payload).trace, ok) := by
  rw [Position.payloadRead, Driver.singlePayload]
  cases rawPacket payload with
  | none => exact ⟨ns, .silent .countInvalid rfl rfl .refl⟩
  | some raw => exact trySingle_leads .pcap .single status ns nowNs ok d raw hd

theorem fullPayload_leads (d : Driver F) (a : FullScanAssembler F) (payload : List UInt8) :
    Leads .pcap .full options
      ⟨d.members status ns nowNs, .payloadRead payload (some a)⟩ (d.trace, ok)
      ⟨(d.fullPayload a payload).1.members status ns nowNs, .loop (d.fullPayload a payload).2⟩
      ((d.fullPayload a payload).1.trace, ok) := by
  rw [Position.payloadRead, Driver.fullPayload]
  cases rawPacket payload with
  | none => exact .silent .countInvalid rfl rfl .refl
  | some raw => exact tryAdd_leads .pcap .full status ns nowNs ok d a raw

theorem pollPcap_leads {d d' : PcapDriver F} (h : pollPcap d = .ok d') (hd : d.options = options) :
    d'.options = options ∧ ∃ ns', Leads .pcap .single options
      ⟨d.members status ns nowNs, .mainLoop⟩ (d.trace, ok)
      ⟨d'.members status ns' nowNs, .mainLoop⟩ (d'.trace, ok) := by
  obtain ⟨-, rfl⟩ | ⟨f, rest, payload, -, hf, rfl⟩ := pollPcap_cases h
  · exact ⟨hd, ns, .silent (.poll rfl) rfl rfl (.step .startOver rfl .refl)⟩
  · have hslept : d.sleep f = d.toDriver ∨ ∃ us, d.sleep f = d.toDriver.log (.slept us) :=
      .inr ⟨_, rfl⟩
    have hpause := @pause_leads F _ options status ns nowNs ok .single _ _ _ _ hf none hslept
    obtain ⟨ns', hrest⟩ := singlePayload_leads status ns nowNs ok (d.sleep f) payload hd
    refine ⟨?_, ns', .silent (.poll rfl) rfl rfl (hpause.trans hrest)⟩
    refine Eq.trans ?_ hd
    show ((d.sleep f).singlePayload payload).options = _
    rw [Driver.singlePayload]
    cases rawPacket payload with
    | none => rfl
    | some raw => exact trySingle_options (d.sleep f) raw

/-- Where the main thread is at the head of the loop of `_poll_full_pcap`. -/
def FullReplay.poller (s : FullReplay F) (ns nowNs : Nat) : Poller F :=
  ⟨s.driver.members SocketStatus.initial ns nowNs, .loop s.assembler⟩

theorem fullReplay_leads {s s' : FullReplay F} (h : fullReplay s = .ok s')
    (hd : s.driver.options = options) :
    s'.driver.options = options ∧ ∃ ns', Leads .pcap .full options
      (s.poller ns nowNs) (s.driver.trace, s.ok) (s'.poller ns' nowNs)
      (s'.driver.trace, s'.ok) := by
  obtain ⟨hruns, rfl⟩ | ⟨hruns, -, rfl⟩ | ⟨hruns, f, rest, payload, -, hf, rfl⟩ :=
    fullReplay_cases h
  · refine ⟨(publishFull_eq s.driver.toDriver s.assembler).1.trans hd, nowNs, ?_⟩
    have hfinish := (publishFull_leads .pcap .full
      SocketStatus.initial ns nowNs s.ok.tail s.driver.toDriver s.assembler hd).trans
      (.silent (.pollFull rfl) rfl rfl .refl)
    by_cases hok : s.ok.head = true
    · exact .ask hok (.loopComplete (by simpa [FullReplay.Runs, hok] using hruns)) hfinish
    · exact .ask (by simpa using hok) .loopStop hfinish
  · exact ⟨hd, ns, .ask hruns.1 (.loop hruns.2) (.step .startOver rfl .refl)⟩
  · have hpause := @pause_leads F _ options SocketStatus.initial ns nowNs s.ok.tail .full _ _ _ _
      hf (some s.assembler) (s.driver.sleepFull_cases f)
    have hrest := @fullPayload_leads F _ options SocketStatus.initial ns nowNs s.ok.tail
      (s.driver.sleepFull f) s.assembler payload
    refine ⟨?_, ns, .ask hruns.1 (.loop hruns.2) (hpause.trans hrest)⟩
    have hslept : (s.driver.sleepFull f).options = options := by
      rcases s.driver.sleepFull_cases f with he | ⟨us, he⟩ <;> rw [he] <;> exact hd
    show ((s.driver.sleepFull f).fullPayload s.assembler payload).1.options = _
    rw [Driver.fullPayload]
    cases rawPacket payload with
    | none => exact hslept
    | some raw => exact (tryAdd_options _ _ raw).trans hslept

theorem steps_pollPcap_leads {d d' : PcapDriver F} (h : Steps pollPcap d d')
    (hd : d.options = options) :
    ∃ ns', Leads .pcap .single options ⟨d.members status ns nowNs, .mainLoop⟩ (d.trace, ok)
      ⟨d'.members status ns' nowNs, .mainLoop⟩ (d'.trace, ok) := by
  induction h generalizing ns with
  | refl => exact ⟨ns, .refl⟩
  | cons hs _ ih =>
    obtain ⟨hd', ns₁, hfirst⟩ := pollPcap_leads status ns nowNs ok hs hd
    obtain ⟨ns', hrest⟩ := ih ns₁ hd'
    exact ⟨ns', hfirst.trans hrest⟩

theorem steps_fullReplay_leads {s s' : FullReplay F} (h : Steps fullReplay s s')
    (hd : s.driver.options = options) :
    ∃ ns', Leads .pcap .full options (s.poller ns nowNs) (s.driver.trace, s.ok)
      (s'.poller ns' nowNs) (s'.driver.trace, s'.ok) := by
  induction h generalizing ns with
  | refl => exact ⟨ns, .refl⟩
  | cons hs _ ih =>
    obtain ⟨hd', ns₁, hfirst⟩ := fullReplay_leads ns nowNs hs hd
    obtain ⟨ns', hrest⟩ := ih ns₁ hd'
    exact ⟨ns', hfirst.trans hrest⟩

end Pcap

end Leads

/-! ## Every driver -/

/-- The drivers of `Driven`, each with its mode and with what it has stored about its socket. -/
inductive DrivenBy (options : DriverRuntimeOptions ℝ) :
    DriverMode → CaptureType → SocketStatus → Driver ℝ → Prop where
  | singleUdp (socket : ReceiverSocket) (w : World) (n : Nat) :
    DrivenBy options .udp .single
      (polls UdpDriver.pollUdp n (w, UdpDriver.initial options socket)).state.2.status
      (polls UdpDriver.pollUdp n (w, UdpDriver.initial options socket)).state.2.toDriver
  | singlePcap {file : List Frame} {d : PcapDriver ℝ} :
    Steps pollPcap (PcapDriver.initial options file) d →
      DrivenBy options .pcap .single SocketStatus.initial d.toDriver
  | fullUdp (socket : ReceiverSocket) (w : World) (n : Nat) :
    DrivenBy options .udp .full
      (polls UdpDriver.pollFullUdp n (w, UdpDriver.initial options socket)).state.2.status
      (polls UdpDriver.pollFullUdp n (w, UdpDriver.initial options socket)).state.2.toDriver
  | fullPcap {file : List Frame} {ok : Stream' Bool} {s : FullReplay ℝ} :
    Steps fullReplay (FullReplay.start options file ok) s →
      DrivenBy options .pcap .full SocketStatus.initial s.driver.toDriver

theorem Driven.drivenBy {options : DriverRuntimeOptions ℝ} {captureType : CaptureType}
    {d : Driver ℝ} (h : Driven options captureType d) :
    ∃ mode status, DrivenBy options mode captureType status d := by
  cases h with
  | singleUdp socket w n => exact ⟨_, _, .singleUdp socket w n⟩
  | singlePcap hsteps => exact ⟨_, _, .singlePcap hsteps⟩
  | fullUdp socket w n => exact ⟨_, _, .fullUdp socket w n⟩
  | fullPcap hsteps => exact ⟨_, _, .fullPcap hsteps⟩

theorem DrivenBy.reached {options : DriverRuntimeOptions ℝ} {mode : DriverMode}
    {captureType : CaptureType} {status : SocketStatus} {d : Driver ℝ} (startNs : Nat)
    (h : DrivenBy options mode captureType status d) :
    ∃ as p ns, Poller.Reached mode captureType options startNs as p ∧
      p.members = d.members status ns startNs ∧ eventsOf as = d.trace := by
  cases h with
  | singleUdp socket w n =>
    obtain ⟨-, ns, p, -, as, hruns, htrace, -⟩ := polls_simulates startNs
      (fun ns w d hd => pollUdp_simulates ns startNs hd) n 0 w
      (UdpDriver.initial options socket) rfl
    exact ⟨as, _, ns, hruns, rfl, htrace.symm⟩
  | fullUdp socket w n =>
    obtain ⟨-, ns, p, -, as, hruns, htrace, -⟩ := polls_simulates startNs
      (fun ns w d hd => pollFullUdp_simulates ns startNs hd) n 0 w
      (UdpDriver.initial options socket) rfl
    exact ⟨as, _, ns, hruns, rfl, htrace.symm⟩
  | @singlePcap file d hsteps =>
    obtain ⟨ns, as, hruns, htrace, -⟩ := steps_pollPcap_leads SocketStatus.initial 0 startNs
      (Stream'.const true) hsteps rfl
    exact ⟨as, _, ns, hruns, rfl, htrace.symm⟩
  | @fullPcap file ok s hsteps =>
    obtain ⟨ns, as, hruns, htrace, -⟩ := steps_fullReplay_leads 0 startNs hsteps rfl
    exact ⟨.mainOk true :: as, _, ns, .cons (.pollFull rfl) hruns, rfl, htrace.symm⟩

/-- Every driver that consecutive polls can reach, over UDP or from a file, has the members of a
run of the main thread in its mode that sees exactly the events of its trace. -/
theorem driven_reached {options : DriverRuntimeOptions ℝ} {captureType : CaptureType}
    {d : Driver ℝ} (startNs : Nat) :
    (Driven options captureType d → ∃ mode status, DrivenBy options mode captureType status d) ∧
    ∀ {mode status}, DrivenBy options mode captureType status d →
      ∃ as p ns, Poller.Reached mode captureType options startNs as p ∧
        p.members = d.members status ns startNs ∧ eventsOf as = d.trace :=
  ⟨Driven.drivenBy, DrivenBy.reached startNs⟩

theorem driven_reached_plain : ∃ status, ∃ d : Driver ℝ, d.publications.length = 1 ∧
    DrivenBy plainOptions .udp .full status d ∧ ∃ as p ns,
      Poller.Reached .udp .full (plainOptions : DriverRuntimeOptions ℝ) 1 as p ∧
      p.members = d.members status ns 1 ∧ eventsOf as = d.trace := by
  have hd : DrivenBy plainOptions .udp .full _ _ :=
    .fullUdp plainSocket (quietWorld (datagrams 0 (plainRaws 7))) 1
  exact ⟨_, _, by rw [publications_full_plain]; rfl, hd, (driven_reached 1).2 hd⟩

end MechLidar
