import MechLidar.Passes
import MechLidar.Stream

/-!
# MechLidar.Transports

The same payloads over UDP and from a capture file.

* `Handled d₀ payloads d`: what SINGLE polls have made of the driver `d₀`, as `Replayed` for FULL
  polls.
* `UdpRun`, `PcapFull`, `PcapSingle`: the drivers that a run over the payloads ends with.
* `TransportsAgree`: both transports have published the same, and have counted every payload alike.

The socket drops a datagram of a wrong length without a trace, where the PCAP polls count such a
payload as invalid. `transports_agree_iff` says that this is the only difference.
-/

namespace MechLidar

open Lib

variable {F : Type}

/-- The payloads that fit into the buffer. -/
def fitting (payloads : List (List UInt8)) : List (List UInt8) :=
  payloads.filter fun payload => payload.length = 936

structure SameScans (u d : Driver F) : Prop where
  publications : d.publications = u.publications
  received : d.packetsReceived = u.packetsReceived

/-- The UDP driver `u` and the PCAP driver `d` agree after `n` payloads. -/
structure Agrees (n : Nat) (u d : Driver F) : Prop extends SameScans u d where
  invalid : d.invalidPackets = u.invalidPackets
  countedUdp : u.packetsReceived + u.invalidPackets = n
  countedPcap : d.packetsReceived + d.invalidPackets = n

theorem length_fitting_iff (payloads : List (List UInt8)) :
    (fitting payloads).length = payloads.length ↔ ∀ payload ∈ payloads, payload.length = 936 := by
  rw [fitting, List.length_filter_eq_length_iff]
  simp

/-- When drivers that have published the same agree in the counters, too. -/
theorem agrees_iff {u d : Driver F} {payloads : List (List UInt8)} (h : SameScans u d)
    (hu : u.packetsReceived + u.invalidPackets = (fitting payloads).length)
    (hd : d.packetsReceived + d.invalidPackets = payloads.length) :
    Agrees payloads.length u d ↔ ∀ payload ∈ payloads, payload.length = 936 := by
  rw [← length_fitting_iff]
  have hr := h.received
  constructor
  · intro ha
    have hi := ha.invalid
    omega
  · intro hlen
    exact ⟨h, by omega, by omega, hd⟩

/-- A run of UDP polls that has consumed the payloads as datagrams from `source`. -/
def UdpRun (poll : World × UdpDriver F → Polled (World × UdpDriver F))
    (options : DriverRuntimeOptions F) (socket : ReceiverSocket) (source : UInt32)
    (payloads : List (List UInt8)) (u : Driver F) : Prop :=
  ∃ (w : World) (n : Nat), w.ok = Stream'.const true ∧
    w.gets = payloads.map (datagram source) ∧ payloads.length < n ∧
    u = (polls poll n (w, UdpDriver.initial options socket)).state.2.toDriver

theorem exists_udpRun (poll : World × UdpDriver F → Polled (World × UdpDriver F))
    (options : DriverRuntimeOptions F) (socket : ReceiverSocket) (source : UInt32)
    (payloads : List (List UInt8)) : ∃ u, UdpRun poll options socket source payloads u :=
  ⟨_, quietWorld (payloads.map (datagram source)), payloads.length + 1, rfl, rfl,
    Nat.lt_succ_self _, rfl⟩

variable [Arith F]

/-- What a SINGLE poll publishes. -/
def singlePublication (options : DriverRuntimeOptions F) (p : PktHdlMech F) :
    UInt16 × LaserScan F × PointCloud2 F :=
  (p.rotationCounter, singleScan options p, makePointcloudMsg (singleScan options p))

structure Handled (d₀ : Driver F) (payloads : List (List UInt8)) (d : Driver F) : Prop where
  options : d.options = d₀.options
  publications : d.publications = d₀.publications ++
    (payloads.filterMap payloadPacket).map (singlePublication d₀.options)
  counts : Counts d₀ payloads d

/-! ## Payloads -/

theorem rawPacket_of_length_ne {payload : List UInt8} (h : payload.length ≠ 936) :
    rawPacket payload = none := dif_neg h

theorem rawPacket_of_length {payload : List UInt8} (h : payload.length = 936) :
    ∃ raw, rawPacket payload = some raw := ⟨_, dif_pos h⟩

/-- The socket hands over the payloads that fit. -/
theorem foldl_fitting {σ : Type} {f : σ → RawPacket → σ} {g : σ → List UInt8 → σ}
    (hfg : ∀ s payload raw, rawPacket payload = some raw → g s payload = f s raw)
    (payloads : List (List UInt8)) :
    ∀ s, (payloads.filterMap rawPacket).foldl f s = (fitting payloads).foldl g s := by
  induction payloads with
  | nil => intro s; rfl
  | cons payload payloads ih =>
    intro s
    by_cases h : payload.length = 936
    · obtain ⟨raw, hraw⟩ := rawPacket_of_length h
      rw [fitting, List.filter_cons_of_pos (by simpa using h), List.filterMap_cons, hraw,
        List.foldl_cons, List.foldl_cons, hfg s payload raw hraw]
      exact ih (f s raw)
    · rw [fitting, List.filter_cons_of_neg (by simpa using h), List.filterMap_cons,
        rawPacket_of_length_ne h]
      exact ih s

theorem filterMap_fitting (payloads : List (List UInt8)) :
    (fitting payloads).filterMap payloadPacket =
      (payloads.filterMap payloadPacket : List (PktHdlMech F)) := by
  induction payloads with
  | nil => rfl
  | cons payload payloads ih =>
    by_cases h : payload.length = 936
    · rw [fitting, List.filter_cons_of_pos (by simpa using h), List.filterMap_cons,
        List.filterMap_cons, ← ih]
      rfl
    · have hnone : (payloadPacket payload : Option (PktHdlMech F)) = none := by
        rw [payloadPacket, rawPacket_of_length_ne h, Option.bind_none]
      rw [fitting, List.filter_cons_of_neg (by simpa using h), List.filterMap_cons, hnone]
      exact ih

theorem Counts.total {d₀ d : Driver F} {payloads : List (List UInt8)} (h : Counts d₀ payloads d) :
    d.packetsReceived + d.invalidPackets =
      d₀.packetsReceived + d₀.invalidPackets + payloads.length := by
  have hlen := List.length_eq_countP_add_countP
    (fun payload => (payloadPacket (F := F) payload).isNone) (l := payloads)
  have hsome : (payloads.filterMap (payloadPacket (F := F))).length =
      payloads.countP fun payload => ¬ (payloadPacket (F := F) payload).isNone = true := by
    rw [List.length_filterMap_eq_countP]
    refine List.countP_congr fun payload _ => ?_
    cases (payloadPacket payload : Option (PktHdlMech F)) <;> simp
  rw [h.received, h.invalid, hsome]
  omega

theorem Replayed.foldl {d₀ : Driver F} {cur : List (PktHdlMech F)} (more : List (List UInt8)) :
    ∀ {payloads : List (List UInt8)} {r : Driver F × FullScanAssembler F},
      Replayed d₀ cur payloads r →
      Replayed d₀ cur (payloads ++ more) (more.foldl consumePayload r) := by
  induction more with
  | nil =>
    intro payloads r h
    rw [List.append_nil]
    exact h
  | cons payload more ih =>
    intro payloads r h
    rw [List.foldl_cons, ← List.singleton_append, ← List.append_assoc]
    exact ih (h.consume payload)

/-! ## SINGLE polls -/

theorem Handled.log {d₀ d : Driver F} {payloads : List (List UInt8)} (h : Handled d₀ payloads d)
    {e : Event F} (he : e.publication = none) : Handled d₀ payloads (d.log e) where
  options := h.options
  publications := by
    rw [publications_log, he, ← h.publications]
    exact List.append_nil _
  counts := ⟨h.counts.received, h.counts.invalid⟩

theorem Handled.single {d₀ d : Driver F} {payloads : List (List UInt8)}
    (h : Handled d₀ payloads d) (payload : List UInt8) :
    Handled d₀ (payloads ++ [payload]) (d.singlePayload payload) := by
  cases hp : (payloadPacket payload : Option (PktHdlMech F)) with
  | none =>
    have hi := singlePayload_invalid d hp
    refine ⟨hi.options.trans h.options, ?_, h.counts.concat ?_ ?_⟩
    · rw [hi.publications, h.publications, filterMap_concat, hp, Option.toList_none,
        List.append_nil]
    · rw [hi.received, hp]
      rfl
    · rw [hi.invalid, hp]
      rfl
  | some p =>
    obtain ⟨raw, hraw, hd⟩ := decode_of_payloadPacket hp
    have hrun : d.singlePayload payload = ((d.log (.handed raw)).countReceived).publish
        p.rotationCounter (singleScan d.options p) := by
      rw [Driver.singlePayload, hraw]
      simp only [Driver.trySingle, hd]
      rfl
    have hpubs : (((d.log (.handed raw)).countReceived).publish p.rotationCounter
        (singleScan d.options p)).publications =
          d.publications ++ [singlePublication d.options p] := by
      refine (publications_log (d.log (.handed raw)).countReceived _).trans ?_
      show (d.log (.handed raw)).publications ++ _ = _
      rw [publications_log]
      exact congrArg (· ++ _) (List.append_nil _)
    rw [hrun]
    refine ⟨h.options, ?_, h.counts.concat ?_ ?_⟩
    · rw [hpubs, h.publications, h.options, filterMap_concat, hp, List.map_append,
        List.append_assoc]
      rfl
    · rw [hp]
      rfl
    · rw [hp]
      rfl

theorem Handled.foldl {d₀ : Driver F} (more : List (List UInt8)) :
    ∀ {payloads : List (List UInt8)} {d : Driver F}, Handled d₀ payloads d →
      Handled d₀ (payloads ++ more) (more.foldl Driver.singlePayload d) := by
  induction more with
  | nil =>
    intro payloads d h
    rw [List.append_nil]
    exact h
  | cons payload more ih =>
    intro payloads d h
    rw [List.foldl_cons, ← List.singleton_append, ← List.append_assoc]
    exact ih (h.single payload)

theorem handled_refl (d : Driver F) : Handled d [] d where
  options := rfl
  publications := by simp
  counts := ⟨rfl, rfl⟩

theorem handled_run {d₀ d : PcapDriver F} (h : Steps pollPcap d₀ d)
    (hpass : d.passes.done = []) :
    ∃ frames, d₀.pcapSniffer = frames ++ d.pcapSniffer ∧
      Handled d₀.toDriver (frames.filterMap Frame.rawPdu) d.toDriver := by
  refine Steps.preserves (P := fun t : PcapDriver F => t.passes.done = [] →
    ∃ frames, d₀.pcapSniffer = frames ++ t.pcapSniffer ∧
      Handled d₀.toDriver (frames.filterMap Frame.rawPdu) t.toDriver) ?_ h
    (fun _ => ⟨[], rfl, handled_refl d₀.toDriver⟩) hpass
  intro t t' ht hstep hdone
  rcases pollPcap_cases hstep with ⟨-, rfl⟩ | ⟨f, rest, payload, hs, hf, rfl⟩
  · rw [passes_restart] at hdone
    simp at hdone
  · rw [passes_advance] at hdone
    obtain ⟨frames, hframes, hhandled⟩ := ht hdone
    refine ⟨frames ++ [f], ?_, ?_⟩
    · rw [hframes, hs, List.append_assoc]
      rfl
    · rw [filterMap_concat, hf]
      exact (hhandled.log (e := .slept (f.microseconds - t.prevPktTmstmp)) rfl).single payload

/-! ## The two transports -/

/-- A run of FULL polls that has read the payloads from a capture file, behind the frame that the
constructor takes, and has not come to the end of the file. -/
def PcapFull (options : DriverRuntimeOptions F) (payloads : List (List UInt8)) (d : Driver F) :
    Prop :=
  ∃ (first : Frame) (frames later : List Frame) (s : FullReplay F),
    frames.map Frame.rawPdu = payloads.map some ∧
    Steps fullReplay
      (FullReplay.start options (first :: (frames ++ later)) (Stream'.const true)) s ∧
    s.Reading ∧ s.driver.passes.done = [] ∧ s.driver.pcapSniffer = later ∧ d = s.driver.toDriver

def PcapSingle (options : DriverRuntimeOptions F) (payloads : List (List UInt8)) (d : Driver F) :
    Prop :=
  ∃ (first : Frame) (frames later : List Frame) (e : PcapDriver F),
    frames.map Frame.rawPdu = payloads.map some ∧
    Steps pollPcap (PcapDriver.initial options (first :: (frames ++ later))) e ∧
    e.passes.done = [] ∧ e.pcapSniffer = later ∧ d = e.toDriver

/-- After each of the payloads both transports have published and counted the same. -/
def TransportsAgree (udp pcap : List (List UInt8) → Driver F → Prop)
    (payloads : List (List UInt8)) : Prop :=
  ∀ l, l <+: payloads → ∀ u d, udp l u → pcap l d → Agrees l.length u d

theorem payloads_of_frames {frames : List Frame} {payloads : List (List UInt8)}
    (h : frames.map Frame.rawPdu = payloads.map some) :
    frames.filterMap Frame.rawPdu = payloads := by
  have hid := congrArg (List.filterMap id) h
  rw [List.filterMap_map, List.filterMap_map] at hid
  simpa using hid

section Udp

variable {options : DriverRuntimeOptions F} {socket : ReceiverSocket} {source : UInt32}
  {payloads : List (List UInt8)}

theorem deliveries_payloads (hsource : socket.fromSource source = true)
    (payloads : List (List UInt8)) :
    deliveries socket (payloads.map (datagram source)) = payloads.filterMap rawPacket := by
  rw [deliveries, List.filterMap_map]
  refine List.filterMap_congr fun payload _ => ?_
  show (datagram source payload).accepted socket 936 = rawPacket payload
  by_cases h : payload.length = 936
  · rw [accepted_datagram hsource h, rawPacket, dif_pos h]
  · rw [rawPacket_of_length_ne h]
    simp [datagram, Arrival.accepted, Arrival.verdict, hsource, h]

theorem payloads_quiet (s : ReceiverSocket) (source : UInt32) (payloads : List (List UInt8)) :
    ∀ k ∈ payloads.map (datagram source), k.Quiet s := by
  intro k hk
  obtain ⟨payload, -, rfl⟩ := List.mem_map.mp hk
  exact datagram_quiet s source payload

theorem udpFull_replayed (hopen : 0 ≤ socket.udpSocket) (hsource : socket.fromSource source = true)
    {u : Driver F} (h : UdpRun UdpDriver.pollFullUdp options socket source payloads u) :
    ∃ a, Replayed (Driver.initial options) [] (fitting payloads) (u, a) := by
  obtain ⟨w, n, hok, hgets, hn, rfl⟩ := h
  have hready : Ready w (UdpDriver.initial options socket) := ⟨hok, hopen⟩
  have hdel : deliveries socket w.gets = payloads.filterMap rawPacket := by
    rw [hgets, deliveries_payloads hsource]
  have hlen : (deliveries socket w.gets).length < n := by
    rw [hdel]
    exact Nat.lt_of_le_of_lt (List.length_filterMap_le rawPacket payloads) hn
  obtain ⟨-, hcore⟩ := UdpDriver.polls_drain hready (hgets ▸ payloads_quiet socket source payloads)
    hlen
  have hfold := foldl_fitting (f := consume) (g := consumePayload (F := F))
    (fun r payload raw hraw => by rw [consumePayload, hraw]) payloads
    (Driver.initial options, FullScanAssembler.fresh)
  have hrun : (polls UdpDriver.pollFullUdp n
      (w, UdpDriver.initial options socket)).state.2.toDriver =
        ((fitting payloads).foldl consumePayload
          (Driver.initial options, FullScanAssembler.fresh)).1 := by
    rw [hcore, ← hfold]
    show ((deliveries socket w.gets).foldl consume _).1 = _
    rw [hdel]
    rfl
  have hall := (replayed_refl (Driver.initial options) completes_nil).foldl (fitting payloads)
  refine ⟨((fitting payloads).foldl consumePayload
    (Driver.initial options, FullScanAssembler.fresh)).2, ?_⟩
  rw [hrun]
  exact hall

theorem udpSingle_handled (hopen : 0 ≤ socket.udpSocket)
    (hsource : socket.fromSource source = true) {u : Driver F}
    (h : UdpRun UdpDriver.pollUdp options socket source payloads u) :
    Handled (Driver.initial options) (fitting payloads) u := by
  obtain ⟨w, n, hok, hgets, hn, rfl⟩ := h
  have hready : Ready w (UdpDriver.initial options socket) := ⟨hok, hopen⟩
  have hdel : deliveries socket w.gets = payloads.filterMap rawPacket := by
    rw [hgets, deliveries_payloads hsource]
  have hcore := UdpDriver.polls_single n w _ hready (hgets ▸ payloads_quiet socket source payloads)
  have hfold := foldl_fitting (f := Driver.trySingle) (g := Driver.singlePayload (F := F))
    (fun d payload raw hraw => by rw [Driver.singlePayload, hraw]) payloads
    (Driver.initial options)
  have hrun : (polls UdpDriver.pollUdp n
      (w, UdpDriver.initial options socket)).state.2.toDriver =
        (fitting payloads).foldl Driver.singlePayload (Driver.initial options) := by
    rw [hcore, ← hfold]
    show ((deliveries socket w.gets).take n).foldl Driver.trySingle _ = _
    rw [hdel, List.take_of_length_le
      (Nat.le_trans (List.length_filterMap_le rawPacket payloads) (Nat.le_of_lt hn))]
    rfl
  rw [hrun]
  exact (handled_refl (Driver.initial options)).foldl (fitting payloads)

end Udp

section Pcap

variable {options : DriverRuntimeOptions F} {payloads : List (List UInt8)} {d : Driver F}

theorem pcapFull_replayed (h : PcapFull options payloads d) :
    ∃ a, Replayed (Driver.initial options) [] payloads (d, a) := by
  obtain ⟨first, frames, later, s, hframes, hsteps, hread, hpass, hs, rfl⟩ := h
  obtain ⟨read, hreplays⟩ := replayed_run [] (reading_start _ _) rfl hsteps
    (by rw [hpass]; rfl)
  have hall : frames = read := by
    have hsniff : frames ++ later = read ++ later := by
      rw [← hs]
      exact hs ▸ hreplays.sniffer
    exact List.append_cancel_right hsniff
  have hset := hreplays.settled
  rw [FullReplay.settled_of_open hread.isOpen, ← hall, payloads_of_frames hframes] at hset
  exact ⟨s.assembler, hset⟩

theorem pcapSingle_handled (h : PcapSingle options payloads d) :
    Handled (Driver.initial options) payloads d := by
  obtain ⟨first, frames, later, e, hframes, hsteps, hpass, hs, rfl⟩ := h
  obtain ⟨read, hsniffer, hhandled⟩ := handled_run hsteps hpass
  have hall : frames = read := by
    have hsniff : frames ++ later = read ++ later := by
      rw [← hs]
      exact hs ▸ hsniffer
    exact List.append_cancel_right hsniff
  rw [← hall, payloads_of_frames hframes] at hhandled
  exact hhandled

/-- A capture with the payloads. -/
def capture (payloads : List (List UInt8)) : List Frame :=
  payloads.map fun payload => ⟨0, some payload⟩

theorem capture_rawPdu (payloads : List (List UInt8)) :
    (capture payloads).map Frame.rawPdu = payloads.map some := by
  rw [capture, List.map_map]
  rfl

theorem capture_ne_none (payloads : List (List UInt8)) :
    ∀ f ∈ capture payloads, f.rawPdu ≠ none := by
  intro f hf
  obtain ⟨payload, -, rfl⟩ := List.mem_map.mp hf
  exact Option.some_ne_none payload

theorem exists_pcapFull (options : DriverRuntimeOptions F) (payloads : List (List UInt8)) :
    ∃ d, PcapFull options payloads d := by
  have hstart := reading_start options (⟨0, none⟩ :: (capture payloads ++ []))
  obtain ⟨s, hsteps, hread, hs, -, hdone⟩ := reads (capture payloads) [] hstart rfl
    (capture_ne_none payloads)
  exact ⟨_, ⟨0, none⟩, capture payloads, [], s, capture_rawPdu payloads, hsteps, hread, hdone, hs,
    rfl⟩

theorem exists_pcapSingle (options : DriverRuntimeOptions F) (payloads : List (List UInt8)) :
    ∃ d, PcapSingle options payloads d := by
  obtain ⟨e, hsteps, hs, -, hdone⟩ := single_reads (capture payloads) []
    (d := PcapDriver.initial options (⟨0, none⟩ :: (capture payloads ++ []))) rfl
    (capture_ne_none payloads)
  exact ⟨_, ⟨0, none⟩, capture payloads, [], e, capture_rawPdu payloads, hsteps, hdone, hs, rfl⟩

end Pcap

/-! ## Agreement -/

theorem sameScans_full {d₀ u d : Driver F} {a a' : FullScanAssembler F}
    {payloads : List (List UInt8)} (hu : Replayed d₀ [] (fitting payloads) (u, a))
    (hd : Replayed d₀ [] payloads (d, a')) : SameScans u d := by
  have hpubs := hu.shows.publications
  have hreceived := hu.counts.received
  rw [filterMap_fitting] at hpubs hreceived
  exact ⟨hd.shows.publications.trans hpubs.symm, hd.counts.received.trans hreceived.symm⟩

theorem sameScans_single {d₀ u d : Driver F} {payloads : List (List UInt8)}
    (hu : Handled d₀ (fitting payloads) u) (hd : Handled d₀ payloads d) : SameScans u d := by
  have hpubs := hu.publications
  have hreceived := hu.counts.received
  rw [filterMap_fitting] at hpubs hreceived
  exact ⟨hd.publications.trans hpubs.symm, hd.counts.received.trans hreceived.symm⟩

/-- Runs that count what fits and what is there agree when everything fits. -/
theorem transportsAgree_iff (options : DriverRuntimeOptions F)
    {udp pcap : List (List UInt8) → Driver F → Prop}
    (hsame : ∀ l u d, udp l u → pcap l d → SameScans u d)
    (hudp : ∀ l u, udp l u → Counts (Driver.initial options) (fitting l) u)
    (hpcap : ∀ l d, pcap l d → Counts (Driver.initial options) l d)
    (hruns : ∀ l, (∃ u, udp l u) ∧ ∃ d, pcap l d) (payloads : List (List UInt8)) :
    TransportsAgree udp pcap payloads ↔ ∀ payload ∈ payloads, payload.length = 936 := by
  have hagrees : ∀ l u d, udp l u → pcap l d →
      (Agrees l.length u d ↔ ∀ payload ∈ l, payload.length = 936) := by
    intro l u d hu hd
    have hcu := (hudp l u hu).total
    have hcd := (hpcap l d hd).total
    refine agrees_iff (hsame l u d hu hd) ?_ ?_
    · simpa [Driver.initial] using hcu
    · simpa [Driver.initial] using hcd
  constructor
  · intro h
    obtain ⟨⟨u, hu⟩, d, hd⟩ := hruns payloads
    exact (hagrees payloads u d hu hd).mp (h payloads List.prefix_rfl u d hu hd)
  · intro h l hl u d hu hd
    exact (hagrees l u d hu hd).mpr fun payload hp => h payload (hl.subset hp)

/-- Any payloads, over UDP from an accepted source and from a capture file: both transports publish
the same and count the same valid packets, in both capture types, and they agree in all counters
after every payload exactly when all payloads have 936 bytes. -/
theorem transports_agree_iff (options : DriverRuntimeOptions F) {socket : ReceiverSocket}
    (hopen : 0 ≤ socket.udpSocket) {source : UInt32} (hsource : socket.fromSource source = true)
    (payloads : List (List UInt8)) :
    ((∀ u d, UdpRun UdpDriver.pollFullUdp options socket source payloads u →
        PcapFull options payloads d → SameScans u d) ∧
      (TransportsAgree (UdpRun UdpDriver.pollFullUdp options socket source) (PcapFull options)
        payloads ↔ ∀ payload ∈ payloads, payload.length = 936)) ∧
    (∀ u d, UdpRun UdpDriver.pollUdp options socket source payloads u →
        PcapSingle options payloads d → SameScans u d) ∧
      (TransportsAgree (UdpRun UdpDriver.pollUdp options socket source) (PcapSingle options)
        payloads ↔ ∀ payload ∈ payloads, payload.length = 936) := by
  have hfull : ∀ l u d, UdpRun UdpDriver.pollFullUdp options socket source l u →
      PcapFull options l d → SameScans u d := by
    intro l u d hu hd
    obtain ⟨a, hu⟩ := udpFull_replayed hopen hsource hu
    obtain ⟨a', hd⟩ := pcapFull_replayed hd
    exact sameScans_full hu hd
  have hsingle : ∀ l u d, UdpRun UdpDriver.pollUdp options socket source l u →
      PcapSingle options l d → SameScans u d := fun l u d hu hd =>
    sameScans_single (udpSingle_handled hopen hsource hu) (pcapSingle_handled hd)
  refine ⟨⟨hfull payloads, transportsAgree_iff options hfull (fun l u hu => ?_)
    (fun l d hd => ?_) (fun l => ⟨exists_udpRun _ _ _ _ l, exists_pcapFull options l⟩) payloads⟩,
    hsingle payloads, transportsAgree_iff options hsingle
      (fun l u hu => (udpSingle_handled hopen hsource hu).counts)
      (fun l d hd => (pcapSingle_handled hd).counts)
      (fun l => ⟨exists_udpRun _ _ _ _ l, exists_pcapSingle options l⟩) payloads⟩
  · obtain ⟨a, hu⟩ := udpFull_replayed hopen hsource hu
    exact hu.counts
  · obtain ⟨a, hd⟩ := pcapFull_replayed hd
    exact hd.counts

/-- An empty datagram is not counted, and an empty payload in a capture is. -/
theorem empty_payload_differs :
    (∃ u d : Driver ℝ, UdpRun UdpDriver.pollFullUdp plainOptions plainSocket 0 [[]] u ∧
        PcapFull (plainOptions : DriverRuntimeOptions ℝ) [[]] d ∧
        u.invalidPackets = 0 ∧ d.invalidPackets = 1) ∧
      ∃ u d : Driver ℝ, UdpRun UdpDriver.pollUdp plainOptions plainSocket 0 [[]] u ∧
        PcapSingle (plainOptions : DriverRuntimeOptions ℝ) [[]] d ∧
        u.invalidPackets = 0 ∧ d.invalidPackets = 1 := by
  have hnone : (payloadPacket [] : Option (PktHdlMech ℝ)) = none := by
    rw [payloadPacket, rawPacket_of_length_ne (by simp), Option.bind_none]
  have hudp : ∀ u : Driver ℝ, Counts (Driver.initial plainOptions) (fitting [[]]) u →
      u.invalidPackets = 0 := by
    intro u hu
    rw [hu.invalid]
    rfl
  have hpcap : ∀ d : Driver ℝ, Counts (Driver.initial plainOptions) [[]] d →
      d.invalidPackets = 1 := by
    intro d hd
    rw [hd.invalid, List.countP_singleton, hnone]
    rfl
  obtain ⟨u, hu⟩ := exists_udpRun (F := ℝ) UdpDriver.pollFullUdp plainOptions plainSocket 0 [[]]
  obtain ⟨d, hd⟩ := exists_pcapFull (plainOptions : DriverRuntimeOptions ℝ) [[]]
  obtain ⟨u', hu'⟩ := exists_udpRun (F := ℝ) UdpDriver.pollUdp plainOptions plainSocket 0 [[]]
  obtain ⟨d', hd'⟩ := exists_pcapSingle (plainOptions : DriverRuntimeOptions ℝ) [[]]
  obtain ⟨a, hru⟩ := udpFull_replayed plainSocket_open rfl hu
  obtain ⟨a', hrd⟩ := pcapFull_replayed hd
  exact ⟨⟨u, d, hu, hd, hudp u hru.counts, hpcap d hrd.counts⟩,
    ⟨u', d', hu', hd', hudp u' (udpSingle_handled plainSocket_open rfl hu').counts,
      hpcap d' (pcapSingle_handled hd').counts⟩⟩

/-! ## Two revolutions with an undecodable and a short payload in between -/

def zeroRaw : RawPacket := Vector.replicate 936 0

def mixedPayloads : List (List UInt8) :=
  (plainRaws 0 ++ [zeroRaw]).map Vector.toList ++ [[7]] ++ (plainRaws 1).map Vector.toList

theorem packetOf_zeroRaw : (packetOf zeroRaw : Option (PktHdlMech F)) = none := by
  cases h : (packetOf zeroRaw : Option (PktHdlMech F)) with
  | none => rfl
  | some p =>
    obtain ⟨haccepts, -⟩ := decode_eq_ok.mp (decode_of_packetOf h)
    exact absurd haccepts.magic (by decide)

theorem payloadPackets_toList (raws : List RawPacket) :
    (raws.map Vector.toList).filterMap payloadPacket =
      (raws.filterMap packetOf : List (PktHdlMech F)) := by
  rw [List.filterMap_map]
  refine List.filterMap_congr fun raw _ => ?_
  rw [Function.comp_apply, payloadPacket, rawPacket_toList, Option.bind_some]

theorem payloadPackets_mixed :
    (mixedPayloads.filterMap payloadPacket : List (PktHdlMech F)) =
      plainRevolution 0 ++ plainRevolution 1 := by
  have hshort : (payloadPacket [7] : Option (PktHdlMech F)) = none := by
    rw [payloadPacket, rawPacket_of_length_ne (by simp), Option.bind_none]
  rw [mixedPayloads, List.filterMap_append, List.filterMap_append, payloadPackets_toList,
    payloadPackets_toList, List.filterMap_append, filterMap_plainRaws, filterMap_plainRaws]
  simp [packetOf_zeroRaw, hshort]

theorem fitting_append (l m : List (List UInt8)) : fitting (l ++ m) = fitting l ++ fitting m :=
  List.filter_append l m

theorem fitting_toList (raws : List RawPacket) :
    fitting (raws.map Vector.toList) = raws.map Vector.toList := by
  refine List.filter_eq_self.mpr fun payload hp => ?_
  obtain ⟨raw, -, rfl⟩ := List.mem_map.mp hp
  exact decide_eq_true (Vector.length_toList)

theorem fitting_mixed : fitting mixedPayloads =
    (plainRaws 0 ++ [zeroRaw]).map Vector.toList ++ (plainRaws 1).map Vector.toList := by
  rw [mixedPayloads, fitting_append, fitting_append, fitting_toList, fitting_toList,
    show fitting [[7]] = [] from rfl, List.append_nil]

/-- What is counted of the mixed payloads, where all of them are seen and where those that fit
are. -/
theorem counts_mixed {d : Driver F} :
    (Counts (Driver.initial plainOptions) mixedPayloads d →
      d.packetsReceived = 40 ∧ d.invalidPackets = 2) ∧
    (Counts (Driver.initial plainOptions) (fitting mixedPayloads) d →
      d.packetsReceived = 40 ∧ d.invalidPackets = 1) := by
  have hlen : (plainRevolution 0 ++ plainRevolution 1 : List (PktHdlMech F)).length = 40 := by
    simp [plainRevolution]
  constructor
  · intro h
    have hreceived := h.received
    have htotal := h.total
    rw [payloadPackets_mixed, hlen] at hreceived
    simp only [Driver.initial, mixedPayloads, plainRaws, List.length_append, List.length_map,
      List.length_finRange, List.length_cons, List.length_nil] at hreceived htotal
    omega
  · intro h
    have hreceived := h.received
    have htotal := h.total
    rw [filterMap_fitting, payloadPackets_mixed, hlen] at hreceived
    rw [fitting_mixed] at htotal
    simp only [Driver.initial, plainRaws, List.length_append, List.length_map,
      List.length_finRange, List.length_cons, List.length_nil] at hreceived htotal
    omega

section Mixed

variable {u d : Driver F}

theorem mixed_full (hu : UdpRun UdpDriver.pollFullUdp plainOptions plainSocket 0 mixedPayloads u)
    (hd : PcapFull plainOptions mixedPayloads d) :
    u.publications.length = 2 ∧ u.packetsReceived = 40 ∧ u.invalidPackets = 1 ∧
      d.invalidPackets = 2 := by
  obtain ⟨a, hru⟩ := udpFull_replayed plainSocket_open rfl hu
  obtain ⟨a', hrd⟩ := pcapFull_replayed hd
  obtain ⟨hreceived, hinvalid⟩ := counts_mixed.2 hru.counts
  refine ⟨?_, hreceived, hinvalid, (counts_mixed.1 hrd.counts).2⟩
  have hfeed := feed_plain (F := F) [0, 1]
  rw [List.map_cons, List.map_singleton, List.flatten_cons, List.flatten_singleton] at hfeed
  rw [hru.shows.publications, filterMap_fitting, payloadPackets_mixed]
  change (_ ++ (Batches.feed completes Batches.empty _).done.map _).length = 2
  rw [hfeed]
  rfl

theorem mixed_single (hu : UdpRun UdpDriver.pollUdp plainOptions plainSocket 0 mixedPayloads u)
    (hd : PcapSingle plainOptions mixedPayloads d) :
    u.publications.length = 40 ∧ u.packetsReceived = 40 ∧ u.invalidPackets = 1 ∧
      d.invalidPackets = 2 := by
  have hhu := udpSingle_handled plainSocket_open rfl hu
  obtain ⟨hreceived, hinvalid⟩ := counts_mixed.2 hhu.counts
  refine ⟨?_, hreceived, hinvalid, (counts_mixed.1 (pcapSingle_handled hd).counts).2⟩
  rw [hhu.publications, filterMap_fitting, payloadPackets_mixed]
  rfl

end Mixed

/-- Both transports publish what is there, and the short payload alone parts their counters. -/
theorem transports_agree_mixed :
    ((∃ u d : Driver ℝ, UdpRun UdpDriver.pollFullUdp plainOptions plainSocket 0 mixedPayloads u ∧
        PcapFull plainOptions mixedPayloads d ∧ SameScans u d ∧ u.publications.length = 2 ∧
        u.packetsReceived = 40 ∧ u.invalidPackets = 1 ∧ d.invalidPackets = 2) ∧
      ¬ TransportsAgree (UdpRun (F := ℝ) UdpDriver.pollFullUdp plainOptions plainSocket 0)
        (PcapFull plainOptions) mixedPayloads ∧
      TransportsAgree (UdpRun (F := ℝ) UdpDriver.pollFullUdp plainOptions plainSocket 0)
        (PcapFull plainOptions) (fitting mixedPayloads)) ∧
    (∃ u d : Driver ℝ, UdpRun UdpDriver.pollUdp plainOptions plainSocket 0 mixedPayloads u ∧
        PcapSingle plainOptions mixedPayloads d ∧ SameScans u d ∧ u.publications.length = 40 ∧
        u.packetsReceived = 40 ∧ u.invalidPackets = 1 ∧ d.invalidPackets = 2) ∧
      ¬ TransportsAgree (UdpRun (F := ℝ) UdpDriver.pollUdp plainOptions plainSocket 0)
        (PcapSingle plainOptions) mixedPayloads ∧
      TransportsAgree (UdpRun (F := ℝ) UdpDriver.pollUdp plainOptions plainSocket 0)
        (PcapSingle plainOptions) (fitting mixedPayloads) := by
  obtain ⟨⟨hfull, hfullAgrees⟩, hsingle, hsingleAgrees⟩ :=
    transports_agree_iff (plainOptions (F := ℝ)) plainSocket_open rfl mixedPayloads
  obtain ⟨⟨-, hfullFits⟩, -, hsingleFits⟩ :=
    transports_agree_iff (plainOptions (F := ℝ)) plainSocket_open rfl (fitting mixedPayloads)
  have hshort : ¬ ∀ payload ∈ mixedPayloads, payload.length = 936 := fun h =>
    absurd (h [7] (by simp [mixedPayloads])) (by decide)
  have hfits : ∀ payload ∈ fitting mixedPayloads, payload.length = 936 := fun payload hp => by
    simpa using List.of_mem_filter hp
  refine ⟨⟨?_, hfullAgrees.not.mpr hshort, hfullFits.mpr hfits⟩, ?_,
    hsingleAgrees.not.mpr hshort, hsingleFits.mpr hfits⟩
  · obtain ⟨u, hu⟩ := exists_udpRun (F := ℝ) UdpDriver.pollFullUdp plainOptions plainSocket 0
      mixedPayloads
    obtain ⟨d, hd⟩ := exists_pcapFull (plainOptions (F := ℝ)) mixedPayloads
    exact ⟨u, d, hu, hd, hfull u d hu hd, mixed_full hu hd⟩
  · obtain ⟨u, hu⟩ := exists_udpRun (F := ℝ) UdpDriver.pollUdp plainOptions plainSocket 0
      mixedPayloads
    obtain ⟨d, hd⟩ := exists_pcapSingle (plainOptions (F := ℝ)) mixedPayloads
    exact ⟨u, d, hu, hd, hsingle u d hu hd, mixed_single hu hd⟩

end MechLidar
