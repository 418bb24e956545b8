import MechLidar.Transports
import MechLidar.Stream
import MechLidar.Config

/-!
# MechLidar.ScanLayout

Whether the fields of a published `LaserScan` fit together, with exact real arithmetic in place of
`float`.

* `SelfConsistent scan cloud`: as many intensities and points as ranges, and `angle_max` is the
  angle of the last beam.
* `Driven options captureType d`: a run of one of the four polls takes the driver to `d`.
* `single_selfConsistent`, `full_not_selfConsistent`: the scans of SINGLE polls are
  self-consistent; the scans of FULL polls have their `angle_max` one increment after the last
  beam.
-/

namespace MechLidar

open Lib

structure SelfConsistent {F : Type} [Arith F] (scan : LaserScan F) (cloud : PointCloud2 F) :
    Prop where
  intensities : scan.intensities.length = scan.ranges.length
  angleMax : scan.angleMax = scan.angle (scan.ranges.length - 1)
  points : cloud.points.length = scan.ranges.length
  size : cloud.height * cloud.width = scan.ranges.length

/-! ## The two kinds of scans -/

section Kinds

variable {F : Type} [Arith F]

theorem makePointcloudMsg_length (scan : LaserScan F) :
    (makePointcloudMsg scan).points.length = scan.ranges.length := by
  simp [makePointcloudMsg]

theorem makePointcloudMsg_size (scan : LaserScan F) :
    (makePointcloudMsg scan).height * (makePointcloudMsg scan).width = scan.ranges.length :=
  Nat.one_mul _

theorem fullScan_length (options : DriverRuntimeOptions F) (a : FullScanAssembler F) :
    (fullScan options a).ranges.length = 2300 ∧
      (fullScan options a).intensities.length = 2300 := by
  simp [fullScan]

theorem singleScan_length (options : DriverRuntimeOptions F) (p : PktHdlMech F) :
    (singleScan options p).ranges.length = 115 ∧
      (singleScan options p).intensities.length = 115 := by
  simp [singleScan]

end Kinds

/-- The last beam of a packet is its channel 114. -/
theorem singleScan_angleMax (options : DriverRuntimeOptions ℝ) {raw : RawPacket}
    {p : PktHdlMech ℝ} (h : decode raw = .ok p) :
    (singleScan options p).angleMax = (singleScan options p).angle 114 := by
  obtain ⟨ha, rfl⟩ := decode_eq_ok.mp h
  have hangle := singleScan_angle options (p := decoded raw ha) (decode_of_accepts ha) 114
  have hlast : (decoded raw ha : PktHdlMech ℝ).angles[114] =
      (((decoded raw ha : PktHdlMech ℝ).firstPointIndex.toNat + 114 : Nat) : ℝ) *
        (2 * Real.pi / 2300) := by
    simp [decoded, angleOf, PktHdlMech.firstPointIndex, PktHdlMech.radResolution, Trig.twoPi]
  refine Eq.trans ?_ hangle.symm
  show (decoded raw ha).angles[114] + options.angleOffsetRad = _
  rw [hlast, add_comm]
  rfl

theorem single_selfConsistent (options : DriverRuntimeOptions ℝ) {raw : RawPacket}
    {p : PktHdlMech ℝ} (h : decode raw = .ok p) :
    SelfConsistent (singleScan options p) (makePointcloudMsg (singleScan options p)) where
  intensities := by
    obtain ⟨hr, hi⟩ := singleScan_length options p
    rw [hr, hi]
  angleMax := by rw [(singleScan_length options p).1, singleScan_angleMax options h]
  points := makePointcloudMsg_length _
  size := makePointcloudMsg_size _

/-- `angle_max` of a full scan is the angle of a beam that it does not have. -/
theorem fullScan_angleMax (options : DriverRuntimeOptions ℝ) (a : FullScanAssembler ℝ) :
    (fullScan options a).angleMax = (fullScan options a).angle 2300 := by
  rw [fullScan_angle]
  show options.angleOffsetRad + fullTurn = _
  rw [fullTurn]
  simp only [Trig.pi]
  push_cast
  ring

theorem full_not_selfConsistent (options : DriverRuntimeOptions ℝ) (a : FullScanAssembler ℝ)
    (cloud : PointCloud2 ℝ) : ¬ SelfConsistent (fullScan options a) cloud := by
  intro h
  have hmax := h.angleMax
  rw [(fullScan_length options a).1, fullScan_angleMax, fullScan_angle, fullScan_angle] at hmax
  norm_num at hmax

/-! ## Runs -/

section Runs

variable {F : Type}

theorem recover_toDriver {maxDelayMs : Int} {opens : List OpenCalls} {retryDelayMs : Int}
    {w w' : World} {d d' : UdpDriver F} {r : UdpDriver.Recovery}
    (h : UdpDriver.recover maxDelayMs opens retryDelayMs w d = (r, w', d')) :
    d'.toDriver = d.toDriver := by
  have hkeeps : (UdpDriver.recover maxDelayMs opens retryDelayMs w d).2.2.toDriver =
      d.toDriver := by
    clear h
    fun_induction UdpDriver.recover maxDelayMs opens retryDelayMs w d with
    | case1 => rfl
    | case2 => rfl
    | case3 => rfl
    | case4 => rfl
    | case5 => rename_i ih; exact ih
  rw [h] at hkeeps
  exact hkeeps

theorem receiveLoop_toDriver (gets : List Arrival) (buffer : RawPacket) (w : World)
    (d : UdpDriver F) :
    (UdpDriver.receiveLoop gets buffer w d).2.2.toDriver = d.toDriver := by
  fun_induction UdpDriver.receiveLoop gets buffer w d with
  | case1 => rfl
  | case2 => rfl
  | case3 => rfl
  | case4 => rename_i ih; exact ih
  | case5 =>
    rename_i hrec ih
    have hkeeps := recover_toDriver hrec
    exact ih.trans hkeeps
  | case6 =>
    rename_i hrec
    have hkeeps := recover_toDriver hrec
    exact hkeeps
  | case7 =>
    rename_i hrec
    have hkeeps := recover_toDriver hrec
    exact hkeeps

/-- Receiving a packet leaves the counters of the stream and the trace as they are. -/
theorem receiveUdpPacket_toDriver {w w' : World} {d d' : UdpDriver F} {r : Received}
    (h : UdpDriver.receiveUdpPacket w d = (r, w', d')) : d'.toDriver = d.toDriver := by
  have hkeeps := receiveLoop_toDriver w.gets w.memory w d
  rw [UdpDriver.receiveUdpPacket] at h
  rw [h] at hkeeps
  exact hkeeps

/-- Everything published so far satisfies `P`. -/
def AllPublished (P : LaserScan F → PointCloud2 F → Prop) (d : Driver F) : Prop :=
  ∀ x ∈ d.publications, P x.2.1 x.2.2

variable {P : LaserScan F → PointCloud2 F → Prop}

theorem allPublished_initial (options : DriverRuntimeOptions F) :
    AllPublished P (Driver.initial options) := by
  intro x hx
  cases hx

theorem AllPublished.log {d : Driver F} (h : AllPublished P d) {e : Event F}
    (he : e.publication = none) : AllPublished P (d.log e) := by
  intro x hx
  rw [publications_log, he] at hx
  exact h x (by simpa using hx)

variable [Arith F]

theorem AllPublished.publish {d : Driver F} (h : AllPublished P d) {rot : UInt16}
    {scan : LaserScan F} (hp : P scan (makePointcloudMsg scan)) :
    AllPublished P (d.publish rot scan) := by
  intro x hx
  have hpub : (d.publish rot scan).publications =
      d.publications ++ [(rot, scan, makePointcloudMsg scan)] := publications_log d _
  rw [hpub, List.mem_append, List.mem_singleton] at hx
  rcases hx with hx | rfl
  · exact h x hx
  · exact hp

theorem AllPublished.trySingle (hsingle : ∀ options (p : PktHdlMech F) raw, decode raw = .ok p →
      P (singleScan options p) (makePointcloudMsg (singleScan options p)))
    {d : Driver F} (h : AllPublished P d) (raw : RawPacket) :
    AllPublished P (d.trySingle raw) := by
  have hlog := h.log (e := .handed raw) rfl
  unfold Driver.trySingle
  split
  · exact hlog
  · rename_i pkt hd
    exact AllPublished.publish (d := (d.log (.handed raw)).countReceived) hlog
      (hsingle _ pkt raw hd)

theorem AllPublished.tryAdd {d : Driver F} (h : AllPublished P d) (a : FullScanAssembler F)
    (raw : RawPacket) : AllPublished P (d.tryAdd a raw).1 := by
  have hsame := ((shows_refl d).tryAdd a raw).publications
  intro x hx
  rw [hsame, List.map_nil, List.append_nil] at hx
  exact h x hx

theorem AllPublished.publishFull {d : Driver F} (h : AllPublished P d) {a : FullScanAssembler F}
    (hfull : ∀ options, P (fullScan options a) (makePointcloudMsg (fullScan options a))) :
    AllPublished P (d.publishFull a) := by
  obtain ⟨-, hpub, -⟩ := publishFull_eq d a
  intro x hx
  rw [hpub, List.mem_append, List.mem_singleton] at hx
  rcases hx with hx | rfl
  · exact h x hx
  · exact hfull d.options

/-- What holds of the assembler of a poll at its start and after every accepted packet. -/
structure Assembled (Inv : FullScanAssembler F → Prop) : Prop where
  fresh : Inv FullScanAssembler.fresh
  add : ∀ {a : FullScanAssembler F} {p : PktHdlMech F} {raw : RawPacket},
    decode raw = .ok p → Inv a → Inv (a.add p)

theorem Assembled.tryAdd {Inv : FullScanAssembler F → Prop} (hinv : Assembled Inv)
    {a : FullScanAssembler F} (ha : Inv a) (d : Driver F) (raw : RawPacket) :
    Inv (d.tryAdd a raw).2 := by
  cases hd : (decode raw : Except PacketError (PktHdlMech F)) with
  | error e =>
    rw [tryAdd_error d a hd]
    exact ha
  | ok p =>
    rw [tryAdd_ok d a hd]
    exact hinv.add hd ha

/-! ### The four polls -/

section Single

variable (hsingle : ∀ options (p : PktHdlMech F) raw, decode raw = .ok p →
  P (singleScan options p) (makePointcloudMsg (singleScan options p)))

include hsingle

theorem AllPublished.polls_udp (n : Nat) :
    ∀ (w : World) (d : UdpDriver F), AllPublished P d.toDriver →
      AllPublished P (polls UdpDriver.pollUdp n (w, d)).state.2.toDriver := by
  induction n with
  | zero => intro w d h; exact h
  | succ n ih =>
    intro w d h
    rw [polls, UdpDriver.pollUdp]
    cases hr : UdpDriver.receiveUdpPacket w d with
    | mk r s =>
      obtain ⟨w', d'⟩ := s
      have hcore : AllPublished P d'.toDriver := receiveUdpPacket_toDriver hr ▸ h
      cases r with
      | packet raw => exact ih w' _ (hcore.trySingle hsingle raw)
      | stopped => exact ih w' d' hcore
      | waiting => exact hcore

theorem AllPublished.polls_pcap {d d' : PcapDriver F} (hrun : Steps pollPcap d d')
    (h : AllPublished P d.toDriver) : AllPublished P d'.toDriver := by
  refine hrun.preserves (P := fun d => AllPublished P d.toDriver) (fun d d' h hstep => ?_) h
  obtain ⟨-, rfl⟩ | ⟨f, rest, payload, -, -, rfl⟩ := pollPcap_cases hstep
  · exact h.log rfl
  · have hslept : AllPublished P (d.sleep f) := h.log rfl
    show AllPublished P ((d.sleep f).singlePayload payload)
    unfold Driver.singlePayload
    split
    · exact hslept
    · exact hslept.trySingle hsingle _

end Single

section Full

variable {Inv : FullScanAssembler F → Prop} (hinv : Assembled Inv)
  (hfull : ∀ options (a : FullScanAssembler F), Inv a →
    P (fullScan options a) (makePointcloudMsg (fullScan options a)))

include hinv hfull

theorem AllPublished.fullUdpLoop (a : FullScanAssembler F) (w : World) (d : UdpDriver F)
    (ha : Inv a) (h : AllPublished P d.toDriver) :
    AllPublished P (UdpDriver.fullUdpLoop a w d).state.2.toDriver := by
  fun_induction UdpDriver.fullUdpLoop a w d with
  | case1 =>
    rename_i assembler w d _ raw w' d' hr core a' hadd ih
    have hkept : AllPublished P d'.toDriver := receiveUdpPacket_toDriver hr ▸ h
    have hadded := hkept.tryAdd assembler raw
    have hkeeps := hinv.tryAdd ha d'.toDriver raw
    rw [hadd] at hadded hkeeps
    exact ih hkeeps hadded
  | case2 => rename_i hr; exact receiveUdpPacket_toDriver hr ▸ h
  | case3 => rename_i hr; exact receiveUdpPacket_toDriver hr ▸ h
  | case4 => exact h.publishFull fun options => hfull options _ ha

theorem AllPublished.polls_fullUdp (n : Nat) :
    ∀ (w : World) (d : UdpDriver F), AllPublished P d.toDriver →
      AllPublished P (polls UdpDriver.pollFullUdp n (w, d)).state.2.toDriver := by
  induction n with
  | zero => intro w d h; exact h
  | succ n ih =>
    intro w d h
    have hpoll := h.fullUdpLoop hinv hfull FullScanAssembler.fresh w d hinv.fresh
    rw [polls, UdpDriver.pollFullUdp]
    cases hr : UdpDriver.fullUdpLoop FullScanAssembler.fresh w d with
    | returned s => rw [hr] at hpoll; exact ih s.1 s.2 hpoll
    | waiting s => rw [hr] at hpoll; exact hpoll

theorem AllPublished.fullReplay {s s' : FullReplay F} (hrun : Steps fullReplay s s')
    (hs : Inv s.assembler) (h : AllPublished P s.driver.toDriver) :
    AllPublished P s'.driver.toDriver := by
  refine (hrun.preserves (P := fun s => Inv s.assembler ∧ AllPublished P s.driver.toDriver)
    (fun s s' h hstep => ?_) ⟨hs, h⟩).2
  obtain ⟨hs, h⟩ := h
  obtain ⟨-, rfl⟩ | ⟨-, -, rfl⟩ | ⟨-, f, rest, payload, -, -, rfl⟩ := fullReplay_cases hstep
  · exact ⟨hinv.fresh, h.publishFull fun options => hfull options _ hs⟩
  · exact ⟨hs, h.log rfl⟩
  · have hslept : AllPublished P (s.driver.sleepFull f) := by
      rcases s.driver.sleepFull_cases f with he | ⟨t, he⟩
      · rw [he]; exact h
      · rw [he]; exact h.log rfl
    show Inv ((s.driver.sleepFull f).fullPayload s.assembler payload).2 ∧
      AllPublished P ((s.driver.sleepFull f).fullPayload s.assembler payload).1
    unfold Driver.fullPayload
    split
    · exact ⟨hs, hslept⟩
    · exact ⟨hinv.tryAdd hs _ _, hslept.tryAdd s.assembler _⟩

end Full

end Runs

/-- The drivers that a run of polls can reach, over UDP or from a file. -/
inductive Driven (options : DriverRuntimeOptions ℝ) : CaptureType → Driver ℝ → Prop where
  | singleUdp (socket : ReceiverSocket) (w : World) (n : Nat) :
    Driven options .single
      (polls UdpDriver.pollUdp n (w, UdpDriver.initial options socket)).state.2.toDriver
  | singlePcap {file : List Frame} {d : PcapDriver ℝ} :
    Steps pollPcap (PcapDriver.initial options file) d → Driven options .single d.toDriver
  | fullUdp (socket : ReceiverSocket) (w : World) (n : Nat) :
    Driven options .full
      (polls UdpDriver.pollFullUdp n (w, UdpDriver.initial options socket)).state.2.toDriver
  | fullPcap {file : List Frame} {ok : Stream' Bool} {s : FullReplay ℝ} :
    Steps fullReplay (FullReplay.start options file ok) s → Driven options .full s.driver.toDriver

/-- What holds of the scans of one capture type holds of everything that a run publishes. -/
theorem Driven.allPublished {options : DriverRuntimeOptions ℝ} {captureType : CaptureType}
    {d : Driver ℝ} (h : Driven options captureType d)
    {P : LaserScan ℝ → PointCloud2 ℝ → Prop} {Inv : FullScanAssembler ℝ → Prop}
    (hinv : Assembled Inv)
    (hsingle : captureType = .single → ∀ options (p : PktHdlMech ℝ) raw, decode raw = .ok p →
      P (singleScan options p) (makePointcloudMsg (singleScan options p)))
    (hfull : captureType = .full → ∀ options (a : FullScanAssembler ℝ), Inv a →
      P (fullScan options a) (makePointcloudMsg (fullScan options a))) : AllPublished P d := by
  cases h with
  | singleUdp socket w n =>
    exact AllPublished.polls_udp (hsingle rfl) n w (UdpDriver.initial options socket)
      (allPublished_initial options)
  | singlePcap hrun =>
    exact AllPublished.polls_pcap (hsingle rfl) hrun (allPublished_initial options)
  | fullUdp socket w n =>
    exact AllPublished.polls_fullUdp hinv (hfull rfl) n w (UdpDriver.initial options socket)
      (allPublished_initial options)
  | fullPcap hrun =>
    exact AllPublished.fullReplay hinv (hfull rfl) hrun hinv.fresh (allPublished_initial options)

/-- In every run, every published scan is self-consistent when the capture type is SINGLE, and
none is when it is FULL. -/
theorem published_selfConsistent_iff {options : DriverRuntimeOptions ℝ}
    {captureType : CaptureType} {d : Driver ℝ} (h : Driven options captureType d) :
    ∀ x ∈ d.publications, SelfConsistent x.2.1 x.2.2 ↔ captureType = .single := by
  have hinv : Assembled fun _ : FullScanAssembler ℝ => True := ⟨trivial, fun _ _ => trivial⟩
  refine h.allPublished (P := fun scan cloud => SelfConsistent scan cloud ↔ _) hinv ?_ ?_
  · intro hcapture options p raw hd
    exact iff_of_true (single_selfConsistent options hd) hcapture
  · intro hcapture options a _
    exact iff_of_false (full_not_selfConsistent options a _) (by rw [hcapture]; simp)

/-- One poll of a plain revolution 7. -/
theorem publications_full_plain :
    (polls UdpDriver.pollFullUdp 1 (quietWorld (datagrams 0 (plainRaws 7)),
      UdpDriver.initial (plainOptions : DriverRuntimeOptions ℝ) plainSocket)).state.2.publications =
        [publicationOf plainOptions (plainRevolution 7)] := by
  have hpubs := UdpDriver.publications_plain (F := ℝ) (plainRaws 7) 1
  have hdone : (Batches.feed completes Batches.empty
      ((plainRaws 7).filterMap packetOf : List (PktHdlMech ℝ))).done = [plainRevolution 7] := by
    have hfeed := feed_plain (F := ℝ) [7]
    rw [List.map_singleton, List.flatten_singleton] at hfeed
    rw [filterMap_plainRaws, hfeed]
  rw [hdone, List.take_succ_cons, List.take_zero, List.map_singleton, plainUdp] at hpubs
  exact hpubs

theorem exists_driven_plain : ∃ d : Driver ℝ, Driven plainOptions .full d ∧
    d.publications = [publicationOf plainOptions (plainRevolution 7)] :=
  ⟨_, .fullUdp plainSocket (quietWorld (datagrams 0 (plainRaws 7))) 1, publications_full_plain⟩

/-- In FULL mode a complete revolution has 2300 ranges, and its `angle_max` belongs to beam 2300,
counted from 0. -/
theorem full_revolution_not_selfConsistent :
    ∃ d x, Driven plainOptions .full d ∧ d.publications = [x] ∧
      x = publicationOf plainOptions (plainRevolution 7) ∧ x.2.1.ranges.length = 2300 ∧
      x.2.1.angleMax = x.2.1.angle 2300 ∧ ¬ SelfConsistent x.2.1 x.2.2 := by
  obtain ⟨d, hd, hpubs⟩ := exists_driven_plain
  exact ⟨d, _, hd, hpubs, rfl, (fullScan_length plainOptions _).1,
    fullScan_angleMax plainOptions _, full_not_selfConsistent plainOptions _ _⟩

/-- The same packets in SINGLE mode, each in a scan of its own. -/
theorem exists_driven_single : ∃ d : Driver ℝ, Driven plainOptions .single d ∧
    d.publications = (plainRevolution 7).map (singlePublication plainOptions) := by
  obtain ⟨u, hu⟩ := exists_udpRun (F := ℝ) UdpDriver.pollUdp plainOptions plainSocket 0
    ((plainRaws 7).map Vector.toList)
  have hpubs := (udpSingle_handled plainSocket_open rfl hu).publications
  rw [filterMap_fitting, payloadPackets_toList, filterMap_plainRaws] at hpubs
  obtain ⟨w, n, -, -, -, rfl⟩ := hu
  exact ⟨_, .singleUdp plainSocket w n, hpubs⟩

theorem published_selfConsistent_plain :
    (∃ d : Driver ℝ, d.publications = [publicationOf plainOptions (plainRevolution 7)] ∧
      ∀ x ∈ d.publications, SelfConsistent x.2.1 x.2.2 ↔ CaptureType.full = .single) ∧
    ∃ d : Driver ℝ,
      d.publications = (plainRevolution 7).map (singlePublication plainOptions) ∧
      ∀ x ∈ d.publications, SelfConsistent x.2.1 x.2.2 := by
  obtain ⟨d, hd, hpubs⟩ := exists_driven_plain
  obtain ⟨d', hd', hpubs'⟩ := exists_driven_single
  exact ⟨⟨d, hpubs, published_selfConsistent_iff hd⟩,
    ⟨d', hpubs', fun x hx => (published_selfConsistent_iff hd' x hx).mpr rfl⟩⟩

end MechLidar
