import MechLidar.Replay

/-!
# MechLidar.Frames

Captures with frames of any kind: what a frame that is no valid packet does to the replay, and which
frames stop it.

* `OnlyInvalid d d'`: `invalid_packets` has gone up by one, and nothing else has changed.
* `TolerantFull`, `TolerantSingle`: no exception escapes from a poll, and a frame that is not a
  valid packet is counted and skipped. `tolerant_iff` says for which files this is so.

The look-up of the `RawPDU` stands before the try block of both polls, so that a frame without one
ends the node.
-/

namespace MechLidar

open Lib

variable {F : Type}

structure OnlyInvalid (d d' : Driver F) : Prop where
  options : d'.options = d.options
  invalid : d'.invalidPackets = d.invalidPackets + 1
  received : d'.packetsReceived = d.packetsReceived
  messages : d'.messagesPublished = d.messagesPublished
  discarded : d'.discardedRevolutions = d.discardedRevolutions
  publications : d'.publications = d.publications

theorem onlyInvalid_countInvalid (d : Driver F) : OnlyInvalid d d.countInvalid :=
  ⟨rfl, rfl, rfl, rfl, rfl, rfl⟩

theorem OnlyInvalid.log {d d' : Driver F} {e : Event F} (h : OnlyInvalid (d.log e) d')
    (he : e.publication = none) : OnlyInvalid d d' where
  options := h.options
  invalid := h.invalid
  received := h.received
  messages := h.messages
  discarded := h.discarded
  publications := by
    rw [h.publications, publications_log, he]
    exact List.append_nil _

variable [Arith F]

/-- The valid packet of a frame. -/
def Frame.packet (f : Frame) : Option (PktHdlMech F) := f.rawPdu.bind payloadPacket

structure TolerantFull (options : DriverRuntimeOptions F) (file : List Frame) : Prop where
  noEscape : ∀ ok s, Steps fullReplay (FullReplay.start options file ok) s →
    ∀ e, fullReplay s ≠ .error e
  skips : ∀ ok s, Steps fullReplay (FullReplay.start options file ok) s → s.Runs →
    ∀ f rest, s.driver.pcapSniffer = f :: rest → (f.packet : Option (PktHdlMech F)) = none →
      ∃ s', fullReplay s = .ok s' ∧ OnlyInvalid s.driver.toDriver s'.driver.toDriver ∧
        s'.assembler = s.assembler ∧ s'.driver.pcapSniffer = rest

structure TolerantSingle (options : DriverRuntimeOptions F) (file : List Frame) : Prop where
  noEscape : ∀ d, Steps pollPcap (PcapDriver.initial options file) d → ∀ e, pollPcap d ≠ .error e
  skips : ∀ d, Steps pollPcap (PcapDriver.initial options file) d →
    ∀ f rest, d.pcapSniffer = f :: rest → (f.packet : Option (PktHdlMech F)) = none →
      ∃ d', pollPcap d = .ok d' ∧ OnlyInvalid d.toDriver d'.toDriver ∧ d'.pcapSniffer = rest

/-! ## A frame that is no valid packet -/

theorem decode_of_payloadPacket_none {payload : List UInt8} {raw : RawPacket}
    (hraw : rawPacket payload = some raw)
    (hp : (payloadPacket payload : Option (PktHdlMech F)) = none) :
    ∃ e, (decode raw : Except PacketError (PktHdlMech F)) = .error e := by
  cases hd : (decode raw : Except PacketError (PktHdlMech F)) with
  | error e => exact ⟨e, rfl⟩
  | ok p =>
    rw [payloadPacket, hraw, Option.bind_some, packetOf_ok hd] at hp
    cases hp

theorem fullPayload_invalid (d : Driver F) (a : FullScanAssembler F) {payload : List UInt8}
    (hp : (payloadPacket payload : Option (PktHdlMech F)) = none) :
    OnlyInvalid d (d.fullPayload a payload).1 ∧ (d.fullPayload a payload).2 = a := by
  cases hraw : rawPacket payload with
  | none =>
    rw [Driver.fullPayload, hraw]
    exact ⟨onlyInvalid_countInvalid d, rfl⟩
  | some raw =>
    obtain ⟨e, hd⟩ := decode_of_payloadPacket_none hraw hp
    rw [Driver.fullPayload, hraw]
    dsimp only
    rw [tryAdd_error d a hd]
    exact ⟨(onlyInvalid_countInvalid _).log rfl, rfl⟩

theorem singlePayload_invalid (d : Driver F) {payload : List UInt8}
    (hp : (payloadPacket payload : Option (PktHdlMech F)) = none) :
    OnlyInvalid d (d.singlePayload payload) := by
  cases hraw : rawPacket payload with
  | none =>
    rw [Driver.singlePayload, hraw]
    exact onlyInvalid_countInvalid d
  | some raw =>
    obtain ⟨e, hd⟩ := decode_of_payloadPacket_none hraw hp
    rw [Driver.singlePayload, hraw]
    simp only [Driver.trySingle, hd]
    exact (onlyInvalid_countInvalid _).log rfl

theorem read_invalid {s : FullReplay F} (h : s.Runs) {f : Frame} {rest : List Frame}
    (hs : s.driver.pcapSniffer = f :: rest) {payload : List UInt8} (hf : f.rawPdu = some payload)
    (hp : (f.packet : Option (PktHdlMech F)) = none) :
    ∃ s', fullReplay s = .ok s' ∧ OnlyInvalid s.driver.toDriver s'.driver.toDriver ∧
      s'.assembler = s.assembler ∧ s'.driver.pcapSniffer = rest := by
  rw [Frame.packet, hf, Option.bind_some] at hp
  obtain ⟨hcore, hassembler⟩ := fullPayload_invalid (s.driver.sleepFull f) s.assembler hp
  refine ⟨_, fullReplay_read h hs hf, ?_, hassembler, rfl⟩
  show OnlyInvalid s.driver.toDriver ((s.driver.sleepFull f).fullPayload s.assembler payload).1
  obtain he | ⟨t, he⟩ := s.driver.sleepFull_cases f
  · rw [he] at hcore ⊢
    exact hcore
  · rw [he] at hcore ⊢
    exact hcore.log rfl

/-! ## Runs over a file -/

theorem sniffer_full {s s' : FullReplay F} (h : Steps fullReplay s s')
    (hs : s.driver.pcapSniffer <:+ s.driver.pcapFile) :
    s'.driver.pcapSniffer <:+ s'.driver.pcapFile ∧ s'.driver.pcapFile = s.driver.pcapFile := by
  refine Steps.preserves (P := fun t : FullReplay F =>
    t.driver.pcapSniffer <:+ t.driver.pcapFile ∧ t.driver.pcapFile = s.driver.pcapFile) ?_ h
    ⟨hs, rfl⟩
  rintro t t' ⟨hsuffix, hfile⟩ hstep
  rcases fullReplay_cases hstep with ⟨-, rfl⟩ | ⟨-, -, rfl⟩ | ⟨-, f, rest, payload, ht, -, rfl⟩
  · exact ⟨hsuffix, hfile⟩
  · exact ⟨List.suffix_rfl, hfile⟩
  · rw [ht] at hsuffix
    exact ⟨(List.suffix_cons f rest).trans hsuffix, hfile⟩

theorem sniffer_single {d d' : PcapDriver F} (h : Steps pollPcap d d')
    (hd : d.pcapSniffer <:+ d.pcapFile.tail) :
    d'.pcapSniffer <:+ d'.pcapFile.tail ∧ d'.pcapFile = d.pcapFile := by
  refine Steps.preserves (P := fun t : PcapDriver F =>
    t.pcapSniffer <:+ t.pcapFile.tail ∧ t.pcapFile = d.pcapFile) ?_ h ⟨hd, rfl⟩
  rintro t t' ⟨hsuffix, hfile⟩ hstep
  rcases pollPcap_cases hstep with ⟨-, rfl⟩ | ⟨f, rest, payload, ht, -, rfl⟩
  · exact ⟨List.suffix_rfl, hfile⟩
  · rw [ht] at hsuffix
    exact ⟨(List.suffix_cons f rest).trans hsuffix, hfile⟩

/-- The first frame without a raw payload. -/
theorem exists_first_bad {frames : List Frame} (h : ∃ f ∈ frames, f.rawPdu = none) :
    ∃ pre f rest, frames = pre ++ f :: rest ∧ f.rawPdu = none ∧ ∀ g ∈ pre, g.rawPdu ≠ none := by
  cases hfind : frames.find? fun f => f.rawPdu.isNone with
  | none =>
    obtain ⟨f, hf, hnone⟩ := h
    have hsome := List.find?_eq_none.mp hfind f hf
    rw [hnone] at hsome
    exact absurd rfl hsome
  | some f =>
    obtain ⟨hbad, pre, rest, hframes, hpre⟩ := List.find?_eq_some_iff_append.mp hfind
    refine ⟨pre, f, rest, hframes, Option.isNone_iff_eq_none.mp hbad, fun g hg hnone => ?_⟩
    have hsome := hpre g hg
    rw [hnone] at hsome
    cases hsome

theorem full_throws {s : FullReplay F} (hs : s.Reading)
    (hbad : ∃ f ∈ s.driver.pcapSniffer, f.rawPdu = none) :
    ∃ s', Steps fullReplay s s' ∧ fullReplay s' = .error .pduNotFound := by
  obtain ⟨pre, f, rest, hframes, hf, hpre⟩ := exists_first_bad hbad
  obtain ⟨s', hsteps, hread, hsniff, -⟩ := reads pre (f :: rest) hs hframes hpre
  exact ⟨s', hsteps, fullReplay_throws hread.runs hsniff hf⟩

theorem single_throws {d : PcapDriver F} (hbad : ∃ f ∈ d.pcapSniffer, f.rawPdu = none) :
    ∃ d', Steps pollPcap d d' ∧ pollPcap d' = .error .pduNotFound := by
  obtain ⟨pre, f, rest, hframes, hf, hpre⟩ := exists_first_bad hbad
  obtain ⟨d', hsteps, hsniff, -⟩ := single_reads pre (f :: rest) hframes hpre
  exact ⟨d', hsteps, pollPcap_throws hsniff hf⟩

/-- If all frames of the file have a raw payload, each frame that is read has one. -/
theorem payload_full {options : DriverRuntimeOptions F} {file : List Frame}
    (hall : ∀ f ∈ file, f.rawPdu ≠ none) {ok : Stream' Bool} {s : FullReplay F}
    (h : Steps fullReplay (FullReplay.start options file ok) s) {f : Frame} {rest : List Frame}
    (hs : s.driver.pcapSniffer = f :: rest) : ∃ payload, f.rawPdu = some payload := by
  obtain ⟨hsuffix, hfile⟩ := sniffer_full h (List.tail_suffix file)
  refine Option.ne_none_iff_exists'.mp (hall f ?_)
  rw [hs, hfile] at hsuffix
  exact hsuffix.subset List.mem_cons_self

theorem payload_single {options : DriverRuntimeOptions F} {file : List Frame}
    (hall : ∀ f ∈ file.tail, f.rawPdu ≠ none) {d : PcapDriver F}
    (h : Steps pollPcap (PcapDriver.initial options file) d) {f : Frame} {rest : List Frame}
    (hs : d.pcapSniffer = f :: rest) : ∃ payload, f.rawPdu = some payload := by
  obtain ⟨hsuffix, hfile⟩ := sniffer_single h List.suffix_rfl
  refine Option.ne_none_iff_exists'.mp (hall f ?_)
  rw [hs, hfile] at hsuffix
  exact hsuffix.subset List.mem_cons_self

theorem reading_start (options : DriverRuntimeOptions F) (file : List Frame) :
    (FullReplay.start options file (Stream'.const true)).Reading := ⟨rfl, rfl⟩

theorem tolerantFull_iff (options : DriverRuntimeOptions F) (file : List Frame) :
    TolerantFull options file ↔ ∀ f ∈ file, f.rawPdu ≠ none := by
  constructor
  · intro h
    by_contra hall
    push Not at hall
    have hstart := reading_start options file
    by_cases htail : ∃ f ∈ file.tail, f.rawPdu = none
    · obtain ⟨s', hsteps, hfail⟩ := full_throws hstart htail
      exact h.noEscape _ s' hsteps _ hfail
    · -- only the first frame has none, so the second pass reaches it
      push Not at htail
      obtain ⟨s₁, hsteps, hread, hsniff, hfile, -⟩ :=
        reads file.tail [] hstart (List.append_nil _).symm htail
      have hsniff₂ : s₁.startOver.driver.pcapSniffer = file := hfile
      obtain ⟨s', hsteps', hfail⟩ := full_throws hread.startOver (by rw [hsniff₂]; exact hall)
      refine h.noEscape _ s' (hsteps.trans (.cons ?_ hsteps')) _ hfail
      exact fullReplay_startOver hread.runs hsniff
  · intro hall
    refine ⟨fun ok s hsteps e hfail => ?_, fun ok s hsteps hr f rest hs hp => ?_⟩
    · by_cases hr : s.Runs
      · cases hs : s.driver.pcapSniffer with
        | nil =>
          rw [fullReplay_startOver hr hs] at hfail
          cases hfail
        | cons f rest =>
          obtain ⟨payload, hf⟩ := payload_full hall hsteps hs
          rw [fullReplay_read hr hs hf] at hfail
          cases hfail
      · rw [fullReplay_finish hr] at hfail
        cases hfail
    · obtain ⟨payload, hf⟩ := payload_full hall hsteps hs
      exact read_invalid hr hs hf hp

theorem TolerantFull.poll {options : DriverRuntimeOptions F} {file : List Frame}
    (h : TolerantFull options file) {ok : Stream' Bool} {s : Stream' Bool × PcapDriver F}
    (hs : PolledFull (ok, PcapDriver.initial options file) s) (fuel : Nat) (e : Escaped) :
    pollFullPcap fuel s ≠ .error e := by
  intro hfail
  obtain ⟨s', hsteps, hthrows⟩ := fails_of_call FullReplay.enter hfail
  exact h.noEscape ok s' (hs.steps.trans hsteps) e hthrows

theorem tolerantSingle_iff (options : DriverRuntimeOptions F) (file : List Frame) :
    TolerantSingle options file ↔ ∀ f ∈ file.tail, f.rawPdu ≠ none := by
  constructor
  · intro h
    by_contra hall
    push Not at hall
    obtain ⟨d', hsteps, hfail⟩ := single_throws (d := PcapDriver.initial options file) hall
    exact h.noEscape d' hsteps _ hfail
  · intro hall
    refine ⟨fun d hsteps e hfail => ?_, fun d hsteps f rest hs hp => ?_⟩
    · cases hs : d.pcapSniffer with
      | nil =>
        rw [pollPcap_restart hs] at hfail
        cases hfail
      | cons f rest =>
        obtain ⟨payload, hf⟩ := payload_single hall hsteps hs
        rw [pollPcap_read hs hf] at hfail
        cases hfail
    · obtain ⟨payload, hf⟩ := payload_single hall hsteps hs
      refine ⟨_, pollPcap_read hs hf, ?_, rfl⟩
      rw [Frame.packet, hf, Option.bind_some] at hp
      exact (singlePayload_invalid (d.sleep f) hp).log rfl

/-- Which captures do not stop the node, in each mode. No call of `_poll_full_pcap` throws for them,
however many have returned before. -/
theorem tolerant_iff (options : DriverRuntimeOptions F) (file : List Frame) :
    (TolerantFull options file ↔ ∀ f ∈ file, f.rawPdu ≠ none) ∧
      (TolerantSingle options file ↔ ∀ f ∈ file.tail, f.rawPdu ≠ none) ∧
      ((∀ f ∈ file, f.rawPdu ≠ none) → ∀ ok s, PolledFull (ok, PcapDriver.initial options file) s →
        ∀ fuel e, pollFullPcap fuel s ≠ .error e) :=
  ⟨tolerantFull_iff options file, tolerantSingle_iff options file,
    fun hall _ _ hs => ((tolerantFull_iff options file).mpr hall).poll hs⟩

theorem arp_stops_node :
    (∃ s, Steps fullReplay (FullReplay.start (plainOptions : DriverRuntimeOptions ℝ)
        [⟨0, some []⟩, ⟨0, none⟩] (Stream'.const true)) s ∧ fullReplay s = .error .pduNotFound) ∧
      ∃ d, Steps pollPcap (PcapDriver.initial (plainOptions : DriverRuntimeOptions ℝ)
        [⟨0, some []⟩, ⟨0, none⟩]) d ∧ pollPcap d = .error .pduNotFound := by
  have hbad : ∃ f ∈ ([⟨0, none⟩] : List Frame), f.rawPdu = none := ⟨⟨0, none⟩, by simp, rfl⟩
  exact ⟨full_throws (reading_start _ _) hbad, single_throws hbad⟩

end MechLidar
