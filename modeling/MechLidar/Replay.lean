import MechLidar.Pcap
import MechLidar.Session

/-!
# MechLidar.Replay

FULL polls over a capture file, on a node that runs: what they do with the payloads of one pass over
the file is what `consume` does with the buffers of a stream.

* `Driver.passes`: the buffers handed to `pkt_hdl_Mech`, cut where the file is opened again.
* `settled s`: the driver and the assembler as soon as a complete revolution is published.
* `Replayed d₀ cur payloads r`: what the payloads have made of the driver `d₀`, whose poll had the
  packets `cur` before.
* `replayed_step` and `replayed_run`: every state that the replay reaches within a pass.
* `reads`: the replay gets past any frames with a payload, as SINGLE polls do (`single_reads`).
-/

namespace MechLidar

open Lib

variable {F : Type}

/-- What an event means for the passes over the file. -/
def noteEvent (s : Batches RawPacket) : Event F → Batches RawPacket
  | .handed raw => ⟨s.done, s.current ++ [raw]⟩
  | .startOver => ⟨s.done ++ [s.current], []⟩
  | .published _ _ _ => s
  | .slept _ => s

/-- The buffers handed to `pkt_hdl_Mech` in each finished pass, and in the current one. -/
def Driver.passes (d : Driver F) : Batches RawPacket := d.trace.foldl noteEvent Batches.empty

@[simp] theorem passes_log (d : Driver F) (e : Event F) :
    (d.log e).passes = noteEvent d.passes e := by
  simp [Driver.passes, Driver.log]

theorem passes_sleepFull (d : PcapDriver F) (f : Frame) : (d.sleepFull f).passes = d.passes := by
  obtain he | ⟨t, he⟩ := d.sleepFull_cases f
  · rw [he]
  · rw [he]
    exact passes_log d.toDriver _

theorem tail_of_const {ok : Stream' Bool} (h : ok = Stream'.const true) :
    ok.tail = Stream'.const true := by
  rw [h, Stream'.tail_const]

namespace FullReplay

/-- The poll is about to read a frame, on a node that runs. -/
structure Reading (s : FullReplay F) : Prop where
  ok : s.ok = Stream'.const true
  isOpen : s.assembler.complete = false

theorem Reading.runs {s : FullReplay F} (h : s.Reading) : s.Runs :=
  ⟨by rw [h.ok]; rfl, h.isOpen⟩

theorem Reading.startOver {s : FullReplay F} (h : s.Reading) : s.startOver.Reading where
  ok := tail_of_const h.ok
  isOpen := h.isOpen

theorem passes_startOver (s : FullReplay F) :
    s.startOver.driver.passes = ⟨s.driver.passes.done ++ [s.driver.passes.current], []⟩ :=
  passes_log s.driver.toDriver .startOver

end FullReplay

section Passes

variable [Arith F]

theorem passes_publish (d : Driver F) (rot : UInt16) (scan : LaserScan F) :
    (d.publish rot scan).passes = d.passes :=
  passes_log d (.published rot scan (makePointcloudMsg scan))

theorem passes_publishFull (d : Driver F) (a : FullScanAssembler F) :
    (d.publishFull a).passes = d.passes := by
  unfold Driver.publishFull
  split
  · exact passes_publish _ _ _
  · exact passes_publish _ _ _

theorem passes_tryAdd (d : Driver F) (a : FullScanAssembler F) (raw : RawPacket) :
    (d.tryAdd a raw).1.passes = noteEvent (F := F) d.passes (.handed raw) := by
  cases hd : (decode raw : Except PacketError (PktHdlMech F)) with
  | error e =>
    rw [tryAdd_error d a hd]
    exact passes_log d _
  | ok p =>
    rw [tryAdd_ok d a hd]
    exact passes_log d _

theorem passes_fullPayload (d : Driver F) (a : FullScanAssembler F) (payload : List UInt8) :
    (d.fullPayload a payload).1.passes =
      ⟨d.passes.done, d.passes.current ++ (rawPacket payload).toList⟩ := by
  unfold Driver.fullPayload
  cases rawPacket payload with
  | none =>
    rw [Option.toList_none, List.append_nil]
    rfl
  | some raw => exact passes_tryAdd d a raw

theorem passes_singlePayload (d : Driver F) (payload : List UInt8) :
    (d.singlePayload payload).passes =
      ⟨d.passes.done, d.passes.current ++ (rawPacket payload).toList⟩ := by
  unfold Driver.singlePayload
  cases rawPacket payload with
  | none => simp [Driver.passes, Driver.countInvalid]
  | some raw =>
    dsimp only
    unfold Driver.trySingle
    cases (decode raw : Except PacketError (PktHdlMech F)) with
    | error e => exact passes_log d (.handed raw)
    | ok p => exact (passes_publish _ _ _).trans (passes_log d (.handed raw))

theorem passes_advance (d : PcapDriver F) (f : Frame) (rest : List Frame) (payload : List UInt8) :
    (d.advance f rest ((d.sleep f).singlePayload payload)).passes =
      ⟨d.passes.done, d.passes.current ++ (rawPacket payload).toList⟩ := by
  have hsleep : (d.sleep f).passes = d.passes := passes_log d.toDriver _
  have h := passes_singlePayload (d.sleep f) payload
  rw [hsleep] at h
  exact h

end Passes

variable [Arith F]

/-- The packet in a payload, if it is valid. -/
def payloadPacket (payload : List UInt8) : Option (PktHdlMech F) :=
  (rawPacket payload).bind packetOf

/-- One payload of a FULL capture. -/
def consumePayload (r : Driver F × FullScanAssembler F) (payload : List UInt8) :
    Driver F × FullScanAssembler F :=
  match rawPacket payload with
  | none => (r.1.countInvalid, r.2)
  | some raw => consume r raw

/-- Each payload since the state `d₀` is counted as received or as invalid. -/
structure Counts (d₀ : Driver F) (payloads : List (List UInt8)) (d : Driver F) : Prop where
  received : d.packetsReceived =
    d₀.packetsReceived + (payloads.filterMap (payloadPacket (F := F))).length
  invalid : d.invalidPackets =
    d₀.invalidPackets + payloads.countP fun p => (payloadPacket (F := F) p).isNone

structure Replayed (d₀ : Driver F) (cur : List (PktHdlMech F)) (payloads : List (List UInt8))
    (r : Driver F × FullScanAssembler F) : Prop where
  shows : Shows d₀
    (Batches.feed completes ⟨[], cur⟩ (payloads.filterMap payloadPacket)).done r.1
  assembler : r.2 =
    assembled (Batches.feed completes ⟨[], cur⟩ (payloads.filterMap payloadPacket)).current
  isOpen : completes
    (Batches.feed completes ⟨[], cur⟩ (payloads.filterMap payloadPacket)).current = false
  counts : Counts d₀ payloads r.1
  passes : r.1.passes =
    ⟨d₀.passes.done, d₀.passes.current ++ payloads.filterMap rawPacket⟩

/-! ## One payload -/

theorem decode_of_payloadPacket {payload : List UInt8} {p : PktHdlMech F}
    (h : payloadPacket payload = some p) :
    ∃ raw, rawPacket payload = some raw ∧ decode raw = .ok p := by
  obtain ⟨raw, hraw, hp⟩ := Option.bind_eq_some_iff.mp h
  exact ⟨raw, hraw, decode_of_packetOf hp⟩

theorem consume_counts (r : Driver F × FullScanAssembler F) (raw : RawPacket) :
    (consume r raw).1.packetsReceived =
        r.1.packetsReceived + (packetOf (F := F) raw).toList.length ∧
      (consume r raw).1.invalidPackets =
        r.1.invalidPackets + (if (packetOf (F := F) raw).isNone then 1 else 0) ∧
      (consume r raw).1.passes = noteEvent (F := F) r.1.passes (.handed raw) := by
  have hpasses := passes_tryAdd r.1 r.2 raw
  have hclose : ∀ d : Driver F, ∀ a : FullScanAssembler F,
      (d.publishFull a).packetsReceived = d.packetsReceived ∧
        (d.publishFull a).invalidPackets = d.invalidPackets ∧
        (d.publishFull a).passes = d.passes := by
    intro d a
    obtain ⟨-, -, -, -, hr, hi⟩ := publishFull_eq d a
    exact ⟨hr, hi, passes_publishFull d a⟩
  have htry : (r.1.tryAdd r.2 raw).1.packetsReceived =
        r.1.packetsReceived + (packetOf (F := F) raw).toList.length ∧
      (r.1.tryAdd r.2 raw).1.invalidPackets =
        r.1.invalidPackets + (if (packetOf (F := F) raw).isNone then 1 else 0) := by
    cases hd : (decode raw : Except PacketError (PktHdlMech F)) with
    | error e =>
      rw [tryAdd_error _ _ hd, packetOf_error hd]
      exact ⟨rfl, rfl⟩
    | ok p =>
      rw [tryAdd_ok _ _ hd, packetOf_ok hd]
      exact ⟨rfl, rfl⟩
  cases hc : (r.1.tryAdd r.2 raw).2.complete with
  | false =>
    rw [consume_open hc]
    exact ⟨htry.1, htry.2, hpasses⟩
  | true =>
    rw [consume_complete hc]
    obtain ⟨hr, hi, hp⟩ := hclose (r.1.tryAdd r.2 raw).1 (r.1.tryAdd r.2 raw).2
    exact ⟨hr.trans htry.1, hi.trans htry.2, hp.trans hpasses⟩

theorem Shows.log {d₀ d : Driver F} {done : List (List (PktHdlMech F))} (h : Shows d₀ done d)
    {e : Event F} (he : e.publication = none) : Shows d₀ done (d.log e) where
  options := h.options
  publications := by
    rw [publications_log, he, ← h.publications]
    exact List.append_nil _
  messages := h.messages
  discarded := h.discarded

theorem Shows.countInvalid {d₀ d : Driver F} {done : List (List (PktHdlMech F))}
    (h : Shows d₀ done d) : Shows d₀ done d.countInvalid :=
  ⟨h.options, h.publications, h.messages, h.discarded⟩

theorem replayed_refl (d : Driver F) {cur : List (PktHdlMech F)} (hopen : completes cur = false) :
    Replayed d cur [] (d, assembled cur) where
  shows := shows_refl d
  assembler := rfl
  isOpen := hopen
  counts := ⟨rfl, rfl⟩
  passes := by rw [List.filterMap_nil, List.append_nil]

theorem Replayed.slept {d₀ d : Driver F} {cur : List (PktHdlMech F)}
    {payloads : List (List UInt8)} {a : FullScanAssembler F}
    (h : Replayed d₀ cur payloads (d, a)) (t : Int) :
    Replayed d₀ cur payloads (d.log (.slept t), a) where
  shows := h.shows.log rfl
  assembler := h.assembler
  isOpen := h.isOpen
  counts := ⟨h.counts.received, h.counts.invalid⟩
  passes := (passes_log d (.slept t)).trans h.passes

theorem filterMap_concat {α β : Type} (f : α → Option β) (l : List α) (x : α) :
    (l ++ [x]).filterMap f = l.filterMap f ++ (f x).toList := by
  rw [List.filterMap_append]
  cases h : f x with
  | none => simp [h]
  | some y => simp [h]

/-- A payload keeps the driver in step with the batches. -/
theorem shows_consumePayload {d₀ d : Driver F} {s : Batches (PktHdlMech F)}
    (h : Shows d₀ s.done d) (hopen : completes s.current = false) (payload : List UInt8) :
    let s' := s.feed completes (payloadPacket payload).toList
    Shows d₀ s'.done (consumePayload (d, assembled s.current) payload).1 ∧
      (consumePayload (d, assembled s.current) payload).2 = assembled s'.current ∧
      completes s'.current = false := by
  intro s'
  cases hraw : rawPacket payload with
  | none =>
    have hs' : s' = s := by simp [s', payloadPacket, hraw]
    rw [hs', consumePayload, hraw]
    exact ⟨h.countInvalid, rfl, hopen⟩
  | some raw =>
    have hs' : s' = s.feed completes (packetOf raw).toList := by simp [s', payloadPacket, hraw]
    rw [hs', consumePayload, hraw]
    exact shows_consume h hopen raw

theorem consumePayload_counts (r : Driver F × FullScanAssembler F) (payload : List UInt8) :
    (consumePayload r payload).1.packetsReceived =
        r.1.packetsReceived + (payloadPacket (F := F) payload).toList.length ∧
      (consumePayload r payload).1.invalidPackets =
        r.1.invalidPackets + (if (payloadPacket (F := F) payload).isNone then 1 else 0) ∧
      (consumePayload r payload).1.passes =
        ⟨r.1.passes.done, r.1.passes.current ++ (rawPacket payload).toList⟩ := by
  cases hraw : rawPacket payload with
  | none =>
    have hpacket : (payloadPacket payload : Option (PktHdlMech F)) = none := by
      rw [payloadPacket, hraw, Option.bind_none]
    rw [consumePayload, hraw, hpacket]
    exact ⟨rfl, rfl, by simp [Driver.passes, Driver.countInvalid]⟩
  | some raw =>
    have hpacket : (payloadPacket payload : Option (PktHdlMech F)) = packetOf raw := by
      rw [payloadPacket, hraw, Option.bind_some]
    rw [consumePayload, hraw, hpacket]
    exact consume_counts r raw

theorem Counts.concat {d₀ d d' : Driver F} {payloads : List (List UInt8)}
    (h : Counts d₀ payloads d) {payload : List UInt8}
    (hr : d'.packetsReceived =
      d.packetsReceived + (payloadPacket (F := F) payload).toList.length)
    (hi : d'.invalidPackets =
      d.invalidPackets + if (payloadPacket (F := F) payload).isNone then 1 else 0) :
    Counts d₀ (payloads ++ [payload]) d' where
  received := by
    rw [hr, filterMap_concat, List.length_append, ← Nat.add_assoc, ← h.received]
  invalid := by
    rw [hi, List.countP_append, List.countP_singleton, ← Nat.add_assoc, ← h.invalid]

theorem Replayed.consume {d₀ : Driver F} {cur : List (PktHdlMech F)}
    {payloads : List (List UInt8)} {r : Driver F × FullScanAssembler F}
    (h : Replayed d₀ cur payloads r) (payload : List UInt8) :
    Replayed d₀ cur (payloads ++ [payload]) (consumePayload r payload) := by
  obtain ⟨d, a⟩ := r
  obtain ⟨hshows, rfl, hopen, hcounts, hpasses⟩ := h
  obtain ⟨h1, h2, h3⟩ := shows_consumePayload hshows hopen payload
  obtain ⟨hr, hi, hp⟩ := consumePayload_counts (d, assembled (Batches.feed completes ⟨[], cur⟩
    (payloads.filterMap payloadPacket)).current) payload
  rw [← Batches.feed_append, ← filterMap_concat] at h1 h2 h3
  refine ⟨h1, h2, h3, hcounts.concat hr hi, ?_⟩
  rw [hp, hpasses, filterMap_concat, List.append_assoc]

/-! ## One pass over the loop -/

namespace FullReplay

/-- The driver and the assembler as soon as a complete revolution is published. -/
def settled (s : FullReplay F) : Driver F × FullScanAssembler F :=
  if s.assembler.complete then
    (s.driver.toDriver.publishFull s.assembler, FullScanAssembler.fresh)
  else (s.driver.toDriver, s.assembler)

theorem settled_of_open {s : FullReplay F} (h : s.assembler.complete = false) :
    s.settled = (s.driver.toDriver, s.assembler) := by
  simp [settled, h]

theorem settled_finish {s : FullReplay F} (h : s.assembler.complete = true) :
    (enter s.finish : FullReplay F).settled = s.settled := by
  rw [settled, settled, h]
  rfl

theorem settled_read {s : FullReplay F} (f : Frame) (rest : List Frame) (payload : List UInt8)
    (h : s.assembler.complete = false) :
    (s.read f rest payload).settled =
      consumePayload (s.driver.sleepFull f, s.assembler) payload := by
  unfold settled read consumePayload Driver.fullPayload
  cases rawPacket payload with
  | none => simp [h, PcapDriver.advance]
  | some raw => rfl

theorem passes_read (s : FullReplay F) (f : Frame) (rest : List Frame) (payload : List UInt8) :
    (s.read f rest payload).driver.passes =
      ⟨s.driver.passes.done, s.driver.passes.current ++ (rawPacket payload).toList⟩ := by
  have h := passes_fullPayload (s.driver.sleepFull f) s.assembler payload
  rw [passes_sleepFull] at h
  exact h

theorem passes_finish (s : FullReplay F) :
    (enter s.finish : FullReplay F).driver.passes = s.driver.passes :=
  passes_publishFull s.driver.toDriver s.assembler

end FullReplay

open FullReplay

theorem passes_mono {s s' : FullReplay F} (h : Steps fullReplay s s') :
    s.driver.passes.done.length ≤ s'.driver.passes.done.length := by
  induction h with
  | refl => exact Nat.le_refl _
  | cons hstep _ ih =>
    refine Nat.le_trans ?_ ih
    rcases fullReplay_cases hstep with
      ⟨-, rfl⟩ | ⟨-, -, rfl⟩ | ⟨-, f, rest, payload, -, -, rfl⟩
    · rw [passes_finish]
    · rw [passes_startOver]
      simp
    · rw [passes_read]

/-- The frames read since the state `s₀`, in the same pass. -/
structure Replays (s₀ : FullReplay F) (cur : List (PktHdlMech F)) (frames : List Frame)
    (s : FullReplay F) : Prop where
  ok : s.ok = Stream'.const true
  file : s.driver.pcapFile = s₀.driver.pcapFile
  sniffer : s₀.driver.pcapSniffer = frames ++ s.driver.pcapSniffer
  settled : Replayed s₀.driver.toDriver cur (frames.filterMap Frame.rawPdu) s.settled

section Step

variable {s₀ s s' : FullReplay F} {cur : List (PktHdlMech F)} {frames : List Frame}

theorem Replays.finish (h : Replays s₀ cur frames s) (hc : s.assembler.complete = true) :
    Replays s₀ cur frames (enter s.finish) where
  ok := tail_of_const h.ok
  file := h.file
  sniffer := h.sniffer
  settled := by
    rw [settled_finish hc]
    exact h.settled

theorem Replays.read (h : Replays s₀ cur frames s) (hopen : s.assembler.complete = false)
    {f : Frame} {rest : List Frame} {payload : List UInt8}
    (hs : s.driver.pcapSniffer = f :: rest) (hf : f.rawPdu = some payload) :
    Replays s₀ cur (frames ++ [f]) (s.read f rest payload) where
  ok := tail_of_const h.ok
  file := h.file
  sniffer := by
    rw [h.sniffer, hs, List.append_assoc]
    rfl
  settled := by
    have hr := h.settled
    rw [settled_of_open hopen] at hr
    have hslept : Replayed s₀.driver.toDriver cur (frames.filterMap Frame.rawPdu)
        (s.driver.sleepFull f, s.assembler) := by
      obtain he | ⟨t, he⟩ := s.driver.sleepFull_cases f
      · rw [he]
        exact hr
      · rw [he]
        exact hr.slept t
    rw [settled_read f rest payload hopen, filterMap_concat, hf]
    exact hslept.consume payload

theorem replayed_step (h : Replays s₀ cur frames s) (hstep : fullReplay s = .ok s') :
    (∃ frames', Replays s₀ cur frames' s') ∨
      s₀.driver.passes.done.length < s'.driver.passes.done.length := by
  have hhead : s.ok.head = true := by
    rw [h.ok]
    rfl
  rcases fullReplay_cases hstep with ⟨hr, rfl⟩ | ⟨hr, -, rfl⟩ | ⟨hr, f, rest, payload, hs, hf, rfl⟩
  · refine .inl ⟨frames, h.finish ?_⟩
    exact (Bool.not_eq_false _).mp fun hopen => hr ⟨hhead, hopen⟩
  · have hpasses := h.settled.passes
    rw [settled_of_open hr.2] at hpasses
    refine .inr ?_
    rw [passes_startOver, hpasses]
    simp
  · exact .inl ⟨frames ++ [f], h.read hr.2 hs hf⟩

end Step

/-- Every state that is reached from `s₀` before the file is opened again. -/
theorem replayed_run {s₀ s : FullReplay F} (cur : List (PktHdlMech F)) (h₀ : s₀.Reading)
    (hcur : s₀.assembler = assembled cur) (h : Steps fullReplay s₀ s)
    (hpass : s.driver.passes.done.length = s₀.driver.passes.done.length) :
    ∃ frames, Replays s₀ cur frames s := by
  have hopen : completes cur = false := by
    rw [completes, ← hcur]
    exact h₀.isOpen
  have hstart : Replays s₀ cur [] s₀ := by
    refine ⟨h₀.ok, rfl, rfl, ?_⟩
    rw [settled_of_open h₀.isOpen, hcur]
    exact replayed_refl _ hopen
  have hrun : (∃ frames, Replays s₀ cur frames s) ∨
      s₀.driver.passes.done.length < s.driver.passes.done.length := by
    refine Steps.preserves (P := fun s => (∃ frames, Replays s₀ cur frames s) ∨
      s₀.driver.passes.done.length < s.driver.passes.done.length) ?_ h (.inl ⟨[], hstart⟩)
    rintro t t' (⟨frames, ht⟩ | hlt) hstep
    · exact replayed_step ht hstep
    · exact .inr (Nat.lt_of_lt_of_le hlt (passes_mono (.single hstep)))
  rcases hrun with hrun | hlt
  · exact hrun
  · omega

theorem reads (frames : List Frame) :
    ∀ (later : List Frame) {s : FullReplay F}, s.Reading →
      s.driver.pcapSniffer = frames ++ later → (∀ f ∈ frames, f.rawPdu ≠ none) →
      ∃ s', Steps fullReplay s s' ∧ s'.Reading ∧ s'.driver.pcapSniffer = later ∧
        s'.driver.pcapFile = s.driver.pcapFile ∧
        s'.driver.passes.done = s.driver.passes.done := by
  induction frames with
  | nil =>
    intro later s h hs _
    exact ⟨s, .refl, h, hs, rfl, rfl⟩
  | cons f frames ih =>
    intro later s h hs hall
    obtain ⟨payload, hf⟩ := Option.ne_none_iff_exists'.mp (hall f List.mem_cons_self)
    have hrest : ∀ g ∈ frames, g.rawPdu ≠ none := fun g hg => hall g (List.mem_cons_of_mem f hg)
    let s₁ := s.read f (frames ++ later) payload
    have hstep : fullReplay s = .ok s₁ := fullReplay_read h.runs hs hf
    have hok : s₁.ok = Stream'.const true := tail_of_const h.ok
    have hpasses : s₁.driver.passes.done = s.driver.passes.done := by
      rw [passes_read]
    cases hc : s₁.assembler.complete with
    | false =>
      obtain ⟨s', hsteps, hread, hsniff, hfile, hdone⟩ := ih later (s := s₁) ⟨hok, hc⟩ rfl hrest
      exact ⟨s', .cons hstep hsteps, hread, hsniff, hfile, hdone.trans hpasses⟩
    | true =>
      let s₂ : FullReplay F := enter s₁.finish
      have hfinish : fullReplay s₁ = .ok s₂ := fullReplay_finish fun hr => by
        rw [hr.2] at hc
        cases hc
      have hok₂ : s₂.ok = Stream'.const true := tail_of_const hok
      obtain ⟨s', hsteps, hread, hsniff, hfile, hdone⟩ := ih later (s := s₂) ⟨hok₂, rfl⟩ rfl hrest
      refine ⟨s', .cons hstep (.cons hfinish hsteps), hread, hsniff, hfile, ?_⟩
      rw [hdone, passes_finish, hpasses]

theorem single_reads (frames : List Frame) :
    ∀ (later : List Frame) {d : PcapDriver F}, d.pcapSniffer = frames ++ later →
      (∀ f ∈ frames, f.rawPdu ≠ none) →
      ∃ d', Steps pollPcap d d' ∧ d'.pcapSniffer = later ∧ d'.pcapFile = d.pcapFile ∧
        d'.passes.done = d.passes.done := by
  induction frames with
  | nil =>
    intro later d hs _
    exact ⟨d, .refl, hs, rfl, rfl⟩
  | cons f frames ih =>
    intro later d hs hall
    obtain ⟨payload, hf⟩ := Option.ne_none_iff_exists'.mp (hall f List.mem_cons_self)
    obtain ⟨d', hsteps, hsniff, hfile, hdone⟩ :=
      ih later (d := d.advance f (frames ++ later) ((d.sleep f).singlePayload payload)) rfl
        fun g hg => hall g (List.mem_cons_of_mem f hg)
    refine ⟨d', .cons (pollPcap_read hs hf) hsteps, hsniff, hfile, ?_⟩
    rw [hdone, passes_advance]

end MechLidar
