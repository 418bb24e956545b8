import MechLidar.Driver
import MechLidar.Lib.Batch

/-!
# MechLidar.Session

What consecutive FULL polls are for, without sockets, files and counters: the stream of valid
packets is cut into batches, and a batch ends with the packet that completes a revolution. Each
poll handles one batch, and publishes what a fresh assembler makes of it.

* `consume`: one buffer of a FULL capture, over the boundary between two polls.
* `Shows d₀ done d`: the driver `d` has published one scan for each batch of `done` since `d₀`,
  and has counted the revolutions discarded inside of those batches.
* `shows_consume`: `consume` keeps the driver in step with the batches.
-/

namespace MechLidar

open Lib

variable {F : Type}

/-- What a fresh assembler makes of the packets of one poll. -/
def assembled [Zero F] (batch : List (PktHdlMech F)) : FullScanAssembler F :=
  batch.foldl FullScanAssembler.add FullScanAssembler.fresh

/-- The packets complete a revolution. -/
def completes [Zero F] (batch : List (PktHdlMech F)) : Bool := (assembled batch).complete

theorem assembled_concat [Zero F] (batch : List (PktHdlMech F)) (p : PktHdlMech F) :
    assembled (batch ++ [p]) = (assembled batch).add p := by
  simp [assembled]

theorem publications_log (d : Driver F) (e : Event F) :
    (d.log e).publications = d.publications ++ e.publication.toList := by
  cases h : e.publication with
  | none => simp [Driver.publications, Driver.log, h]
  | some x => simp [Driver.publications, Driver.log, h]

variable [Arith F]

/-- The packet in a buffer, if it is valid. -/
def packetOf (raw : RawPacket) : Option (PktHdlMech F) := (decode raw).toOption

/-- The message that shows a batch, with its ROT value. -/
def publicationOf (options : DriverRuntimeOptions F) (batch : List (PktHdlMech F)) :
    UInt16 × LaserScan F × PointCloud2 F :=
  let scan := fullScan options (assembled batch)
  ((assembled batch).rotationCounter, scan, makePointcloudMsg scan)

theorem publicationOf_rot (options : DriverRuntimeOptions F) (batch : List (PktHdlMech F)) :
    (publicationOf options batch).1 = (assembled batch).rotationCounter := rfl

def discardedIn (done : List (List (PktHdlMech F))) : Nat :=
  (done.map fun b => (assembled b).discardedRevolutions).sum

/-- One buffer of a FULL capture. The poll that completes its revolution publishes it, and the
next poll has a new assembler. -/
def consume (s : Driver F × FullScanAssembler F) (raw : RawPacket) :
    Driver F × FullScanAssembler F :=
  let r := s.1.tryAdd s.2 raw
  if r.2.complete then (r.1.publishFull r.2, FullScanAssembler.fresh) else r

structure Shows (d₀ : Driver F) (done : List (List (PktHdlMech F))) (d : Driver F) : Prop where
  options : d.options = d₀.options
  publications : d.publications = d₀.publications ++ done.map (publicationOf d₀.options)
  messages : d.messagesPublished = d₀.messagesPublished + done.length
  discarded : d.discardedRevolutions = d₀.discardedRevolutions + discardedIn done

/-- The buffers of `plainRevolution rot`. -/
def plainRaws (rot : UInt16) : List RawPacket := (List.finRange 20).map (plainRaw rot)

/-! ## One buffer -/

theorem packetOf_ok {raw : RawPacket} {p : PktHdlMech F} (h : decode raw = .ok p) :
    packetOf raw = some p := by
  simp [packetOf, h, Except.toOption]

theorem packetOf_error {raw : RawPacket} {e : PacketError}
    (h : (decode raw : Except PacketError (PktHdlMech F)) = .error e) :
    (packetOf raw : Option (PktHdlMech F)) = none := by
  simp [packetOf, h, Except.toOption]

theorem decode_of_packetOf {raw : RawPacket} {p : PktHdlMech F} (h : packetOf raw = some p) :
    decode raw = .ok p := by
  unfold packetOf at h
  cases hd : (decode raw : Except PacketError (PktHdlMech F)) with
  | error e =>
    rw [hd] at h
    cases h
  | ok q =>
    rw [hd] at h
    cases h
    rfl

theorem packetOf_plainRaw (rot : UInt16) (i : Fin 20) :
    packetOf (plainRaw rot i) = some (plainPacket rot i : PktHdlMech F) :=
  packetOf_ok (decode_plainRaw rot i)

theorem filterMap_plainRaws (rot : UInt16) :
    (plainRaws rot).filterMap packetOf = (plainRevolution rot : List (PktHdlMech F)) := by
  have hcomp : packetOf ∘ plainRaw rot = some ∘ (plainPacket rot : Fin 20 → PktHdlMech F) := by
    funext i
    rw [Function.comp_apply, Function.comp_apply, packetOf_plainRaw]
  rw [plainRaws, List.filterMap_map, hcomp, plainRevolution, List.filterMap_eq_map]

theorem tryAdd_ok (d : Driver F) (a : FullScanAssembler F) {raw : RawPacket} {p : PktHdlMech F}
    (h : decode raw = .ok p) : d.tryAdd a raw = ((d.log (.handed raw)).countReceived, a.add p) := by
  simp [Driver.tryAdd, h, FullScanAssembler.addPacket_eq]

theorem tryAdd_error (d : Driver F) (a : FullScanAssembler F) {raw : RawPacket} {e : PacketError}
    (h : (decode raw : Except PacketError (PktHdlMech F)) = .error e) :
    d.tryAdd a raw = ((d.log (.handed raw)).countInvalid, a) := by
  simp [Driver.tryAdd, h]

theorem consume_open {s : Driver F × FullScanAssembler F} {raw : RawPacket}
    (h : (s.1.tryAdd s.2 raw).2.complete = false) : consume s raw = s.1.tryAdd s.2 raw := by
  simp [consume, h]

theorem consume_complete {s : Driver F × FullScanAssembler F} {raw : RawPacket}
    (h : (s.1.tryAdd s.2 raw).2.complete = true) :
    consume s raw =
      ((s.1.tryAdd s.2 raw).1.publishFull (s.1.tryAdd s.2 raw).2, FullScanAssembler.fresh) := by
  simp [consume, h]

theorem publishFull_eq (d : Driver F) (a : FullScanAssembler F) :
    (d.publishFull a).options = d.options ∧
      (d.publishFull a).publications =
        d.publications ++ [(a.rotationCounter, fullScan d.options a,
          makePointcloudMsg (fullScan d.options a))] ∧
      (d.publishFull a).messagesPublished = d.messagesPublished + 1 ∧
      (d.publishFull a).discardedRevolutions =
        d.discardedRevolutions + a.discardedRevolutions ∧
      (d.publishFull a).packetsReceived = d.packetsReceived ∧
      (d.publishFull a).invalidPackets = d.invalidPackets := by
  unfold Driver.publishFull
  by_cases h : 0 < a.discardedRevolutions
  · simp [h, Driver.publish, Driver.log, Driver.publications, Event.publication]
  · simp [h, Driver.publish, Driver.log, Driver.publications, Event.publication]
    omega

theorem shows_refl (d : Driver F) : Shows d [] d := by
  constructor
  · rfl
  · simp
  · simp
  · simp [discardedIn]

theorem Shows.tryAdd {d₀ d : Driver F} {done : List (List (PktHdlMech F))} (h : Shows d₀ done d)
    (a : FullScanAssembler F) (raw : RawPacket) : Shows d₀ done (d.tryAdd a raw).1 := by
  have hlog : (d.log (.handed raw)).publications = d.publications := by
    simp [publications_log, Event.publication]
  cases hd : (decode raw : Except PacketError (PktHdlMech F)) with
  | error e =>
    rw [tryAdd_error d a hd]
    exact ⟨h.options, hlog.trans h.publications, h.messages, h.discarded⟩
  | ok p =>
    rw [tryAdd_ok d a hd]
    exact ⟨h.options, hlog.trans h.publications, h.messages, h.discarded⟩

theorem Shows.publishFull {d₀ d : Driver F} {done : List (List (PktHdlMech F))}
    (h : Shows d₀ done d) (batch : List (PktHdlMech F)) :
    Shows d₀ (done ++ [batch]) (d.publishFull (assembled batch)) := by
  obtain ⟨ho, hp, hm, hd, -⟩ := publishFull_eq d (assembled batch)
  refine ⟨ho.trans h.options, ?_, ?_, ?_⟩
  · rw [hp, h.publications, h.options]
    simp [publicationOf]
  · rw [hm, h.messages]
    simp
    omega
  · rw [hd, h.discarded]
    simp [discardedIn]
    omega

/-! ## Runs -/

theorem completes_nil : completes ([] : List (PktHdlMech F)) = false := rfl

/-- One buffer keeps the driver in step with the batches. -/
theorem shows_consume {d₀ d : Driver F} {s : Batches (PktHdlMech F)} (h : Shows d₀ s.done d)
    (hopen : completes s.current = false) (raw : RawPacket) :
    let s' := s.feed completes (packetOf raw).toList
    Shows d₀ s'.done (consume (d, assembled s.current) raw).1 ∧
      (consume (d, assembled s.current) raw).2 = assembled s'.current ∧
      completes s'.current = false := by
  intro s'
  cases hd : (decode raw : Except PacketError (PktHdlMech F)) with
  | error e =>
    have hs' : s' = s := by simp [s', packetOf_error hd]
    rw [hs', consume_open (by rw [tryAdd_error _ _ hd]; exact hopen)]
    exact ⟨h.tryAdd _ raw, by rw [tryAdd_error _ _ hd], hopen⟩
  | ok p =>
    have hadd : (d.tryAdd (assembled s.current) raw).2 = assembled (s.current ++ [p]) := by
      rw [tryAdd_ok _ _ hd, assembled_concat]
    have hs' : s' = s.add completes p := by simp [s', packetOf_ok hd]
    rw [hs']
    cases hc : completes (s.current ++ [p]) with
    | false =>
      rw [Batches.add_of_not_full hc, consume_open (by rw [hadd]; exact hc)]
      exact ⟨h.tryAdd _ raw, hadd, hc⟩
    | true =>
      rw [Batches.add_of_full hc, consume_complete (by rw [hadd]; exact hc), hadd]
      exact ⟨(h.tryAdd _ raw).publishFull _, rfl, completes_nil⟩

theorem shows_consumeAll (raws : List RawPacket) {d₀ : Driver F} :
    ∀ {d : Driver F} {s : Batches (PktHdlMech F)}, Shows d₀ s.done d →
      completes s.current = false →
      let s' := s.feed completes (raws.filterMap packetOf)
      Shows d₀ s'.done (raws.foldl consume (d, assembled s.current)).1 ∧
        (raws.foldl consume (d, assembled s.current)).2 = assembled s'.current ∧
        completes s'.current = false := by
  induction raws with
  | nil => intro d s h hopen; exact ⟨h, rfl, hopen⟩
  | cons raw raws ih =>
    intro d s h hopen
    obtain ⟨h1, h2, h3⟩ := shows_consume h hopen raw
    have hfeed : s.feed completes ((raw :: raws).filterMap packetOf) =
        (s.feed completes (packetOf raw).toList).feed completes (raws.filterMap packetOf) := by
      rw [← Batches.feed_append]
      cases hp : (packetOf raw : Option (PktHdlMech F)) with
      | none => simp [hp]
      | some p => simp [hp]
    have hstate : consume (d, assembled s.current) raw =
        ((consume (d, assembled s.current) raw).1,
          assembled (s.feed completes (packetOf raw).toList).current) := by
      rw [← h2]
    intro s'
    rw [List.foldl_cons, hstate]
    simp only [s', hfeed]
    exact ih h1 h3

end MechLidar
