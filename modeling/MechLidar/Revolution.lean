import MechLidar.Assembler

/-!
# MechLidar.Revolution

What a `FullScanAssembler` is for, said without its arrays: after any sequence of packets it holds
the revolution that was begun last, as the first packet at each position among the packets fed
since then.

* `since h p`: the packets fed since the active revolution was begun, when `p` is fed after `h`.
  A packet that is newer in the serial order begins a revolution and restarts the list.
* `Assembles a b h`: the state `a` is the one that the packets `h`, fed since `b` began the active
  revolution, determine. `tracks_add` is the step, `tracks_run` the run.
-/

namespace MechLidar

open Lib

variable {F : Type}

/-- The first packet of revolution `rot` at position `i`. -/
def firstAt (h : List (PktHdlMech F)) (rot : UInt16) (i : Nat) : Option (PktHdlMech F) :=
  h.find? fun q => q.rotationCounter == rot && q.firstPointIndex.toNat == 115 * i

def since (h : List (PktHdlMech F)) (p : PktHdlMech F) : List (PktHdlMech F) :=
  match h with
  | [] => [p]
  | b :: t =>
    if p.rotationCounter ≠ b.rotationCounter ∧
        0 ≤ delta p.rotationCounter.toBitVec b.rotationCounter.toBitVec then [p]
    else b :: t ++ [p]

/-- The packets fed since the active revolution was begun. -/
def sinceBegun (ps : List (PktHdlMech F)) : List (PktHdlMech F) := ps.foldl since []

/-- The channel of an encoder point in its packet. -/
def channelOf (q : Nat) : Fin 115 := ⟨q % 115, by omega⟩

/-! ## The first packet at a position -/

theorem firstAt_append (h h' : List (PktHdlMech F)) (rot : UInt16) (i : Nat) :
    firstAt (h ++ h') rot i = (firstAt h rot i).or (firstAt h' rot i) :=
  List.find?_append

theorem firstAt_singleton (p : PktHdlMech F) (rot : UInt16) (i : Nat) :
    firstAt [p] rot i = if p.rotationCounter = rot ∧ p.position = i then some p else none := by
  have henc : p.firstPointIndex.toNat = 115 * p.position := p.enc_eq
  by_cases h : p.rotationCounter = rot ∧ p.position = i
  · rw [if_pos h]
    simp [firstAt, henc, h.1, h.2]
  · rw [if_neg h]
    by_cases hr : p.rotationCounter = rot
    · have hi : ¬ 115 * p.position = 115 * i := fun he => h ⟨hr, by omega⟩
      simp [firstAt, henc, hi]
    · simp [firstAt, hr]

theorem firstAt_spec {h : List (PktHdlMech F)} {rot : UInt16} {i : Nat} {p : PktHdlMech F}
    (hf : firstAt h rot i = some p) : p ∈ h ∧ p.rotationCounter = rot ∧ p.position = i := by
  have henc : p.firstPointIndex.toNat = 115 * p.position := p.enc_eq
  have hp := List.find?_some hf
  rw [henc] at hp
  simp at hp
  exact ⟨List.mem_of_find?_eq_some hf, hp⟩

/-- A packet that is not the first one at a position of the revolution changes nothing. -/
theorem firstAt_append_of_not {h : List (PktHdlMech F)} {p : PktHdlMech F} {rot : UInt16} {i : Nat}
    (hp : (firstAt h rot i).isSome ∨ ¬ (p.rotationCounter = rot ∧ p.position = i)) :
    firstAt (h ++ [p]) rot i = firstAt h rot i := by
  rw [firstAt_append, firstAt_singleton]
  rcases hp with hs | hn
  · obtain ⟨q, hq⟩ := Option.isSome_iff_exists.mp hs
    rw [hq]; rfl
  · rw [if_neg hn, Option.or_none]

theorem firstAt_append_self {h : List (PktHdlMech F)} {p : PktHdlMech F} {rot : UInt16}
    (hr : p.rotationCounter = rot) (hn : firstAt h rot p.position = none) :
    firstAt (h ++ [p]) rot p.position = some p := by
  rw [firstAt_append, firstAt_singleton, hn, if_pos ⟨hr, rfl⟩]
  rfl

theorem sinceBegun_append (ps : List (PktHdlMech F)) (p : PktHdlMech F) :
    sinceBegun (ps ++ [p]) = since (sinceBegun ps) p := by
  rw [sinceBegun, List.foldl_append]
  rfl

theorem mem_sinceBegun {ps : List (PktHdlMech F)} :
    ∀ {p : PktHdlMech F}, p ∈ sinceBegun ps → p ∈ ps := by
  induction ps using List.reverseRecOn with
  | nil => intro p hp; exact hp
  | append_singleton ps q ih =>
    intro p hp
    rw [sinceBegun_append] at hp
    unfold since at hp
    split at hp
    · rw [List.mem_singleton.mp hp]
      simp
    · rename_i b t hsince
      split at hp
      · rw [List.mem_singleton.mp hp]
        simp
      · rcases List.mem_append.mp hp with hp | hp
        · exact List.mem_append_left _ (ih (hsince ▸ hp))
        · exact List.mem_append_right _ hp

/-- Any other ROT value behind the packet that began the revolution is an older one. -/
theorem sinceBegun_rotation {ps : List (PktHdlMech F)} {b : PktHdlMech F}
    {t : List (PktHdlMech F)} (h : sinceBegun ps = b :: t) :
    ∀ q ∈ b :: t, q.rotationCounter = b.rotationCounter ∨
      delta q.rotationCounter.toBitVec b.rotationCounter.toBitVec < 0 := by
  induction ps using List.reverseRecOn generalizing b t with
  | nil => cases h
  | append_singleton ps p ih =>
    rw [sinceBegun_append] at h
    unfold since at h
    split at h
    · cases h
      intro q hq
      rw [List.mem_singleton.mp hq]
      exact .inl rfl
    · rename_i c u hsince
      split at h
      · cases h
        intro q hq
        rw [List.mem_singleton.mp hq]
        exact .inl rfl
      · rename_i hnot
        obtain ⟨rfl, rfl⟩ := List.cons.inj h
        intro q hq
        rcases List.mem_append.mp (List.cons_append ▸ hq) with hq | hq
        · exact ih hsince q hq
        · rw [List.mem_singleton.mp hq]
          by_cases he : p.rotationCounter = c.rotationCounter
          · exact .inl he
          · exact .inr (not_le.mp fun hge => hnot ⟨he, hge⟩)

/-- The block of a packet among the encoder points. -/
theorem mem_block_iff (p : PktHdlMech F) (q : Nat) :
    p.position = q / 115 ↔ p.encSignal.toNat ≤ q ∧ q < p.encSignal.toNat + 115 := by
  have henc := p.enc_eq
  omega

/-- The header is overwritten by the packet with ENC=0 alone. -/
theorem copyHeader_eq (a : FullScanAssembler F) (p : PktHdlMech F) :
    (a.copyHeader p).rotationFrequencyHz =
        (if p.position = 0 then p.rotationFrequencyHz else a.rotationFrequencyHz) ∧
      (a.copyHeader p).timestampSeconds =
        (if p.position = 0 then p.timestampSeconds else a.timestampSeconds) ∧
      (a.copyHeader p).timestampFraction =
        (if p.position = 0 then p.timestampFraction else a.timestampFraction) := by
  unfold FullScanAssembler.copyHeader
  by_cases h : p.position = 0
  · have hz := p.firstPointIndex_eq_zero.mpr h
    simp [h, hz]
  · have hz := mt p.firstPointIndex_eq_zero.mp h
    simp [h, hz]

/-- Writing a packet's readings over an array that holds the readings of `h`. -/
theorem writeBlock_reading {h : List (PktHdlMech F)} {p : PktHdlMech F} {rot : UInt16}
    {v : Vector (Flt F) 2300} {readings : PktHdlMech F → Vector (Flt F) 115} {d : Flt F}
    (hself : firstAt (h ++ [p]) rot p.position = some p)
    (hother : ∀ i, p.position ≠ i → firstAt (h ++ [p]) rot i = firstAt h rot i)
    (hv : ∀ (q : Nat) (hq : q < 2300),
      v[q] = readingOf (firstAt h rot (q / 115)) readings d (channelOf q))
    (q : Nat) (hq : q < 2300) :
    (writeBlock v p.encSignal.toNat (readings p) 115)[q] =
      readingOf (firstAt (h ++ [p]) rot (q / 115)) readings d (channelOf q) := by
  have henc := p.enc_eq
  by_cases hin : p.position = q / 115
  · obtain ⟨hlo, hhi⟩ := (mem_block_iff p q).mp hin
    have hch : q - p.encSignal.toNat = q % 115 := by omega
    rw [writeBlock_inside _ _ _ hq hlo hhi, ← hin, hself]
    simp only [hch, readingOf, channelOf]
    rfl
  · have hout : q < p.encSignal.toNat ∨ p.encSignal.toNat + 115 ≤ q := by
      have := mt (mem_block_iff p q).mpr hin
      omega
    rw [writeBlock_outside _ _ _ hq hout, hv q hq, hother _ hin]

/-! ## The invariant -/

variable [Zero F]

structure Assembles (a : FullScanAssembler F) (b : PktHdlMech F) (h : List (PktHdlMech F)) :
    Prop where
  hasRotation : a.hasRotation = true
  rotation : a.rotationCounter = b.rotationCounter
  received : ∀ (i : Nat) (hi : i < 20),
    a.received[i] = (firstAt h a.rotationCounter i).isSome
  count : a.packetCount = a.received.count true
  complete : a.complete = (a.packetCount == 20)
  ranges : ∀ (q : Nat) (hq : q < 2300), a.rangesMm[q] =
    readingOf (firstAt h a.rotationCounter (q / 115)) PktHdlMech.ranges .inf (channelOf q)
  intensities : ∀ (q : Nat) (hq : q < 2300), a.intensities[q] =
    readingOf (firstAt h a.rotationCounter (q / 115)) PktHdlMech.intensities (.fin 0) (channelOf q)
  frequency : a.rotationFrequencyHz =
    ((firstAt h a.rotationCounter 0).getD b).rotationFrequencyHz
  seconds : a.timestampSeconds = ((firstAt h a.rotationCounter 0).getD b).timestampSeconds
  fraction : a.timestampFraction = ((firstAt h a.rotationCounter 0).getD b).timestampFraction

/-- Only the first packets of the active revolution matter. -/
theorem Assembles.congr {a : FullScanAssembler F} {b : PktHdlMech F} {h h' : List (PktHdlMech F)}
    (ha : Assembles a b h)
    (he : ∀ i < 20, firstAt h' a.rotationCounter i = firstAt h a.rotationCounter i) :
    Assembles a b h' where
  hasRotation := ha.hasRotation
  rotation := ha.rotation
  received i hi := by rw [he i hi]; exact ha.received i hi
  count := ha.count
  complete := ha.complete
  ranges q hq := by rw [he _ (by omega)]; exact ha.ranges q hq
  intensities q hq := by rw [he _ (by omega)]; exact ha.intensities q hq
  frequency := by rw [he 0 (by omega)]; exact ha.frequency
  seconds := by rw [he 0 (by omega)]; exact ha.seconds
  fraction := by rw [he 0 (by omega)]; exact ha.fraction

theorem assembles_beginRotation (a : FullScanAssembler F) (b : PktHdlMech F) :
    Assembles (a.beginRotation b) b [] where
  hasRotation := rfl
  rotation := rfl
  received i hi := by simp [FullScanAssembler.beginRotation, firstAt]
  count := by simp [FullScanAssembler.beginRotation, Vector.count_replicate]
  complete := rfl
  ranges q hq := by simp [FullScanAssembler.beginRotation, firstAt, readingOf]
  intensities q hq := by simp [FullScanAssembler.beginRotation, firstAt, readingOf]
  frequency := rfl
  seconds := rfl
  fraction := rfl

theorem isReceived_eq {a : FullScanAssembler F} {b : PktHdlMech F} {h : List (PktHdlMech F)}
    (ha : Assembles a b h) (p : PktHdlMech F) :
    a.isReceived p = (firstAt h a.rotationCounter p.position).isSome :=
  ha.received p.position p.position_lt

theorem assembles_stored {a : FullScanAssembler F} {b : PktHdlMech F} {h : List (PktHdlMech F)}
    (ha : Assembles a b h) {p : PktHdlMech F} (hr : p.rotationCounter = a.rotationCounter)
    (hn : a.isReceived p = false) : Assembles (a.stored p) b (h ++ [p]) := by
  have hpos := p.position_lt
  have hnone : firstAt h a.rotationCounter p.position = none := by
    rw [isReceived_eq ha] at hn
    simpa using hn
  have hself : firstAt (h ++ [p]) a.rotationCounter p.position = some p :=
    firstAt_append_self hr hnone
  have hother : ∀ i, p.position ≠ i →
      firstAt (h ++ [p]) a.rotationCounter i = firstAt h a.rotationCounter i :=
    fun i hi => firstAt_append_of_not (.inr fun hp => hi hp.2)
  have hrot : (a.stored p).rotationCounter = a.rotationCounter := a.copyHeader_rotationCounter p
  have hfirst : ∀ {α : Type} (f : PktHdlMech F → α) (x : α),
      x = f ((firstAt h a.rotationCounter 0).getD b) →
      (if p.position = 0 then f p else x) =
        f ((firstAt (h ++ [p]) a.rotationCounter 0).getD b) := by
    intro α f x hx
    by_cases h0 : p.position = 0
    · rw [if_pos h0, ← h0, hself]; rfl
    · rw [if_neg h0, hother 0 h0, hx]
  obtain ⟨hhz, hsec, hfrac⟩ := copyHeader_eq a p
  constructor
  case hasRotation => exact (a.copyHeader_hasRotation p).trans ha.hasRotation
  case rotation => rw [hrot, ha.rotation]
  case received =>
    intro i hi
    rw [hrot]
    show (a.received.set p.position true)[i] = _
    rw [Vector.getElem_set]
    by_cases he : p.position = i
    · subst he; rw [if_pos rfl, hself]; rfl
    · rw [if_neg he, hother i he, ha.received i hi]
  case count =>
    have hold : a.received[p.position] = false := hn
    show a.packetCount + 1 = (a.received.set p.position true).count true
    rw [Vector.count_set, hold, ha.count]
    rfl
  case complete => rfl
  case ranges =>
    intro q hq
    rw [hrot]
    exact writeBlock_reading hself hother ha.ranges q hq
  case intensities =>
    intro q hq
    rw [hrot]
    exact writeBlock_reading hself hother ha.intensities q hq
  case frequency => rw [hrot, ← hfirst _ _ ha.frequency]; exact hhz
  case seconds => rw [hrot, ← hfirst _ _ ha.seconds]; exact hsec
  case fraction => rw [hrot, ← hfirst _ _ ha.fraction]; exact hfrac

theorem assembles_accept {a : FullScanAssembler F} {b : PktHdlMech F} {h : List (PktHdlMech F)}
    (ha : Assembles a b h) {p : PktHdlMech F} (hr : p.rotationCounter = a.rotationCounter) :
    Assembles (a.accept p) b (h ++ [p]) := by
  cases hrec : a.isReceived p with
  | false =>
    rw [FullScanAssembler.accept, if_neg (by rw [hrec]; decide)]
    exact assembles_stored ha hr hrec
  | true =>
    rw [FullScanAssembler.accept, if_pos hrec]
    refine ha.congr fun i hi => firstAt_append_of_not ?_
    by_cases he : p.position = i
    · rw [isReceived_eq ha, he] at hrec
      exact .inl hrec
    · exact .inr fun hp => he hp.2

/-! ## Runs -/

/-- The state after the packets `ps`, and the packets since its revolution was begun. -/
def Tracks (a : FullScanAssembler F) (ps : List (PktHdlMech F)) : Prop :=
  ∃ b t, sinceBegun ps = b :: t ∧ Assembles a b (b :: t)

/-- `since` restarts exactly where `add_packet` calls `begin_rotation`. -/
theorem since_of_assembles {a : FullScanAssembler F} {b : PktHdlMech F} {t : List (PktHdlMech F)}
    (ha : Assembles a b (b :: t)) (p : PktHdlMech F) :
    since (b :: t) p = if a.Begins p then [p] else b :: t ++ [p] := by
  have hiff : a.Begins p ↔ p.rotationCounter ≠ b.rotationCounter ∧
      0 ≤ delta p.rotationCounter.toBitVec b.rotationCounter.toBitVec := by
    rw [FullScanAssembler.Begins, FullScanAssembler.rotationDelta, ha.rotation, ha.hasRotation]
    simp
  by_cases hb : a.Begins p
  · rw [if_pos hb]
    exact if_pos (hiff.mp hb)
  · rw [if_neg hb]
    exact if_neg (mt hiff.mpr hb)

theorem tracks_begin (a : FullScanAssembler F) (p : PktHdlMech F) :
    Assembles ((a.beginRotation p).accept p) p [p] :=
  assembles_accept (assembles_beginRotation a p) rfl

theorem tracks_add {a : FullScanAssembler F} {ps : List (PktHdlMech F)} (ha : Tracks a ps)
    (p : PktHdlMech F) : Tracks (a.add p) (ps ++ [p]) := by
  obtain ⟨b, t, hsince, ha⟩ := ha
  rw [Tracks, sinceBegun_append, hsince, since_of_assembles ha]
  obtain ⟨hs, he⟩ | ⟨hb, he⟩ | ⟨hr, hc, he⟩ := a.add_cases p
  · rw [he, if_neg hs.not_begins]
    exact ⟨b, t ++ [p], rfl, ha.congr fun i _ =>
      firstAt_append_of_not (h := b :: t) (.inr fun hp => hs.ne hp.1)⟩
  · rw [he, if_pos hb]
    exact ⟨p, [], rfl, tracks_begin a p⟩
  · have hnb : ¬ a.Begins p := by
      rintro (hf | ⟨hne, -⟩)
      · rw [hr] at hf; cases hf
      · exact hne hc
    rw [he, if_neg hnb]
    exact ⟨b, t ++ [p], rfl, assembles_accept ha hc⟩

theorem tracks_run (ps : List (PktHdlMech F)) (p : PktHdlMech F) :
    Tracks ((ps ++ [p]).foldl FullScanAssembler.add FullScanAssembler.fresh) (ps ++ [p]) := by
  induction ps using List.reverseRecOn generalizing p with
  | nil =>
    have hb : (FullScanAssembler.fresh : FullScanAssembler F).Begins p := .inl rfl
    rw [List.nil_append, List.foldl_cons, List.foldl_nil,
      FullScanAssembler.add_of_begins hb]
    exact ⟨p, [], rfl, tracks_begin _ p⟩
  | append_singleton ps q ih =>
    rw [List.foldl_append]
    exact tracks_add (ih q) p

/-- A revolution is complete when every position was received. -/
theorem Assembles.complete_iff {a : FullScanAssembler F} {b : PktHdlMech F}
    {h : List (PktHdlMech F)} (ha : Assembles a b h) :
    a.packetCount = 20 ↔ ∀ (i : Nat) (hi : i < 20), a.received[i] = true := by
  rw [ha.count, Vector.count_eq_size]
  constructor
  · intro hall i hi
    exact (hall _ (Vector.getElem_mem hi)).symm
  · intro hall x hx
    obtain ⟨i, hi, rfl⟩ := Vector.getElem_of_mem hx
    exact (hall i hi).symm

/-- After every step of every run, a fresh assembler holds one revolution only. No access of
`add_packet` is out of range. The ROT value is the one of the packet that began the revolution, a
position is received exactly when a packet of the revolution was fed at it, and the counters agree
with that. A received position holds the readings of the first packet of the revolution at that
position, any other holds no object, and the header is the one of the packet with ENC=0 as soon as
there is one. -/
theorem never_mixes_revolutions (ps : List (PktHdlMech F)) (p : PktHdlMech F) :
    ∃ a b t, FullScanAssembler.fresh.feedAll (ps ++ [p]) = .ok a ∧
      sinceBegun (ps ++ [p]) = b :: t ∧
      a.rotationCounter = b.rotationCounter ∧
      (∀ (i : Nat) (hi : i < 20),
        a.received[i] = (firstAt (b :: t) a.rotationCounter i).isSome) ∧
      (a.complete = true ↔ a.packetCount = 20) ∧
      (a.packetCount = 20 ↔ ∀ (i : Nat) (hi : i < 20), a.received[i] = true) ∧
      a.packetCount = a.received.count true ∧
      (∀ (q : Nat) (hq : q < 2300),
        (a.received[q / 115] = true →
          ∃ f, firstAt (b :: t) a.rotationCounter (q / 115) = some f ∧
            a.rangesMm[q] = f.ranges[q % 115] ∧ a.intensities[q] = f.intensities[q % 115]) ∧
        (a.received[q / 115] = false → a.rangesMm[q] = .inf ∧ a.intensities[q] = .fin 0)) ∧
      (a.received[0] = true → ∃ z, firstAt (b :: t) a.rotationCounter 0 = some z ∧
        a.rotationFrequencyHz = z.rotationFrequencyHz ∧
        a.timestampSeconds = z.timestampSeconds ∧ a.timestampFraction = z.timestampFraction) ∧
      (a.received[0] = false → a.rotationFrequencyHz = b.rotationFrequencyHz ∧
        a.timestampSeconds = b.timestampSeconds ∧
        a.timestampFraction = b.timestampFraction) := by
  obtain ⟨b, t, hsince, ha⟩ := tracks_run ps p
  refine ⟨_, b, t, FullScanAssembler.feedAll_eq _ _, hsince, ha.rotation, ha.received, ?_,
    ha.complete_iff, ha.count, fun q hq => ⟨fun hrec => ?_, fun hrec => ?_⟩, fun hrec => ?_,
    fun hrec => ?_⟩
  · rw [ha.complete, beq_iff_eq]
  · rw [ha.received _ (by omega)] at hrec
    obtain ⟨f, hf⟩ := Option.isSome_iff_exists.mp hrec
    refine ⟨f, hf, ?_, ?_⟩
    · rw [ha.ranges q hq, hf]; rfl
    · rw [ha.intensities q hq, hf]; rfl
  · rw [ha.received _ (by omega), Option.isSome_eq_false_iff, Option.isNone_iff_eq_none] at hrec
    rw [ha.ranges q hq, ha.intensities q hq, hrec]
    exact ⟨rfl, rfl⟩
  · rw [ha.received 0 (by omega)] at hrec
    obtain ⟨z, hz⟩ := Option.isSome_iff_exists.mp hrec
    refine ⟨z, hz, ?_, ?_, ?_⟩
    · rw [ha.frequency, hz]; rfl
    · rw [ha.seconds, hz]; rfl
    · rw [ha.fraction, hz]; rfl
  · rw [ha.received 0 (by omega), Option.isSome_eq_false_iff, Option.isNone_iff_eq_none] at hrec
    rw [ha.frequency, ha.seconds, ha.fraction, hrec]
    exact ⟨rfl, rfl, rfl⟩

/-- A packet with the same distance on every channel. -/
def levelPacket (rot : UInt16) (i : Fin 20) (mm : Nat) : PktHdlMech Nat where
  rawPkt := Vector.replicate 936 0
  rotationCounter := rot
  rotationFrequencyHz := 10
  encSignal := UInt16.ofNat (115 * i)
  timestampFraction := 0
  timestampSeconds := UInt32.ofNat i
  ranges := Vector.replicate 115 (.fin mm)
  intensities := Vector.replicate 115 (.fin 0)
  angles := Vector.replicate 115 0
  enc_lt := by revert i; decide
  enc_mod := by revert i; decide

-- Revolution 8 begins with position 2, behind an incomplete revolution 7 and in front of a packet
-- of it. The second packet at position 0 is a repetition.
example :
    let ps := [levelPacket 7 3 1000, levelPacket 8 2 2000, levelPacket 7 4 3000,
      levelPacket 8 0 4000, levelPacket 8 0 5000]
    (FullScanAssembler.fresh.feedAll ps).map (fun a => (a.rotationCounter, a.packetCount,
      a.received[0], a.received[2], a.received[4], a.timestampSeconds, a.discardedRevolutions)) =
        .ok (8, 2, true, true, false, 0, 1) := by
  intro ps
  rw [FullScanAssembler.feedAll_eq]
  rfl

end MechLidar
