import MechLidar.Revolution

/-!
# MechLidar.Completion

When an assembler becomes complete.

* `IsRevolution rot ps`: the packets of one revolution in any order, 20 of ROT `rot` at pairwise
  different positions; `IsFragment` is a part of one.
* `complete_iff_length`: an assembler that was fed a fragment is complete when the fragment has
  20 packets, so never before the last packet of a revolution.
* `IsFragment.reading`: what it then holds at the encoder points of a packet is that packet.
* `plainRevolution rot`: a revolution in an empty round room, as the device would send it.
-/

namespace MechLidar

open Lib

variable {F : Type}

/-- A part of a revolution. -/
structure IsFragment (rot : UInt16) (ps : List (PktHdlMech F)) : Prop where
  rotation : ∀ p ∈ ps, p.rotationCounter = rot
  positions : (ps.map PktHdlMech.position).Nodup

structure IsRevolution (rot : UInt16) (ps : List (PktHdlMech F)) : Prop
    extends IsFragment rot ps where
  length : ps.length = 20

theorem IsRevolution.ne_nil {rot : UInt16} {ps : List (PktHdlMech F)} (h : IsRevolution rot ps) :
    ps ≠ [] := by
  rintro rfl
  cases h.length

/-- Every position has a packet. -/
def Covers (ps : List (PktHdlMech F)) : Prop := ∀ i < 20, ∃ p ∈ ps, p.position = i

/-! ## Counting positions -/

theorem positions_subset (ps : List (PktHdlMech F)) :
    (ps.map PktHdlMech.position).toFinset ⊆ Finset.range 20 := by
  intro i hi
  obtain ⟨p, _, rfl⟩ := List.mem_map.mp (List.mem_toFinset.mp hi)
  exact Finset.mem_range.mpr p.position_lt

theorem covers_iff (ps : List (PktHdlMech F)) :
    Covers ps ↔ (ps.map PktHdlMech.position).toFinset = Finset.range 20 := by
  constructor
  · intro hc
    refine Finset.Subset.antisymm (positions_subset ps) fun i hi => ?_
    obtain ⟨p, hp, rfl⟩ := hc i (Finset.mem_range.mp hi)
    exact List.mem_toFinset.mpr (List.mem_map.mpr ⟨p, hp, rfl⟩)
  · intro he i hi
    rw [← Finset.mem_range, ← he, List.mem_toFinset, List.mem_map] at hi
    exact hi

theorem Covers.length_ge {ps : List (PktHdlMech F)} (h : Covers ps) : 20 ≤ ps.length := by
  have hcard := List.toFinset_card_le (ps.map PktHdlMech.position)
  rwa [(covers_iff ps).mp h, Finset.card_range, List.length_map] at hcard

theorem IsFragment.card {rot : UInt16} {ps : List (PktHdlMech F)} (h : IsFragment rot ps) :
    (ps.map PktHdlMech.position).toFinset.card = ps.length := by
  rw [List.toFinset_card_of_nodup h.positions, List.length_map]

theorem IsFragment.length_le {rot : UInt16} {ps : List (PktHdlMech F)} (h : IsFragment rot ps) :
    ps.length ≤ 20 := by
  have hcard := Finset.card_le_card (positions_subset ps)
  rwa [h.card, Finset.card_range] at hcard

theorem IsFragment.covers_iff_length {rot : UInt16} {ps : List (PktHdlMech F)}
    (h : IsFragment rot ps) : Covers ps ↔ ps.length = 20 := by
  constructor
  · intro hc
    exact Nat.le_antisymm h.length_le hc.length_ge
  · intro hl
    rw [covers_iff]
    refine Finset.eq_of_subset_of_card_le (positions_subset ps) ?_
    rw [h.card, hl, Finset.card_range]

theorem IsFragment.of_append {rot : UInt16} {ps qs : List (PktHdlMech F)}
    (h : IsFragment rot (ps ++ qs)) : IsFragment rot ps := by
  refine ⟨fun p hp => h.rotation p (List.mem_append_left qs hp), ?_⟩
  have hp := h.positions
  rw [List.map_append] at hp
  exact hp.of_append_left

theorem IsFragment.append_right {rot : UInt16} {ps qs : List (PktHdlMech F)}
    (h : IsFragment rot (ps ++ qs)) : IsFragment rot qs := by
  refine ⟨fun q hq => h.rotation q (List.mem_append_right ps hq), ?_⟩
  have hp := h.positions
  rw [List.map_append] at hp
  exact hp.of_append_right

theorem IsFragment.firstAt_isSome {rot : UInt16} {h : List (PktHdlMech F)}
    (hrot : ∀ q ∈ h, q.rotationCounter = rot) (i : Nat) :
    (firstAt h rot i).isSome = true ↔ ∃ q ∈ h, q.position = i := by
  rw [firstAt, List.find?_isSome]
  constructor
  · rintro ⟨q, hq, hi⟩
    have henc : q.firstPointIndex.toNat = 115 * q.position := q.enc_eq
    rw [hrot q hq, henc] at hi
    refine ⟨q, hq, ?_⟩
    simpa using hi
  · rintro ⟨q, hq, rfl⟩
    have henc : q.firstPointIndex.toNat = 115 * q.position := q.enc_eq
    exact ⟨q, hq, by simp [hrot q hq, henc]⟩

/-- In a fragment every packet is the first one at its position. -/
theorem IsFragment.firstAt_eq {rot : UInt16} {ps : List (PktHdlMech F)} (h : IsFragment rot ps)
    {p : PktHdlMech F} (hp : p ∈ ps) : firstAt ps rot p.position = some p := by
  have hsome := (IsFragment.firstAt_isSome h.rotation p.position).mpr ⟨p, hp, rfl⟩
  obtain ⟨q, hq⟩ := Option.isSome_iff_exists.mp hsome
  obtain ⟨hmem, -, hpos⟩ := firstAt_spec hq
  rw [hq, List.inj_on_of_nodup_map h.positions hmem hp hpos]

theorem isRevolution_map {rot : UInt16} {f : Fin 20 → PktHdlMech F}
    (hrot : ∀ i, (f i).rotationCounter = rot) (hpos : ∀ i : Fin 20, (f i).position = i) :
    IsRevolution rot ((List.finRange 20).map f) where
  rotation p hp := by
    obtain ⟨i, -, rfl⟩ := List.mem_map.mp hp
    exact hrot i
  positions := by
    have hval : PktHdlMech.position ∘ f = Fin.val := funext hpos
    rw [List.map_map, hval]
    exact (List.nodup_finRange 20).map Fin.val_injective
  length := by simp

/-! ## Feeding one revolution -/

section Feeding

variable [Zero F]

theorem Assembles.complete_iff_covers {a : FullScanAssembler F} {b : PktHdlMech F}
    {h : List (PktHdlMech F)} (ha : Assembles a b h)
    (hrot : ∀ q ∈ h, q.rotationCounter = a.rotationCounter) :
    a.complete = true ↔ Covers h := by
  rw [ha.complete, beq_iff_eq, ha.complete_iff, Covers]
  constructor
  · intro hall i hi
    have hi' := hall i hi
    rw [ha.received i hi] at hi'
    exact (IsFragment.firstAt_isSome hrot i).mp hi'
  · intro hc i hi
    rw [ha.received i hi]
    exact (IsFragment.firstAt_isSome hrot i).mpr (hc i hi)

theorem Assembles.complete_of_covers {a : FullScanAssembler F} {b : PktHdlMech F}
    {h ps : List (PktHdlMech F)} (ha : Assembles a b (h ++ ps))
    (hrot : ∀ p ∈ ps, p.rotationCounter = a.rotationCounter) (hc : Covers ps) :
    a.complete = true := by
  rw [ha.complete, beq_iff_eq, ha.complete_iff]
  intro i hi
  have hsome := (IsFragment.firstAt_isSome hrot i).mpr (hc i hi)
  rw [ha.received i hi, firstAt, List.find?_append, Option.isSome_or]
  rw [firstAt] at hsome
  rw [hsome, Bool.or_true]

theorem Assembles.packetCount_pos {a : FullScanAssembler F} {b q : PktHdlMech F}
    {h : List (PktHdlMech F)} (ha : Assembles a b h) (hq : q ∈ h)
    (hrot : q.rotationCounter = a.rotationCounter) : 0 < a.packetCount := by
  have henc : q.firstPointIndex.toNat = 115 * q.position := q.enc_eq
  have hsome : (firstAt h a.rotationCounter q.position).isSome = true := by
    rw [firstAt, List.find?_isSome]
    exact ⟨q, hq, by simp [hrot, henc]⟩
  have hrec := ha.received q.position q.position_lt
  rw [hsome] at hrec
  rw [ha.count, Vector.count_pos_iff, ← hrec]
  exact Vector.getElem_mem q.position_lt

theorem assembles_foldl {a : FullScanAssembler F} {b : PktHdlMech F} {h : List (PktHdlMech F)}
    (ha : Assembles a b h) {qs : List (PktHdlMech F)}
    (hrot : ∀ q ∈ qs, q.rotationCounter = a.rotationCounter) :
    Assembles (qs.foldl FullScanAssembler.add a) b (h ++ qs) ∧
      (qs.foldl FullScanAssembler.add a).rotationCounter = a.rotationCounter ∧
      (qs.foldl FullScanAssembler.add a).discardedRevolutions = a.discardedRevolutions := by
  induction qs generalizing a h with
  | nil =>
    rw [List.append_nil]
    exact ⟨ha, rfl, rfl⟩
  | cons q qs ih =>
    have hq := hrot q List.mem_cons_self
    have he : a.add q = a.accept q := FullScanAssembler.add_of_same ha.hasRotation hq
    have hr : (a.accept q).rotationCounter = a.rotationCounter := a.accept_rotationCounter q
    have hd := a.accept_discardedRevolutions q
    obtain ⟨h1, h2, h3⟩ := ih (assembles_accept ha hq)
      (fun q' hq' => by rw [hr]; exact hrot q' (List.mem_cons_of_mem q hq'))
    rw [List.foldl_cons, he]
    rw [List.append_assoc] at h1
    exact ⟨h1, h2.trans hr, h3.trans hd⟩

theorem assembles_begins {a : FullScanAssembler F} {p : PktHdlMech F} (hb : a.Begins p)
    {qs : List (PktHdlMech F)} (hrot : ∀ q ∈ qs, q.rotationCounter = p.rotationCounter) :
    Assembles ((p :: qs).foldl FullScanAssembler.add a) p (p :: qs) ∧
      ((p :: qs).foldl FullScanAssembler.add a).rotationCounter = p.rotationCounter ∧
      ((p :: qs).foldl FullScanAssembler.add a).discardedRevolutions =
        (a.beginRotation p).discardedRevolutions := by
  have hr : ((a.beginRotation p).accept p).rotationCounter = p.rotationCounter :=
    (a.beginRotation p).accept_rotationCounter p
  have hd := (a.beginRotation p).accept_discardedRevolutions p
  rw [List.foldl_cons, FullScanAssembler.add_of_begins hb]
  obtain ⟨h1, h2, h3⟩ := assembles_foldl (tracks_begin a p)
    (fun q (hq : q ∈ qs) => by rw [hr]; exact hrot q hq)
  exact ⟨h1, h2.trans hr, h3.trans hd⟩

/-- A fragment that begins a revolution completes it with its twentieth packet. -/
theorem complete_iff_length {a : FullScanAssembler F} {p : PktHdlMech F} (hb : a.Begins p)
    {qs : List (PktHdlMech F)} (hf : IsFragment p.rotationCounter (p :: qs)) :
    ((p :: qs).foldl FullScanAssembler.add a).complete = true ↔ (p :: qs).length = 20 := by
  obtain ⟨ha, hr, _⟩ := assembles_begins hb fun q hq => hf.rotation q (List.mem_cons_of_mem p hq)
  rw [ha.complete_iff_covers (fun q hq => (hf.rotation q hq).trans hr.symm), hf.covers_iff_length]

/-- The block of a packet shows the first packet at the position. -/
theorem Assembles.reading {a : FullScanAssembler F} {b : PktHdlMech F}
    {h : List (PktHdlMech F)} (ha : Assembles a b h) {p g : PktHdlMech F}
    (hg : firstAt h a.rotationCounter p.position = some g) (c : Nat) (hc : c < 115) :
    a.rangesMm[p.firstPointIndex.toNat + c]? = some g.ranges[c] ∧
      a.intensities[p.firstPointIndex.toNat + c]? = some g.intensities[c] := by
  have henc : p.firstPointIndex.toNat = 115 * p.position := p.enc_eq
  have hpos := p.position_lt
  have hlt : p.firstPointIndex.toNat + c < 2300 := by omega
  have hdiv : (p.firstPointIndex.toNat + c) / 115 = p.position := by omega
  have hch : channelOf (p.firstPointIndex.toNat + c) = ⟨c, hc⟩ := by
    apply Fin.ext
    show (p.firstPointIndex.toNat + c) % 115 = c
    omega
  rw [Vector.getElem?_eq_getElem hlt, Vector.getElem?_eq_getElem hlt, ha.ranges _ hlt,
    ha.intensities _ hlt, hdiv, hg, hch]
  exact ⟨rfl, rfl⟩

theorem IsFragment.reading {a : FullScanAssembler F} {b : PktHdlMech F}
    {ps : List (PktHdlMech F)} (hf : IsFragment a.rotationCounter ps) (ha : Assembles a b ps)
    {p : PktHdlMech F} (hp : p ∈ ps) (c : Nat) (hc : c < 115) :
    a.rangesMm[p.firstPointIndex.toNat + c]? = some p.ranges[c] ∧
      a.intensities[p.firstPointIndex.toNat + c]? = some p.intensities[c] :=
  ha.reading (hf.firstAt_eq hp) c hc

end Feeding

/-! ## A plain revolution -/

/-- The fields of packet `i` of revolution `rot`, with the wall at 1250 mm everywhere. -/
def plainWire (rot : UInt16) (i : Fin 20) : Wire where
  rotationCounter := rot
  rotationFrequencyHz := 10
  encSignal := UInt16.ofNat (115 * i)
  timestampFraction := 0
  timestampSeconds := 0
  distance := Vector.replicate 115 1250
  intensity := Vector.replicate 115 0

theorem plainWire_enc (rot : UInt16) (i : Fin 20) :
    (plainWire rot i).encSignal.toNat = 115 * i := by
  have hi := i.isLt
  show (UInt16.ofNat (115 * i)).toNat = 115 * i
  rw [UInt16.toNat_ofNat', Nat.mod_eq_of_lt (by omega)]

def plainRaw (rot : UInt16) (i : Fin 20) : RawPacket :=
  encode (plainWire rot i) (Vector.replicate 936 0)

theorem plainRaw_accepts (rot : UInt16) (i : Fin 20) : Accepts (plainRaw rot i) := by
  have hi := i.isLt
  have henc := plainWire_enc rot i
  exact encode_accepts _ _ (by omega) (by omega)

variable [NatCast F] [Mul F] [Div F] [Trig F]

def plainPacket (rot : UInt16) (i : Fin 20) : PktHdlMech F :=
  decoded (plainRaw rot i) (plainRaw_accepts rot i)

theorem decode_plainRaw [Zero F] (rot : UInt16) (i : Fin 20) :
    decode (plainRaw rot i) = .ok (plainPacket rot i : PktHdlMech F) :=
  decode_of_accepts (plainRaw_accepts rot i)

@[simp] theorem plainPacket_rotationCounter (rot : UInt16) (i : Fin 20) :
    (plainPacket rot i : PktHdlMech F).rotationCounter = rot :=
  encode_rotationCounter (plainWire rot i) _

@[simp] theorem plainPacket_position (rot : UInt16) (i : Fin 20) :
    (plainPacket rot i : PktHdlMech F).position = i := by
  have henc : (plainPacket rot i : PktHdlMech F).encSignal = (plainWire rot i).encSignal :=
    encode_encSignal (plainWire rot i) _
  have hpos := (plainPacket rot i : PktHdlMech F).enc_eq
  rw [henc, plainWire_enc] at hpos
  omega

def plainRevolution (rot : UInt16) : List (PktHdlMech F) :=
  (List.finRange 20).map (plainPacket rot)

theorem isRevolution_plain (rot : UInt16) :
    IsRevolution rot (plainRevolution rot : List (PktHdlMech F)) :=
  isRevolution_map (plainPacket_rotationCounter rot) (plainPacket_position rot)

end MechLidar
