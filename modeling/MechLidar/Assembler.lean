import MechLidar.Packet
import MechLidar.Lib.Serial

/-!
# MechLidar.Assembler

`FullScanAssembler` (`full_scan_assembler.cpp`): the 20 packets (`PACKETS_PER_REV`) of one ROT value
are collected into the 2300 points of a revolution.

`addPacket` is the source function, with every array access checked: an index outside of an array
or the `std::out_of_range` of `point_index` is a `Fault`. `addPacket_eq` says that none happens and
that the call is the pure step `add`; every later module works with `add`.

* `Stale a p`: the branch that ignores `p`; `Begins a p`: the branch that calls `begin_rotation`.
* `add_of_stale`, `add_of_begins`, `add_of_same`: the three branches.
-/

namespace MechLidar

open Lib

/-- What can go wrong inside `add_packet`. -/
inductive Fault where
  /-- The `std::out_of_range` of `point_index`. -/
  | outOfRange (what : String)
  /-- An index outside of an array, which C++ does not check. -/
  | badIndex
deriving DecidableEq, Repr

/-- `v[i]`. -/
def readAt {α : Type} {n : Nat} (v : Vector α n) (i : Nat) : Except Fault α :=
  if h : i < n then .ok v[i] else .error .badIndex

/-- `v[i] = x`. -/
def storeAt {α : Type} {n : Nat} (v : Vector α n) (i : Nat) (x : α) :
    Except Fault (Vector α n) :=
  if h : i < n then .ok (v.set i x) else .error .badIndex

theorem readAt_of_lt {α : Type} {n : Nat} (v : Vector α n) {i : Nat} (h : i < n) :
    readAt v i = .ok v[i] := dif_pos h

theorem storeAt_of_lt {α : Type} {n : Nat} (v : Vector α n) {i : Nat} (h : i < n) (x : α) :
    storeAt v i x = .ok (v.set i x) := dif_pos h

structure FullScanAssembler (F : Type) where
  hasRotation : Bool
  complete : Bool
  rotationCounter : UInt16
  rotationFrequencyHz : UInt16
  timestampSeconds : UInt32
  timestampFraction : UInt32
  packetCount : Nat
  discardedRevolutions : Nat
  received : Vector Bool 20
  rangesMm : Vector (Flt F) 2300
  intensities : Vector (Flt F) 2300

variable {F : Type}

/-- `pkt_hdl_Mech::point_index`. -/
def PktHdlMech.pointIndex (p : PktHdlMech F) (chnl : Nat) : Except Fault UInt16 :=
  if 115 ≤ chnl then .error (.outOfRange "M360 packet channel is out of range")
  else .ok (UInt16.ofNat ((p.encSignal.toNat + chnl) % 2300))

namespace FullScanAssembler

/-- The header fields, copied from the packet with ENC=0. -/
def copyHeader (a : FullScanAssembler F) (p : PktHdlMech F) : FullScanAssembler F :=
  if p.firstPointIndex = 0 then
    { a with
      rotationFrequencyHz := p.rotationFrequencyHz
      timestampSeconds := p.timestampSeconds
      timestampFraction := p.timestampFraction }
  else a

/-- One pass of the channel loop. -/
def storeChannel (p : PktHdlMech F) (a : FullScanAssembler F) (channel : Nat) :
    Except Fault (FullScanAssembler F) := do
  let pointIndex ← p.pointIndex channel
  let rangesMm ← storeAt a.rangesMm pointIndex.toNat (← readAt p.ranges channel)
  let intensities ← storeAt a.intensities pointIndex.toNat (← readAt p.intensities channel)
  pure { a with rangesMm := rangesMm, intensities := intensities }

/-- `add_packet` from the received check on. -/
def storePacket (a : FullScanAssembler F) (p : PktHdlMech F) :
    Except Fault (Bool × FullScanAssembler F) := do
  let packetIndex := p.firstPointIndex.toNat / 115
  if ← readAt a.received packetIndex then pure (a.complete, a)
  else
    let a ← (List.range 115).foldlM (storeChannel p) (a.copyHeader p)
    let received ← storeAt a.received packetIndex true
    let packetCount := a.packetCount + 1
    let complete := packetCount == 20
    pure (complete, { a with received, packetCount, complete })

/-- `static_cast<int16_t>(packet.rotation_counter() - rotation_counter_)`. -/
def rotationDelta (a : FullScanAssembler F) (p : PktHdlMech F) : Int :=
  delta p.rotationCounter.toBitVec a.rotationCounter.toBitVec

section Zero

variable [Zero F]

/-- A new assembler: the default member initializers. -/
def fresh : FullScanAssembler F where
  hasRotation := false
  complete := false
  rotationCounter := 0
  rotationFrequencyHz := 0
  timestampSeconds := 0
  timestampFraction := 0
  packetCount := 0
  discardedRevolutions := 0
  received := Vector.replicate 20 false
  rangesMm := Vector.replicate 2300 (.fin 0)
  intensities := Vector.replicate 2300 (.fin 0)

def beginRotation (a : FullScanAssembler F) (p : PktHdlMech F) : FullScanAssembler F where
  hasRotation := true
  complete := false
  rotationCounter := p.rotationCounter
  rotationFrequencyHz := p.rotationFrequencyHz
  timestampSeconds := p.timestampSeconds
  timestampFraction := p.timestampFraction
  packetCount := 0
  discardedRevolutions :=
    if a.hasRotation = true ∧ a.complete = false ∧ 0 < a.packetCount then
      a.discardedRevolutions + 1
    else a.discardedRevolutions
  received := Vector.replicate 20 false
  rangesMm := Vector.replicate 2300 .inf
  intensities := Vector.replicate 2300 (.fin 0)

def addPacket (a : FullScanAssembler F) (p : PktHdlMech F) :
    Except Fault (Bool × FullScanAssembler F) :=
  if a.hasRotation = false then storePacket (a.beginRotation p) p
  else if p.rotationCounter ≠ a.rotationCounter then
    if a.rotationDelta p < 0 then .ok (a.complete, a)
    else storePacket (a.beginRotation p) p
  else storePacket a p

end Zero

/-! ## Storing a packet -/

/-- The received flag of the packet's position. -/
def isReceived (a : FullScanAssembler F) (p : PktHdlMech F) : Bool :=
  a.received.get ⟨p.position, p.position_lt⟩

/-- The packet written into its block. -/
def stored (a : FullScanAssembler F) (p : PktHdlMech F) : FullScanAssembler F :=
  { a.copyHeader p with
    rangesMm := writeBlock a.rangesMm p.encSignal.toNat p.ranges 115
    intensities := writeBlock a.intensities p.encSignal.toNat p.intensities 115
    received := a.received.set p.position true p.position_lt
    packetCount := a.packetCount + 1
    complete := a.packetCount + 1 == 20 }

/-- A packet of the active revolution: the first one at its position is stored. -/
def accept (a : FullScanAssembler F) (p : PktHdlMech F) : FullScanAssembler F :=
  if a.isReceived p then a else a.stored p

theorem pointIndex_eq (p : PktHdlMech F) {c : Nat} (h : c < 115) :
    ∃ i : UInt16, p.pointIndex c = .ok i ∧ i.toNat = p.encSignal.toNat + c := by
  have henc := p.enc_eq
  have hpos := p.position_lt
  refine ⟨_, if_neg (by omega), ?_⟩
  rw [UInt16.toNat_ofNat', Nat.mod_eq_of_lt (show p.encSignal.toNat + c < 2300 by omega)]
  exact Nat.mod_eq_of_lt (by omega)

/-- The channel loop, after `k` passes. -/
theorem foldlM_storeChannel (a : FullScanAssembler F) (p : PktHdlMech F) :
    ∀ k ≤ 115, (List.range k).foldlM (storeChannel p) a =
      .ok { a with
        rangesMm := writeBlock a.rangesMm p.encSignal.toNat p.ranges k
        intensities := writeBlock a.intensities p.encSignal.toNat p.intensities k } := by
  intro k
  induction k with
  | zero =>
    intro _
    rw [writeBlock_zero, writeBlock_zero]
    rfl
  | succ k ih =>
    intro hk
    have henc := p.enc_eq
    have hpos := p.position_lt
    obtain ⟨i, hi, hval⟩ := pointIndex_eq p (c := k) (by omega)
    have hlt : i.toNat < 2300 := by omega
    rw [List.range_succ, List.foldlM_append, ih (by omega)]
    show storeChannel p _ k >>= pure = _
    rw [bind_pure, storeChannel, hi]
    show (readAt p.ranges k >>= _) = _
    rw [readAt_of_lt _ (by omega)]
    show (storeAt _ i.toNat _ >>= _) = _
    rw [storeAt_of_lt _ hlt]
    show (readAt p.intensities k >>= _) = _
    rw [readAt_of_lt _ (by omega)]
    show (storeAt _ i.toNat _ >>= _) = _
    rw [storeAt_of_lt _ hlt]
    have hk' : k < 115 := by omega
    have hin : p.encSignal.toNat + k < 2300 := by omega
    simp only [hval, writeBlock_succ _ _ _ hk' hin]
    rfl

section CopyHeader

variable (a : FullScanAssembler F) (p : PktHdlMech F)

@[simp] theorem copyHeader_hasRotation : (a.copyHeader p).hasRotation = a.hasRotation := by
  unfold copyHeader; split <;> rfl

@[simp] theorem copyHeader_rotationCounter :
    (a.copyHeader p).rotationCounter = a.rotationCounter := by
  unfold copyHeader; split <;> rfl

@[simp] theorem copyHeader_packetCount : (a.copyHeader p).packetCount = a.packetCount := by
  unfold copyHeader; split <;> rfl

@[simp] theorem copyHeader_discardedRevolutions :
    (a.copyHeader p).discardedRevolutions = a.discardedRevolutions := by
  unfold copyHeader; split <;> rfl

@[simp] theorem copyHeader_received : (a.copyHeader p).received = a.received := by
  unfold copyHeader; split <;> rfl

@[simp] theorem copyHeader_rangesMm : (a.copyHeader p).rangesMm = a.rangesMm := by
  unfold copyHeader; split <;> rfl

@[simp] theorem copyHeader_intensities : (a.copyHeader p).intensities = a.intensities := by
  unfold copyHeader; split <;> rfl

end CopyHeader

theorem storePacket_eq (a : FullScanAssembler F) (p : PktHdlMech F) :
    storePacket a p = .ok ((a.accept p).complete, a.accept p) := by
  have hlt : p.firstPointIndex.toNat / 115 < 20 := p.position_lt
  have hget : a.received[p.firstPointIndex.toNat / 115] = a.isReceived p := rfl
  rw [storePacket, readAt_of_lt _ hlt]
  show (if a.received[p.firstPointIndex.toNat / 115] = true then _ else _) = _
  rw [hget, accept]
  cases a.isReceived p with
  | true => rfl
  | false =>
    rw [if_neg Bool.false_ne_true, if_neg Bool.false_ne_true,
      foldlM_storeChannel _ _ 115 (Nat.le_refl _)]
    show (storeAt (a.copyHeader p).received _ true >>= _) = _
    rw [storeAt_of_lt _ hlt]
    simp only [copyHeader_received, copyHeader_rangesMm, copyHeader_intensities,
      copyHeader_packetCount, stored]
    rfl

theorem accept_hasRotation (a : FullScanAssembler F) (p : PktHdlMech F) :
    (a.accept p).hasRotation = a.hasRotation := by
  unfold accept
  split
  · rfl
  · exact a.copyHeader_hasRotation p

theorem accept_rotationCounter (a : FullScanAssembler F) (p : PktHdlMech F) :
    (a.accept p).rotationCounter = a.rotationCounter := by
  unfold accept
  split
  · rfl
  · exact a.copyHeader_rotationCounter p

theorem accept_discardedRevolutions (a : FullScanAssembler F) (p : PktHdlMech F) :
    (a.accept p).discardedRevolutions = a.discardedRevolutions := by
  unfold accept
  split
  · rfl
  · exact a.copyHeader_discardedRevolutions p

/-! ## The pure step -/

/-- `p` belongs to an older revolution than the active one. -/
def Stale (a : FullScanAssembler F) (p : PktHdlMech F) : Prop :=
  a.hasRotation = true ∧ a.rotationDelta p < 0

/-- `p` starts a new revolution. -/
def Begins (a : FullScanAssembler F) (p : PktHdlMech F) : Prop :=
  a.hasRotation = false ∨ p.rotationCounter ≠ a.rotationCounter ∧ 0 ≤ a.rotationDelta p

instance (a : FullScanAssembler F) (p : PktHdlMech F) : Decidable (a.Stale p) :=
  inferInstanceAs (Decidable (_ ∧ _))

instance (a : FullScanAssembler F) (p : PktHdlMech F) : Decidable (a.Begins p) :=
  inferInstanceAs (Decidable (_ ∨ _))

theorem rotationDelta_of_eq {a : FullScanAssembler F} {p : PktHdlMech F}
    (h : p.rotationCounter = a.rotationCounter) : a.rotationDelta p = 0 := by
  rw [rotationDelta, h, delta_self]

theorem Stale.ne {a : FullScanAssembler F} {p : PktHdlMech F} (h : a.Stale p) :
    p.rotationCounter ≠ a.rotationCounter := by
  intro he
  have hneg := h.2
  rw [rotationDelta_of_eq he] at hneg
  omega

theorem Stale.not_begins {a : FullScanAssembler F} {p : PktHdlMech F} (h : a.Stale p) :
    ¬ a.Begins p := by
  obtain ⟨hr, hneg⟩ := h
  rintro (h | ⟨-, hge⟩)
  · rw [hr] at h; cases h
  · omega

theorem begins_congr (a : FullScanAssembler F) {p q : PktHdlMech F}
    (h : p.rotationCounter = q.rotationCounter) : a.Begins p ↔ a.Begins q := by
  rw [Begins, Begins, rotationDelta, rotationDelta, h]

variable [Zero F]

/-- `add_packet` as a function on the state. -/
def add (a : FullScanAssembler F) (p : PktHdlMech F) : FullScanAssembler F :=
  if a.Stale p then a
  else if a.Begins p then (a.beginRotation p).accept p
  else a.accept p

theorem add_of_stale {a : FullScanAssembler F} {p : PktHdlMech F} (h : a.Stale p) :
    a.add p = a := if_pos h

theorem foldl_stale {a : FullScanAssembler F} {ps : List (PktHdlMech F)}
    (h : ∀ p ∈ ps, a.Stale p) : ps.foldl add a = a := by
  induction ps with
  | nil => rfl
  | cons p ps ih =>
    rw [List.foldl_cons, add_of_stale (h p List.mem_cons_self)]
    exact ih fun q hq => h q (List.mem_cons_of_mem p hq)

theorem add_of_begins {a : FullScanAssembler F} {p : PktHdlMech F} (h : a.Begins p) :
    a.add p = (a.beginRotation p).accept p := by
  rw [add, if_neg (fun hs => hs.not_begins h), if_pos h]

theorem add_of_same {a : FullScanAssembler F} {p : PktHdlMech F} (hr : a.hasRotation = true)
    (h : p.rotationCounter = a.rotationCounter) : a.add p = a.accept p := by
  have hstale : ¬ a.Stale p := fun hs => hs.ne h
  have hbegins : ¬ a.Begins p := by
    rintro (hf | ⟨hne, -⟩)
    · rw [hr] at hf; cases hf
    · exact hne h
  rw [add, if_neg hstale, if_neg hbegins]

/-- The three branches of `add_packet`. -/
theorem add_cases (a : FullScanAssembler F) (p : PktHdlMech F) :
    (a.Stale p ∧ a.add p = a) ∨
    (a.Begins p ∧ a.add p = (a.beginRotation p).accept p) ∨
    (a.hasRotation = true ∧ p.rotationCounter = a.rotationCounter ∧ a.add p = a.accept p) := by
  by_cases hs : a.Stale p
  · exact .inl ⟨hs, add_of_stale hs⟩
  by_cases hb : a.Begins p
  · exact .inr (.inl ⟨hb, add_of_begins hb⟩)
  have hr : a.hasRotation = true := by
    cases h : a.hasRotation with
    | true => rfl
    | false => exact absurd (.inl h) hb
  have he : p.rotationCounter = a.rotationCounter := by
    by_contra hne
    by_cases hneg : a.rotationDelta p < 0
    · exact hs ⟨hr, hneg⟩
    · exact hb (.inr ⟨hne, by omega⟩)
  exact .inr (.inr ⟨hr, he, add_of_same hr he⟩)

/-- `add_packet` never faults, and returns whether the revolution is complete. -/
theorem addPacket_eq (a : FullScanAssembler F) (p : PktHdlMech F) :
    a.addPacket p = .ok ((a.add p).complete, a.add p) := by
  obtain ⟨hs, he⟩ | ⟨hb, he⟩ | ⟨hr, hc, he⟩ := a.add_cases p
  · have hr : ¬ a.hasRotation = false := by rw [hs.1]; decide
    rw [he, addPacket, if_neg hr, if_pos hs.ne, if_pos hs.2]
  · rw [he, addPacket]
    rcases hb with hr | ⟨hne, hge⟩
    · rw [if_pos hr, storePacket_eq]
    · by_cases hr : a.hasRotation = false
      · rw [if_pos hr, storePacket_eq]
      · rw [if_neg hr, if_pos hne, if_neg (by omega), storePacket_eq]
  · have hr' : ¬ a.hasRotation = false := by rw [hr]; decide
    rw [he, addPacket, if_neg hr', if_neg (not_not_intro hc), storePacket_eq]

/-- `add_packet` on one packet after another. -/
def feedAll (a : FullScanAssembler F) (ps : List (PktHdlMech F)) :
    Except Fault (FullScanAssembler F) :=
  ps.foldlM (fun a p => do let (_, a') ← a.addPacket p; pure a') a

theorem feedAll_eq (ps : List (PktHdlMech F)) :
    ∀ a : FullScanAssembler F, a.feedAll ps = .ok (ps.foldl add a) := by
  induction ps with
  | nil => intro a; rfl
  | cons p ps ih =>
    intro a
    rw [feedAll, List.foldlM_cons, addPacket_eq]
    exact ih (a.add p)

end FullScanAssembler

end MechLidar
