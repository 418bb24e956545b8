import MechLidar.Number
import MechLidar.Lib.Cells
import MechLidar.Lib.LittleEndian

/-!
# MechLidar.Packet

`pkt_hdl_Mech`, the decoder of one M360 packet (`packet_handler_mech.cpp`). A packet has 936 bytes
(`PKT_LEN`): 16 bytes of header and 115 channels (`CHANELLS`) of 8 bytes. A revolution has
2300 encoder points (`POINTS_PER_REV`), so its packets start at the 20 multiples of 115 below 2300.

The constructor is a `Reads` computation: it can read only inside of the 936 bytes, and it records
which bytes it reads. `decode` forgets the record. `decode_eq_ok` says when the constructor
accepts, and what it then builds.

The 936-byte wire format is the inverse of the decoder. `encode w buf` writes the fields and words
of `w` into a buffer, with the two functions that the packet tests use (`write_u16_le`,
`write_u32_le`), at the offsets of the format. The old contents of the buffer do not matter: every
byte is written.

* `encode_wire`: writing back what was decoded gives the buffer that was decoded.
* `decode_encode`: decoding what was written gives the fields and words that were written.
* `readOrder_eq`: an accepted buffer is read byte after byte, each byte once.
-/

namespace MechLidar

open Lib

/-- `raw_packet_t` when it is not null. -/
abbrev RawPacket := Vector UInt8 936

/-- What the constructor throws, always a `std::runtime_error`. -/
inductive PacketError where
  | emptyPacket
  | unsupportedVersion
  | invalidEncoderIndex
deriving DecidableEq, Repr

def PacketError.what : PacketError → String
  | .emptyPacket => "empty packet has been passed to ctor"
  | .unsupportedVersion => "unsupported M360 packet version"
  | .invalidEncoderIndex => "invalid M360 packet encoder index"

/-- A handled packet. No value of the class has an encoder index that the constructor rejects. -/
structure PktHdlMech (F : Type) where
  rawPkt : RawPacket
  rotationCounter : UInt16
  rotationFrequencyHz : UInt16
  encSignal : UInt16
  timestampFraction : UInt32
  timestampSeconds : UInt32
  ranges : Vector (Flt F) 115
  intensities : Vector (Flt F) 115
  angles : Vector F 115
  enc_lt : encSignal.toNat < 2300
  enc_mod : encSignal.toNat % 115 = 0

namespace PktHdlMech

variable {F : Type}

/-- `magic`. -/
def magic : UInt8 := 0x68

/-- `protocol_version`. -/
def protocolVersion : UInt8 := 0x00

/-- `RAD_RESOLUTION`. -/
def radResolution [NatCast F] [Div F] [Trig F] : F := Trig.twoPi / ((2300 : Nat) : F)

def firstPointIndex (p : PktHdlMech F) : UInt16 := p.encSignal

/-- The packet's place in its revolution, `first_point_index() / CHANELLS`. -/
def position (p : PktHdlMech F) : Nat := p.firstPointIndex.toNat / 115

theorem position_lt (p : PktHdlMech F) : p.position < 20 := by
  have := p.enc_lt
  simp only [position, firstPointIndex]
  omega

theorem enc_eq (p : PktHdlMech F) : p.encSignal.toNat = 115 * p.position := by
  have := p.enc_mod
  simp only [position, firstPointIndex]
  omega

theorem firstPointIndex_eq_zero (p : PktHdlMech F) : p.firstPointIndex = 0 ↔ p.position = 0 := by
  rw [← UInt16.toNat_inj, UInt16.toNat_zero, show p.firstPointIndex.toNat = _ from p.enc_eq]
  omega

end PktHdlMech

/-- The reading of channel `c` of a packet, if there is one. -/
def readingOf {F : Type} (slot : Option (PktHdlMech F))
    (readings : PktHdlMech F → Vector (Flt F) 115) (default : Flt F) (c : Fin 115) : Flt F :=
  match slot with
  | some p => (readings p)[c]
  | none => default

/-! ## Reading the words -/

/-- `read_u16_le` on the two bytes it is given. -/
def u16Le (b0 b1 : UInt8) : UInt16 := b0.toUInt16 ||| (b1.toUInt16 <<< 8)

/-- `read_u32_le` on the four bytes it is given. -/
def u32Le (b0 b1 b2 b3 : UInt8) : UInt32 :=
  b0.toUInt32 ||| (b1.toUInt32 <<< 8) ||| (b2.toUInt32 <<< 16) ||| (b3.toUInt32 <<< 24)

theorem toNat_u16Le (b0 b1 : UInt8) : (u16Le b0 b1).toNat = leWord [b0, b1] := by
  have h0 := b0.toNat_lt
  have h1 := b1.toNat_lt
  have hshift : b1.toNat <<< 8 < 2 ^ 16 := by rw [Nat.shiftLeft_eq]; omega
  simp only [u16Le, UInt16.toNat_or, UInt16.toNat_shiftLeft, UInt8.toNat_toUInt16, leWord]
  rw [show (8 : UInt16).toNat % 16 = 8 from rfl, Nat.mod_eq_of_lt hshift, or_shiftLeft _ h0]
  omega

theorem toNat_u32Le (b0 b1 b2 b3 : UInt8) :
    (u32Le b0 b1 b2 b3).toNat = leWord [b0, b1, b2, b3] := by
  have h0 := b0.toNat_lt
  have h1 := b1.toNat_lt
  have h2 := b2.toNat_lt
  have h3 := b3.toNat_lt
  have s1 : b1.toNat <<< 8 < 2 ^ 32 := by rw [Nat.shiftLeft_eq]; omega
  have s2 : b2.toNat <<< 16 < 2 ^ 32 := by rw [Nat.shiftLeft_eq]; omega
  have s3 : b3.toNat <<< 24 < 2 ^ 32 := by rw [Nat.shiftLeft_eq]; omega
  simp only [u32Le, UInt32.toNat_or, UInt32.toNat_shiftLeft, UInt8.toNat_toUInt32, leWord]
  rw [show (8 : UInt32).toNat % 32 = 8 from rfl, show (16 : UInt32).toNat % 32 = 16 from rfl,
    show (24 : UInt32).toNat % 32 = 24 from rfl, Nat.mod_eq_of_lt s1, Nat.mod_eq_of_lt s2,
    Nat.mod_eq_of_lt s3, or_shiftLeft _ h0, or_shiftLeft b2.toNat (k := 16) (by omega),
    or_shiftLeft b3.toNat (k := 24) (by omega)]
  omega

/-- The 16-bit word at offset `off`. -/
def RawPacket.u16At (raw : RawPacket) (off : Nat) (h : off + 2 ≤ 936 := by omega) : UInt16 :=
  u16Le raw[off] raw[off + 1]

/-- The 32-bit word at offset `off`. -/
def RawPacket.u32At (raw : RawPacket) (off : Nat) (h : off + 4 ≤ 936 := by omega) : UInt32 :=
  u32Le raw[off] raw[off + 1] raw[off + 2] raw[off + 3]

/-- `read_u16_le(raw_pkt.get() + off)`. -/
def readU16Le (raw : RawPacket) (off : Nat) (h : off + 2 ≤ 936 := by omega) :
    Reads 936 PacketError UInt16 := do
  let b0 ← Reads.cell raw ⟨off, by omega⟩
  let b1 ← Reads.cell raw ⟨off + 1, by omega⟩
  pure (u16Le b0 b1)

/-- `read_u32_le(raw_pkt.get() + off)`. -/
def readU32Le (raw : RawPacket) (off : Nat) (h : off + 4 ≤ 936 := by omega) :
    Reads 936 PacketError UInt32 := do
  let b0 ← Reads.cell raw ⟨off, by omega⟩
  let b1 ← Reads.cell raw ⟨off + 1, by omega⟩
  let b2 ← Reads.cell raw ⟨off + 2, by omega⟩
  let b3 ← Reads.cell raw ⟨off + 3, by omega⟩
  pure (u32Le b0 b1 b2 b3)

/-- The `k` offsets from `off` on. -/
def offsets (off k : Nat) (h : off + k ≤ 936 := by omega) : List (Fin 936) :=
  (List.finRange k).map fun i : Fin k => ⟨off + i.1, by have := i.isLt; omega⟩

theorem readU16Le_returns (raw : RawPacket) (off : Nat) (h : off + 2 ≤ 936) :
    (readU16Le raw off).Returns (raw.u16At off) (offsets off 2) :=
  (Reads.returns_cell _ _).bind ((Reads.returns_cell _ _).bind (Reads.returns_pure _))

theorem readU32Le_returns (raw : RawPacket) (off : Nat) (h : off + 4 ≤ 936) :
    (readU32Le raw off).Returns (raw.u32At off) (offsets off 4) :=
  (Reads.returns_cell _ _).bind ((Reads.returns_cell _ _).bind
    ((Reads.returns_cell _ _).bind ((Reads.returns_cell _ _).bind (Reads.returns_pure _))))

/-- The words of channel `c`. -/
def RawPacket.distanceAt (raw : RawPacket) (c : Fin 115) : UInt32 := raw.u32At (16 + c * 8)

def RawPacket.intensityAt (raw : RawPacket) (c : Fin 115) : UInt32 := raw.u32At (16 + c * 8 + 4)

/-! ## The constructor -/

section Constructor

variable {F : Type} [NatCast F]

/-- The range of a distance word. The largest word means that there is no object. -/
def rangeOf (distanceMm : UInt32) : Flt F :=
  if distanceMm = 0xFFFFFFFF then .inf else .fin (distanceMm.toNat : F)

theorem rangeOf_eq_inf (d : UInt32) : (rangeOf d : Flt F) = .inf ↔ d = 0xFFFFFFFF := by
  by_cases h : d = 0xFFFFFFFF <;> simp [rangeOf, h]

theorem isFinite_rangeOf (d : UInt32) :
    (rangeOf d : Flt F).isFinite = false ↔ d = 0xFFFFFFFF := by
  by_cases h : d = 0xFFFFFFFF <;> simp [rangeOf, h]

def intensityOf (word : UInt32) : Flt F := .fin (word.toNat : F)

variable [Mul F] [Div F] [Trig F]

/-- The angle of encoder point `i`. -/
def angleOf (i : Nat) : F := (i : F) * PktHdlMech.radResolution

/-- What one pass of the channel loop stores. -/
def PktHdlMech.setChannel (p : PktHdlMech F) (chnl : Fin 115) (distanceMm intensity : UInt32) :
    PktHdlMech F :=
  { p with
    ranges := p.ranges.set chnl (rangeOf distanceMm)
    intensities := p.intensities.set chnl (intensityOf intensity)
    angles := p.angles.set chnl (angleOf (p.encSignal.toNat + chnl)) }

/-- One pass of the channel loop. -/
def readChannel (raw : RawPacket) (p : PktHdlMech F) (chnl : Fin 115) :
    Reads 936 PacketError (PktHdlMech F) := do
  let distanceMm ← readU32Le raw (16 + chnl * 8)
  let intensity ← readU32Le raw (16 + chnl * 8 + 4)
  pure (p.setChannel chnl distanceMm intensity)

variable [Zero F]

/-- `pkt_hdl_Mech::pkt_hdl_Mech`. -/
def pktHdlMech : Option RawPacket → Reads 936 PacketError (PktHdlMech F)
  | none => Reads.fail .emptyPacket
  | some raw => do
    let b0 ← Reads.cell raw 0
    if b0 ≠ PktHdlMech.magic then Reads.fail .unsupportedVersion
    else
      let b1 ← Reads.cell raw 1
      if b1 ≠ PktHdlMech.protocolVersion then Reads.fail .unsupportedVersion
      else
        let rot ← readU16Le raw 2
        let hz ← readU16Le raw 4
        let enc ← readU16Le raw 6
        let frac ← readU32Le raw 8
        let sec ← readU32Le raw 12
        if h : 2300 ≤ enc.toNat ∨ enc.toNat % 115 ≠ 0 then Reads.fail .invalidEncoderIndex
        else
          (List.finRange 115).foldlM (readChannel raw)
            { rawPkt := raw
              rotationCounter := rot
              rotationFrequencyHz := hz
              encSignal := enc
              timestampFraction := frac
              timestampSeconds := sec
              ranges := Vector.replicate 115 (.fin 0)
              intensities := Vector.replicate 115 (.fin 0)
              angles := Vector.replicate 115 0
              enc_lt := by omega
              enc_mod := by omega }

/-- The constructor on a buffer, without the record of its reads. -/
def decode (raw : RawPacket) : Except PacketError (PktHdlMech F) :=
  match (pktHdlMech (some raw)).run [] with
  | .ok (p, _) => .ok p
  | .error e => .error e

end Constructor

/-! ## What the constructor accepts, and what it builds -/

/-- The condition under which the constructor does not throw. -/
structure Accepts (raw : RawPacket) : Prop where
  magic : raw[0] = 0x68
  version : raw[1] = 0x00
  enc_lt : (raw.u16At 6).toNat < 2300
  enc_mod : (raw.u16At 6).toNat % 115 = 0

theorem accepts_iff (raw : RawPacket) :
    Accepts raw ↔ raw[0] = 0x68 ∧ raw[1] = 0x00 ∧ (raw.u16At 6).toNat < 2300 ∧
      (raw.u16At 6).toNat % 115 = 0 :=
  ⟨fun ⟨h0, h1, h2, h3⟩ => ⟨h0, h1, h2, h3⟩, fun ⟨h0, h1, h2, h3⟩ => ⟨h0, h1, h2, h3⟩⟩

instance (raw : RawPacket) : Decidable (Accepts raw) := decidable_of_iff' _ (accepts_iff raw)

/-- The bytes that one pass of the channel loop reads. -/
def channelOffsets (c : Fin 115) : List (Fin 936) :=
  offsets (16 + c * 8) 4 ++ offsets (16 + c * 8 + 4) 4

/-- The order in which the constructor reads an accepted buffer. -/
def readOrder : List (Fin 936) :=
  [0] ++ ([1] ++ (offsets 2 2 ++ (offsets 4 2 ++ (offsets 6 2 ++ (offsets 8 4 ++ (offsets 12 4 ++
    (List.finRange 115).flatMap channelOffsets))))))

section Spec

variable {F : Type} [NatCast F] [Mul F] [Div F] [Trig F]

/-- The handled packet of an accepted buffer. -/
def decoded (raw : RawPacket) (h : Accepts raw) : PktHdlMech F where
  rawPkt := raw
  rotationCounter := raw.u16At 2
  rotationFrequencyHz := raw.u16At 4
  encSignal := raw.u16At 6
  timestampFraction := raw.u32At 8
  timestampSeconds := raw.u32At 12
  ranges := Vector.ofFn fun c => rangeOf (raw.distanceAt c)
  intensities := Vector.ofFn fun c => intensityOf (raw.intensityAt c)
  angles := Vector.ofFn fun c => angleOf ((raw.u16At 6).toNat + c)
  enc_lt := h.enc_lt
  enc_mod := h.enc_mod

theorem readChannel_returns (raw : RawPacket) (p : PktHdlMech F) (c : Fin 115) :
    (readChannel raw p c).Returns (p.setChannel c (raw.distanceAt c) (raw.intensityAt c))
      (channelOffsets c) :=
  (readU32Le_returns raw (16 + c * 8) (by omega)).bind
    ((readU32Le_returns raw (16 + c * 8 + 4) (by omega)).bind_pure _)

/-- The channel loop changes the three arrays and nothing else. -/
theorem foldl_setChannel (raw : RawPacket) (l : List (Fin 115)) :
    ∀ p : PktHdlMech F,
      l.foldl (fun p c => p.setChannel c (raw.distanceAt c) (raw.intensityAt c)) p =
        { p with
          ranges := storeAll (fun c => rangeOf (raw.distanceAt c)) l p.ranges
          intensities := storeAll (fun c => intensityOf (raw.intensityAt c)) l p.intensities
          angles := storeAll (fun c => angleOf (p.encSignal.toNat + c)) l p.angles } := by
  induction l with
  | nil => intro p; rfl
  | cons c l ih =>
    intro p
    rw [List.foldl_cons, ih]
    rfl

variable [Zero F]

theorem pktHdlMech_returns (raw : RawPacket) (h : Accepts raw) :
    (pktHdlMech (some raw)).Returns (decoded raw h : PktHdlMech F) readOrder := by
  have hb0 : ¬ raw[0] ≠ PktHdlMech.magic := fun hne => hne h.magic
  have hb1 : ¬ raw[1] ≠ PktHdlMech.protocolVersion := fun hne => hne h.version
  have henc : ¬ (2300 ≤ (raw.u16At 6).toNat ∨ (raw.u16At 6).toNat % 115 ≠ 0) := by
    have := h.enc_lt
    have := h.enc_mod
    omega
  refine (Reads.returns_cell raw 0).bind ?_
  refine (if_neg hb0).symm ▸ (Reads.returns_cell raw 1).bind ?_
  refine (if_neg hb1).symm ▸ (readU16Le_returns raw 2 (by omega)).bind ?_
  refine (readU16Le_returns raw 4 (by omega)).bind ?_
  refine (readU16Le_returns raw 6 (by omega)).bind ?_
  refine (readU32Le_returns raw 8 (by omega)).bind ?_
  refine (readU32Le_returns raw 12 (by omega)).bind ?_
  rw [dif_neg henc]
  convert Reads.returns_foldlM (fun p c => readChannel_returns raw p c) (List.finRange 115) _
  rw [foldl_setChannel]
  simp only [storeAll_finRange]
  rfl

theorem pktHdlMech_fails (raw : RawPacket) (h : ¬ Accepts raw) :
    ∃ e, (pktHdlMech (some raw) : Reads 936 PacketError (PktHdlMech F)).Fails e := by
  by_cases hb0 : raw[0] = PktHdlMech.magic
  · by_cases hb1 : raw[1] = PktHdlMech.protocolVersion
    · have henc : 2300 ≤ (raw.u16At 6).toNat ∨ (raw.u16At 6).toNat % 115 ≠ 0 := by
        rw [accepts_iff] at h
        by_contra hno
        exact h ⟨hb0, hb1, by omega, by omega⟩
      refine ⟨.invalidEncoderIndex, (Reads.returns_cell raw 0).bind_fails ?_⟩
      refine (if_neg (not_not_intro hb0)).symm ▸ (Reads.returns_cell raw 1).bind_fails ?_
      refine (if_neg (not_not_intro hb1)).symm ▸
        (readU16Le_returns raw 2 (by omega)).bind_fails ?_
      refine (readU16Le_returns raw 4 (by omega)).bind_fails ?_
      refine (readU16Le_returns raw 6 (by omega)).bind_fails ?_
      refine (readU32Le_returns raw 8 (by omega)).bind_fails ?_
      refine (readU32Le_returns raw 12 (by omega)).bind_fails ?_
      rw [dif_pos henc]
      exact Reads.fails_fail _
    · refine ⟨.unsupportedVersion, (Reads.returns_cell raw 0).bind_fails ?_⟩
      refine (if_neg (not_not_intro hb0)).symm ▸ (Reads.returns_cell raw 1).bind_fails ?_
      exact (if_pos hb1).symm ▸ Reads.fails_fail _
  · refine ⟨.unsupportedVersion, (Reads.returns_cell raw 0).bind_fails ?_⟩
    exact (if_pos hb0).symm ▸ Reads.fails_fail _

theorem decode_of_accepts {raw : RawPacket} (h : Accepts raw) :
    decode raw = .ok (decoded raw h : PktHdlMech F) := by
  rw [decode, pktHdlMech_returns raw h []]

theorem decode_of_not_accepts {raw : RawPacket} (h : ¬ Accepts raw) :
    ∃ e, (decode raw : Except PacketError (PktHdlMech F)) = .error e := by
  obtain ⟨e, he⟩ := pktHdlMech_fails (F := F) raw h
  exact ⟨e, by rw [decode, he []]⟩

theorem decode_eq_ok {raw : RawPacket} {p : PktHdlMech F} :
    decode raw = .ok p ↔ ∃ h : Accepts raw, p = decoded raw h := by
  constructor
  · intro hd
    by_cases h : Accepts raw
    · rw [decode_of_accepts h] at hd
      cases hd
      exact ⟨h, rfl⟩
    · obtain ⟨e, he⟩ := decode_of_not_accepts (F := F) h
      rw [he] at hd
      cases hd
  · rintro ⟨h, rfl⟩
    exact decode_of_accepts h

end Spec

/-! ## The wire format -/

/-- The contents of a packet: the header fields and the two words of each channel. -/
structure Wire where
  rotationCounter : UInt16
  rotationFrequencyHz : UInt16
  encSignal : UInt16
  timestampFraction : UInt32
  timestampSeconds : UInt32
  distance : Vector UInt32 115
  intensity : Vector UInt32 115
deriving DecidableEq

/-- `write_u16_le(raw.get() + off, value)`. -/
def writeU16Le (buf : RawPacket) (off : Nat) (v : UInt16) (h : off + 2 ≤ 936 := by omega) :
    RawPacket :=
  (buf.set off v.toUInt8).set (off + 1) (v >>> 8).toUInt8

/-- `write_u32_le(raw.get() + off, value)`. -/
def writeU32Le (buf : RawPacket) (off : Nat) (v : UInt32) (h : off + 4 ≤ 936 := by omega) :
    RawPacket :=
  (((buf.set off v.toUInt8).set (off + 1) (v >>> 8).toUInt8).set (off + 2)
    (v >>> 16).toUInt8).set (off + 3) (v >>> 24).toUInt8

def writeChannel (w : Wire) (buf : RawPacket) (c : Fin 115) : RawPacket :=
  writeU32Le (writeU32Le buf (16 + c * 8) w.distance[c]) (16 + c * 8 + 4) w.intensity[c]

def writeHeader (w : Wire) (buf : RawPacket) : RawPacket :=
  let buf := (buf.set 0 PktHdlMech.magic).set 1 PktHdlMech.protocolVersion
  let buf := writeU16Le buf 2 w.rotationCounter
  let buf := writeU16Le buf 4 w.rotationFrequencyHz
  let buf := writeU16Le buf 6 w.encSignal
  let buf := writeU32Le buf 8 w.timestampFraction
  writeU32Le buf 12 w.timestampSeconds

def encode (w : Wire) (buf : RawPacket) : RawPacket :=
  (List.finRange 115).foldl (writeChannel w) (writeHeader w buf)

/-! ## Single words -/

theorem getElem_writeU16Le (buf : RawPacket) (off : Nat) (v : UInt16) (h : off + 2 ≤ 936)
    (i : Nat) (hi : i < 936) :
    (writeU16Le buf off v)[i] =
      if off ≤ i ∧ i < off + 2 then leByte v.toNat (i - off) else buf[i] := by
  have h0 : v.toUInt8 = leByte v.toNat 0 := by simp [leByte]
  have h1 : (v >>> 8).toUInt8 = leByte v.toNat 1 := by
    simp [leByte, ← UInt8.toNat_inj, Nat.shiftRight_eq_div_pow]
  rw [writeU16Le, Vector.getElem_set, Vector.getElem_set, h0, h1]
  by_cases he0 : off = i
  · subst he0; simp
  · by_cases he1 : off + 1 = i
    · subst he1; simp
    · rw [if_neg he1, if_neg he0, if_neg (by omega)]

theorem getElem_writeU32Le (buf : RawPacket) (off : Nat) (v : UInt32) (h : off + 4 ≤ 936)
    (i : Nat) (hi : i < 936) :
    (writeU32Le buf off v)[i] =
      if off ≤ i ∧ i < off + 4 then leByte v.toNat (i - off) else buf[i] := by
  have h0 : v.toUInt8 = leByte v.toNat 0 := by simp [leByte]
  have h1 : (v >>> 8).toUInt8 = leByte v.toNat 1 := by
    simp [leByte, ← UInt8.toNat_inj, Nat.shiftRight_eq_div_pow]
  have h2 : (v >>> 16).toUInt8 = leByte v.toNat 2 := by
    simp [leByte, ← UInt8.toNat_inj, Nat.shiftRight_eq_div_pow]
  have h3 : (v >>> 24).toUInt8 = leByte v.toNat 3 := by
    simp [leByte, ← UInt8.toNat_inj, Nat.shiftRight_eq_div_pow]
  rw [writeU32Le, h0, h1, h2, h3]
  simp only [Vector.getElem_set]
  by_cases he0 : off = i
  · subst he0; simp
  by_cases he1 : off + 1 = i
  · subst he1; simp
  by_cases he2 : off + 2 = i
  · subst he2; simp
  by_cases he3 : off + 3 = i
  · subst he3; simp
  rw [if_neg he3, if_neg he2, if_neg he1, if_neg he0, if_neg (by omega)]

theorem leByte_u16At (raw : RawPacket) (off : Nat) (h : off + 2 ≤ 936) (k : Nat) (hk : k < 2) :
    leByte (raw.u16At off).toNat k = raw[off + k] := by
  rw [RawPacket.u16At, toNat_u16Le, leByte_leWord _ k (by simpa using hk)]
  match k, hk with
  | 0, _ => rfl
  | 1, _ => rfl

theorem leByte_u32At (raw : RawPacket) (off : Nat) (h : off + 4 ≤ 936) (k : Nat) (hk : k < 4) :
    leByte (raw.u32At off).toNat k = raw[off + k] := by
  rw [RawPacket.u32At, toNat_u32Le, leByte_leWord _ k (by simpa using hk)]
  match k, hk with
  | 0, _ => rfl
  | 1, _ => rfl
  | 2, _ => rfl
  | 3, _ => rfl

theorem u16At_eq {raw : RawPacket} {off : Nat} {v : UInt16} (h : off + 2 ≤ 936)
    (hb : ∀ k (hk : k < 2), raw[off + k] = leByte v.toNat k) : raw.u16At off = v := by
  apply UInt16.toNat_inj.mp
  have h0 : raw[off] = leByte v.toNat 0 := hb 0 (by omega)
  have hbytes : [raw[off], raw[off + 1]] = leBytes 2 v.toNat := by
    rw [h0, hb 1 (by omega), leBytes, leBytes, leBytes, leByte_div]
  rw [RawPacket.u16At, toNat_u16Le, hbytes, leWord_leBytes]
  exact Nat.mod_eq_of_lt v.toNat_lt

theorem u32At_eq {raw : RawPacket} {off : Nat} {v : UInt32} (h : off + 4 ≤ 936)
    (hb : ∀ k (hk : k < 4), raw[off + k] = leByte v.toNat k) : raw.u32At off = v := by
  apply UInt32.toNat_inj.mp
  have h0 : raw[off] = leByte v.toNat 0 := hb 0 (by omega)
  have hbytes : [raw[off], raw[off + 1], raw[off + 2], raw[off + 3]] = leBytes 4 v.toNat := by
    rw [h0, hb 1 (by omega), hb 2 (by omega), hb 3 (by omega)]
    simp only [leBytes, leByte_div]
  rw [RawPacket.u32At, toNat_u32Le, hbytes, leWord_leBytes]
  exact Nat.mod_eq_of_lt v.toNat_lt

/-! ## The whole packet -/

/-- Byte `k` of channel `c`. -/
def Wire.channelByte (w : Wire) (c : Fin 115) (k : Nat) : UInt8 :=
  if k < 4 then leByte w.distance[c].toNat k else leByte w.intensity[c].toNat (k - 4)

theorem getElem_writeChannel (w : Wire) (buf : RawPacket) (c : Fin 115) (i : Nat) (hi : i < 936) :
    (writeChannel w buf c)[i] =
      if 16 + c * 8 ≤ i ∧ i < 16 + c * 8 + 8 then w.channelByte c (i - (16 + c * 8))
      else buf[i] := by
  rw [writeChannel, getElem_writeU32Le, getElem_writeU32Le, Wire.channelByte]
  by_cases h1 : 16 + c * 8 + 4 ≤ i ∧ i < 16 + c * 8 + 4 + 4
  · rw [if_pos h1, if_pos (by omega), if_neg (by omega)]
    congr 1
  · rw [if_neg h1]
    by_cases h0 : 16 + c * 8 ≤ i ∧ i < 16 + c * 8 + 4
    · rw [if_pos h0, if_pos (by omega), if_pos (by omega)]
    · rw [if_neg h0, if_neg (by omega)]

/-- The loop over the channels in `l` leaves every byte outside of them alone. -/
theorem foldl_writeChannel_outside (w : Wire) (l : List (Fin 115)) :
    ∀ (buf : RawPacket) (i : Nat) (hi : i < 936),
      (∀ c ∈ l, i < 16 + c * 8 ∨ 16 + c * 8 + 8 ≤ i) →
      (l.foldl (writeChannel w) buf)[i] = buf[i] := by
  induction l with
  | nil => intro buf i hi _; rfl
  | cons c l ih =>
    intro buf i hi hout
    have hc := hout c List.mem_cons_self
    rw [List.foldl_cons, ih _ i hi (fun d hd => hout d (List.mem_cons_of_mem c hd)),
      getElem_writeChannel, if_neg (by omega)]

theorem foldl_writeChannel_inside (w : Wire) (c : Fin 115) (k : Nat) (hk : k < 8)
    (l : List (Fin 115)) :
    ∀ buf : RawPacket, c ∈ l →
      (l.foldl (writeChannel w) buf)[16 + c * 8 + k] = w.channelByte c k := by
  induction l with
  | nil => intro buf hc; cases hc
  | cons d l ih =>
    intro buf hc
    rw [List.foldl_cons]
    by_cases hl : c ∈ l
    · exact ih _ hl
    · -- `c` is written by the first pass, and no later pass comes back to it
      have hd : c = d := by
        cases hc with
        | head => rfl
        | tail _ h => exact absurd h hl
      subst hd
      have hrest : ∀ e ∈ l, 16 + c * 8 + k < 16 + e * 8 ∨ 16 + e * 8 + 8 ≤ 16 + c * 8 + k := by
        intro e he
        have hne : (c : Nat) ≠ e := fun h => hl (Fin.ext h ▸ he)
        omega
      rw [foldl_writeChannel_outside w l _ _ _ hrest, getElem_writeChannel, if_pos (by omega)]
      congr 1
      omega

theorem getElem_encode_channel (w : Wire) (buf : RawPacket) (c : Fin 115) (k : Nat) (hk : k < 8) :
    (encode w buf)[16 + c * 8 + k] = w.channelByte c k :=
  foldl_writeChannel_inside w c k hk _ _ (List.mem_finRange c)

theorem getElem_encode_header (w : Wire) (buf : RawPacket) (i : Nat) (hi : i < 16) :
    (encode w buf)[i] = (writeHeader w buf)[i] :=
  foldl_writeChannel_outside w _ _ i (by omega) (fun c _ => by omega)

section Header

variable (w : Wire) (buf : RawPacket)

theorem encode_magic : (encode w buf)[0] = PktHdlMech.magic := by
  simp [getElem_encode_header, writeHeader, getElem_writeU16Le, getElem_writeU32Le]

theorem encode_version : (encode w buf)[1] = PktHdlMech.protocolVersion := by
  simp [getElem_encode_header, writeHeader, getElem_writeU16Le, getElem_writeU32Le]

theorem encode_rotationCounter : (encode w buf).u16At 2 = w.rotationCounter := by
  refine u16At_eq _ fun k hk => ?_
  rw [getElem_encode_header w buf _ (by omega), writeHeader, getElem_writeU32Le, if_neg (by omega),
    getElem_writeU32Le, if_neg (by omega), getElem_writeU16Le, if_neg (by omega),
    getElem_writeU16Le, if_neg (by omega), getElem_writeU16Le, if_pos (by omega),
    Nat.add_sub_cancel_left]

theorem encode_rotationFrequencyHz : (encode w buf).u16At 4 = w.rotationFrequencyHz := by
  refine u16At_eq _ fun k hk => ?_
  rw [getElem_encode_header w buf _ (by omega), writeHeader, getElem_writeU32Le, if_neg (by omega),
    getElem_writeU32Le, if_neg (by omega), getElem_writeU16Le, if_neg (by omega),
    getElem_writeU16Le, if_pos (by omega), Nat.add_sub_cancel_left]

theorem encode_encSignal : (encode w buf).u16At 6 = w.encSignal := by
  refine u16At_eq _ fun k hk => ?_
  rw [getElem_encode_header w buf _ (by omega), writeHeader, getElem_writeU32Le, if_neg (by omega),
    getElem_writeU32Le, if_neg (by omega), getElem_writeU16Le, if_pos (by omega),
    Nat.add_sub_cancel_left]

theorem encode_timestampFraction : (encode w buf).u32At 8 = w.timestampFraction := by
  refine u32At_eq _ fun k hk => ?_
  rw [getElem_encode_header w buf _ (by omega), writeHeader, getElem_writeU32Le, if_neg (by omega),
    getElem_writeU32Le, if_pos (by omega), Nat.add_sub_cancel_left]

theorem encode_timestampSeconds : (encode w buf).u32At 12 = w.timestampSeconds := by
  refine u32At_eq _ fun k hk => ?_
  rw [getElem_encode_header w buf _ (by omega), writeHeader, getElem_writeU32Le, if_pos (by omega),
    Nat.add_sub_cancel_left]

theorem encode_distance (c : Fin 115) : (encode w buf).distanceAt c = w.distance[c] := by
  refine u32At_eq _ fun k hk => ?_
  rw [getElem_encode_channel w buf c k (by omega), Wire.channelByte, if_pos hk]

theorem encode_intensity (c : Fin 115) : (encode w buf).intensityAt c = w.intensity[c] := by
  refine u32At_eq _ fun k hk => ?_
  have hbyte := getElem_encode_channel w buf c (4 + k) (by omega)
  rw [Wire.channelByte, if_neg (by omega), Nat.add_sub_cancel_left] at hbyte
  simpa only [Nat.add_assoc] using hbyte

theorem encode_accepts (h : w.encSignal.toNat < 2300) (hm : w.encSignal.toNat % 115 = 0) :
    Accepts (encode w buf) where
  magic := encode_magic w buf
  version := encode_version w buf
  enc_lt := by rw [encode_encSignal]; exact h
  enc_mod := by rw [encode_encSignal]; exact hm

end Header

/-! ## The two round trips -/

theorem byte_of_u16At {a b : RawPacket} {off : Nat} (h : off + 2 ≤ 936)
    (he : a.u16At off = b.u16At off) (i : Nat) (hi : off ≤ i ∧ i < off + 2) : a[i] = b[i] := by
  obtain ⟨k, rfl⟩ : ∃ k, i = off + k := ⟨i - off, by omega⟩
  rw [← leByte_u16At a off h k (by omega), he, leByte_u16At b off h k (by omega)]

theorem byte_of_u32At {a b : RawPacket} {off : Nat} (h : off + 4 ≤ 936)
    (he : a.u32At off = b.u32At off) (i : Nat) (hi : off ≤ i ∧ i < off + 4) : a[i] = b[i] := by
  obtain ⟨k, rfl⟩ : ∃ k, i = off + k := ⟨i - off, by omega⟩
  rw [← leByte_u32At a off h k (by omega), he, leByte_u32At b off h k (by omega)]

/-- The fields and words of the format cover the packet. -/
theorem RawPacket.ext_words {a b : RawPacket} (h0 : a[0] = b[0]) (h1 : a[1] = b[1])
    (h2 : a.u16At 2 = b.u16At 2) (h4 : a.u16At 4 = b.u16At 4) (h6 : a.u16At 6 = b.u16At 6)
    (h8 : a.u32At 8 = b.u32At 8) (h12 : a.u32At 12 = b.u32At 12)
    (hd : ∀ c, a.distanceAt c = b.distanceAt c) (hi : ∀ c, a.intensityAt c = b.intensityAt c) :
    a = b := by
  apply Vector.ext
  intro i hlt
  by_cases hch : 16 ≤ i
  · obtain ⟨c, k, hk, rfl⟩ : ∃ (c : Fin 115) (k : Nat), k < 8 ∧ i = 16 + c * 8 + k :=
      ⟨⟨(i - 16) / 8, by omega⟩, (i - 16) % 8, by omega, by simp only; omega⟩
    by_cases hk4 : k < 4
    · exact byte_of_u32At (by omega) (hd c) _ (by omega)
    · exact byte_of_u32At (by omega) (hi c) _ (by omega)
  · by_cases hz : i = 0
    · subst hz; exact h0
    by_cases ho : i = 1
    · subst ho; exact h1
    by_cases i4 : i < 4
    · exact byte_of_u16At (by omega) h2 i (by omega)
    by_cases i6 : i < 6
    · exact byte_of_u16At (by omega) h4 i (by omega)
    by_cases i8 : i < 8
    · exact byte_of_u16At (by omega) h6 i (by omega)
    by_cases i12 : i < 12
    · exact byte_of_u32At (by omega) h8 i (by omega)
    · exact byte_of_u32At (by omega) h12 i (by omega)

/-- The fields of a handled packet, with the words of its raw packet. -/
def PktHdlMech.wire {F : Type} (p : PktHdlMech F) : Wire where
  rotationCounter := p.rotationCounter
  rotationFrequencyHz := p.rotationFrequencyHz
  encSignal := p.encSignal
  timestampFraction := p.timestampFraction
  timestampSeconds := p.timestampSeconds
  distance := Vector.ofFn p.rawPkt.distanceAt
  intensity := Vector.ofFn p.rawPkt.intensityAt

section RoundTrip

variable {F : Type} [NatCast F] [Mul F] [Div F] [Trig F]

theorem encode_wire {raw : RawPacket} (h : Accepts raw) (buf : RawPacket) :
    encode (decoded raw h : PktHdlMech F).wire buf = raw := by
  apply RawPacket.ext_words
  · rw [encode_magic, h.magic]; rfl
  · rw [encode_version, h.version]; rfl
  · rw [encode_rotationCounter]; rfl
  · rw [encode_rotationFrequencyHz]; rfl
  · rw [encode_encSignal]; rfl
  · rw [encode_timestampFraction]; rfl
  · rw [encode_timestampSeconds]; rfl
  · intro c
    simp [encode_distance, PktHdlMech.wire, decoded]
  · intro c
    simp [encode_intensity, PktHdlMech.wire, decoded]

variable [Zero F]

/-- Decoding what was written: the constructor returns, with the fields that were written. -/
theorem decode_encode (w : Wire) (buf : RawPacket) (h : w.encSignal.toNat < 2300)
    (hm : w.encSignal.toNat % 115 = 0) :
    ∃ p : PktHdlMech F, decode (encode w buf) = .ok p ∧
      p.rotationCounter = w.rotationCounter ∧
      p.rotationFrequencyHz = w.rotationFrequencyHz ∧ p.encSignal = w.encSignal ∧
      p.timestampFraction = w.timestampFraction ∧ p.timestampSeconds = w.timestampSeconds ∧
      (∀ c : Fin 115, p.ranges[c] = rangeOf w.distance[c]) ∧
      (∀ c : Fin 115, p.intensities[c] = intensityOf w.intensity[c]) := by
  refine ⟨_, decode_of_accepts (encode_accepts w buf h hm), encode_rotationCounter w buf,
    encode_rotationFrequencyHz w buf, encode_encSignal w buf, encode_timestampFraction w buf,
    encode_timestampSeconds w buf, ?_, ?_⟩
  · intro c
    simp [decoded, encode_distance]
  · intro c
    simp [decoded, encode_intensity]

end RoundTrip

/-! ## The reads -/

theorem map_val_offsets (off k : Nat) (h : off + k ≤ 936) :
    (offsets off k).map Fin.val = List.range' off k := by
  rw [offsets, List.map_map, List.range'_eq_map_range, ← List.map_coe_finRange_eq_range,
    List.map_map]
  rfl

theorem map_val_channelOffsets (c : Fin 115) :
    (channelOffsets c).map Fin.val = List.range' (16 + c * 8) 8 := by
  rw [channelOffsets, List.map_append, map_val_offsets, map_val_offsets, List.range'_append_1]

theorem flatMap_range' (o : Nat) :
    ∀ n, (List.range n).flatMap (fun c => List.range' (o + c * 8) 8) = List.range' o (n * 8) := by
  intro n
  induction n with
  | zero => rfl
  | succ n ih =>
    rw [List.range_succ, List.flatMap_append, ih, List.flatMap_singleton, Nat.succ_mul,
      ← List.range'_append_1]

/-- An accepted buffer is read from byte 0 to byte 935 in order, each byte once. -/
theorem readOrder_eq : readOrder = List.finRange 936 := by
  have hch : ((List.finRange 115).flatMap channelOffsets).map Fin.val = List.range' 16 920 := by
    have hr := flatMap_range' 16 115
    rw [← List.map_coe_finRange_eq_range, List.flatMap_map] at hr
    rw [List.map_flatMap, ← hr]
    simp only [map_val_channelOffsets]
  have hval : readOrder.map Fin.val = (List.finRange 936).map Fin.val := by
    rw [List.map_coe_finRange_eq_range, List.range_eq_range', readOrder]
    simp only [List.map_append, map_val_offsets, hch, List.map_cons, List.map_nil]
    rfl
  exact List.map_injective_iff.mpr Fin.val_injective hval

/-! ## The decoder is the inverse of the format -/

section Inverse

variable {F : Type} [NatCast F] [Mul F] [Div F] [Trig F] [Zero F]

theorem wire_of_decode_encode {w : Wire} {buf : RawPacket} {p : PktHdlMech F}
    (h : decode (encode w buf) = .ok p) : p.wire = w := by
  obtain ⟨_, rfl⟩ := decode_eq_ok.mp h
  obtain ⟨rot, hz, enc, frac, sec, dist, int⟩ := w
  simp only [PktHdlMech.wire, decoded, encode_rotationCounter, encode_rotationFrequencyHz,
    encode_encSignal, encode_timestampFraction, encode_timestampSeconds, Wire.mk.injEq, true_and]
  constructor
  · apply Vector.ext
    intro i hi
    simpa using encode_distance ⟨rot, hz, enc, frac, sec, dist, int⟩ buf ⟨i, hi⟩
  · apply Vector.ext
    intro i hi
    simpa using encode_intensity ⟨rot, hz, enc, frac, sec, dist, int⟩ buf ⟨i, hi⟩

/-- The constructor accepts exactly the buffers with the right magic, version and encoder index.
What it accepts it reads once, byte by byte, and the format writes it back. What the format
writes it decodes to the same fields and words. -/
theorem decode_inverse_format :
    (∀ raw : RawPacket, (∃ p : PktHdlMech F, decode raw = .ok p) ↔
      raw[0] = 0x68 ∧ raw[1] = 0x00 ∧ leWord [raw[6], raw[7]] < 2300 ∧
        leWord [raw[6], raw[7]] % 115 = 0) ∧
    (∀ (raw : RawPacket) (p : PktHdlMech F), decode raw = .ok p →
      (∃ log, (pktHdlMech (some raw)).run [] = .ok (p, log) ∧ ∀ i, log.count i = 1) ∧
      p.rawPkt = raw ∧ ∀ buf, encode p.wire buf = raw) ∧
    (∀ (w : Wire) (buf : RawPacket), w.encSignal.toNat < 2300 → w.encSignal.toNat % 115 = 0 →
      ∃ p : PktHdlMech F, decode (encode w buf) = .ok p ∧ p.wire = w ∧
        ∀ c : Fin 115, (p.ranges[c] = .inf ↔ w.distance[c] = 0xFFFFFFFF) ∧
          (w.distance[c] ≠ 0xFFFFFFFF → p.ranges[c] = .fin (w.distance[c].toNat : F)) ∧
          p.intensities[c] = .fin (w.intensity[c].toNat : F)) := by
  refine ⟨fun raw => ?_, fun raw p hd => ?_, fun w buf h hm => ?_⟩
  · have henc : (raw.u16At 6).toNat = leWord [raw[6], raw[7]] := toNat_u16Le _ _
    rw [← henc, ← accepts_iff]
    constructor
    · rintro ⟨p, hp⟩
      exact (decode_eq_ok.mp hp).1
    · exact fun h => ⟨_, decode_of_accepts h⟩
  · obtain ⟨h, rfl⟩ := decode_eq_ok.mp hd
    refine ⟨⟨_, pktHdlMech_returns raw h [], fun i => ?_⟩, rfl, encode_wire h⟩
    rw [List.nil_append, readOrder_eq]
    exact List.count_eq_one_of_mem (List.nodup_finRange 936) (List.mem_finRange i)
  · obtain ⟨p, hp, -, -, -, -, -, hr, hi⟩ := decode_encode (F := F) w buf h hm
    refine ⟨p, hp, wire_of_decode_encode hp, fun c => ⟨?_, fun hne => ?_, hi c⟩⟩
    · rw [hr c, rangeOf_eq_inf]
    · rw [hr c, rangeOf, if_neg hne]

theorem firstChannel_lt : 0 < 115 := by decide

/-- The packet of the tests: one channel with an object at 1250 mm. -/
def sampleWire : Wire where
  rotationCounter := 0x1234
  rotationFrequencyHz := 10
  encSignal := 115
  timestampFraction := 0x80000000
  timestampSeconds := 42
  distance := (Vector.replicate 115 0).set 0 1250 firstChannel_lt
  intensity := (Vector.replicate 115 0).set 0 77 firstChannel_lt

theorem decode_inverse_format_sample :
    ∃ p : PktHdlMech ℝ, decode (encode sampleWire (Vector.replicate 936 0)) = .ok p ∧
      p.wire = sampleWire ∧
      ∀ buf, encode p.wire buf = encode sampleWire (Vector.replicate 936 0) := by
  obtain ⟨-, hback, hfwd⟩ := decode_inverse_format (F := ℝ)
  obtain ⟨p, hp, hw, -⟩ := hfwd sampleWire (Vector.replicate 936 0) (by decide) (by decide)
  exact ⟨p, hp, hw, (hback _ p hp).2.2⟩

end Inverse

end MechLidar
