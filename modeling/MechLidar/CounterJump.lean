import MechLidar.ArrivalOrder

/-!
# MechLidar.CounterJump

A device that restarts counts its revolutions from another value. How long a `FullScanAssembler`
ignores it is the serial distance of the two counters.

* `outage active r`: the number of revolutions `r`, `r + 1`, … that are lost while `active` is the
  counter of the assembler.
* `foldl_outage`: they are stale, so they change nothing. `completes_of_not_older`: the revolution
  after them completes, also when it is the one that the assembler holds a part of.
-/

namespace MechLidar

open Lib

/-- The revolutions from `r` on that are older than the active one. -/
def outage (active r : UInt16) : Nat :=
  if (active.toBitVec - r.toBitVec).toNat ≤ 32768 then (active.toBitVec - r.toBitVec).toNat else 0

theorem outage_le (active r : UInt16) : outage active r ≤ 32768 := by
  unfold outage
  split <;> omega

theorem toNat_sub_swap (x y : BitVec 16) :
    (x - y).toNat = 0 ∧ (y - x).toNat = 0 ∨ (x - y).toNat + (y - x).toNat = 65536 := by
  bv_omega

/-- A jump forward loses nothing. -/
theorem outage_forward {active r : UInt16} (h : (r.toBitVec - active.toBitVec).toNat ≤ 32767) :
    outage active r = 0 := by
  have hswap := toNat_sub_swap active.toBitVec r.toBitVec
  unfold outage
  split <;> omega

theorem toBitVec_add_ofNat (r : UInt16) (i : Nat) :
    (r + UInt16.ofNat i).toBitVec = r.toBitVec + BitVec.ofNat 16 i := rfl

/-- The counters before the active one are behind it, up to half of the circle. -/
theorem delta_of_outage {active r : UInt16} {i : Nat} (h : i < outage active r) :
    delta (r + UInt16.ofNat i).toBitVec active.toBitVec < 0 := by
  unfold outage at h
  split at h
  · rename_i hle
    rw [toBitVec_add_ofNat]
    exact delta_behind (w := 15) (by omega) hle
  · omega

/-- The revolution after the stale ones is the active one, or newer. -/
theorem counter_after_outage (active r : UInt16) :
    r + UInt16.ofNat (outage active r) = active ∨
      0 < delta (r + UInt16.ofNat (outage active r)).toBitVec active.toBitVec := by
  unfold outage
  split
  · left
    apply UInt16.toBitVec_inj.mp
    rw [toBitVec_add_ofNat, BitVec.ofNat_toNat, BitVec.setWidth_eq]
    grind
  · right
    have hzero : r + UInt16.ofNat 0 = r := UInt16.add_zero r
    rw [hzero]
    exact delta_pos (w := 15) (by omega)

section Assembler

variable {F : Type}

theorem length_stream {rev : Nat → List (PktHdlMech F)} (h : ∀ i, (rev i).length = 20) (k : Nat) :
    ((List.range k).flatMap rev).length = 20 * k := by
  induction k with
  | zero => rfl
  | succ k ih =>
    rw [List.range_succ, List.flatMap_append, List.length_append, ih, List.flatMap_singleton, h]
    omega

variable [Zero F]

theorem assembles_of_run {before : List (PktHdlMech F)} {a : FullScanAssembler F}
    (hrun : FullScanAssembler.fresh.feedAll before = .ok a) (hactive : a.hasRotation = true) :
    ∃ b h, Assembles a b h := by
  rw [FullScanAssembler.feedAll_eq, Except.ok.injEq] at hrun
  subst hrun
  cases before using List.reverseRecOn with
  | nil => cases hactive
  | append_singleton ps p =>
    obtain ⟨b, t, -, ha⟩ := tracks_run ps p
    exact ⟨b, b :: t, ha⟩

/-- A revolution that is the active one, or newer, is complete after its 20 packets, whatever the
assembler already has of it. -/
theorem completes_of_not_older {a : FullScanAssembler F} {b : PktHdlMech F}
    {h : List (PktHdlMech F)} (ha : Assembles a b h) {rot : UInt16} {ps : List (PktHdlMech F)}
    (hps : IsRevolution rot ps)
    (hrot : rot = a.rotationCounter ∨ 0 < delta rot.toBitVec a.rotationCounter.toBitVec) :
    (ps.foldl FullScanAssembler.add a).complete = true := by
  rcases hrot with rfl | hnew
  · obtain ⟨hb, hr, -⟩ := assembles_foldl ha hps.rotation
    exact hb.complete_of_covers (fun q hq => (hps.rotation q hq).trans hr.symm)
      (hps.covers_iff_length.mpr hps.length)
  · have hcalls := steps_of_revolution (.inr hnew) hps
    obtain ⟨init, last, rfl⟩ := (List.eq_nil_or_concat' ps).resolve_left hps.ne_nil
    rw [FullScanAssembler.steps_append, List.map_append] at hcalls
    rw [List.foldl_append]
    exact (List.cons.inj (List.append_inj_right' hcalls rfl)).1

/-! ## A stream of revolutions -/

/-- Nothing of the first `outage` revolutions reaches the assembler. -/
theorem foldl_outage {a : FullScanAssembler F} (hr : a.hasRotation = true) {r : UInt16}
    {rev : Nat → List (PktHdlMech F)} (hrev : ∀ i, IsRevolution (r + UInt16.ofNat i) (rev i))
    {k : Nat} (hk : k ≤ 20 * outage a.rotationCounter r) {m : Nat}
    (hm : outage a.rotationCounter r ≤ m) :
    (((List.range m).flatMap rev).take k).foldl FullScanAssembler.add a = a := by
  apply FullScanAssembler.foldl_stale
  intro p hp
  obtain ⟨d, rfl⟩ := Nat.exists_eq_add_of_le hm
  rw [List.range_add, List.flatMap_append,
    List.take_append_of_le_length (by rw [length_stream fun i => (hrev i).length]; exact hk)] at hp
  obtain ⟨i, hi, hp⟩ := List.mem_flatMap.mp (List.mem_of_mem_take hp)
  refine ⟨hr, ?_⟩
  rw [FullScanAssembler.rotationDelta, (hrev i).rotation p hp]
  exact delta_of_outage (List.mem_range.mp hi)

/-- An incomplete assembler with the active counter `a.rotationCounter` is fed the revolutions
`r`, `r + 1`, …, each in any order. The first `outage` ones leave its state as it is, and it is
complete for the first time during the next one. -/
theorem recovers_after_serial_distance {before : List (PktHdlMech F)} {a : FullScanAssembler F}
    (hrun : FullScanAssembler.fresh.feedAll before = .ok a) (hactive : a.hasRotation = true)
    (hincomplete : a.complete = false) (r : UInt16) (rev : Nat → List (PktHdlMech F))
    (hrev : ∀ i, IsRevolution (r + UInt16.ofNat i) (rev i)) :
    let m := outage a.rotationCounter r
    let stream := (List.range (m + 1)).flatMap rev
    m ≤ 32768 ∧
    ((r.toBitVec - a.rotationCounter.toBitVec).toNat ≤ 32767 → m = 0) ∧
    (∀ k ≤ 20 * m, a.feedAll (stream.take k) = .ok a) ∧
    ∃ n, 20 * m < n ∧ n ≤ 20 * (m + 1) ∧
      (∃ a', a.feedAll (stream.take n) = .ok a' ∧ a'.complete = true) ∧
      ∀ k < n, ∃ a', a.feedAll (stream.take k) = .ok a' ∧ a'.complete = false := by
  intro m stream
  have hstale : ∀ k ≤ 20 * m, (stream.take k).foldl FullScanAssembler.add a = a :=
    fun k hk => foldl_outage hactive hrev hk (Nat.le_succ m)
  have hlast : (stream.foldl FullScanAssembler.add a).complete = true := by
    obtain ⟨b, h, ha⟩ := assembles_of_run hrun hactive
    have hsplit : stream = (List.range m).flatMap rev ++ rev m := by
      rw [show stream = (List.range (m + 1)).flatMap rev from rfl, List.range_succ,
        List.flatMap_append, List.flatMap_singleton]
    have hfirst : ((List.range m).flatMap rev).foldl FullScanAssembler.add a = a := by
      have htake := foldl_outage hactive hrev (Nat.le_refl _) (Nat.le_refl m)
      rwa [List.take_of_length_le (by rw [length_stream fun i => (hrev i).length])] at htake
    rw [hsplit, List.foldl_append, hfirst]
    exact completes_of_not_older ha (hrev m) (counter_after_outage a.rotationCounter r)
  have hex : ∃ n, ((stream.take n).foldl FullScanAssembler.add a).complete = true :=
    ⟨stream.length, by rw [List.take_length]; exact hlast⟩
  have hlength : stream.length = 20 * (m + 1) := length_stream (fun i => (hrev i).length) (m + 1)
  refine ⟨outage_le _ _, outage_forward, fun k hk => ?_, Nat.find hex, ?_, ?_, ?_, fun k hk => ?_⟩
  · rw [FullScanAssembler.feedAll_eq, hstale k hk]
  · by_contra hle
    have hfound := Nat.find_spec hex
    rw [hstale _ (by omega), hincomplete] at hfound
    cases hfound
  · rw [← hlength]
    exact Nat.find_le (by rw [List.take_length]; exact hlast)
  · exact ⟨_, FullScanAssembler.feedAll_eq _ a, Nat.find_spec hex⟩
  · exact ⟨_, FullScanAssembler.feedAll_eq _ a, Bool.eq_false_iff.mpr (Nat.find_min hex hk)⟩

/-- An assembler in revolution 5, and a device that starts again from 3. -/
theorem recovers_after_serial_distance_plain :
    ∃ a : FullScanAssembler ℝ, FullScanAssembler.fresh.feedAll [plainPacket 5 0] = .ok a ∧
      ∃ n, 40 < n ∧ n ≤ 60 ∧ ∃ a', a.feedAll
        (((List.range 3).flatMap fun i => plainRevolution (3 + UInt16.ofNat i)).take n) = .ok a' ∧
        a'.complete = true := by
  have hb : (FullScanAssembler.fresh : FullScanAssembler ℝ).Begins (plainPacket 5 0) := .inl rfl
  obtain ⟨ha, hrot, -⟩ := assembles_begins hb (List.forall_mem_nil _)
  rw [plainPacket_rotationCounter] at hrot
  have hsingle : IsFragment (plainPacket 5 0 : PktHdlMech ℝ).rotationCounter
      [(plainPacket 5 0 : PktHdlMech ℝ)] := ⟨by simp, by simp⟩
  have hincomplete := complete_iff_length hb hsingle
  obtain ⟨-, -, -, n, hlo, hhi, ⟨a', hfed, hdone⟩, -⟩ :=
    recovers_after_serial_distance (FullScanAssembler.feedAll_eq [plainPacket 5 0] _)
      ha.hasRotation (Bool.eq_false_iff.mpr fun h => by simpa using hincomplete.mp h) 3
      (fun i => plainRevolution (3 + UInt16.ofNat i)) fun i => isRevolution_plain _
  have hm : outage 5 3 = 2 := by decide
  rw [hrot, hm] at hlo hhi hfed
  exact ⟨_, FullScanAssembler.feedAll_eq _ _, n, hlo, hhi, a', hfed, hdone⟩

end Assembler

end MechLidar
