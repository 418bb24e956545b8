import MechLidar.Completion

/-!
# MechLidar.ArrivalOrder

What a revolution does not depend on: the order of its packets, and packets that are stale or
repeated.

* `addPackets`: one `add_packet` after another, with what each call returns and leaves behind.
* `Assembles.ext`: two assemblers are equal when they hold the same first packets.
* `completes_in_any_order`: 20 packets of a new revolution, in any order.
* `Ignorable a p`: `p` is stale, or its position of the active revolution is taken.
  `ignorable_add` says that such a call does nothing; after any call the same packet is ignorable.
-/

namespace MechLidar

open Lib

namespace FullScanAssembler

variable {F : Type}

/-- A call of `add_packet` has no effect but its result. -/
def Ignorable (a : FullScanAssembler F) (p : PktHdlMech F) : Prop :=
  a.hasRotation = true ∧
    (a.rotationDelta p < 0 ∨ p.rotationCounter = a.rotationCounter ∧ a.isReceived p = true)

variable [Zero F]

/-- `add_packet` on one packet after another: each returned value and the state after the call. -/
def addPackets (a : FullScanAssembler F) :
    List (PktHdlMech F) → Except Fault (List (Bool × FullScanAssembler F))
  | [] => pure []
  | p :: ps => do
    let (returned, a) ← a.addPacket p
    let later ← a.addPackets ps
    pure ((returned, a) :: later)

/-- The returned values and the states of a run. -/
def steps (a : FullScanAssembler F) :
    List (PktHdlMech F) → List (Bool × FullScanAssembler F)
  | [] => []
  | p :: ps => ((a.add p).complete, a.add p) :: (a.add p).steps ps

theorem addPackets_eq (ps : List (PktHdlMech F)) :
    ∀ a : FullScanAssembler F, a.addPackets ps = .ok (a.steps ps) := by
  induction ps with
  | nil => intro a; rfl
  | cons p ps ih =>
    intro a
    rw [addPackets, addPacket_eq]
    show ((a.add p).addPackets ps >>= _) = _
    rw [ih (a.add p)]
    rfl

theorem steps_append (ps qs : List (PktHdlMech F)) :
    ∀ a : FullScanAssembler F,
      a.steps (ps ++ qs) = a.steps ps ++ (ps.foldl add a).steps qs := by
  induction ps with
  | nil => intro a; rfl
  | cons p ps ih =>
    intro a
    simp only [List.cons_append, steps, List.foldl_cons, ih]

/-! ## Any order -/

/-- Before its twentieth packet a revolution is not complete. -/
theorem steps_of_fragment {a : FullScanAssembler F} {rot : UInt16} {ps : List (PktHdlMech F)}
    (hb : ∀ p ∈ ps, a.Begins p) (hf : IsFragment rot ps) (hl : ps.length < 20) :
    (a.steps ps).map Prod.fst = List.replicate ps.length false := by
  induction ps using List.reverseRecOn with
  | nil => rfl
  | append_singleton ps p ih =>
    have hl' : ps.length + 1 < 20 := by simpa using hl
    have hshort := ih (fun q hq => hb q (List.mem_append_left _ hq)) hf.of_append (by omega)
    have hlast : ((ps ++ [p]).foldl add a).complete = false := by
      obtain ⟨q, qs, hq⟩ := List.exists_cons_of_ne_nil (List.concat_ne_nil p ps)
      have hmem : q ∈ ps ++ [p] := by rw [hq]; exact List.mem_cons_self
      have hfragment : IsFragment q.rotationCounter (q :: qs) := by
        rw [hf.rotation q hmem, ← hq]
        exact hf
      have hiff := complete_iff_length (hb q hmem) hfragment
      rw [← hq] at hiff
      rw [Bool.eq_false_iff, ne_eq, hiff]
      omega
    rw [List.foldl_append] at hlast
    rw [steps_append, List.map_append, hshort, List.length_append, List.replicate_add]
    simp only [steps, List.map_cons, List.map_nil, List.length_singleton,
      List.replicate_one]
    rw [← hlast]
    rfl

end FullScanAssembler

section Order

variable {F : Type}

theorem IsRevolution.of_perm {rot : UInt16} {ps qs : List (PktHdlMech F)}
    (h : IsRevolution rot ps) (hperm : qs.Perm ps) : IsRevolution rot qs where
  rotation q hq := h.rotation q (hperm.mem_iff.mp hq)
  positions := (hperm.map PktHdlMech.position).nodup_iff.mpr h.positions
  length := hperm.length_eq.trans h.length

/-- A revolution has one packet at each position, whatever the order. -/
theorem IsRevolution.firstAt_perm {rot : UInt16} {ps qs : List (PktHdlMech F)}
    (h : IsRevolution rot ps) (hperm : qs.Perm ps) :
    ∀ i < 20, ∃ p, firstAt ps rot i = some p ∧ firstAt qs rot i = some p := by
  intro i hi
  obtain ⟨p, hp, rfl⟩ := h.covers_iff_length.mpr h.length i hi
  have hq := (h.of_perm hperm).toIsFragment.firstAt_eq (hperm.mem_iff.mpr hp)
  exact ⟨p, h.toIsFragment.firstAt_eq hp, hq⟩

/-- `rot` starts a new revolution: there is none yet, or `rot` is newer than the active one. -/
def FullScanAssembler.Starts (a : FullScanAssembler F) (rot : UInt16) : Prop :=
  a.hasRotation = false ∨ 0 < delta rot.toBitVec a.rotationCounter.toBitVec

theorem FullScanAssembler.Starts.begins {a : FullScanAssembler F} {p : PktHdlMech F}
    (h : a.Starts p.rotationCounter) : a.Begins p := by
  rcases h with hr | hlt
  · exact .inl hr
  · refine .inr ⟨fun he => ?_, Int.le_of_lt hlt⟩
    rw [he, delta_self] at hlt
    omega

variable [Zero F]

/-- The state is determined by the first packets of its revolution, as soon as one of them has
ENC=0. -/
theorem Assembles.ext {a a' : FullScanAssembler F} {b b' : PktHdlMech F}
    {h h' : List (PktHdlMech F)} (ha : Assembles a b h) (ha' : Assembles a' b' h')
    (hrot : a'.rotationCounter = a.rotationCounter)
    (hdisc : a'.discardedRevolutions = a.discardedRevolutions)
    (hfirst : ∀ i < 20, firstAt h' a.rotationCounter i = firstAt h a.rotationCounter i)
    (hzero : (firstAt h a.rotationCounter 0).isSome = true) : a' = a := by
  have hreceived : a'.received = a.received := by
    ext i hi
    rw [ha'.received i hi, ha.received i hi, hrot, hfirst i hi]
  have hranges : a'.rangesMm = a.rangesMm := by
    ext q hq
    rw [ha'.ranges q hq, ha.ranges q hq, hrot, hfirst _ (by omega)]
  have hintensities : a'.intensities = a.intensities := by
    ext q hq
    rw [ha'.intensities q hq, ha.intensities q hq, hrot, hfirst _ (by omega)]
  have hcount : a'.packetCount = a.packetCount := by
    rw [ha'.count, ha.count, hreceived]
  have hcomplete : a'.complete = a.complete := by
    rw [ha'.complete, ha.complete, hcount]
  obtain ⟨z, hz⟩ := Option.isSome_iff_exists.mp hzero
  have hz' : firstAt h' a'.rotationCounter 0 = some z := by
    rw [hrot, hfirst 0 (by omega), hz]
  have hfrequency : a'.rotationFrequencyHz = a.rotationFrequencyHz := by
    rw [ha'.frequency, ha.frequency, hz, hz']
    rfl
  have hseconds : a'.timestampSeconds = a.timestampSeconds := by
    rw [ha'.seconds, ha.seconds, hz, hz']
    rfl
  have hfraction : a'.timestampFraction = a.timestampFraction := by
    rw [ha'.fraction, ha.fraction, hz, hz']
    rfl
  have hhas : a'.hasRotation = a.hasRotation := by
    rw [ha'.hasRotation, ha.hasRotation]
  cases a
  cases a'
  simp only [FullScanAssembler.mk.injEq]
  exact ⟨hhas, hcomplete, hrot, hfrequency, hseconds, hfraction, hcount, hdisc, hreceived,
    hranges, hintensities⟩

/-- The state that a new revolution leaves behind does not depend on the order of its packets. -/
theorem foldl_perm {a : FullScanAssembler F} {rot : UInt16} {ps qs : List (PktHdlMech F)}
    (hstart : a.Starts rot) (h : IsRevolution rot ps) (hperm : qs.Perm ps) :
    qs.foldl FullScanAssembler.add a = ps.foldl FullScanAssembler.add a := by
  have hq := h.of_perm hperm
  obtain ⟨p, ps, rfl⟩ := List.exists_cons_of_ne_nil h.ne_nil
  obtain ⟨q, qs, rfl⟩ := List.exists_cons_of_ne_nil hq.ne_nil
  have hprot : p.rotationCounter = rot := h.rotation p List.mem_cons_self
  have hqrot : q.rotationCounter = rot := hq.rotation q List.mem_cons_self
  have hps : ∀ x ∈ ps, x.rotationCounter = p.rotationCounter := fun x hx =>
    (h.rotation x (List.mem_cons_of_mem p hx)).trans hprot.symm
  have hqs : ∀ x ∈ qs, x.rotationCounter = q.rotationCounter := fun x hx =>
    (hq.rotation x (List.mem_cons_of_mem q hx)).trans hqrot.symm
  obtain ⟨ha, har, had⟩ := assembles_begins
    (FullScanAssembler.Starts.begins (by rw [hprot]; exact hstart)) hps
  obtain ⟨hb, hbr, hbd⟩ := assembles_begins
    (FullScanAssembler.Starts.begins (by rw [hqrot]; exact hstart)) hqs
  refine ha.ext hb ?_ ?_ (fun i hi => ?_) ?_
  · rw [har, hbr, hprot, hqrot]
  · rw [had, hbd]
    rfl
  · obtain ⟨x, hx, hx'⟩ := h.firstAt_perm hperm i hi
    rw [har, hprot, hx, hx']
  · obtain ⟨x, hx, -⟩ := h.firstAt_perm hperm 0 (by omega)
    rw [har, hprot, hx]
    rfl

/-- Only the last packet of a new revolution completes it. -/
theorem steps_of_revolution {a : FullScanAssembler F} {rot : UInt16} {ps : List (PktHdlMech F)}
    (hstart : a.Starts rot) (h : IsRevolution rot ps) :
    (a.steps ps).map Prod.fst = List.replicate 19 false ++ [true] := by
  have hbegins : ∀ p ∈ ps, a.Begins p := fun p hp =>
    FullScanAssembler.Starts.begins (by rw [h.rotation p hp]; exact hstart)
  have hlength := h.length
  obtain ⟨init, last, rfl⟩ := (List.eq_nil_or_concat' ps).resolve_left h.ne_nil
  have hinit : init.length = 19 := by simpa using hlength
  have hshort := FullScanAssembler.steps_of_fragment
    (fun p hp => hbegins p (List.mem_append_left _ hp)) h.toIsFragment.of_append (by omega)
  have hlast : ((init ++ [last]).foldl FullScanAssembler.add a).complete = true := by
    obtain ⟨q, qs, hq⟩ := List.exists_cons_of_ne_nil h.ne_nil
    have hmem : q ∈ init ++ [last] := by rw [hq]; exact List.mem_cons_self
    have hf : IsFragment q.rotationCounter (q :: qs) := by
      rw [h.rotation q hmem, ← hq]
      exact h.toIsFragment
    rw [hq, complete_iff_length (hbegins q hmem) hf, ← hq, hlength]
  rw [List.foldl_append] at hlast
  rw [FullScanAssembler.steps_append, List.map_append, hshort, hinit]
  exact congrArg (fun b => List.replicate 19 false ++ [b]) hlast

/-- For every state and every 20 packets of a revolution that is new to it: whatever their order,
the first 19 calls return `false`, the last one returns `true`, and the state is the same. -/
theorem completes_in_any_order (a : FullScanAssembler F) {rot : UInt16}
    {ps : List (PktHdlMech F)} (hstart : a.Starts rot) (h : IsRevolution rot ps) :
    ∃ final, ∀ qs : List (PktHdlMech F), qs.Perm ps →
      a.feedAll qs = .ok final ∧
      ∃ calls, a.addPackets qs = .ok calls ∧
        calls.map Prod.fst = List.replicate 19 false ++ [true] := by
  refine ⟨ps.foldl FullScanAssembler.add a, fun qs hperm => ⟨?_, _,
    FullScanAssembler.addPackets_eq qs a, steps_of_revolution hstart (h.of_perm hperm)⟩⟩
  rw [FullScanAssembler.feedAll_eq, foldl_perm hstart h hperm]

end Order

/-! ## A revolution whose frequency and clock go on from packet to packet -/

def runningWire (rot : UInt16) (i : Fin 20) : Wire :=
  { plainWire rot i with
    rotationFrequencyHz := 10 + UInt16.ofNat i
    timestampFraction := 5000 * UInt32.ofNat i
    timestampSeconds := 17 + UInt32.ofNat (i / 10) }

theorem runningWire_accepts (rot : UInt16) (i : Fin 20) :
    Accepts (encode (runningWire rot i) (Vector.replicate 936 0)) := by
  have hi := i.isLt
  have henc : (runningWire rot i).encSignal.toNat = 115 * i := plainWire_enc rot i
  exact encode_accepts _ _ (by omega) (by omega)

section Running

variable {F : Type} [NatCast F] [Mul F] [Div F] [Trig F]

def runningPacket (rot : UInt16) (i : Fin 20) : PktHdlMech F :=
  decoded _ (runningWire_accepts rot i)

def runningRevolution (rot : UInt16) : List (PktHdlMech F) :=
  (List.finRange 20).map (runningPacket rot)

theorem isRevolution_running (rot : UInt16) :
    IsRevolution rot (runningRevolution rot : List (PktHdlMech F)) := by
  refine isRevolution_map (fun i => encode_rotationCounter (runningWire rot i) _) fun i => ?_
  have henc : (runningPacket rot i : PktHdlMech F).encSignal = (plainWire rot i).encSignal :=
    encode_encSignal (runningWire rot i) _
  have hpos := (runningPacket rot i : PktHdlMech F).enc_eq
  rw [henc, plainWire_enc] at hpos
  omega

variable [Zero F]

/-- An assembler with two packets of a revolution. -/
def begun (rot : UInt16) (i j : Fin 20) : FullScanAssembler F :=
  [plainPacket rot i, plainPacket rot j].foldl FullScanAssembler.add FullScanAssembler.fresh

theorem begun_rotation (rot : UInt16) (i j : Fin 20) :
    (begun rot i j : FullScanAssembler F).hasRotation = true ∧
      (begun rot i j : FullScanAssembler F).rotationCounter = rot := by
  have hb : (FullScanAssembler.fresh : FullScanAssembler F).Begins (plainPacket rot i) := .inl rfl
  have hrot : ∀ q ∈ [(plainPacket rot j : PktHdlMech F)],
      q.rotationCounter = (plainPacket rot i : PktHdlMech F).rotationCounter := by simp
  obtain ⟨ha, hr, -⟩ := assembles_begins hb hrot
  exact ⟨ha.hasRotation, hr.trans (plainPacket_rotationCounter rot i)⟩

end Running

/-- Behind two packets of revolution 4. -/
theorem completes_in_any_order_running :
    (begun 4 0 7 : FullScanAssembler ℝ).hasRotation = true ∧
      (begun 4 0 7 : FullScanAssembler ℝ).rotationCounter = 4 ∧
      ((runningRevolution 5 : List (PktHdlMech ℝ)).map PktHdlMech.rotationFrequencyHz).Nodup ∧
      ∃ final, ∀ qs : List (PktHdlMech ℝ), qs.Perm (runningRevolution 5) →
        (begun 4 0 7).feedAll qs = .ok final ∧
        ∃ calls, (begun 4 0 7).addPackets qs = .ok calls ∧
          calls.map Prod.fst = List.replicate 19 false ++ [true] := by
  obtain ⟨hhas, hrot⟩ := begun_rotation (F := ℝ) 4 0 7
  refine ⟨hhas, hrot, ?_, completes_in_any_order (begun 4 0 7) (.inr ?_) (isRevolution_running 5)⟩
  · have hfrequency : PktHdlMech.rotationFrequencyHz ∘ (runningPacket 5 : Fin 20 → PktHdlMech ℝ) =
        fun i : Fin 20 => 10 + UInt16.ofNat i :=
      funext fun i => encode_rotationFrequencyHz (runningWire 5 i) _
    rw [runningRevolution, List.map_map, hfrequency]
    decide
  · rw [hrot]
    decide

/-! ## Stale and repeated packets -/

namespace FullScanAssembler

variable {F : Type}

theorem accept_isReceived (a : FullScanAssembler F) (p : PktHdlMech F) :
    (a.accept p).isReceived p = true := by
  have hpos := p.position_lt
  unfold accept
  split
  · assumption
  · show (a.received.set p.position true p.position_lt)[p.position] = true
    exact Vector.getElem_set_self hpos

variable [Zero F]

theorem ignorable_add {a : FullScanAssembler F} {p : PktHdlMech F} (h : a.Ignorable p) :
    a.add p = a := by
  obtain ⟨hr, hneg | ⟨he, hrec⟩⟩ := h
  · exact add_of_stale ⟨hr, hneg⟩
  · rw [add_of_same hr he, accept, if_pos hrec]

/-- After any call the same packet is ignored. -/
theorem ignorable_after_add (a : FullScanAssembler F) (p : PktHdlMech F) :
    (a.add p).Ignorable p := by
  obtain ⟨hs, he⟩ | ⟨hb, he⟩ | ⟨hr, hc, he⟩ := a.add_cases p
  · rw [he]
    exact ⟨hs.1, .inl hs.2⟩
  · rw [he]
    exact ⟨(a.beginRotation p).accept_hasRotation p, .inr
      ⟨((a.beginRotation p).accept_rotationCounter p).symm, accept_isReceived _ p⟩⟩
  · rw [he]
    refine ⟨(a.accept_hasRotation p).trans hr, .inr ⟨?_, accept_isReceived a p⟩⟩
    rw [hc, a.accept_rotationCounter]

end FullScanAssembler

section Insertion

variable {F : Type} [Zero F]

/-- The insertion of an ignorable packet into any run of a fresh assembler adds one call, which
returns whether the active revolution is complete; every other returned value and every state is
the same. In particular a packet that is added twice in a row counts once. -/
theorem ignorable_packets_are_invisible (before : List (PktHdlMech F)) :
    ∃ a : FullScanAssembler F, FullScanAssembler.fresh.feedAll before = .ok a ∧
      (∀ p, a.Ignorable p →
        a.addPacket p = .ok (a.complete, a) ∧
        ∀ after, ∃ calls later,
          FullScanAssembler.fresh.addPackets before = .ok calls ∧
          a.addPackets after = .ok later ∧
          FullScanAssembler.fresh.addPackets (before ++ after) = .ok (calls ++ later) ∧
          FullScanAssembler.fresh.addPackets (before ++ p :: after) =
            .ok (calls ++ (a.complete, a) :: later)) ∧
      ∀ p, ∃ result a', a.addPacket p = .ok (result, a') ∧ a'.addPacket p = .ok (result, a') := by
  refine ⟨_, FullScanAssembler.feedAll_eq before _, fun p hp => ⟨?_, fun after => ?_⟩, fun p => ?_⟩
  · rw [FullScanAssembler.addPacket_eq, FullScanAssembler.ignorable_add hp]
  · refine ⟨_, _, FullScanAssembler.addPackets_eq before _,
      FullScanAssembler.addPackets_eq after _, ?_, ?_⟩
    · rw [FullScanAssembler.addPackets_eq, FullScanAssembler.steps_append]
    · rw [FullScanAssembler.addPackets_eq, FullScanAssembler.steps_append]
      simp only [FullScanAssembler.steps, FullScanAssembler.ignorable_add hp]
  · refine ⟨_, _, FullScanAssembler.addPacket_eq _ p, ?_⟩
    rw [FullScanAssembler.addPacket_eq,
      FullScanAssembler.ignorable_add (FullScanAssembler.ignorable_after_add _ p)]

/-- A repeated packet, and a packet of the revolution at the distance -32768, behind two packets and
in front of two others. -/
theorem ignorable_packets_are_invisible_stale :
    ∃ a : FullScanAssembler ℝ,
      FullScanAssembler.fresh.feedAll [plainPacket 5 0, plainPacket 5 7] = .ok a ∧
      a.addPacket (plainPacket 5 7) = .ok (a.complete, a) ∧
      a.rotationDelta (plainPacket 32773 3) = -32768 ∧
      ∃ calls later,
        FullScanAssembler.fresh.addPackets [plainPacket 5 0, plainPacket 5 7] = .ok calls ∧
        a.addPackets [plainPacket 5 3, plainPacket 6 0] = .ok later ∧
        FullScanAssembler.fresh.addPackets
          [plainPacket 5 0, plainPacket 5 7, plainPacket 5 3, plainPacket 6 0] =
            .ok (calls ++ later) ∧
        FullScanAssembler.fresh.addPackets
          [plainPacket 5 0, plainPacket 5 7, plainPacket 32773 3, plainPacket 5 3,
            plainPacket 6 0] = .ok (calls ++ (a.complete, a) :: later) := by
  obtain ⟨a, ha, hins, -⟩ :=
    ignorable_packets_are_invisible [(plainPacket 5 0 : PktHdlMech ℝ), plainPacket 5 7]
  obtain rfl : begun 5 0 7 = a := by
    rw [FullScanAssembler.feedAll_eq, Except.ok.injEq] at ha
    exact ha
  obtain ⟨hhas, hrot⟩ := begun_rotation (F := ℝ) 5 0 7
  have htwice : (begun 5 0 7 : FullScanAssembler ℝ).Ignorable (plainPacket 5 7) := by
    rw [begun, List.foldl_cons, List.foldl_cons, List.foldl_nil]
    exact FullScanAssembler.ignorable_after_add _ _
  have hdelta :
      (begun 5 0 7 : FullScanAssembler ℝ).rotationDelta (plainPacket 32773 3) = -32768 := by
    rw [FullScanAssembler.rotationDelta, hrot, plainPacket_rotationCounter]
    decide
  have hstale : (begun 5 0 7 : FullScanAssembler ℝ).Ignorable (plainPacket 32773 3) :=
    ⟨hhas, .inl (by rw [hdelta]; decide)⟩
  exact ⟨_, ha, (hins _ htwice).1, hdelta, (hins _ hstale).2 [plainPacket 5 3, plainPacket 6 0]⟩

end Insertion

end MechLidar
