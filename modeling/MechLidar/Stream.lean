import MechLidar.UdpRuns

/-!
# MechLidar.Stream

A lossless stream: a part of one revolution, and then whole revolutions with consecutive ROT values,
the packets of each in any order.

* `feed_revolution`: the packets of a newer revolution end the batch with the last of them.
* `batches_stream`: the batches of such a stream are its whole revolutions, the first one with the
  fragment in front of it.
* `lossless_stream`: what any number of polls then publishes.
-/

namespace MechLidar

open Lib

variable {F : Type}

/-- A part of the revolution `r₀`, and then the revolutions behind it. -/
structure IsStream (r₀ : UInt16) (frag : List (PktHdlMech F))
    (revs : List (List (PktHdlMech F))) : Prop where
  ne_nil : frag ≠ []
  fragment : IsFragment r₀ frag
  revolution : ∀ (i : Nat) (h : i < revs.length), IsRevolution (r₀ + UInt16.ofNat (i + 1)) revs[i]

section IsStream

variable {r₀ : UInt16} {frag rev : List (PktHdlMech F)} {revs : List (List (PktHdlMech F))}

theorem IsStream.exists_rotation (h : IsStream r₀ frag revs) :
    ∀ ps ∈ revs, ∃ rot, IsRevolution rot ps := by
  intro ps hps
  obtain ⟨i, hi, rfl⟩ := List.getElem_of_mem hps
  exact ⟨_, h.revolution i hi⟩

theorem IsStream.head (h : IsStream r₀ frag (rev :: revs)) : IsRevolution (r₀ + 1) rev :=
  h.revolution 0 (Nat.zero_lt_succ _)

end IsStream

theorem begins_next {a : FullScanAssembler F} {rot : UInt16} (hr : a.rotationCounter = rot)
    {p : PktHdlMech F} (hp : p.rotationCounter = rot + 1) : a.Begins p := by
  have hd : delta (rot + 1).toBitVec rot.toBitVec = 1 := delta_succ rot.toBitVec
  refine .inr ⟨fun he => ?_, ?_⟩
  · rw [hp, hr] at he
    rw [he, delta_self] at hd
    cases hd
  · rw [FullScanAssembler.rotationDelta, hp, hr, hd]
    decide

section Feed

variable [Zero F]

theorem assembled_append (b m : List (PktHdlMech F)) :
    assembled (b ++ m) = m.foldl FullScanAssembler.add (assembled b) := by
  simp [assembled]

theorem tracks_assembled {b : List (PktHdlMech F)} (hb : b ≠ []) : Tracks (assembled b) b := by
  rw [← List.dropLast_append_getLast hb]
  exact tracks_run b.dropLast (b.getLast hb)

theorem exists_assembles {b : List (PktHdlMech F)} (hb : b ≠ []) :
    ∃ c t, Assembles (assembled b) c (c :: t) ∧ ∀ p ∈ c :: t, p ∈ b := by
  obtain ⟨c, t, hsince, ha⟩ := tracks_assembled hb
  exact ⟨c, t, ha, fun p hp => mem_sinceBegun (hsince ▸ hp)⟩

theorem begins_fresh (p : PktHdlMech F) : (assembled []).Begins p := .inl rfl

/-- Packets that begin a revolution complete it with the twentieth. -/
theorem completes_iff_length {b : List (PktHdlMech F)} {rot : UInt16} {m : List (PktHdlMech F)}
    (hm : m ≠ []) (hf : IsFragment rot m) (hb : ∀ p ∈ m, (assembled b).Begins p) :
    completes (b ++ m) = true ↔ m.length = 20 := by
  cases m with
  | nil => exact absurd rfl hm
  | cons p qs =>
    have hp : p.rotationCounter = rot := hf.rotation p List.mem_cons_self
    rw [completes, assembled_append]
    exact complete_iff_length (hb p List.mem_cons_self) (hp ▸ hf)

theorem completes_of_begins {b : List (PktHdlMech F)} {p : PktHdlMech F}
    (hb : (assembled b).Begins p) : completes (b ++ [p]) = false := by
  have hiff := completes_iff_length (b := b) (m := [p]) (List.cons_ne_nil p [])
    ⟨fun q hq => by rw [List.mem_singleton.mp hq], by simp⟩
    fun q hq => by rw [List.mem_singleton.mp hq]; exact hb
  exact Bool.eq_false_iff.mpr fun hc => absurd (hiff.mp hc) (by simp)

theorem feed_fragment {s : Batches (PktHdlMech F)} {rot : UInt16} {m : List (PktHdlMech F)}
    (hf : IsFragment rot m) (hlen : m.length < 20)
    (hb : ∀ p ∈ m, (assembled s.current).Begins p) :
    s.feed completes m = ⟨s.done, s.current ++ m⟩ := by
  refine Batches.feed_short fun m' hm' hpre => ?_
  obtain ⟨t, rfl⟩ := hpre
  have hnot := mt (completes_iff_length hm' hf.of_append
    fun p hp => hb p (List.mem_append_left t hp)).mp
  rw [List.length_append] at hlen
  exact Bool.eq_false_iff.mpr (hnot (by omega))

theorem feed_revolution {s : Batches (PktHdlMech F)} {rot : UInt16} {ps : List (PktHdlMech F)}
    (hrev : IsRevolution rot ps) (hb : ∀ p ∈ ps, (assembled s.current).Begins p) :
    s.feed completes ps = ⟨s.done ++ [s.current ++ ps], []⟩ := by
  have hne := hrev.ne_nil
  have hfull := (completes_iff_length hne hrev.toIsFragment hb).mpr hrev.length
  rw [← List.dropLast_append_getLast hne] at hfull ⊢
  refine Batches.feed_fills (fun m' hm' hpre => ?_) hfull
  have hlt : m'.length < 20 := by
    have := hpre.length_le
    rw [List.length_dropLast, hrev.length] at this
    omega
  obtain ⟨t, ht⟩ := hpre.trans (List.dropLast_prefix ps)
  have hnot := mt (completes_iff_length hm' (ht ▸ hrev.toIsFragment).of_append
    fun p hp => hb p (ht ▸ List.mem_append_left t hp)).mp
  exact Bool.eq_false_iff.mpr (hnot (by omega))

theorem feed_revolutions (revs : List (List (PktHdlMech F))) :
    ∀ done : List (List (PktHdlMech F)), (∀ ps ∈ revs, ∃ rot, IsRevolution rot ps) →
      Batches.feed completes ⟨done, []⟩ revs.flatten = ⟨done ++ revs, []⟩ := by
  induction revs with
  | nil => intro done _; simp
  | cons ps revs ih =>
    intro done h
    obtain ⟨rot, hrev⟩ := h ps List.mem_cons_self
    rw [List.flatten_cons, Batches.feed_append,
      feed_revolution hrev (fun p _ => begins_fresh p), List.nil_append,
      ih _ fun ps' hps' => h ps' (List.mem_cons_of_mem ps hps')]
    simp

/-! ## The fragment and the revolutions behind it -/

theorem assembled_fragment {rot : UInt16} {m : List (PktHdlMech F)} (hm : m ≠ [])
    (hf : IsFragment rot m) :
    ∃ b, Assembles (assembled m) b m ∧ (assembled m).rotationCounter = rot ∧
      (assembled m).discardedRevolutions = 0 := by
  cases m with
  | nil => exact absurd rfl hm
  | cons b qs =>
    have hb : b.rotationCounter = rot := hf.rotation b List.mem_cons_self
    obtain ⟨ha, hr, hd⟩ := assembles_begins (begins_fresh b)
      fun q hq => (hf.rotation q (List.mem_cons_of_mem b hq)).trans hb.symm
    exact ⟨b, ha, hr.trans hb, hd⟩

/-- The packets that each poll takes from the stream. -/
def streamBatches (frag : List (PktHdlMech F)) (revs : List (List (PktHdlMech F))) :
    List (List (PktHdlMech F)) :=
  if frag.length = 20 then frag :: revs else revs.modifyHead (frag ++ ·)

/-- The revolutions that the stream completes. -/
def completeRevolutions (frag : List (PktHdlMech F)) (revs : List (List (PktHdlMech F))) :
    List (List (PktHdlMech F)) :=
  if frag.length = 20 then frag :: revs else revs

theorem IsStream.begins_head {r₀ : UInt16} {frag rev : List (PktHdlMech F)}
    {revs : List (List (PktHdlMech F))} (h : IsStream r₀ frag (rev :: revs)) :
    ∀ p ∈ rev, (assembled frag).Begins p := by
  intro p hp
  obtain ⟨b, -, hr, -⟩ := assembled_fragment h.ne_nil h.fragment
  exact begins_next hr (h.head.rotation p hp)

theorem batches_stream {r₀ : UInt16} {frag : List (PktHdlMech F)}
    {revs : List (List (PktHdlMech F))} (h : IsStream r₀ frag revs) :
    (Batches.feed completes Batches.empty (frag ++ revs.flatten)).done =
      streamBatches frag revs := by
  have hrevs := h.exists_rotation
  rw [Batches.feed_append, streamBatches]
  by_cases hlen : frag.length = 20
  · rw [if_pos hlen, feed_revolution ⟨h.fragment, hlen⟩ fun p _ => begins_fresh p,
      feed_revolutions revs _ hrevs]
    rfl
  · have hlt : frag.length < 20 := by
      have := h.fragment.length_le
      omega
    have hfrag : Batches.feed completes Batches.empty frag = ⟨[], frag⟩ :=
      feed_fragment h.fragment hlt fun p _ => begins_fresh p
    rw [if_neg hlen, hfrag]
    cases revs with
    | nil => rfl
    | cons rev revs =>
      rw [List.flatten_cons, Batches.feed_append, feed_revolution h.head h.begins_head,
        feed_revolutions revs _ fun ps hps => hrevs ps (List.mem_cons_of_mem rev hps)]
      rfl

/-- The assembler of a batch that ends with a revolution, begun behind older packets. -/
theorem assembled_revolution {b ps : List (PktHdlMech F)} {rot : UInt16}
    (hrev : IsRevolution rot ps) (hb : ∀ p ∈ ps, (assembled b).Begins p) :
    ∃ p, Assembles (assembled (b ++ ps)) p ps ∧
      (assembled (b ++ ps)).rotationCounter = rot ∧
      (assembled (b ++ ps)).discardedRevolutions =
        ((assembled b).beginRotation p).discardedRevolutions := by
  cases ps with
  | nil => cases hrev.length
  | cons p qs =>
    have hp : p.rotationCounter = rot := hrev.rotation p List.mem_cons_self
    obtain ⟨ha, hr, hd⟩ := assembles_begins (hb p List.mem_cons_self)
      fun q hq => (hrev.rotation q (List.mem_cons_of_mem p hq)).trans hp.symm
    rw [assembled_append]
    exact ⟨p, ha, hr.trans hp, hd⟩

theorem feed_plain [NatCast F] [Mul F] [Div F] [Trig F] (rots : List UInt16) :
    Batches.feed completes Batches.empty (rots.map (plainRevolution (F := F))).flatten =
      ⟨rots.map plainRevolution, []⟩ := by
  refine feed_revolutions (rots.map plainRevolution) [] fun ps hps => ?_
  obtain ⟨rot, -, rfl⟩ := List.mem_map.mp hps
  exact ⟨rot, isRevolution_plain rot⟩

theorem assembled_rotation {ps : List (PktHdlMech F)} {rot : UInt16}
    (hrev : IsRevolution rot ps) : (assembled ps).rotationCounter = rot := by
  obtain ⟨p, -, hr, -⟩ := assembled_revolution (b := []) hrev fun p _ => begins_fresh p
  exact hr

end Feed

/-! ## What is published -/

variable [Arith F]

/-- The scan has the readings of the packets of `ps` at their encoder points, and nothing else:
20 packets have 2300 channels. -/
structure Holds (scan : LaserScan F) (ps : List (PktHdlMech F)) : Prop where
  ranges : scan.ranges.length = 2300
  intensities : scan.intensities.length = 2300
  range : ∀ p ∈ ps, ∀ c : Fin 115, scan.ranges[p.firstPointIndex.toNat + c]? =
    some (p.ranges[c].divBy ((1000 : Nat) : F))
  intensity : ∀ p ∈ ps, ∀ c : Fin 115, scan.intensities[p.firstPointIndex.toNat + c]? =
    some p.intensities[c]

/-- At the channels of a packet, a scan shows the first packet at the position. -/
theorem fullScan_reading (options : DriverRuntimeOptions F) {a : FullScanAssembler F}
    {b : PktHdlMech F} {h : List (PktHdlMech F)} (ha : Assembles a b h) {p g : PktHdlMech F}
    (hg : firstAt h a.rotationCounter p.position = some g) (c : Nat) (hc : c < 115) :
    (fullScan options a).ranges[p.firstPointIndex.toNat + c]? =
        some (g.ranges[c].divBy ((1000 : Nat) : F)) ∧
      (fullScan options a).intensities[p.firstPointIndex.toNat + c]? = some g.intensities[c] := by
  obtain ⟨hranges, hintensities⟩ := ha.reading hg c hc
  rw [fullScan_range, fullScan_intensity, hranges, hintensities]
  exact ⟨rfl, rfl⟩

theorem holds_of_assembles (options : DriverRuntimeOptions F) {a : FullScanAssembler F}
    {b : PktHdlMech F} {ps : List (PktHdlMech F)} (ha : Assembles a b ps)
    (hf : IsFragment a.rotationCounter ps) : Holds (fullScan options a) ps where
  ranges := by simp [fullScan]
  intensities := by simp [fullScan]
  range _ hp c := (fullScan_reading options ha (hf.firstAt_eq hp) c c.isLt).1
  intensity _ hp c := (fullScan_reading options ha (hf.firstAt_eq hp) c c.isLt).2

/-- The published messages show the revolution `ps` with counter `rot`. -/
def Publishes (x : UInt16 × LaserScan F × PointCloud2 F) (ps : List (PktHdlMech F)) : Prop :=
  IsRevolution x.1 ps ∧ Holds x.2.1 ps ∧ x.2.2 = makePointcloudMsg x.2.1

theorem publishes_revolution (options : DriverRuntimeOptions F) {b ps : List (PktHdlMech F)}
    {rot : UInt16} (hrev : IsRevolution rot ps) (hb : ∀ p ∈ ps, (assembled b).Begins p) :
    Publishes (publicationOf options (b ++ ps)) ps := by
  obtain ⟨p, ha, hr, -⟩ := assembled_revolution hrev hb
  have hrot : (publicationOf options (b ++ ps)).1 = rot := hr
  exact ⟨hrot ▸ hrev, holds_of_assembles options ha (hr ▸ hrev.toIsFragment), rfl⟩

theorem publishes_stream (options : DriverRuntimeOptions F) {r₀ : UInt16}
    {frag : List (PktHdlMech F)} {revs : List (List (PktHdlMech F))}
    (h : IsStream r₀ frag revs) :
    List.Forall₂ Publishes ((streamBatches frag revs).map (publicationOf options))
      (completeRevolutions frag revs) := by
  have hwhole : ∀ {rot : UInt16} {ps : List (PktHdlMech F)}, IsRevolution rot ps →
      Publishes (publicationOf options ps) ps :=
    fun hrev => publishes_revolution options (b := []) hrev fun p _ => begins_fresh p
  have hrest : ∀ revs' : List (List (PktHdlMech F)),
      (∀ ps ∈ revs', ∃ rot, IsRevolution rot ps) →
      List.Forall₂ Publishes (revs'.map (publicationOf options)) revs' := by
    intro revs' hall
    induction revs' with
    | nil => exact .nil
    | cons ps revs' ih =>
      obtain ⟨rot, hrev⟩ := hall ps List.mem_cons_self
      exact .cons (hwhole hrev) (ih fun ps' hps' => hall ps' (List.mem_cons_of_mem ps hps'))
  have hrevs := h.exists_rotation
  unfold streamBatches completeRevolutions
  split
  · rename_i hlen
    exact .cons (hwhole ⟨h.fragment, hlen⟩) (hrest revs hrevs)
  · cases revs with
    | nil => exact .nil
    | cons rev revs =>
      exact .cons (publishes_revolution options h.head h.begins_head)
        (hrest revs fun ps hps => hrevs ps (List.mem_cons_of_mem rev hps))

/-! ## What is counted as discarded -/

theorem discarded_of_fragment {rot : UInt16} {m : List (PktHdlMech F)} (hm : m ≠ [])
    (hf : IsFragment rot m) (hlen : m.length ≠ 20) (p : PktHdlMech F) :
    ((assembled m).beginRotation p).discardedRevolutions = 1 := by
  obtain ⟨b, ha, hr, hd⟩ := assembled_fragment hm hf
  have hcomplete : (assembled m).complete = false := by
    have hiff := ha.complete_iff_covers fun q hq => (hf.rotation q hq).trans hr.symm
    rw [hf.covers_iff_length] at hiff
    exact Bool.eq_false_iff.mpr (mt hiff.mp hlen)
  have hcount : 0 < (assembled m).packetCount := by
    obtain ⟨q, hq⟩ := List.exists_mem_of_ne_nil m hm
    exact ha.packetCount_pos hq ((hf.rotation q hq).trans hr.symm)
  simp [FullScanAssembler.beginRotation, ha.hasRotation, hcomplete, hcount, hd]

theorem discarded_stream {r₀ : UInt16} {frag : List (PktHdlMech F)}
    {revs : List (List (PktHdlMech F))} (h : IsStream r₀ frag revs) (n : Nat) :
    discardedIn ((streamBatches frag revs).take n) =
      if frag.length < 20 ∧ revs ≠ [] ∧ 0 < n then 1 else 0 := by
  have hzero : ∀ (k : Nat) (revs' : List (List (PktHdlMech F))),
      (∀ ps ∈ revs', ∃ rot, IsRevolution rot ps) → discardedIn (revs'.take k) = 0 := by
    intro k revs' hall
    refine List.sum_eq_zero fun x hx => ?_
    obtain ⟨ps, hps, rfl⟩ := List.mem_map.mp hx
    obtain ⟨rot, hrev⟩ := hall ps (List.mem_of_mem_take hps)
    obtain ⟨p, -, -, hd⟩ := assembled_revolution (b := []) hrev fun p _ => begins_fresh p
    exact hd
  have hrevs := h.exists_rotation
  have hle := h.fragment.length_le
  unfold streamBatches
  by_cases hlen : frag.length = 20
  · rw [if_pos hlen, if_neg (by omega)]
    refine hzero n _ fun ps hps => ?_
    rcases List.mem_cons.mp hps with rfl | hps
    · exact ⟨r₀, h.fragment, hlen⟩
    · exact hrevs ps hps
  · rw [if_neg hlen]
    cases revs with
    | nil => simp [discardedIn]
    | cons rev revs =>
      cases n with
      | zero => simp [discardedIn]
      | succ n =>
        obtain ⟨p, -, -, hd⟩ := assembled_revolution h.head h.begins_head
        have hrest := hzero n revs fun ps hps => hrevs ps (List.mem_cons_of_mem rev hps)
        have hone := hd.trans (discarded_of_fragment h.ne_nil h.fragment hlen p)
        rw [if_pos ⟨by omega, List.cons_ne_nil _ _, Nat.zero_lt_succ n⟩]
        rw [discardedIn] at hrest ⊢
        rw [List.modifyHead_cons, List.take_succ_cons, List.map_cons, List.sum_cons, hrest, hone]

/-- A stream that starts anywhere in revolution `r₀` and loses nothing after that, with whatever
else the socket receives in between: after any number of polls the published scans are the complete
revolutions in the order of the stream, as many as there are polls or revolutions, each with its
ROT value and its own readings. Only the first revolution is counted as discarded, if the stream
does not have all of it. -/
theorem lossless_stream {w : World} {d : UdpDriver F} (hw : Ready w d)
    (hquiet : ∀ k ∈ w.gets, k.Quiet d.socket) {r₀ : UInt16} {frag : List (PktHdlMech F)}
    {revs : List (List (PktHdlMech F))} (h : IsStream r₀ frag revs)
    (hstream : (deliveries d.socket w.gets).filterMap packetOf = frag ++ revs.flatten) (n : Nat) :
    let d' := (polls UdpDriver.pollFullUdp n (w, d)).state.2
    ∃ pubs, d'.publications = d.publications ++ pubs ∧
      List.Forall₂ Publishes pubs ((completeRevolutions frag revs).take n) ∧
      d'.discardedRevolutions = d.discardedRevolutions +
        if frag.length < 20 ∧ revs ≠ [] ∧ 0 < n then 1 else 0 := by
  intro d'
  have hshow := UdpDriver.polls_quiet hw hquiet n
  rw [hstream, batches_stream h] at hshow
  refine ⟨_, hshow.publications, ?_, ?_⟩
  · rw [List.map_take]
    exact List.forall₂_take n (publishes_stream d.options h)
  · rw [← discarded_stream h n]
    exact hshow.discarded

/-- The last packet of revolution 65535, and then revolution 0. -/
theorem lossless_stream_wraps :
    ∃ pubs, (polls UdpDriver.pollFullUdp 1
        (quietWorld (datagrams 0 (plainRaw 65535 19 :: plainRaws 0)),
          (plainUdp : UdpDriver ℝ))).state.2.publications = plainUdp.publications ++ pubs ∧
      List.Forall₂ Publishes pubs [plainRevolution 0] := by
  have hpackets : (plainRaw 65535 19 :: plainRaws 0).filterMap packetOf =
      [plainPacket 65535 19] ++ [(plainRevolution 0 : List (PktHdlMech ℝ))].flatten := by
    rw [List.filterMap_cons, packetOf_plainRaw, filterMap_plainRaws]
    simp
  have h : IsStream 65535 [plainPacket 65535 19] [(plainRevolution 0 : List (PktHdlMech ℝ))] := by
    refine ⟨List.cons_ne_nil _ _, ⟨fun p hp => ?_, by simp⟩, fun i hi => ?_⟩
    · rw [List.mem_singleton.mp hp, plainPacket_rotationCounter]
    · have hi0 : i = 0 := by
        rw [List.length_singleton] at hi
        omega
      subst hi0
      exact isRevolution_plain 0
  have hready := ready_plain (F := ℝ) (datagrams 0 (plainRaw 65535 19 :: plainRaws 0))
  have hstream := (congrArg (List.filterMap (packetOf (F := ℝ)))
    (deliveries_plain (F := ℝ) (plainRaw 65535 19 :: plainRaws 0))).trans hpackets
  obtain ⟨pubs, hpubs, hall, -⟩ :=
    lossless_stream hready (datagrams_quiet _ 0 _) h hstream 1
  exact ⟨pubs, hpubs, hall⟩

end MechLidar
