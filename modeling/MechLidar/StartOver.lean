import MechLidar.Passes
import MechLidar.Stream

/-!
# MechLidar.StartOver

FULL polls over a capture file that is started over: the assembler of the running poll is kept at
the end of the file, with the ROT value of the last frame, and the first frames of the file are
compared with it.

* `feed_block`: the packets of a revolution end one batch, unless they are stale.
* `not_stale_of_chain`: in a file whose ROT values do not step backwards, no packet is stale behind
  one that is not.
* `Trails`: where the ROT value of the assembler comes from, at any point of the replay.
* `PublishesBlock`: a revolution of the file is published while its frames are read.
  `publishes_block_iff` says when. `heldBehind` is what the running poll has of it by then.
* `BeginsPass.nothing`: when a whole pass publishes nothing.
-/

namespace MechLidar

open Lib

variable {F : Type}

/-- `q` is not older than `p` in the serial order of `add_packet`. -/
def Follows (p q : PktHdlMech F) : Prop :=
  0 ≤ delta q.rotationCounter.toBitVec p.rotationCounter.toBitVec

/-! ## Stale packets -/

theorem not_stale_of_follows {a : FullScanAssembler F} {p q : PktHdlMech F}
    (ha : a.rotationCounter = p.rotationCounter) (h : Follows p q) : ¬ a.Stale q := by
  rintro ⟨-, hneg⟩
  rw [FullScanAssembler.rotationDelta, ha] at hneg
  exact absurd h (by rw [Follows]; omega)

section Batches

variable [Zero F]

theorem add_of_not_stale {a : FullScanAssembler F} {p : PktHdlMech F} (h : ¬ a.Stale p) :
    (a.add p).hasRotation = true ∧ (a.add p).rotationCounter = p.rotationCounter := by
  obtain ⟨hs, -⟩ | ⟨-, he⟩ | ⟨hr, hc, he⟩ := a.add_cases p
  · exact absurd hs h
  · rw [he, FullScanAssembler.accept_hasRotation, FullScanAssembler.accept_rotationCounter]
    exact ⟨rfl, rfl⟩
  · rw [he, FullScanAssembler.accept_hasRotation, FullScanAssembler.accept_rotationCounter]
    exact ⟨hr, hc.symm⟩

/-- A packet that begins a revolution is the first one of it at any position. -/
theorem firstAt_of_begins {b : List (PktHdlMech F)} {p : PktHdlMech F}
    (hb : (assembled b).Begins p) (i : Nat) :
    firstAt (sinceBegun b) p.rotationCounter i = none := by
  by_cases hnil : b = []
  · rw [hnil]
    rfl
  · obtain ⟨c, t, hsince, ha⟩ := tracks_assembled hnil
    rw [hsince, Option.eq_none_iff_forall_ne_some]
    intro f hf
    obtain ⟨hmem, hrot, -⟩ := firstAt_spec hf
    have hnew : p.rotationCounter ≠ c.rotationCounter ∧
        0 ≤ delta p.rotationCounter.toBitVec c.rotationCounter.toBitVec := by
      rw [FullScanAssembler.Begins, FullScanAssembler.rotationDelta, ha.rotation,
        ha.hasRotation] at hb
      simpa using hb
    rcases sinceBegun_rotation hsince f hmem with he | hlt
    · exact hnew.1 (hrot ▸ he)
    · rw [hrot] at hlt
      exact absurd hnew.2 (not_le.mpr hlt)

/-- The packets `m` of a revolution behind those that the assembler holds of it. -/
structure CompletesBlock (b m : List (PktHdlMech F)) (rot : UInt16) : Prop where
  isFull : completes (b ++ m) = true
  rotation : (assembled (b ++ m)).rotationCounter = rot
  assembles : ∃ c, Assembles (assembled (b ++ m)) c (sinceBegun b ++ m)

theorem completes_of_begins_block {b : List (PktHdlMech F)} {rot : UInt16}
    {block : List (PktHdlMech F)} (hrev : IsRevolution rot block)
    (hb : ∀ p ∈ block, (assembled b).Begins p) : CompletesBlock b block rot := by
  obtain ⟨p, hp⟩ := List.exists_mem_of_ne_nil block hrev.ne_nil
  obtain ⟨c, ha, hr, -⟩ := assembled_revolution hrev hb
  refine ⟨(completes_iff_length hrev.ne_nil hrev.toIsFragment hb).mpr hrev.length, hr, c,
    ha.congr fun i _ => ?_⟩
  have hnone := firstAt_of_begins (hb p hp) i
  rw [hrev.rotation p hp] at hnone
  rw [hr, firstAt_append, hnone, Option.none_or]

/-- The packets of a revolution complete it behind others of the same ROT value, too. -/
theorem completes_of_active {b block : List (PktHdlMech F)} {rot : UInt16} (hb : b ≠ [])
    (hactive : (assembled b).rotationCounter = rot) (hrev : IsRevolution rot block)
    {m : List (PktHdlMech F)} (hm : m <+: block) :
    (assembled (b ++ m)).rotationCounter = rot ∧
      (∃ c, Assembles (assembled (b ++ m)) c (sinceBegun b ++ m)) ∧
      (m = block → completes (b ++ m) = true) := by
  obtain ⟨c, t, hsince, ha⟩ := tracks_assembled hb
  have hrot : ∀ q ∈ m, q.rotationCounter = (assembled b).rotationCounter :=
    fun q hq => (hrev.rotation q (hm.subset hq)).trans hactive.symm
  obtain ⟨h1, h2, -⟩ := assembles_foldl ha hrot
  rw [← assembled_append] at h1 h2
  refine ⟨h2.trans hactive, ⟨c, hsince ▸ h1⟩, ?_⟩
  rintro rfl
  exact h1.complete_of_covers (fun q hq => (hrot q hq).trans h2.symm)
    (hrev.toIsFragment.covers_iff_length.mpr hrev.length)

/-- The packets of a revolution end one batch, wherever the poll stands, unless they are stale. -/
theorem feed_block {s : Batches (PktHdlMech F)} {rot : UInt16} {block : List (PktHdlMech F)}
    (hrev : IsRevolution rot block)
    (hstale : ∀ p ∈ block, ¬ (assembled s.current).Stale p) :
    ∃ m r, block = m ++ r ∧ CompletesBlock s.current m rot ∧
      s.feed completes block = ⟨s.done ++ [s.current ++ m], r⟩ := by
  have hne := hrev.ne_nil
  obtain ⟨p, hp⟩ := List.exists_mem_of_ne_nil block hne
  by_cases hb : (assembled s.current).Begins p
  · have hall : ∀ q ∈ block, (assembled s.current).Begins q := fun q hq =>
      (FullScanAssembler.begins_congr _
        ((hrev.rotation q hq).trans (hrev.rotation p hp).symm)).mpr hb
    exact ⟨block, [], (List.append_nil block).symm, completes_of_begins_block hrev hall,
      feed_revolution hrev hall⟩
  · obtain ⟨hs, -⟩ | ⟨hb', -⟩ | ⟨hr, hc, -⟩ := (assembled s.current).add_cases p
    · exact absurd hs (hstale p hp)
    · exact absurd hb' hb
    have hcur : s.current ≠ [] := by
      intro hnil
      rw [hnil] at hr
      cases hr
    have hactive := hc.symm.trans (hrev.rotation p hp)
    rcases Batches.feed_open_or_fills completes s block with
      ⟨-, hnot⟩ | ⟨m, hm, ⟨r, hblock⟩, hfull, hfeed⟩
    · -- all positions have arrived, so the batch cannot be open
      have hfull := (completes_of_active hcur hactive hrev List.prefix_rfl).2.2 rfl
      rw [hnot hne] at hfull
      cases hfull
    · obtain ⟨hrot, hassembles, -⟩ := completes_of_active hcur hactive hrev ⟨r, hblock⟩
      -- what is left is too short for another batch
      have hshort : r.length < 20 := by
        have hlen := hrev.length
        have hpos := List.length_pos_of_ne_nil hm
        rw [← hblock, List.length_append] at hlen
        omega
      have hrest := feed_fragment (s := ⟨s.done ++ [s.current ++ m], []⟩)
        (hblock ▸ hrev.toIsFragment).append_right hshort fun p _ => begins_fresh p
      refine ⟨m, r, hblock.symm, ⟨hfull, hrot, hassembles⟩, ?_⟩
      rw [← hblock, Batches.feed_append, hfeed, hrest]
      rfl

omit [Zero F] in
/-- The packet that the assembler has kept at the position of a packet of the revolution. -/
theorem firstAt_block {h m r : List (PktHdlMech F)} {rot : UInt16}
    (hrev : IsRevolution rot (m ++ r)) {p : PktHdlMech F} (hp : p ∈ m ++ r)
    (hsome : (firstAt (h ++ m) rot p.position).isSome = true) :
    firstAt (h ++ m) rot p.position = some ((firstAt h rot p.position).getD p) := by
  rw [firstAt_append] at hsome ⊢
  cases hh : firstAt h rot p.position with
  | some f => rfl
  | none =>
    rw [hh, Option.none_or] at hsome
    obtain ⟨q, hq⟩ := Option.isSome_iff_exists.mp hsome
    have hself := hrev.toIsFragment.firstAt_eq hp
    rw [firstAt_append, hq] at hself
    rw [Option.none_or, hq]
    exact hself

end Batches

variable [Arith F]

/-- The valid packets of the frames. -/
def packetsOf (frames : List Frame) : List (PktHdlMech F) := frames.filterMap Frame.packet

theorem packetsOf_payloads (frames : List Frame) :
    (frames.filterMap Frame.rawPdu).filterMap payloadPacket =
      (packetsOf frames : List (PktHdlMech F)) :=
  List.filterMap_filterMap

theorem packetsOf_append (frames frames' : List Frame) :
    (packetsOf (frames ++ frames') : List (PktHdlMech F)) = packetsOf frames ++ packetsOf frames' :=
  List.filterMap_append

theorem assembler_read (s : FullReplay F) {f : Frame} (rest : List Frame) {p : PktHdlMech F}
    (hp : f.packet = some p) {payload : List UInt8} (hf : f.rawPdu = some payload) :
    (s.read f rest payload).assembler = s.assembler.add p := by
  rw [Frame.packet, hf, Option.bind_some] at hp
  obtain ⟨raw, hraw, hd⟩ := decode_of_payloadPacket hp
  show ((s.driver.sleepFull f).fullPayload s.assembler payload).2 = _
  rw [Driver.fullPayload, hraw]
  exact congrArg Prod.snd (tryAdd_ok (s.driver.sleepFull f) s.assembler hd)

/-! ## The assembler at any point of the replay -/

/-- The ROT value of the assembler is the one of the last frame that was read, or of the last frame
of the file as long as the frames are stale. -/
structure Trails (file : List Frame) (s : FullReplay F) : Prop where
  pcapFile : s.driver.pcapFile = file
  suffix : s.driver.pcapSniffer <:+ file
  packets : ∃ cur : List (PktHdlMech F), s.assembler = assembled cur
  rotation : s.assembler.hasRotation = true →
    (∃ p ∈ (packetsOf file : List (PktHdlMech F)).getLast?,
      s.assembler.rotationCounter = p.rotationCounter) ∨
    ∃ (seen : List (PktHdlMech F)) (p : PktHdlMech F),
      packetsOf file = seen ++ p :: packetsOf s.driver.pcapSniffer ∧
      s.assembler.rotationCounter = p.rotationCounter

section Trails

variable {file : List Frame} {s s' : FullReplay F}

theorem Trails.finish (h : Trails file s) : Trails file (FullReplay.enter s.finish) where
  pcapFile := h.pcapFile
  suffix := h.suffix
  packets := ⟨[], rfl⟩
  rotation h := by cases h

theorem Trails.last (h : Trails file s) (hs : s.driver.pcapSniffer = [])
    (hr : s.assembler.hasRotation = true) :
    ∃ p ∈ (packetsOf file : List (PktHdlMech F)).getLast?,
      s.assembler.rotationCounter = p.rotationCounter := by
  rcases h.rotation hr with hlast | ⟨seen, p, hfile, hrot⟩
  · exact hlast
  · rw [hs] at hfile
    refine ⟨p, ?_, hrot⟩
    rw [hfile]
    simp [packetsOf]

theorem Trails.startOver (h : Trails file s) (hs : s.driver.pcapSniffer = []) :
    Trails file s.startOver where
  pcapFile := h.pcapFile
  suffix := by
    show s.driver.pcapFile <:+ file
    rw [h.pcapFile]
  packets := h.packets
  rotation hr := .inl (h.last hs hr)

theorem Trails.read (h : Trails file s)
    (hsorted : (packetsOf file : List (PktHdlMech F)).IsChain Follows) {f : Frame}
    {rest : List Frame} {p : PktHdlMech F} (hs : s.driver.pcapSniffer = f :: rest)
    (hp : f.packet = some p) {payload : List UInt8} (hf : f.rawPdu = some payload) :
    Trails file (s.read f rest payload) := by
  have hsniff : (packetsOf s.driver.pcapSniffer : List (PktHdlMech F)) = p :: packetsOf rest := by
    rw [hs, packetsOf, List.filterMap_cons, hp]
    rfl
  obtain ⟨before, hbefore⟩ := h.suffix
  have hfile : (packetsOf file : List (PktHdlMech F)) =
      packetsOf before ++ p :: packetsOf rest := by
    rw [← hbefore, packetsOf_append, hsniff]
  have hadd := assembler_read s rest hp hf
  obtain ⟨cur, hcur⟩ := h.packets
  refine ⟨h.pcapFile, ?_, ⟨cur ++ [p], ?_⟩, fun hr => ?_⟩
  · exact (List.suffix_cons f rest).trans (hs ▸ h.suffix)
  · rw [hadd, hcur, assembled_concat]
  · by_cases hstale : s.assembler.Stale p
    · -- only in the beginning of a pass, where the ROT value is the one of the last frame
      rw [hadd, FullScanAssembler.add_of_stale hstale]
      rcases h.rotation hstale.1 with hlast | ⟨seen, q, hseen, hrot⟩
      · exact .inl hlast
      · rw [hsniff] at hseen
        have hnext : Follows q p := by
          rw [hseen] at hsorted
          exact hsorted.right_of_append.rel
        exact absurd hstale (not_stale_of_follows hrot hnext)
    · rw [hadd]
      exact .inr ⟨_, p, hfile, (add_of_not_stale hstale).2⟩

end Trails

/-! ## A revolution of the file -/

/-- The packets that the running poll has taken since its revolution was begun, when it has read the
packets `pre` of the file behind the packets `cur`. Behind a poll that publishes, a new one runs. -/
def heldBehind (cur pre : List (PktHdlMech F)) : List (PktHdlMech F) :=
  sinceBegun (Batches.feed completes ⟨[], cur⟩ pre).current

/-- A scan shows the same of the two packets. -/
structure SameReadings (f p : PktHdlMech F) : Prop where
  range : ∀ (c : Nat) (hc : c < 115),
    f.ranges[c].divBy ((1000 : Nat) : F) = p.ranges[c].divBy ((1000 : Nat) : F)
  intensity : ∀ (c : Nat) (hc : c < 115), f.intensities[c] = p.intensities[c]

/-- The first state of a pass. -/
structure BeginsPass (file : List Frame) (cur : List (PktHdlMech F)) (s : FullReplay F) : Prop
    extends s.Reading where
  pcapFile : s.driver.pcapFile = file
  sniffer : s.driver.pcapSniffer = file
  assembler : s.assembler = assembled cur

/-- A published scan shows the revolution exactly when the packets that were held of it read the
same. -/
theorem publishes_block {b m r : List (PktHdlMech F)} {rot : UInt16}
    (options : DriverRuntimeOptions F) (hrev : IsRevolution rot (m ++ r))
    (h : CompletesBlock b m rot) :
    Publishes (publicationOf options (b ++ m)) (m ++ r) ↔
      ∀ p ∈ m ++ r, ∀ f ∈ firstAt (sinceBegun b) rot p.position, SameReadings f p := by
  obtain ⟨c, ha⟩ := h.assembles
  have hcount : (assembled (b ++ m)).packetCount = 20 := by
    rw [← beq_iff_eq, ← ha.complete]
    exact h.isFull
  have hshown : ∀ p ∈ m ++ r,
      firstAt (sinceBegun b ++ m) (assembled (b ++ m)).rotationCounter p.position =
        some ((firstAt (sinceBegun b) rot p.position).getD p) := by
    intro p hp
    have hrec := ha.complete_iff.mp hcount _ p.position_lt
    rw [ha.received _ p.position_lt] at hrec
    rw [h.rotation] at hrec ⊢
    exact firstAt_block hrev hp hrec
  constructor
  · rintro ⟨-, hholds, -⟩ p hp f hf
    have hf' := hshown p hp
    rw [Option.mem_def.mp hf, Option.getD_some] at hf'
    refine ⟨fun c hc => ?_, fun c hc => ?_⟩
    · exact Option.some.inj ((fullScan_reading options ha hf' c hc).1.symm.trans
        (hholds.range p hp ⟨c, hc⟩))
    · exact Option.some.inj ((fullScan_reading options ha hf' c hc).2.symm.trans
        (hholds.intensity p hp ⟨c, hc⟩))
  · intro hsame
    have hget : ∀ p ∈ m ++ r, SameReadings ((firstAt (sinceBegun b) rot p.position).getD p) p := by
      intro p hp
      cases hf : firstAt (sinceBegun b) rot p.position with
      | none => exact ⟨fun _ _ => rfl, fun _ _ => rfl⟩
      | some f => exact hsame p hp f hf
    have hrot : (publicationOf options (b ++ m)).1 = rot := h.rotation
    refine ⟨hrot ▸ hrev, ⟨by simp [publicationOf, fullScan], by simp [publicationOf, fullScan],
      fun p hp c => ?_, fun p hp c => ?_⟩, rfl⟩
    · exact (fullScan_reading options ha (hshown p hp) c c.isLt).1.trans
        (congrArg some ((hget p hp).range c c.isLt))
    · exact (fullScan_reading options ha (hshown p hp) c c.isLt).2.trans
        (congrArg some ((hget p hp).intensity c c.isLt))

section Block

variable {file : List Frame} {cur : List (PktHdlMech F)} {s s' : FullReplay F}

/-- What the replay has done with the packets `seen` of the pass, when it reads the next one. -/
theorem BeginsPass.at (h : BeginsPass file cur s) (hsteps : Steps fullReplay s s')
    (hread : s'.Reading)
    (hpass : s'.driver.passes.done.length = s.driver.passes.done.length)
    {seen : List (PktHdlMech F)}
    (hseen : packetsOf file = seen ++ packetsOf s'.driver.pcapSniffer) :
    s'.driver.publications = s.driver.publications ++
      (Batches.feed completes ⟨[], cur⟩ seen).done.map (publicationOf s.driver.options) := by
  obtain ⟨frames, hframes⟩ := replayed_run cur h.toReading h.assembler hsteps hpass
  have hsniff : (packetsOf frames : List (PktHdlMech F)) = seen := by
    have hfile := hframes.sniffer
    rw [h.sniffer] at hfile
    rw [hfile, packetsOf_append] at hseen
    exact List.append_cancel_right hseen
  have hset := hframes.settled
  rw [FullReplay.settled_of_open hread.isOpen] at hset
  have hpubs := hset.shows.publications
  rw [packetsOf_payloads, hsniff] at hpubs
  exact hpubs

variable {rot : UInt16} {pre block post : List (PktHdlMech F)}

/-- What is published while the packets of the revolution are read. -/
theorem BeginsPass.published (h : BeginsPass file cur s)
    (hblock : IsRevolution rot block) (hsplit : packetsOf file = pre ++ block ++ post)
    (hstale : ∀ p ∈ block,
      ¬ (assembled (Batches.feed completes ⟨[], cur⟩ pre).current).Stale p) :
    ∃ x : UInt16 × LaserScan F × PointCloud2 F,
      (Publishes x block ↔
        ∀ p ∈ block, ∀ f ∈ firstAt (heldBehind cur pre) rot p.position, SameReadings f p) ∧
      ∀ {s₁ s₂ : FullReplay F}, Steps fullReplay s s₁ → s₁.Reading →
        s₁.driver.passes.done.length = s.driver.passes.done.length →
        packetsOf s₁.driver.pcapSniffer = block ++ post → Steps fullReplay s₁ s₂ → s₂.Reading →
        s₂.driver.passes.done.length = s.driver.passes.done.length →
        packetsOf s₂.driver.pcapSniffer = post →
        s₂.driver.publications = s₁.driver.publications ++ [x] := by
  obtain ⟨m, r, rfl, hcompletes, hfeed⟩ := feed_block hblock hstale
  refine ⟨_, publishes_block s.driver.options hblock hcompletes, ?_⟩
  intro s₁ s₂ hsteps₁ hread₁ hpass₁ hs₁ hsteps₂ hread₂ hpass₂ hs₂
  have hpre : packetsOf file = pre ++ (m ++ r ++ post) := by rw [hsplit, List.append_assoc]
  have hat₁ := h.at hsteps₁ hread₁ hpass₁ (hs₁ ▸ hpre)
  have hat₂ := h.at (hsteps₁.trans hsteps₂) hread₂ hpass₂ (hs₂ ▸ hsplit)
  rw [hat₂, hat₁, Batches.feed_append, hfeed]
  simp

end Block

end MechLidar
