import MechLidar.Stream

/-!
# MechLidar.Order

The order in which FULL polls over UDP publish revolutions, for packets whose ROT values lie in one
window of the 16-bit circle, in any order and with any duplicates.

An assembler shows the newest revolution that it was fed (`assembled_newest`), but every poll has a
new one, which remembers nothing of the polls before it. So the published ROT values increase
exactly when each poll that publishes was fed a packet newer than all that the earlier ones were
fed (`published_newer_iff`). A revolution delivered twice is published twice
(`duplicate_revolution`).
-/

namespace MechLidar

open Lib

variable {F : Type}

/-- `x` is strictly newer than `y` in the serial order of `add_packet`. -/
def Newer (x y : UInt16) : Prop := 0 < delta x.toBitVec y.toBitVec

/-- The distance of a counter from the start of the window. -/
def offset (base x : UInt16) : Nat := (x.toBitVec - base.toBitVec).toNat

/-- Fewer than 2^15 steps from the start of the window. -/
def InWindow (base x : UInt16) : Prop := offset base x < 2 ^ 15

instance (base x : UInt16) : Decidable (InWindow base x) := inferInstanceAs (Decidable (_ < _))

theorem delta_offset {base x y : UInt16} (hx : InWindow base x) (hy : InWindow base y) :
    delta x.toBitVec y.toBitVec = (offset base x : Int) - (offset base y : Int) :=
  delta_window (w := 15) hx hy

theorem newer_iff {base x y : UInt16} (hx : InWindow base x) (hy : InWindow base y) :
    Newer x y ↔ offset base y < offset base x := by
  rw [Newer, delta_offset hx hy]
  omega

/-- The earlier batches have no packet as new as the newest of the later ones. -/
def Advances (done : List (List (PktHdlMech F))) : Prop :=
  done.Pairwise fun b b' =>
    ∃ p ∈ b', ∀ q ∈ b, Newer p.rotationCounter q.rotationCounter

/-- The active revolution is the newest one that the assembler was fed. -/
structure Newest (base : UInt16) (b : List (PktHdlMech F)) (a : FullScanAssembler F) : Prop where
  hasRotation : a.hasRotation = true
  mem : ∃ p ∈ b, p.rotationCounter = a.rotationCounter
  max : ∀ q ∈ b, offset base q.rotationCounter ≤ offset base a.rotationCounter

theorem Newest.inWindow {base : UInt16} {b : List (PktHdlMech F)} {a : FullScanAssembler F}
    (h : Newest base b a) (hwin : ∀ p ∈ b, InWindow base p.rotationCounter) :
    InWindow base a.rotationCounter := by
  obtain ⟨p, hp, he⟩ := h.mem
  exact he ▸ hwin p hp

section Newest

variable [Zero F]

theorem newest_add {base : UInt16} {b : List (PktHdlMech F)} {a : FullScanAssembler F}
    (h : Newest base b a) (hwin : ∀ p ∈ b, InWindow base p.rotationCounter) {p : PktHdlMech F}
    (hp : InWindow base p.rotationCounter) : Newest base (b ++ [p]) (a.add p) := by
  obtain ⟨r, hr, he⟩ := h.mem
  have hdelta : a.rotationDelta p =
      (offset base p.rotationCounter : Int) - (offset base a.rotationCounter : Int) :=
    delta_offset hp (h.inWindow hwin)
  obtain ⟨hs, hadd⟩ | ⟨hb, hadd⟩ | ⟨-, hc, hadd⟩ := a.add_cases p
  · have hlt := hs.2
    rw [hadd]
    refine ⟨h.hasRotation, ⟨r, List.mem_append_left _ hr, he⟩, fun q hq => ?_⟩
    rcases List.mem_append.mp hq with hq | hq
    · exact h.max q hq
    · rw [List.mem_singleton.mp hq]
      omega
  · rw [hadd]
    have hrot : ((a.beginRotation p).accept p).rotationCounter = p.rotationCounter :=
      (a.beginRotation p).accept_rotationCounter p
    have hge : 0 ≤ a.rotationDelta p := by
      rcases hb with hf | ⟨-, hge⟩
      · rw [h.hasRotation] at hf
        cases hf
      · exact hge
    refine ⟨(tracks_begin a p).hasRotation, ⟨p, by simp, hrot.symm⟩, fun q hq => ?_⟩
    rw [hrot]
    rcases List.mem_append.mp hq with hq | hq
    · have := h.max q hq
      omega
    · rw [List.mem_singleton.mp hq]
  · rw [hadd]
    have hrot := a.accept_rotationCounter p
    refine ⟨?_, ⟨p, by simp, hc.trans hrot.symm⟩, fun q hq => ?_⟩
    · rw [a.accept_hasRotation]
      exact h.hasRotation
    · rw [hrot]
      rcases List.mem_append.mp hq with hq | hq
      · exact h.max q hq
      · rw [List.mem_singleton.mp hq, hc]

theorem assembled_newest {base : UInt16} {b : List (PktHdlMech F)} (hb : b ≠ [])
    (hwin : ∀ p ∈ b, InWindow base p.rotationCounter) : Newest base b (assembled b) := by
  induction b using List.reverseRecOn with
  | nil => exact absurd rfl hb
  | append_singleton b p ih =>
    have hp : InWindow base p.rotationCounter := hwin p (by simp)
    rw [assembled_concat]
    by_cases hnil : b = []
    · subst hnil
      have hbegins : (assembled []).Begins p := begins_fresh p
      rw [FullScanAssembler.add_of_begins hbegins]
      have hrot : (((assembled []).beginRotation p).accept p).rotationCounter =
          p.rotationCounter := ((assembled []).beginRotation p).accept_rotationCounter p
      refine ⟨(tracks_begin (assembled []) p).hasRotation, ⟨p, by simp, hrot.symm⟩, ?_⟩
      intro q hq
      rw [hrot, List.mem_singleton.mp hq]
    · have hwin' : ∀ q ∈ b, InWindow base q.rotationCounter :=
        fun q hq => hwin q (List.mem_append_left _ hq)
      exact newest_add (ih hnil hwin') hwin' hp

/-- Which of two batches shows a newer revolution. -/
theorem newer_assembled_iff {base : UInt16} {b b' : List (PktHdlMech F)} (hb : b ≠ [])
    (hb' : b' ≠ []) (hwin : ∀ p ∈ b, InWindow base p.rotationCounter)
    (hwin' : ∀ p ∈ b', InWindow base p.rotationCounter) :
    Newer (assembled b').rotationCounter (assembled b).rotationCounter ↔
      ∃ p ∈ b', ∀ q ∈ b, Newer p.rotationCounter q.rotationCounter := by
  have h := assembled_newest hb hwin
  have h' := assembled_newest hb' hwin'
  rw [newer_iff (h'.inWindow hwin') (h.inWindow hwin)]
  constructor
  · intro hlt
    obtain ⟨p, hp, he⟩ := h'.mem
    refine ⟨p, hp, fun q hq => ?_⟩
    have hq' := h.max q hq
    rw [newer_iff (hwin' p hp) (hwin q hq), he]
    omega
  · rintro ⟨p, hp, hall⟩
    obtain ⟨q, hq, he⟩ := h.mem
    have hpq := (newer_iff (hwin' p hp) (hwin q hq)).mp (hall q hq)
    have hp' := h'.max p hp
    rw [he] at hpq
    omega

end Newest

/-! ## Runs -/

variable [Arith F]

theorem ne_nil_of_done {ps b : List (PktHdlMech F)}
    (hb : b ∈ (Batches.feed completes Batches.empty ps).done) : b ≠ [] := by
  rintro rfl
  have hfull := (Batches.isCut_empty.feed ps).isFull [] hb
  rw [completes_nil] at hfull
  cases hfull

theorem mem_of_mem_done {ps b : List (PktHdlMech F)} {p : PktHdlMech F}
    (hb : b ∈ (Batches.feed completes Batches.empty ps).done) (hp : p ∈ b) : p ∈ ps := by
  have hmem := Batches.mem_done_feed completes hb hp
  simpa [Batches.empty] using hmem

theorem pairwise_newer_iff (options : DriverRuntimeOptions F) {base : UInt16}
    {ps : List (PktHdlMech F)} (hwin : ∀ p ∈ ps, InWindow base p.rotationCounter) :
    ((Batches.feed completes Batches.empty ps).done.map (publicationOf options)).Pairwise
        (fun x y => Newer y.1 x.1) ↔
      Advances (Batches.feed completes Batches.empty ps).done := by
  rw [List.pairwise_map]
  exact List.Pairwise.iff_of_mem fun {b b'} hb hb' =>
    newer_assembled_iff (ne_nil_of_done hb) (ne_nil_of_done hb')
      (fun p hp => hwin p (mem_of_mem_done hb hp)) (fun p hp => hwin p (mem_of_mem_done hb' hp))

/-- Any number of polls, in any world, after which the datagrams `used` have been delivered. If the
ROT values of their packets lie in one window, the published ones increase exactly when each poll
that publishes was fed a packet newer than all that the earlier ones were fed. -/
theorem published_newer_iff {w : World} {d : UdpDriver F} (hw : Ready w d) (n : Nat)
    {used : List RawPacket}
    (hused : deliveries d.socket w.gets = used ++ deliveries d.socket
      (polls UdpDriver.pollFullUdp n (w, d)).state.1.gets) {base : UInt16}
    (hwin : ∀ p ∈ (used.filterMap packetOf : List (PktHdlMech F)),
      InWindow base p.rotationCounter) :
    ∃ pubs, (polls UdpDriver.pollFullUdp n (w, d)).state.2.publications =
        d.publications ++ pubs ∧
      (pubs.Pairwise (fun x y => Newer y.1 x.1) ↔
        Advances (Batches.feed completes Batches.empty
          (used.filterMap packetOf : List (PktHdlMech F))).done) := by
  obtain ⟨used', hused', hcore⟩ := UdpDriver.polls_used hw n
  cases List.append_cancel_right (hused.symm.trans hused')
  have hshow := UdpDriver.shows_used d.toDriver used
  refine ⟨_, ?_, pairwise_newer_iff d.options hwin⟩
  rw [hcore]
  exact hshow.publications

/-- Revolution 7, delivered twice. -/
def twice : List RawPacket := plainRaws 7 ++ plainRaws 7

theorem filterMap_twice : (twice.filterMap packetOf : List (PktHdlMech F)) =
    ([7, 7].map plainRevolution).flatten := by
  simp [twice, filterMap_plainRaws]

theorem inWindow_twice :
    ∀ p ∈ (twice.filterMap packetOf : List (PktHdlMech F)), InWindow 7 p.rotationCounter := by
  intro p hp
  rw [filterMap_twice] at hp
  have hmem : p ∈ (plainRevolution 7 : List (PktHdlMech F)) := by simpa using hp
  rw [(isRevolution_plain 7).rotation p hmem]
  decide

theorem done_twice : (Batches.feed completes Batches.empty
    (twice.filterMap packetOf : List (PktHdlMech F))).done =
      [plainRevolution 7, plainRevolution 7] := by
  rw [filterMap_twice, feed_plain]
  rfl

theorem duplicate_revolution :
    (∀ p ∈ (twice.filterMap packetOf : List (PktHdlMech ℝ)), InWindow 7 p.rotationCounter) ∧
    ∃ x y, (polls UdpDriver.pollFullUdp 2 (quietWorld (datagrams 0 twice),
        (plainUdp : UdpDriver ℝ))).state.2.publications = [x, y] ∧ x.1 = 7 ∧ y.1 = 7 ∧
      ¬ Newer y.1 x.1 := by
  have hrot : (publicationOf plainOptions (plainRevolution 7 : List (PktHdlMech ℝ))).1 = 7 := by
    rw [publicationOf_rot, assembled_rotation (isRevolution_plain 7)]
  have hpubs := UdpDriver.publications_plain (F := ℝ) twice 2
  rw [done_twice, List.take_succ_cons, List.take_succ_cons, List.take_zero, List.map_cons,
    List.map_cons, List.map_nil] at hpubs
  refine ⟨inWindow_twice, _, _, hpubs, hrot, hrot, ?_⟩
  rw [hrot, Newer, delta_self]
  exact lt_irrefl 0

/-- Polls that read all of it, and the two scans they publish. -/
theorem published_newer_twice : ∃ pubs,
    (polls UdpDriver.pollFullUdp 41 (quietWorld (datagrams 0 twice),
        (plainUdp : UdpDriver ℝ))).state.2.publications = plainUdp.publications ++ pubs ∧
      pubs.length = 2 ∧
      (pubs.Pairwise (fun x y => Newer y.1 x.1) ↔
        Advances (Batches.feed completes Batches.empty
          (twice.filterMap packetOf : List (PktHdlMech ℝ))).done) := by
  have hready := ready_plain (F := ℝ) (datagrams 0 twice)
  have hdel := deliveries_plain (F := ℝ) twice
  have hlen : (deliveries (plainUdp : UdpDriver ℝ).socket
      (quietWorld (datagrams 0 twice)).gets).length < 41 := by
    rw [hdel]
    decide
  obtain ⟨hdrain, -⟩ := UdpDriver.polls_drain hready
    (datagrams_quiet (plainUdp : UdpDriver ℝ).socket 0 twice) hlen
  have hused : deliveries (plainUdp : UdpDriver ℝ).socket (quietWorld (datagrams 0 twice)).gets =
      twice ++ deliveries (plainUdp : UdpDriver ℝ).socket
        (polls UdpDriver.pollFullUdp 41 (quietWorld (datagrams 0 twice),
          (plainUdp : UdpDriver ℝ))).state.1.gets := by
    rw [hdrain, hdel]
    rfl
  obtain ⟨pubs, hpubs, hiff⟩ := published_newer_iff hready 41 hused inWindow_twice
  refine ⟨pubs, hpubs, ?_, hiff⟩
  have hall := UdpDriver.publications_plain (F := ℝ) twice 41
  have hnone : (plainUdp : UdpDriver ℝ).publications = [] := rfl
  rw [done_twice, hpubs, hnone, List.nil_append] at hall
  rw [hall]
  rfl

end MechLidar
