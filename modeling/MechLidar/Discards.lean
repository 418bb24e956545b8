import MechLidar.Stream

/-!
# MechLidar.Discards

What the counter `discarded_revolutions` reports, against the revolutions that were lost.

* `Ledger`: the revolutions of a stream as the polls assemble them, with those that were replaced
  before all their positions arrived.
* `discarded_concat`: what `begin_rotation` counts inside of one poll.
* `Reports d xs`: at every moment of every run over the stream `xs` the counter is the number of
  lost revolutions. `reports_iff` says when.

The polls add what their assembler has counted only when they publish. A lost revolution is thus
never reported at the moment of the loss, and a late packet of a revolution that an earlier poll
has published is counted like the beginning of a new one.
-/

namespace MechLidar

open Lib

variable {F : Type}

/-- `arrived` has the positions of each revolution, `active` the revolution that the current poll
assembles. -/
structure Ledger (F : Type) where
  batch : List (PktHdlMech F)
  active : Option Nat
  arrived : List (Nat × Nat)
  lost : Finset Nat

namespace Ledger

def initial : Ledger F := ⟨[], none, [], ∅⟩

/-- All positions of the revolution have arrived. -/
def Whole (s : Ledger F) (rev : Nat) : Prop := ∀ i < 20, (rev, i) ∈ s.arrived

instance (s : Ledger F) (rev : Nat) : Decidable (s.Whole rev) :=
  inferInstanceAs (Decidable (∀ i < 20, (rev, i) ∈ s.arrived))

variable [Zero F]

/-- The revolution that `p` replaces before all its positions arrived. -/
def losesTo (s : Ledger F) (p : PktHdlMech F) : Option Nat :=
  s.active.filter fun rev => (assembled s.batch).Begins p ∧ ¬ s.Whole rev

/-- One packet, with the number of its revolution. -/
def take (s : Ledger F) (x : Nat × PktHdlMech F) : Ledger F :=
  let s' : Ledger F :=
    { batch := s.batch ++ [x.2]
      active := if (assembled s.batch).Begins x.2 then some x.1 else s.active
      arrived := s.arrived ++ [(x.1, x.2.position)]
      lost := s.lost ∪ (s.losesTo x.2).toFinset }
  if completes s'.batch then { s' with batch := [], active := none } else s'

def of (xs : List (Nat × PktHdlMech F)) : Ledger F := xs.foldl take initial

theorem of_concat (xs : List (Nat × PktHdlMech F)) (x : Nat × PktHdlMech F) :
    of (xs ++ [x]) = (of xs).take x := by
  simp [of]

theorem take_lost (s : Ledger F) (x : Nat × PktHdlMech F) :
    (s.take x).lost = s.lost ∪ (s.losesTo x.2).toFinset := by
  unfold take
  dsimp only
  split
  · rfl
  · rfl

theorem take_of_begins {s : Ledger F} {x : Nat × PktHdlMech F}
    (hb : (assembled s.batch).Begins x.2) :
    s.take x = ⟨s.batch ++ [x.2], some x.1, s.arrived ++ [(x.1, x.2.position)],
      s.lost ∪ (s.losesTo x.2).toFinset⟩ := by
  rw [take, if_pos hb]
  exact if_neg (by rw [completes_of_begins hb]; decide)

theorem of_batch (xs : List (Nat × PktHdlMech F)) :
    (of xs).batch = (Batches.feed completes Batches.empty (xs.map Prod.snd)).current := by
  induction xs using List.reverseRecOn with
  | nil => rfl
  | append_singleton xs x ih =>
    rw [of_concat, List.map_append, List.map_singleton, Batches.feed_concat, Batches.add, ← ih,
      take]
    dsimp only
    split
    · rfl
    · rfl

theorem of_lost {xs : List (Nat × PktHdlMech F)}
    (h : ∀ l x, l ++ [x] <+: xs → (of l).losesTo x.2 = none) : (of xs).lost = ∅ := by
  induction xs using List.reverseRecOn with
  | nil => rfl
  | append_singleton xs x ih =>
    rw [of_concat, take_lost, ih fun l y hl => h l y (hl.trans (List.prefix_append xs [x])),
      h xs x List.prefix_rfl]
    rfl

end Ledger

/-! ## What one poll counts -/

section Poll

variable [Zero F]

/-- Inside of a poll, every packet that begins a new revolution is counted. -/
theorem discarded_concat {b : List (PktHdlMech F)} (hne : b ≠ []) (hopen : completes b = false)
    (p : PktHdlMech F) :
    (assembled (b ++ [p])).discardedRevolutions =
      (assembled b).discardedRevolutions + if (assembled b).Begins p then 1 else 0 := by
  obtain ⟨c, t, ha, -⟩ := exists_assembles hne
  have hcount := ha.packetCount_pos List.mem_cons_self ha.rotation.symm
  rw [assembled_concat]
  obtain ⟨hs, he⟩ | ⟨hb, he⟩ | ⟨-, hc, he⟩ := (assembled b).add_cases p
  · rw [he, if_neg hs.not_begins]
    rfl
  · rw [he, if_pos hb, FullScanAssembler.accept_discardedRevolutions]
    exact if_pos ⟨ha.hasRotation, hopen, hcount⟩
  · have hnot : ¬ (assembled b).Begins p := by
      rintro (hf | ⟨hne, -⟩)
      · rw [ha.hasRotation] at hf
        cases hf
      · exact hne hc
    rw [he, if_neg hnot, FullScanAssembler.accept_discardedRevolutions]
    rfl

/-- A poll counts nothing when no packet replaces the revolution that it has begun. -/
theorem discarded_eq_zero_iff {b : List (PktHdlMech F)}
    (hopen : ∀ m, m ≠ [] → m <+: b → m ≠ b → completes m = false) :
    (assembled b).discardedRevolutions = 0 ↔
      ∀ m p, m ≠ [] → m ++ [p] <+: b → ¬ (assembled m).Begins p := by
  induction b using List.reverseRecOn with
  | nil =>
    refine iff_of_true rfl fun m p _ hp => ?_
    cases m with
    | nil => cases List.prefix_nil.mp hp
    | cons q m => cases List.prefix_nil.mp hp
  | append_singleton b q ih =>
    have hopen' : ∀ m, m ≠ [] → m <+: b → m ≠ b → completes m = false := by
      intro m hm hp _
      refine hopen m hm (hp.trans (List.prefix_append b [q])) fun he => ?_
      have hlen := hp.length_le
      rw [he, List.length_append, List.length_singleton] at hlen
      omega
    by_cases hnil : b = []
    · subst hnil
      refine iff_of_true ?_ fun m p hm hp => ?_
      · rw [assembled_concat, FullScanAssembler.add_of_begins (begins_fresh q),
          FullScanAssembler.accept_discardedRevolutions]
        rfl
      · have hlen := hp.length_le
        simp at hlen
        exact absurd hlen hm
    · have hb : completes b = false := hopen b hnil (List.prefix_append b [q]) (by simp)
      rw [discarded_concat hnil hb, Nat.add_eq_zero_iff, ih hopen']
      constructor
      · rintro ⟨hall, hlast⟩ m p hm hp
        rcases List.prefix_concat_iff.mp hp with he | hp
        · obtain ⟨hbatch, hpacket⟩ := List.append_inj' he rfl
          cases hpacket
          subst hbatch
          intro hbegins
          rw [if_pos hbegins] at hlast
          cases hlast
        · exact hall m p hm hp
      · intro hall
        exact ⟨fun m p hm hp => hall m p hm (hp.trans (List.prefix_append b [q])),
          if_neg (hall b q hnil List.prefix_rfl)⟩

end Poll

/-! ## What the driver reports -/

variable [Arith F]

/-- The batches that the polls have published. -/
def batchesOf (xs : List (Nat × PktHdlMech F)) : List (List (PktHdlMech F)) :=
  (Batches.feed completes Batches.empty (xs.map Prod.snd)).done

/-- At every moment of every run of polls that consumes a first part `l` of the stream, between two
packets or while it waits for one, the counter is the number of revolutions lost so far. The
deliveries may contain invalid packets, too. -/
def Reports (d : UdpDriver F) (xs : List (Nat × PktHdlMech F)) : Prop :=
  ∀ l, l <+: xs → ∀ (w : World) (n : Nat) (used : List RawPacket), Ready w d →
    deliveries d.socket w.gets = used ++ deliveries d.socket
      (polls UdpDriver.pollFullUdp n (w, d)).state.1.gets →
    used.filterMap packetOf = l.map Prod.snd →
    (polls UdpDriver.pollFullUdp n (w, d)).state.2.discardedRevolutions = (Ledger.of l).lost.card

/-- No packet replaces a revolution that misses positions, and in a poll that publishes no packet
replaces any revolution, not even the rest of one that was published before. -/
structure Undisturbed (xs : List (Nat × PktHdlMech F)) : Prop where
  noLoss : ∀ l x, l ++ [x] <+: xs → (Ledger.of l).losesTo x.2 = none
  noRestart : ∀ b ∈ batchesOf xs, ∀ m p, m ≠ [] → m ++ [p] <+: b → ¬ (assembled m).Begins p

theorem batchesOf_mono {l xs : List (Nat × PktHdlMech F)} (h : l <+: xs) :
    batchesOf l <+: batchesOf xs := by
  obtain ⟨t, rfl⟩ := h
  rw [batchesOf, batchesOf, List.map_append, Batches.feed_append]
  exact Batches.done_feed completes _ _

theorem discardedIn_eq_zero_iff (xs : List (Nat × PktHdlMech F)) :
    discardedIn (batchesOf xs) = 0 ↔
      ∀ b ∈ batchesOf xs, ∀ m p, m ≠ [] → m ++ [p] <+: b → ¬ (assembled m).Begins p := by
  have hcut : Batches.IsCut completes
      (Batches.feed completes Batches.empty (xs.map Prod.snd)) := Batches.isCut_empty.feed _
  rw [discardedIn, List.sum_eq_zero_iff]
  simp only [List.forall_mem_map]
  exact forall₂_congr fun b hb => discarded_eq_zero_iff (hcut.isFirst b hb)

theorem batchesOf_of_loss {l : List (Nat × PktHdlMech F)} {x : Nat × PktHdlMech F}
    (h : (Ledger.of l).losesTo x.2 ≠ none) : batchesOf (l ++ [x]) = batchesOf l := by
  obtain ⟨rev, hrev⟩ := Option.ne_none_iff_exists'.mp h
  have hb : (assembled (Ledger.of l).batch).Begins x.2 := by
    have := Option.filter_eq_some_iff.mp hrev
    simp at this
    exact this.2.1
  rw [Ledger.of_batch] at hb
  rw [batchesOf, List.map_append, List.map_singleton, Batches.feed_concat,
    Batches.add_of_not_full (completes_of_begins hb)]
  rfl

/-- The counter is exact at every moment if nothing is ever lost or counted. -/
theorem exact_iff (xs : List (Nat × PktHdlMech F)) :
    (∀ l, l <+: xs → discardedIn (batchesOf l) = (Ledger.of l).lost.card) ↔ Undisturbed xs := by
  constructor
  · intro h
    -- At the first loss the counter is still 0.
    have hlost : ∀ l, l <+: xs → (Ledger.of l).lost = ∅ ∧
        ∀ x, l ++ [x] <+: xs → (Ledger.of l).losesTo x.2 = none := by
      have hstep : ∀ l, (Ledger.of l).lost = ∅ → ∀ x, l ++ [x] <+: xs →
          (Ledger.of l).losesTo x.2 = none := by
        intro l hl x hx
        by_contra hloss
        have hbefore := h l ((List.prefix_append l [x]).trans hx)
        have hafter := h (l ++ [x]) hx
        obtain ⟨rev, hrev⟩ := Option.ne_none_iff_exists'.mp hloss
        rw [batchesOf_of_loss hloss, hbefore, Ledger.of_concat, Ledger.take_lost, hl,
          hrev] at hafter
        simp at hafter
      intro l
      induction l using List.reverseRecOn with
      | nil => exact fun _ => ⟨rfl, hstep [] rfl⟩
      | append_singleton l y ih =>
        intro hl
        obtain ⟨hl0, hnext⟩ := ih ((List.prefix_append l [y]).trans hl)
        have hempty : (Ledger.of (l ++ [y])).lost = ∅ := by
          rw [Ledger.of_concat, Ledger.take_lost, hl0, hnext y hl]
          rfl
        exact ⟨hempty, hstep _ hempty⟩
    refine ⟨fun l x hx => (hlost l ((List.prefix_append l [x]).trans hx)).2 x hx, ?_⟩
    rw [← discardedIn_eq_zero_iff, h xs List.prefix_rfl, (hlost xs List.prefix_rfl).1]
    rfl
  · intro h l hl
    rw [Ledger.of_lost fun m x hm => h.noLoss m x (hm.trans hl), Finset.card_empty,
      discardedIn_eq_zero_iff]
    exact fun b hb => h.noRestart b ((batchesOf_mono hl).subset hb)

/-- The counter of a new driver, after the datagrams `used`. -/
theorem discarded_polls (options : DriverRuntimeOptions F) {socket : ReceiverSocket} {w : World}
    (hw : Ready w (UdpDriver.initial options socket)) (n : Nat) {used : List RawPacket}
    (hused : deliveries socket w.gets = used ++ deliveries socket
      (polls UdpDriver.pollFullUdp n (w, UdpDriver.initial options socket)).state.1.gets)
    {l : List (Nat × PktHdlMech F)} (hl : used.filterMap packetOf = l.map Prod.snd) :
    (polls UdpDriver.pollFullUdp n
        (w, UdpDriver.initial options socket)).state.2.discardedRevolutions =
      discardedIn (batchesOf l) := by
  obtain ⟨used', hused', hcore⟩ := UdpDriver.polls_used hw n
  cases List.append_cancel_right (hused.symm.trans hused')
  have hshow := (UdpDriver.shows_used (UdpDriver.initial options socket).toDriver used).discarded
  rw [← hcore, hl] at hshow
  rw [hshow]
  exact Nat.zero_add _

theorem exists_run (options : DriverRuntimeOptions F) {socket : ReceiverSocket}
    (hopen : 0 ≤ socket.udpSocket) {l : List (Nat × PktHdlMech F)}
    (hl : ∀ x ∈ l, ∃ raw, packetOf raw = some x.2) :
    ∃ (w : World) (n : Nat) (used : List RawPacket), Ready w (UdpDriver.initial options socket) ∧
      deliveries socket w.gets = used ++ deliveries socket
        (polls UdpDriver.pollFullUdp n (w, UdpDriver.initial options socket)).state.1.gets ∧
      used.filterMap packetOf = l.map Prod.snd := by
  have hraws : ∃ raws : List RawPacket, raws.filterMap packetOf = l.map Prod.snd := by
    induction l with
    | nil => exact ⟨[], rfl⟩
    | cons x l ih =>
      obtain ⟨raw, hraw⟩ := hl x List.mem_cons_self
      obtain ⟨raws, hraws⟩ := ih fun y hy => hl y (List.mem_cons_of_mem x hy)
      exact ⟨raw :: raws, by rw [List.filterMap_cons, hraw, hraws, List.map_cons]⟩
  obtain ⟨raws, hraws⟩ := hraws
  have hready : Ready (quietWorld (datagrams socket.mExpectedAddr raws))
      (UdpDriver.initial options socket) := ⟨rfl, hopen⟩
  have hdel : deliveries socket (datagrams socket.mExpectedAddr raws) = raws :=
    deliveries_datagrams socket.fromSource_expected raws
  have hlen : (deliveries socket (datagrams socket.mExpectedAddr raws)).length <
      raws.length + 1 := by
    rw [hdel]
    exact Nat.lt_succ_self _
  obtain ⟨hdrain, -⟩ := UdpDriver.polls_drain hready (datagrams_quiet _ _ raws) hlen
  refine ⟨_, raws.length + 1, raws, hready, ?_, hraws⟩
  rw [hdrain]
  exact hdel.trans (List.append_nil raws).symm

/-- A new driver reports the number of lost revolutions at every moment exactly when the stream is
undisturbed, so that the number is 0. Packets come with the numbers of their revolutions, which may
be any. -/
theorem reports_iff (options : DriverRuntimeOptions F) {socket : ReceiverSocket}
    (hopen : 0 ≤ socket.udpSocket) {xs : List (Nat × PktHdlMech F)}
    (hxs : ∀ x ∈ xs, ∃ raw, packetOf raw = some x.2) :
    Reports (UdpDriver.initial options socket) xs ↔ Undisturbed xs := by
  rw [← exact_iff]
  constructor
  · intro h l hl
    obtain ⟨w, n, used, hw, hused, hpackets⟩ :=
      exists_run options hopen fun x hx => hxs x (hl.subset hx)
    rw [← discarded_polls options hw n hused hpackets]
    exact h l hl w n used hw hused hpackets
  · intro h l hl w n used hw hused hpackets
    rw [discarded_polls options hw n hused hpackets]
    exact h l hl

/-- The first packets of two revolutions. -/
def interrupted : List (Nat × PktHdlMech F) := [(0, plainPacket 0 0), (1, plainPacket 1 0)]

def interruptedRaws : List RawPacket := [plainRaw 0 0, plainRaw 1 0]

theorem begins_interrupted :
    (assembled [plainPacket 0 0]).Begins (plainPacket 1 0 : PktHdlMech F) := by
  have hfirst : IsFragment 0 [(plainPacket 0 0 : PktHdlMech F)] :=
    ⟨fun p hp => by rw [List.mem_singleton.mp hp, plainPacket_rotationCounter], by simp⟩
  obtain ⟨b, -, hr, -⟩ := assembled_fragment (List.cons_ne_nil _ []) hfirst
  exact begins_next hr (plainPacket_rotationCounter 1 0)

theorem losesTo_interrupted :
    (Ledger.of [(0, plainPacket 0 0)]).losesTo (plainPacket 1 0 : PktHdlMech F) = some 0 := by
  have hone : Ledger.of [(0, (plainPacket 0 0 : PktHdlMech F))] =
      ⟨[plainPacket 0 0], some 0, [(0, 0)], ∅⟩ := by
    refine (Ledger.take_of_begins (begins_fresh _)).trans ?_
    simp [Ledger.initial, Ledger.losesTo]
  have hmiss : ¬ (⟨[plainPacket 0 0], some 0, [(0, 0)], ∅⟩ : Ledger F).Whole 0 :=
    fun h => absurd (h 1 (by decide)) (by simp)
  rw [hone]
  refine Option.filter_eq_some_iff.mpr ⟨rfl, ?_⟩
  exact decide_eq_true ⟨begins_interrupted, hmiss⟩

theorem lost_interrupted : (Ledger.of (interrupted : List (Nat × PktHdlMech F))).lost = {0} := by
  have hone : (Ledger.of [(0, (plainPacket 0 0 : PktHdlMech F))]).lost = ∅ := by
    rw [← List.nil_append [(0, _)], Ledger.of_concat, Ledger.take_lost]
    rfl
  rw [interrupted, ← List.singleton_append, Ledger.of_concat, Ledger.take_lost,
    losesTo_interrupted, hone]
  rfl

theorem batchesOf_interrupted :
    batchesOf (interrupted : List (Nat × PktHdlMech F)) = [] := by
  have hloss : (Ledger.of [(0, plainPacket 0 0)]).losesTo
      (plainPacket 1 0 : PktHdlMech F) ≠ none := by
    rw [losesTo_interrupted]
    exact Option.some_ne_none 0
  have hfirst := completes_of_begins (begins_fresh (plainPacket 0 0 : PktHdlMech F))
  rw [interrupted, ← List.singleton_append,
    batchesOf_of_loss (x := (1, plainPacket 1 0)) hloss, ← List.nil_append [(0, _)], batchesOf,
    List.map_append, Batches.feed_append]
  exact congrArg Batches.done (Batches.add_of_not_full (s := Batches.empty) hfirst)

/-- Revolution 0 is lost as soon as revolution 1 begins, and not reported. -/
theorem loss_not_reported : (Ledger.of (interrupted : List (Nat × PktHdlMech ℝ))).lost = {0} ∧
    (polls UdpDriver.pollFullUdp 3 (quietWorld (datagrams 0 interruptedRaws),
      (plainUdp : UdpDriver ℝ))).state.1.gets = [] ∧
    (polls UdpDriver.pollFullUdp 3 (quietWorld (datagrams 0 interruptedRaws),
      (plainUdp : UdpDriver ℝ))).state.2.discardedRevolutions = 0 ∧
    ¬ Reports (plainUdp : UdpDriver ℝ) interrupted := by
  have hready := ready_plain (F := ℝ) (datagrams 0 interruptedRaws)
  have hpackets : interruptedRaws.filterMap packetOf =
      (interrupted : List (Nat × PktHdlMech ℝ)).map Prod.snd := by
    simp [packetOf_plainRaw, interrupted, interruptedRaws]
  have hdel := deliveries_plain (F := ℝ) interruptedRaws
  have hlen : (deliveries (plainUdp : UdpDriver ℝ).socket
      (quietWorld (datagrams 0 interruptedRaws)).gets).length < 3 := by
    rw [hdel]
    decide
  obtain ⟨hdrain, -⟩ := UdpDriver.polls_drain hready
    (datagrams_quiet (plainUdp : UdpDriver ℝ).socket 0 interruptedRaws) hlen
  have hused : deliveries (plainUdp : UdpDriver ℝ).socket
      (quietWorld (datagrams 0 interruptedRaws)).gets =
        interruptedRaws ++ deliveries (plainUdp : UdpDriver ℝ).socket
          (polls UdpDriver.pollFullUdp 3
            (quietWorld (datagrams 0 interruptedRaws),
              (plainUdp : UdpDriver ℝ))).state.1.gets := by
    rw [hdrain, hdel]
    rfl
  have hzero := discarded_polls plainOptions hready 3 hused hpackets
  rw [batchesOf_interrupted] at hzero
  refine ⟨lost_interrupted, hdrain, hzero, fun hreports => ?_⟩
  have hone := hreports _ List.prefix_rfl _ 3 _ hready hused hpackets
  rw [lost_interrupted] at hone
  exact absurd (hone.symm.trans hzero) (by decide)

theorem reports_iff_plain :
    Reports (plainUdp : UdpDriver ℝ) ((plainRevolution 5).map fun p => (5, p)) ↔
      Undisturbed ((plainRevolution 5 : List (PktHdlMech ℝ)).map fun p => (5, p)) := by
  refine reports_iff plainOptions plainSocket_open ?_
  intro x hx
  obtain ⟨p, hp, rfl⟩ := List.mem_map.mp hx
  obtain ⟨i, -, rfl⟩ := List.mem_map.mp hp
  exact ⟨_, packetOf_plainRaw 5 i⟩

end MechLidar
