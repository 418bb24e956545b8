import MechLidar.Session

/-!
# MechLidar.UdpRuns

Consecutive polls over UDP, as long as `ros::ok()` is true: whatever the kernel answers, the polls
consume a first part of the datagrams that the socket delivers (`deliveries`), one after another,
and do with them what `consume` and `trySingle` do. Without system errors they consume all of
them, or have returned as often as they were called.

* `Ready`: the node runs and its socket is open, as a new one is (`ready_initial`).
* `receiveLoop_spec`: one received packet.
* `fullUdpLoop_spec`, `polls_spec`: one FULL poll, and any number of them.
-/

namespace MechLidar

open Lib

variable {F : Type}

/-- The datagrams that the socket delivers to `receive_udp_packet(buffer, PKT_LEN)`. -/
def deliveries (s : ReceiverSocket) (gets : List Arrival) : List RawPacket :=
  gets.filterMap fun k => k.accepted s 936

/-- The arrival is no system error. -/
def Arrival.Quiet (s : ReceiverSocket) (k : Arrival) : Prop := ∀ e, k.verdict s 936 ≠ .throws e

/-- The sockets have the same source filter. -/
def SameFilter (s s' : ReceiverSocket) : Prop :=
  s'.mFilterBySource = s.mFilterBySource ∧ s'.mExpectedAddr = s.mExpectedAddr

/-- The node runs, and the socket is open. -/
structure Ready (w : World) (d : UdpDriver F) : Prop where
  ok : w.ok = Stream'.const true
  isOpen : 0 ≤ d.socket.udpSocket

/-- On the way to the state `(w', d')` the socket has delivered `got`. -/
structure Progress (d : UdpDriver F) (gets : List Arrival) (got : List RawPacket) (w' : World)
    (d' : UdpDriver F) : Prop where
  filter : SameFilter d.socket d'.socket
  deliveries : deliveries d.socket gets = got ++ deliveries d.socket w'.gets
  suffix : w'.gets <:+ gets

theorem SameFilter.refl (s : ReceiverSocket) : SameFilter s s := ⟨rfl, rfl⟩

theorem SameFilter.trans {s s' s'' : ReceiverSocket} (h : SameFilter s s')
    (h' : SameFilter s' s'') : SameFilter s s'' :=
  ⟨h'.1.trans h.1, h'.2.trans h.2⟩

theorem SameFilter.verdict {s s' : ReceiverSocket} (h : SameFilter s s') (n : Nat) (k : Arrival) :
    k.verdict s' n = k.verdict s n := by
  obtain ⟨hf, he⟩ := h
  have hsrc : s'.fromSource = s.fromSource := by
    funext source
    rw [ReceiverSocket.fromSource, ReceiverSocket.fromSource, hf, he]
  cases k with
  | timeout => rfl
  | pollFailed errno => rfl
  | ready revents recv =>
    cases recv with
    | failed errno => rfl
    | datagram source data => simp only [Arrival.verdict, hsrc]

theorem SameFilter.deliveries {s s' : ReceiverSocket} (h : SameFilter s s') (gets : List Arrival) :
    deliveries s' gets = MechLidar.deliveries s gets := by
  simp only [MechLidar.deliveries, Arrival.accepted, h.verdict]

theorem Progress.trans {d d₁ d' : UdpDriver F} {w₁ w' : World} {gets : List Arrival}
    {got got' : List RawPacket} (h : Progress d gets got w₁ d₁)
    (h' : Progress d₁ w₁.gets got' w' d') : Progress d gets (got ++ got') w' d' where
  filter := h.filter.trans h'.filter
  deliveries := by
    have hd := h'.deliveries
    rw [h.filter.deliveries, h.filter.deliveries] at hd
    rw [h.deliveries, hd, List.append_assoc]
  suffix := h'.suffix.trans h.suffix

theorem Progress.quiet {d d' : UdpDriver F} {w' : World} {gets : List Arrival}
    {got : List RawPacket} (h : Progress d gets got w' d') (hq : ∀ k ∈ gets, k.Quiet d.socket) :
    ∀ k ∈ w'.gets, k.Quiet d'.socket := by
  intro k hk e
  rw [h.filter.verdict]
  exact hq k (h.suffix.subset hk) e

theorem sameFilter_reopen (s : ReceiverSocket) (k : OpenCalls) : SameFilter s (s.reopen k).2 := by
  have hclose : ∀ t : ReceiverSocket, SameFilter t t.closeSocket := by
    intro t
    unfold ReceiverSocket.closeSocket
    split
    · exact ⟨rfl, rfl⟩
    · exact ⟨rfl, rfl⟩
  unfold ReceiverSocket.reopen ReceiverSocket.openSocket
  split
  · exact (hclose s).trans ⟨rfl, rfl⟩
  · dsimp only
    split
    · exact (hclose s).trans (SameFilter.trans ⟨rfl, rfl⟩ (hclose _))
    · exact (hclose s).trans ⟨rfl, rfl⟩

theorem isOpen_of_openSocket {s : ReceiverSocket} {k : OpenCalls}
    (h : (s.openSocket k).1 = none) : 0 ≤ (s.openSocket k).2.udpSocket := by
  unfold ReceiverSocket.openSocket at h ⊢
  cases hk : k.socket with
  | error e => rw [hk] at h; cases h
  | ok descriptor =>
    simp only [hk] at h ⊢
    cases hf : k.failure with
    | some e => rw [hf] at h; cases h
    | none => exact Int.natCast_nonneg descriptor

theorem isOpen_of_reopen {s : ReceiverSocket} {k : OpenCalls} (h : (s.reopen k).1 = none) :
    0 ≤ (s.reopen k).2.udpSocket := isOpen_of_openSocket h

/-- A socket that was constructed is open. -/
theorem isOpen_of_receiverSocket {inetPton : String → Option UInt32} {ipAddr : String}
    {port : Int} {k : OpenCalls} {s : ReceiverSocket}
    (h : ReceiverSocket.receiverSocket inetPton ipAddr port k = .ok s) : 0 ≤ s.udpSocket := by
  have hopen : ∀ t : ReceiverSocket, t.openSocket k = (none, s) → 0 ≤ s.udpSocket := by
    intro t ht
    have hnone := isOpen_of_openSocket (s := t) (k := k)
    rw [ht] at hnone
    exact hnone rfl
  unfold ReceiverSocket.receiverSocket at h
  dsimp only at h
  split at h
  · split at h
    · cases h
    · split at h
      · cases h
      · next hs => cases h; exact hopen _ hs
  · split at h
    · cases h
    · next hs => cases h; exact hopen _ hs

theorem ready_initial [Arith F] (options : DriverRuntimeOptions F)
    (inetPton : String → Option UInt32) {ipAddr : String} {port : Int} (k : OpenCalls)
    {s : ReceiverSocket} (h : ReceiverSocket.receiverSocket inetPton ipAddr port k = .ok s)
    {w : World} (hok : w.ok = Stream'.const true) : Ready w (UdpDriver.initial options s) where
  ok := hok
  isOpen := isOpen_of_receiverSocket h

/-- A datagram that wakes up the poll. -/
def datagram (source : UInt32) (data : List UInt8) : Arrival :=
  .ready ⟨false, false, false, true⟩ (.datagram source data)

theorem datagram_quiet (s : ReceiverSocket) (source : UInt32) (data : List UInt8) :
    (datagram source data).Quiet s := by
  intro e
  by_cases h : s.fromSource source = true ∧ data.length = 936
  · simp [datagram, Arrival.verdict, h]
  · simp [datagram, Arrival.verdict, h]

theorem accepted_datagram {s : ReceiverSocket} {source : UInt32} (hs : s.fromSource source = true)
    {n : Nat} {data : List UInt8} (hn : data.length = n) :
    (datagram source data).accepted s n = some ⟨⟨data⟩, hn⟩ := by
  simp [datagram, Arrival.accepted, Arrival.verdict, hs, hn]

/-- A datagram for each buffer. -/
def datagrams (source : UInt32) (raws : List RawPacket) : List Arrival :=
  raws.map fun raw => datagram source raw.toList

theorem datagrams_quiet (s : ReceiverSocket) (source : UInt32) (raws : List RawPacket) :
    ∀ k ∈ datagrams source raws, k.Quiet s := by
  intro k hk
  obtain ⟨raw, -, rfl⟩ := List.mem_map.mp hk
  exact datagram_quiet s source raw.toList

theorem deliveries_datagrams {s : ReceiverSocket} {source : UInt32}
    (hs : s.fromSource source = true) (raws : List RawPacket) :
    deliveries s (datagrams source raws) = raws := by
  induction raws with
  | nil => rfl
  | cons raw raws ih =>
    have hlen : raw.toList.length = 936 := by simp
    have hraw := accepted_datagram hs hlen
    rw [datagrams, List.map_cons, deliveries, List.filterMap_cons, hraw]
    exact congrArg (raw :: ·) ih

/-- A socket without a source filter. -/
def plainSocket : ReceiverSocket where
  mIpAddr := ""
  mExpectedAddr := 0
  mFilterBySource := false
  mSockPort := 51630
  udpSocket := 3
  fd := 3
  opened := [3]
  closed := []

/-- A running node whose socket gets these arrivals. -/
def quietWorld (gets : List Arrival) : World where
  ok := Stream'.const true
  gets := gets
  opens := []
  strerror := fun _ => ""
  memory := Vector.replicate 936 0

theorem plainSocket_open : 0 ≤ plainSocket.udpSocket := show (0 : Int) ≤ 3 by decide

def plainUdp [Arith F] : UdpDriver F := UdpDriver.initial plainOptions plainSocket

/-- The socket comes from the constructor. -/
theorem ready_plain [Arith F] (gets : List Arrival) :
    Ready (quietWorld gets) (plainUdp : UdpDriver F) :=
  ready_initial plainOptions (fun _ => none) ⟨.ok 3, none, none, none, none⟩
    (show ReceiverSocket.receiverSocket _ "" 51630 _ = .ok plainSocket from rfl) rfl

theorem deliveries_plain [Arith F] (raws : List RawPacket) :
    deliveries (plainUdp : UdpDriver F).socket (quietWorld (datagrams 0 raws)).gets = raws :=
  deliveries_datagrams rfl raws

namespace UdpDriver

/-! ## Receiving -/

theorem sleepSlices_ok (remainingMs : Int) (ok : Stream' Bool) (sleepsMs : List Int)
    (h : ok = Stream'.const true) :
    (sleepSlices remainingMs ok sleepsMs).1 = Stream'.const true := by
  fun_induction sleepSlices remainingMs ok sleepsMs with
  | case1 remainingMs ok sleepsMs hpos hok stepMs ih => exact ih (by rw [h]; rfl)
  | case2 remainingMs ok sleepsMs hpos hok => rw [h]; rfl
  | case3 remainingMs ok sleepsMs hpos => exact h

theorem head_const (b : Bool) : (Stream'.const b).head = b := rfl

/-- The recovery ends with the socket open, or waits for an answer to `reopen`. -/
theorem recover_spec (maxDelayMs : Int) (opens : List OpenCalls) :
    ∀ (retryDelayMs : Int) (w : World) (d : UdpDriver F) {r : Recovery} {w' : World}
      {d' : UdpDriver F}, w.ok = Stream'.const true →
      recover maxDelayMs opens retryDelayMs w d = (r, w', d') →
      d'.toDriver = d.toDriver ∧ SameFilter d.socket d'.socket ∧
        (r = .resume ∧ Ready w' d' ∨ r = .waiting) := by
  induction opens with
  | nil =>
    intro retryDelayMs w d r w' d' hok h
    have hsleep := sleepSlices_ok retryDelayMs _ d.sleepsMs (Stream'.tail_const true)
    rw [recover, hok, if_neg (by rw [head_const]; decide)] at h
    dsimp only at h
    rw [hsleep, if_neg (by rw [head_const]; decide)] at h
    cases h
    exact ⟨rfl, SameFilter.refl _, .inr rfl⟩
  | cons k opens ih =>
    intro retryDelayMs w d r w' d' hok h
    have hsleep := sleepSlices_ok retryDelayMs _ d.sleepsMs (Stream'.tail_const true)
    rw [recover, hok, if_neg (by rw [head_const]; decide)] at h
    dsimp only at h
    rw [hsleep, if_neg (by rw [head_const]; decide)] at h
    have hfilter := sameFilter_reopen d.socket k
    split at h
    · rename_i socket hre
      cases h
      have hopen := isOpen_of_reopen (s := d.socket) (k := k) (by rw [hre])
      rw [hre] at hfilter hopen
      exact ⟨rfl, hfilter, .inl ⟨rfl, Stream'.tail_const true, hopen⟩⟩
    · rename_i e socket hre
      rw [hre] at hfilter
      obtain ⟨hcore, hf, hr⟩ := ih _ _ _ (Stream'.tail_const true) h
      exact ⟨hcore, hfilter.trans hf, hr⟩

section Verdicts

variable (gets : List Arrival) {k : Arrival} {w : World} {d : UdpDriver F}

theorem receiveLoop_delivers (hw : Ready w d) {raw : RawPacket}
    (hv : k.verdict d.socket 936 = .delivers raw) (buffer : RawPacket) :
    receiveLoop (k :: gets) buffer w d =
      (.packet raw, { w with ok := Stream'.const true, gets := gets }, d) := by
  have hget := getPacket_verdict hw.isOpen buffer k
  rw [hv, Verdict.Describes] at hget
  rw [receiveLoop, hw.ok, if_neg (by rw [head_const]; decide), Stream'.tail_const]
  dsimp only
  rw [hget]
  rfl

theorem receiveLoop_skips (hw : Ready w d) (hv : k.verdict d.socket 936 = .skips)
    (buffer : RawPacket) : ∃ buffer',
      receiveLoop (k :: gets) buffer w d =
        receiveLoop gets buffer' { w with ok := Stream'.const true } d := by
  have hget := getPacket_verdict hw.isOpen buffer k
  rw [hv, Verdict.Describes] at hget
  obtain ⟨c, buffer', hc, hget⟩ := hget
  refine ⟨buffer', ?_⟩
  rw [receiveLoop, hw.ok, if_neg (by rw [head_const]; decide), Stream'.tail_const]
  dsimp only
  rw [hget]
  exact if_neg hc

/-- After a system error the loop goes on with a new socket, or waits for one. -/
theorem receiveLoop_throws (hw : Ready w d) {e : SystemError}
    (hv : k.verdict d.socket 936 = .throws e) (buffer : RawPacket) :
    ∃ w₁ d₁, d₁.toDriver = d.toDriver ∧ SameFilter d.socket d₁.socket ∧
      (Ready w₁ d₁ ∧ receiveLoop (k :: gets) buffer w d = receiveLoop gets buffer w₁ d₁ ∨
        w₁.gets = gets ∧ receiveLoop (k :: gets) buffer w d = (.waiting, w₁, d₁)) := by
  have hget := getPacket_verdict hw.isOpen buffer k
  rw [hv, Verdict.Describes] at hget
  rw [receiveLoop, hw.ok, if_neg (by rw [head_const]; decide), Stream'.tail_const]
  dsimp only
  rw [hget]
  dsimp only
  split
  · rename_i w₁ d₁ hre
    obtain ⟨hcore, hf, ⟨-, hready⟩ | hno⟩ := recover_spec _ _ _ _ _ rfl hre
    · exact ⟨w₁, d₁, hcore, hf, .inl ⟨hready, rfl⟩⟩
    · cases hno
  · rename_i w₁ d₁ hre
    obtain ⟨-, -, ⟨hno, -⟩ | hno⟩ := recover_spec _ _ _ _ _ rfl hre
    · cases hno
    · cases hno
  · rename_i w₁ d₁ hre
    obtain ⟨hcore, hf, -⟩ := recover_spec _ _ _ _ _ rfl hre
    exact ⟨{ w₁ with gets := gets }, d₁, hcore, hf, .inr ⟨rfl, rfl⟩⟩

end Verdicts

/-- A received packet is the next one that the socket delivers. If no arrival is a system error,
the driver waits for a packet only when there is none. -/
theorem receiveLoop_spec (gets : List Arrival) :
    ∀ (buffer : RawPacket) (w : World) (d : UdpDriver F), Ready w d →
      ∃ r got w' d', receiveLoop gets buffer w d = (r, w', d') ∧ d'.toDriver = d.toDriver ∧
        Progress d gets got w' d' ∧
        ((∃ raw, r = .packet raw ∧ got = [raw] ∧ Ready w' d') ∨
          (r = .waiting ∧ got = [] ∧ ((∀ k ∈ gets, k.Quiet d.socket) → w'.gets = []))) := by
  induction gets with
  | nil =>
    intro buffer w d hw
    refine ⟨.waiting, [], { w with ok := (Stream'.const true).tail, gets := [] }, d, ?_, rfl,
      ⟨SameFilter.refl _, rfl, List.suffix_rfl⟩, .inr ⟨rfl, rfl, fun _ => rfl⟩⟩
    rw [receiveLoop, hw.ok, if_neg (by rw [head_const]; decide)]
  | cons k gets ih =>
    intro buffer w d hw
    have hsuf := List.suffix_cons k gets
    cases hv : k.verdict d.socket 936 with
    | throws e =>
      have hdrop : deliveries d.socket (k :: gets) = deliveries d.socket gets := by
        simp [deliveries, Arrival.accepted, hv]
      have hnoisy : ¬ ∀ k' ∈ k :: gets, k'.Quiet d.socket :=
        fun hq => hq k List.mem_cons_self e hv
      obtain ⟨w₁, d₁, hcore, hf, ⟨hready, heq⟩ | ⟨hgets, heq⟩⟩ :=
        receiveLoop_throws gets hw hv buffer
      · obtain ⟨r, got, w', d', hrun, hcore', hp, hcases⟩ := ih buffer w₁ d₁ hready
        have hdel := hp.deliveries
        rw [hf.deliveries, hf.deliveries] at hdel
        refine ⟨r, got, w', d', heq.trans hrun, hcore'.trans hcore,
          ⟨hf.trans hp.filter, hdrop.trans hdel, hp.suffix.trans hsuf⟩, ?_⟩
        rcases hcases with hpacket | ⟨hr, hgot, -⟩
        · exact .inl hpacket
        · exact .inr ⟨hr, hgot, fun hq => absurd hq hnoisy⟩
      · exact ⟨.waiting, [], w₁, d₁, heq, hcore, ⟨hf, by rw [hdrop, hgets]; rfl, hgets ▸ hsuf⟩,
          .inr ⟨rfl, rfl, fun hq => absurd hq hnoisy⟩⟩
    | skips =>
      have hdrop : deliveries d.socket (k :: gets) = deliveries d.socket gets := by
        simp [deliveries, Arrival.accepted, hv]
      obtain ⟨buffer', heq⟩ := receiveLoop_skips gets hw hv buffer
      obtain ⟨r, got, w', d', hrun, hcore, hp, hcases⟩ :=
        ih buffer' { w with ok := Stream'.const true } d ⟨rfl, hw.isOpen⟩
      refine ⟨r, got, w', d', heq.trans hrun, hcore,
        ⟨hp.filter, hdrop.trans hp.deliveries, hp.suffix.trans hsuf⟩, ?_⟩
      rcases hcases with hpacket | ⟨hr, hgot, hq⟩
      · exact .inl hpacket
      · exact .inr ⟨hr, hgot, fun hall => hq fun k' hk' =>
          hall k' (List.mem_cons_of_mem k hk')⟩
    | delivers raw =>
      refine ⟨_, [raw], _, _, receiveLoop_delivers gets hw hv buffer, rfl,
        ⟨SameFilter.refl _, ?_, hsuf⟩, .inl ⟨raw, rfl, rfl, rfl, hw.isOpen⟩⟩
      simp [deliveries, Arrival.accepted, hv]

/-! ## FULL polls -/

variable [Arith F]

section Loop

variable {a : FullScanAssembler F} {w w' : World} {d d' : UdpDriver F}

theorem fullUdpLoop_complete (hok : w.ok = Stream'.const true) (ha : a.complete = true) :
    fullUdpLoop a w d = .returned ({ w with ok := Stream'.const true },
      { d with toDriver := d.toDriver.publishFull a }) := by
  rw [fullUdpLoop, hok, Stream'.tail_const, if_neg (by simp [ha])]

theorem fullUdpLoop_packet (hok : w.ok = Stream'.const true) (ha : a.complete = false)
    {raw : RawPacket}
    (hr : receiveUdpPacket { w with ok := Stream'.const true } d = (.packet raw, w', d')) :
    fullUdpLoop a w d = fullUdpLoop (d'.toDriver.tryAdd a raw).2 w'
      { d' with toDriver := (d'.toDriver.tryAdd a raw).1 } := by
  rw [fullUdpLoop, hok, Stream'.tail_const, if_pos ⟨rfl, ha⟩]
  split
  · rename_i h
    rw [hr] at h
    cases h
    rfl
  · rename_i h
    rw [hr] at h
    cases h
  · rename_i h
    rw [hr] at h
    cases h

theorem fullUdpLoop_waiting (hok : w.ok = Stream'.const true) (ha : a.complete = false)
    (hr : receiveUdpPacket { w with ok := Stream'.const true } d = (.waiting, w', d')) :
    fullUdpLoop a w d = .waiting (w', d') := by
  rw [fullUdpLoop, hok, Stream'.tail_const, if_pos ⟨rfl, ha⟩]
  split
  · rename_i h
    rw [hr] at h
    cases h
  · rename_i h
    rw [hr] at h
    cases h
  · rename_i h
    rw [hr] at h
    cases h
    rfl

end Loop

theorem tryAdd_messages (d : Driver F) (a : FullScanAssembler F) (raw : RawPacket) :
    (d.tryAdd a raw).1.messagesPublished = d.messagesPublished := by
  cases hd : (decode raw : Except PacketError (PktHdlMech F)) with
  | error e => rw [tryAdd_error d a hd]; rfl
  | ok p => rw [tryAdd_ok d a hd]; rfl

/-- One FULL poll, from any point of its loop: it returns with one more publication, or waits. -/
theorem fullUdpLoop_spec (n : Nat) :
    ∀ (a : FullScanAssembler F) (w : World) (d : UdpDriver F), w.gets.length = n → Ready w d →
      a.complete = false →
      ∃ used w' d', Progress d w.gets used w' d' ∧
        (used.foldl consume (d.toDriver, a)).1 = d'.toDriver ∧
        ((fullUdpLoop a w d = .returned (w', d') ∧ Ready w' d' ∧
            (used.foldl consume (d.toDriver, a)).2 = FullScanAssembler.fresh ∧
            d'.messagesPublished = d.messagesPublished + 1) ∨
          (fullUdpLoop a w d = .waiting (w', d') ∧
            d'.messagesPublished = d.messagesPublished ∧
            ((∀ k ∈ w.gets, k.Quiet d.socket) → w'.gets = []))) := by
  induction n using Nat.strongRecOn with
  | ind n ih =>
    intro a w d hn hw ha
    obtain ⟨r, got, w₁, d₁, hrun, hcore, hp, ⟨raw, rfl, rfl, hready⟩ | ⟨rfl, rfl, hq⟩⟩ :=
      receiveLoop_spec w.gets w.memory { w with ok := Stream'.const true } d ⟨rfl, hw.isOpen⟩
    · have hlt : w₁.gets.length < n := hn ▸ receiveLoop_length _ _ _ _ hrun
      have hm := tryAdd_messages d.toDriver a raw
      rw [fullUdpLoop_packet hw.ok ha hrun, hcore]
      cases hc : (d.toDriver.tryAdd a raw).2.complete with
      | true =>
        have hcons := consume_complete (s := (d.toDriver, a)) hc
        obtain ⟨-, -, hm', -⟩ := publishFull_eq (d.toDriver.tryAdd a raw).1
          (d.toDriver.tryAdd a raw).2
        let r := d.toDriver.tryAdd a raw
        refine ⟨[raw], { w₁ with ok := Stream'.const true },
          { d₁ with toDriver := r.1.publishFull r.2 }, ⟨hp.filter, hp.deliveries, hp.suffix⟩, ?_,
          .inl ⟨fullUdpLoop_complete hready.ok hc, ⟨rfl, hready.isOpen⟩, ?_, ?_⟩⟩
        · rw [List.foldl_cons, hcons]
          rfl
        · rw [List.foldl_cons, hcons]
          rfl
        · exact hm'.trans (by rw [hm])
      | false =>
        have hcons := consume_open (s := (d.toDriver, a)) hc
        have hready' : Ready w₁ { d₁ with toDriver := (d.toDriver.tryAdd a raw).1 } :=
          ⟨hready.ok, hready.isOpen⟩
        have hp₁ : Progress d w.gets [raw] w₁
            { d₁ with toDriver := (d.toDriver.tryAdd a raw).1 } :=
          ⟨hp.filter, hp.deliveries, hp.suffix⟩
        obtain ⟨used, w', d', hp', hfold, hcases⟩ := ih _ hlt _ _ _ rfl hready' hc
        refine ⟨raw :: used, w', d', hp₁.trans hp', ?_, ?_⟩
        · rw [List.foldl_cons, hcons]
          exact hfold
        · rw [List.foldl_cons, hcons]
          rcases hcases with ⟨hres, hready'', hfresh, hm'⟩ | ⟨hres, hm', hq⟩
          · exact .inl ⟨hres, hready'', hfresh, hm'.trans (by rw [← hm])⟩
          · exact .inr ⟨hres, hm'.trans hm, fun hquiet => hq (hp₁.quiet hquiet)⟩
    · refine ⟨[], w₁, d₁, ⟨hp.filter, hp.deliveries, hp.suffix⟩, hcore.symm,
        .inr ⟨fullUdpLoop_waiting hw.ok ha hrun, by rw [hcore], hq⟩⟩

theorem polls_spec (n : Nat) :
    ∀ (w : World) (d : UdpDriver F), Ready w d →
      ∃ used w' d', Progress d w.gets used w' d' ∧
        (used.foldl consume (d.toDriver, FullScanAssembler.fresh)).1 = d'.toDriver ∧
        ((polls pollFullUdp n (w, d) = .returned (w', d') ∧
            d'.messagesPublished = d.messagesPublished + n) ∨
          (polls pollFullUdp n (w, d) = .waiting (w', d') ∧
            d'.messagesPublished ≤ d.messagesPublished + n ∧
            ((∀ k ∈ w.gets, k.Quiet d.socket) → w'.gets = []))) := by
  induction n with
  | zero =>
    intro w d hw
    exact ⟨[], w, d, ⟨SameFilter.refl _, rfl, List.suffix_rfl⟩, rfl, .inl ⟨rfl, rfl⟩⟩
  | succ n ih =>
    intro w d hw
    obtain ⟨used, w₁, d₁, hp, hfold, ⟨hrun, hready, hfresh, hm⟩ | ⟨hrun, hm, hq⟩⟩ :=
      fullUdpLoop_spec _ FullScanAssembler.fresh w d rfl hw rfl
    · have hpoll : polls pollFullUdp (n + 1) (w, d) = polls pollFullUdp n (w₁, d₁) := by
        rw [polls, pollFullUdp, hrun]
      obtain ⟨used', w', d', hp', hfold', hcases⟩ := ih w₁ d₁ hready
      refine ⟨used ++ used', w', d', hp.trans hp', ?_, ?_⟩
      · have hstate : used.foldl consume (d.toDriver, FullScanAssembler.fresh) =
            (d₁.toDriver, FullScanAssembler.fresh) := Prod.ext hfold hfresh
        rw [List.foldl_append, hstate]
        exact hfold'
      · rw [hpoll]
        rcases hcases with ⟨hres, hm'⟩ | ⟨hres, hm', hq⟩
        · exact .inl ⟨hres, by omega⟩
        · exact .inr ⟨hres, by omega, fun hquiet => hq (hp.quiet hquiet)⟩
    · refine ⟨used, w₁, d₁, hp, hfold, .inr ⟨?_, by omega, hq⟩⟩
      rw [polls, pollFullUdp, hrun]

theorem shows_used (d : Driver F) (used : List RawPacket) :
    Shows d (Batches.feed completes Batches.empty (used.filterMap packetOf)).done
      (used.foldl consume (d, FullScanAssembler.fresh)).1 :=
  (shows_consumeAll used (s := Batches.empty) (shows_refl d) completes_nil).1

/-- Whatever the kernel answers, the polls have done with the datagrams delivered so far what
`consume` does with them. -/
theorem polls_used {w : World} {d : UdpDriver F} (hw : Ready w d) (n : Nat) :
    ∃ used, deliveries d.socket w.gets =
        used ++ deliveries d.socket (polls pollFullUdp n (w, d)).state.1.gets ∧
      (polls pollFullUdp n (w, d)).state.2.toDriver =
        (used.foldl consume (d.toDriver, FullScanAssembler.fresh)).1 := by
  obtain ⟨used, w', d', hp, hfold, ⟨hres, -⟩ | ⟨hres, -⟩⟩ := polls_spec n w d hw
  · rw [hres]
    exact ⟨used, hp.deliveries, hfold.symm⟩
  · rw [hres]
    exact ⟨used, hp.deliveries, hfold.symm⟩

/-- Without system errors, more polls than datagrams consume all of them, and the last one waits. -/
theorem polls_drain {w : World} {d : UdpDriver F} (hw : Ready w d)
    (hquiet : ∀ k ∈ w.gets, k.Quiet d.socket) {n : Nat}
    (hn : (deliveries d.socket w.gets).length < n) :
    (polls pollFullUdp n (w, d)).state.1.gets = [] ∧
      (polls pollFullUdp n (w, d)).state.2.toDriver =
        ((deliveries d.socket w.gets).foldl consume (d.toDriver, FullScanAssembler.fresh)).1 := by
  obtain ⟨used, w', d', hp, hfold, ⟨hres, hm⟩ | ⟨hres, -, hq⟩⟩ := polls_spec n w d hw
  · have hshow := (shows_used d.toDriver used).messages
    have hdone := Batches.feed_length_le completes Batches.empty
      (used.filterMap packetOf : List (PktHdlMech F))
    have hpackets := List.length_filterMap_le (packetOf (F := F)) used
    have hempty : (Batches.empty : Batches (PktHdlMech F)).done.length = 0 := rfl
    rw [hfold] at hshow
    rw [hp.deliveries, List.length_append] at hn
    omega
  · have hall : deliveries d.socket w.gets = used := by
      rw [hp.deliveries, hq hquiet]
      exact List.append_nil used
    rw [hres, hall]
    exact ⟨hq hquiet, hfold.symm⟩

/-- Without system errors, `n` polls publish the first `n` batches of the stream. -/
theorem polls_quiet {w : World} {d : UdpDriver F} (hw : Ready w d)
    (hquiet : ∀ k ∈ w.gets, k.Quiet d.socket) (n : Nat) :
    Shows d.toDriver ((Batches.feed completes Batches.empty
        ((deliveries d.socket w.gets).filterMap packetOf)).done.take n)
      (polls pollFullUdp n (w, d)).state.2.toDriver := by
  obtain ⟨used, w', d', hp, hfold, hcases⟩ := polls_spec n w d hw
  have hshow := shows_used d.toDriver used
  rw [hfold] at hshow
  have hlen := hshow.messages
  rcases hcases with ⟨hres, hm⟩ | ⟨hres, hm, hq⟩
  · have hpre := Batches.done_feed completes
      (Batches.feed completes Batches.empty (used.filterMap packetOf : List (PktHdlMech F)))
      ((deliveries d.socket w'.gets).filterMap packetOf)
    have htake := List.prefix_iff_eq_take.mp hpre
    rw [show (Batches.feed completes Batches.empty (used.filterMap packetOf :
      List (PktHdlMech F))).done.length = n by omega] at htake
    rw [hres, hp.deliveries, List.filterMap_append, Batches.feed_append, ← htake]
    exact hshow
  · have hall : deliveries d.socket w.gets = used := by
      rw [hp.deliveries, hq hquiet]
      exact List.append_nil used
    rw [hres, hall, List.take_of_length_le (by omega)]
    exact hshow

theorem polls_plain (raws : List RawPacket) (n : Nat) :
    Shows (plainUdp : UdpDriver F).toDriver
      ((Batches.feed completes Batches.empty (raws.filterMap packetOf)).done.take n)
      (polls pollFullUdp n (quietWorld (datagrams 0 raws), plainUdp)).state.2.toDriver := by
  have hshow := polls_quiet (ready_plain (F := F) (datagrams 0 raws)) (datagrams_quiet _ 0 raws) n
  rw [deliveries_plain] at hshow
  exact hshow

theorem publications_plain (raws : List RawPacket) (n : Nat) :
    (polls pollFullUdp n (quietWorld (datagrams 0 raws),
        (plainUdp : UdpDriver F))).state.2.publications =
      ((Batches.feed completes Batches.empty (raws.filterMap packetOf)).done.take n).map
        (publicationOf plainOptions) :=
  (polls_plain raws n).publications

/-! ## SINGLE polls -/

/-- Without system errors, `n` polls handle the first `n` datagrams of the stream. -/
theorem polls_single (n : Nat) :
    ∀ (w : World) (d : UdpDriver F), Ready w d → (∀ k ∈ w.gets, k.Quiet d.socket) →
      (polls pollUdp n (w, d)).state.2.toDriver =
        ((deliveries d.socket w.gets).take n).foldl Driver.trySingle d.toDriver := by
  induction n with
  | zero => intro w d _ _; rfl
  | succ n ih =>
    intro w d hw hquiet
    obtain ⟨r, got, w₁, d₁, hrun, hcore, hp, ⟨raw, rfl, rfl, hready⟩ | ⟨rfl, rfl, hq⟩⟩ :=
      receiveLoop_spec w.gets w.memory w d hw
    · have hpoll : polls pollUdp (n + 1) (w, d) =
          polls pollUdp n (w₁, { d₁ with toDriver := d₁.toDriver.trySingle raw }) := by
        rw [polls, pollUdp, receiveUdpPacket, hrun]
      have hrest := ih w₁ { d₁ with toDriver := d₁.toDriver.trySingle raw }
        ⟨hready.ok, hready.isOpen⟩ (hp.quiet hquiet)
      refine (congrArg (fun r => r.state.2.toDriver) hpoll).trans (hrest.trans ?_)
      rw [hp.deliveries, List.singleton_append, List.take_succ_cons, List.foldl_cons, hcore,
        hp.filter.deliveries]
    · have hnone : deliveries d.socket w.gets = [] := by
        rw [hp.deliveries, hq hquiet]
        rfl
      rw [polls, pollUdp, receiveUdpPacket, hrun, hnone]
      exact hcore

end UdpDriver

end MechLidar
