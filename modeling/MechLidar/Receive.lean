import MechLidar.Descriptors
import MechLidar.UdpRuns

/-!
# MechLidar.Receive

Which datagram `receive_udp_packet(buffer, 936)` waits for, said about what `recvfrom` returns and
the address in the configuration.

* `Arrival.received`: the datagram that `recvfrom` returns, if it comes to that
* `wanted`: 936 bytes, from the configured address, or from any if there is none
* `Arrival.fails`, `OpenCalls.succeeds`: the system errors, and the reopens that end them
* `receives_first_wanted`: the first wanted datagram is received, and nothing else
-/

namespace MechLidar

open Lib

variable {F : Type}

/-! ## Datagrams -/

def Revents.failed (revents : Revents) : Bool :=
  revents.pollErr || revents.pollHup || revents.pollNval

def Arrival.received : Arrival → Option (UInt32 × List UInt8)
  | .ready revents (.datagram source data) =>
    if revents.failed || !revents.pollIn then none else some (source, data)
  | _ => none

def wanted (inetPton : String → Option UInt32) (ipAddr : String)
    (datagram : UInt32 × List UInt8) : Bool :=
  datagram.2.length == 936 &&
    (ipAddr == "" || ipAddr == "0.0.0.0" || inetPton ipAddr == some datagram.1)

/-- The first wanted datagram, and what arrives behind it. -/
def firstWanted (inetPton : String → Option UInt32) (ipAddr : String) :
    List Arrival → Option (List UInt8 × List Arrival)
  | [] => none
  | k :: gets =>
    match k.received with
    | none => firstWanted inetPton ipAddr gets
    | some datagram =>
      if wanted inetPton ipAddr datagram then some (datagram.2, gets)
      else firstWanted inetPton ipAddr gets

/-- `get_packet` throws. -/
def Arrival.fails : Arrival → Bool
  | .timeout => false
  | .pollFailed errno => errno ≠ EINTR
  | .ready revents recv =>
    revents.failed ||
      (revents.pollIn && match recv with
        | .failed errno => decide (errno ≠ EAGAIN)
        | .datagram _ _ => false)

def OpenCalls.succeeds (k : OpenCalls) : Bool := k.socket.toBool && k.failure.isNone

/-! ## Verdicts -/

section Verdict

variable {inetPton : String → Option UInt32} {ipAddr : String} {port : Int} {s : ReceiverSocket}

theorem configured_of_receiverSocket {k : OpenCalls}
    (h : ReceiverSocket.receiverSocket inetPton ipAddr port k = .ok s) :
    SocketObject.Configured inetPton ipAddr port s := by
  have hconstruct : SocketObject.construct inetPton ipAddr port k =
      .ok ⟨s, true, noEvents, port, 0⟩ := by
    simp only [SocketObject.construct, h]
  rw [SocketObject.construct_eq] at hconstruct
  cases haddr : SocketObject.expectedAddr inetPton ipAddr with
  | none =>
    rw [haddr] at hconstruct
    cases hconstruct
  | some addr =>
    simp only [haddr] at hconstruct
    rcases SocketObject.openSocket_cases (SocketObject.initial ipAddr port addr) k with
      ⟨e, hfailed, -, -, -⟩ | ⟨d, -, -, hopen⟩
    · rw [show (SocketObject.initial ipAddr port addr).openSocket k = (some e, _) from
        Prod.ext hfailed rfl] at hconstruct
      cases hconstruct
    · rw [hopen] at hconstruct
      have hs := congrArg SocketObject.toReceiverSocket (Except.ok.inj hconstruct)
      rw [← show _ = s from hs]
      exact ⟨rfl, rfl, rfl, haddr⟩

/-- The source filter of the object is the one of the configuration. -/
theorem fromSource_iff (h : SocketObject.Configured inetPton ipAddr port s) (source : UInt32) :
    s.fromSource source = true ↔
      ipAddr = "" ∨ ipAddr = "0.0.0.0" ∨ inetPton ipAddr = some source := by
  have haddr := h.mExpectedAddr
  rw [SocketObject.expectedAddr] at haddr
  rw [ReceiverSocket.fromSource, h.mFilterBySource]
  by_cases hempty : ipAddr = ""
  · simp [hempty]
  · by_cases hzero : ipAddr = "0.0.0.0"
    · have hoff : (ipAddr != "0.0.0.0") = false := bne_eq_false_iff_eq.2 hzero
      rw [hoff, Bool.and_false, Bool.false_and]
      exact iff_of_true rfl (.inr (.inl hzero))
    · rw [if_pos (by simp [hempty, hzero])] at haddr
      have hon : (ipAddr != "" && ipAddr != "0.0.0.0") = true := by simp [hempty, hzero]
      rw [hon, Bool.true_and, haddr]
      simpa [hempty, hzero] using eq_comm

theorem verdict_error {revents : Revents} (h : revents.failed = true) (recv : Recv) :
    (Arrival.ready revents recv).verdict s 936 =
      .throws ⟨ EIO, "poll() reported a socket error"⟩ :=
  if_pos h

theorem verdict_idle {revents : Revents} (herr : revents.failed = false)
    (hin : revents.pollIn = false) (recv : Recv) :
    (Arrival.ready revents recv).verdict s 936 = .skips :=
  (if_neg (by simpa [Revents.failed] using herr)).trans (if_pos hin)

theorem verdict_recvfrom {revents : Revents} (herr : revents.failed = false)
    (hin : revents.pollIn = true) (errno : Nat) :
    (Arrival.ready revents (.failed errno)).verdict s 936 =
      if errno ≠ EAGAIN then .throws ⟨errno, "recvfrom() failed"⟩ else .skips :=
  (if_neg (by simpa [Revents.failed] using herr)).trans (if_neg (by simp [hin]))

theorem verdict_datagram {revents : Revents} (herr : revents.failed = false)
    (hin : revents.pollIn = true) (source : UInt32) (data : List UInt8) :
    (Arrival.ready revents (.datagram source data)).verdict s 936 =
      if h : s.fromSource source = true ∧ data.length = 936 then .delivers ⟨⟨data⟩, h.2⟩
      else .skips :=
  (if_neg (by simpa [Revents.failed] using herr)).trans (if_neg (by simp [hin]))

theorem verdict_fails {k : Arrival} (h : k.fails = true) : ∃ e, k.verdict s 936 = .throws e := by
  cases k with
  | timeout => cases h
  | pollFailed errno =>
    have hne : errno ≠ EINTR := by simpa [Arrival.fails] using h
    exact ⟨_, if_neg hne⟩
  | ready revents recv =>
    by_cases herr : revents.failed = true
    · exact ⟨_, verdict_error herr recv⟩
    · rw [Bool.not_eq_true] at herr
      cases recv with
      | datagram source data => simp [Arrival.fails, herr] at h
      | failed errno =>
        obtain ⟨hin, hne⟩ : revents.pollIn = true ∧ errno ≠ EAGAIN := by
          simpa [Arrival.fails, herr] using h
        exact ⟨_, (verdict_recvfrom herr hin errno).trans (if_pos hne)⟩

theorem verdict_wanted (h : SocketObject.Configured inetPton ipAddr port s) {k : Arrival}
    {datagram : UInt32 × List UInt8} (hk : k.received = some datagram)
    (hw : wanted inetPton ipAddr datagram = true) :
    ∃ raw : RawPacket, raw.toList = datagram.2 ∧ k.verdict s 936 = .delivers raw := by
  obtain ⟨source, data⟩ := datagram
  obtain ⟨hlen, hsource⟩ : data.length = 936 ∧
      (ipAddr = "" ∨ ipAddr = "0.0.0.0" ∨ inetPton ipAddr = some source) := by
    simpa [wanted, or_assoc] using hw
  cases k with
  | timeout => cases hk
  | pollFailed errno => cases hk
  | ready revents recv =>
    cases recv with
    | failed errno => cases hk
    | datagram source' data' =>
      rw [Arrival.received] at hk
      split at hk
      · cases hk
      · next hready =>
        cases hk
        obtain ⟨herr, hin⟩ : revents.failed = false ∧ revents.pollIn = true := by
          simpa using hready
        refine ⟨⟨⟨data⟩, hlen⟩, rfl, ?_⟩
        rw [verdict_datagram herr hin]
        exact dif_pos ⟨(fromSource_iff h source).2 hsource, hlen⟩

theorem verdict_skips (h : SocketObject.Configured inetPton ipAddr port s) {k : Arrival}
    (hk : k.fails = false) (hw : ∀ datagram, k.received = some datagram →
      wanted inetPton ipAddr datagram = false) : k.verdict s 936 = .skips := by
  cases k with
  | timeout => rfl
  | pollFailed errno =>
    have heq : errno = EINTR := by simpa [Arrival.fails] using hk
    exact if_pos heq
  | ready revents recv =>
    obtain ⟨herr, hrecv⟩ := Bool.or_eq_false_iff.1 hk
    by_cases hin : revents.pollIn = true
    · cases recv with
      | failed errno =>
        have heq : errno = EAGAIN := by simpa [hin] using hrecv
        exact (verdict_recvfrom herr hin errno).trans (if_neg (by simp [heq]))
      | datagram source data =>
        have hnot := hw (source, data) (by simp [Arrival.received, herr, hin])
        rw [verdict_datagram herr hin]
        refine dif_neg ?_
        rintro ⟨hsource, hlen⟩
        have hyes : wanted inetPton ipAddr (source, data) = true := by
          simpa [wanted, or_assoc, hlen] using (fromSource_iff h source).1 hsource
        rw [hyes] at hnot
        cases hnot
    · exact verdict_idle herr (by simpa using hin) recv

end Verdict

namespace UdpDriver

/-! ## Recoveries -/

theorem reopen_succeeds_iff (s : ReceiverSocket) (k : OpenCalls) :
    (s.reopen k).1 = none ↔ k.succeeds = true := by
  rw [ReceiverSocket.reopen, ReceiverSocket.openSocket, OpenCalls.succeeds]
  cases hsocket : k.socket with
  | error e => simp [Except.toBool]
  | ok d =>
    cases hfailure : k.failure with
    | none => simp [Except.toBool]
    | some e => simp [Except.toBool]

/-- A recovery that will see a successful reopen ends with it. -/
theorem recover_succeeds (maxDelayMs : Int) (opens : List OpenCalls) :
    ∀ (retryDelayMs : Int) (w : World) (d : UdpDriver F) {r : Recovery} {w' : World}
      {d' : UdpDriver F}, w.ok = Stream'.const true → 0 < opens.countP OpenCalls.succeeds →
      recover maxDelayMs opens retryDelayMs w d = (r, w', d') →
      r = .resume ∧
        w'.opens.countP OpenCalls.succeeds + 1 = opens.countP OpenCalls.succeeds := by
  induction opens with
  | nil => intro _ _ _ _ _ _ _ h; exact absurd h (by simp)
  | cons k opens ih =>
    intro retryDelayMs w d r w' d' hok hpos h
    have hsleep := sleepSlices_ok retryDelayMs _ d.sleepsMs (Stream'.tail_const true)
    rw [recover, hok, if_neg (by rw [head_const]; decide)] at h
    dsimp only at h
    rw [hsleep, if_neg (by rw [head_const]; decide)] at h
    have hiff := reopen_succeeds_iff d.socket k
    by_cases hk : k.succeeds = true
    · have hnone := hiff.2 hk
      rw [show d.socket.reopen k = (none, (d.socket.reopen k).2) from Prod.ext hnone rfl] at h
      cases h
      exact ⟨rfl, by simp [hk]⟩
    · cases hre : (d.socket.reopen k).1 with
      | none => exact absurd (hiff.1 hre) hk
      | some e =>
        rw [show d.socket.reopen k = (some e, (d.socket.reopen k).2) from Prod.ext hre rfl] at h
        rw [List.countP_cons_of_neg hk] at hpos ⊢
        exact ih _ _ _ (Stream'.tail_const true) hpos h

/-- The node runs with an open socket that filters as `s` does, and every system error to come
will be followed by a successful reopen. -/
structure Receiving (s : ReceiverSocket) (gets : List Arrival) (w : World) (d : UdpDriver F) :
    Prop where
  ready : Ready w d
  filter : SameFilter s d.socket
  reopens : gets.countP Arrival.fails ≤ w.opens.countP OpenCalls.succeeds

section Receiving

variable {inetPton : String → Option UInt32} {ipAddr : String} {port : Int} {s : ReceiverSocket}
  {k : Arrival} {gets : List Arrival} {w : World} {d : UdpDriver F}

theorem received_of_fails (h : k.fails = true) : k.received = none := by
  cases k with
  | timeout => rfl
  | pollFailed errno => rfl
  | ready revents recv =>
    cases recv with
    | failed errno => rfl
    | datagram source data =>
      have herr : revents.failed = true := by simpa [Arrival.fails] using h
      simp [Arrival.received, herr]

/-- A system error is followed by a recovery, and the loop goes on. -/
theorem receiveLoop_recovers (h : Receiving s (k :: gets) w d) (hk : k.fails = true)
    (buffer : RawPacket) : ∃ w₁ d₁, Receiving s gets w₁ d₁ ∧
      receiveLoop (k :: gets) buffer w d = receiveLoop gets buffer w₁ d₁ := by
  obtain ⟨e, hv⟩ := verdict_fails (s := d.socket) hk
  have hget := getPacket_verdict h.ready.isOpen buffer k
  rw [hv, Verdict.Describes] at hget
  have hreopens := h.reopens
  rw [List.countP_cons_of_pos hk] at hreopens
  have hpos : 0 < w.opens.countP OpenCalls.succeeds := by omega
  rw [receiveLoop, h.ready.ok, if_neg (by rw [head_const]; decide), Stream'.tail_const]
  dsimp only
  rw [hget]
  dsimp only
  split
  · next w₁ d₁ hre =>
    obtain ⟨-, hcount⟩ := recover_succeeds _ _ _ _ _ rfl hpos hre
    obtain ⟨-, hf, ⟨-, hready⟩ | hno⟩ := recover_spec _ _ _ _ _ rfl hre
    · exact ⟨_, _, ⟨hready, h.filter.trans hf, by omega⟩, rfl⟩
    · cases hno
  · next w₁ d₁ hre => cases (recover_succeeds _ _ _ _ _ rfl hpos hre).1
  · next w₁ d₁ hre => cases (recover_succeeds _ _ _ _ _ rfl hpos hre).1

/-- The loop returns the first wanted datagram, or waits for one behind the last arrival. -/
theorem receiveLoop_first (hs : SocketObject.Configured inetPton ipAddr port s)
    (gets : List Arrival) :
    ∀ (buffer : RawPacket) (w : World) (d : UdpDriver F), Receiving s gets w d →
      match firstWanted inetPton ipAddr gets with
      | none => ∃ w' d', receiveLoop gets buffer w d = (.waiting, w', d') ∧ w'.gets = []
      | some (data, rest) => ∃ raw w' d', receiveLoop gets buffer w d = (.packet raw, w', d') ∧
          raw.toList = data ∧ w'.gets = rest ∧ Receiving s rest w' d' := by
  induction gets with
  | nil =>
    intro buffer w d h
    refine ⟨{ w with ok := (Stream'.const true).tail, gets := [] }, d, ?_, rfl⟩
    rw [receiveLoop, h.ready.ok, if_neg (by rw [head_const]; decide)]
  | cons k gets ih =>
    intro buffer w d h
    cases hk : k.fails with
    | true =>
      obtain ⟨w₁, d₁, h₁, hloop⟩ := receiveLoop_recovers h hk buffer
      rw [hloop, firstWanted, received_of_fails hk]
      exact ih buffer w₁ d₁ h₁
    | false =>
      have hreopens := h.reopens
      rw [List.countP_cons_of_neg (by simp [hk])] at hreopens
      by_cases hw : ∃ datagram, k.received = some datagram ∧ wanted inetPton ipAddr datagram = true
      · obtain ⟨datagram, hreceived, hwanted⟩ := hw
        obtain ⟨raw, hraw, hv⟩ := verdict_wanted hs hreceived hwanted
        rw [← h.filter.verdict] at hv
        simp only [firstWanted, hreceived, hwanted, if_true]
        exact ⟨raw, _, d, receiveLoop_delivers gets h.ready hv buffer, hraw, rfl,
          ⟨rfl, h.ready.isOpen⟩, h.filter, hreopens⟩
      · have hnot : ∀ datagram, k.received = some datagram →
            wanted inetPton ipAddr datagram = false := fun datagram hreceived =>
          Bool.eq_false_iff.2 fun hwanted => hw ⟨datagram, hreceived, hwanted⟩
        have hv := verdict_skips hs hk hnot
        rw [← h.filter.verdict] at hv
        obtain ⟨buffer', hloop⟩ := receiveLoop_skips gets h.ready hv buffer
        have hfirst :
            firstWanted inetPton ipAddr (k :: gets) = firstWanted inetPton ipAddr gets := by
          cases hreceived : k.received with
          | none => simp only [firstWanted, hreceived]
          | some datagram => simp [firstWanted, hreceived, hnot datagram hreceived]
        rw [hloop, hfirst]
        exact ih buffer' _ d ⟨⟨rfl, h.ready.isOpen⟩, h.filter, hreopens⟩

end Receiving

/-! ## Any answers -/

/-- Whatever the answers are, the source filter stays. -/
theorem recover_filter (maxDelayMs : Int) (opens : List OpenCalls) (retryDelayMs : Int) (w : World)
    (d : UdpDriver F) {r : Recovery} {w' : World} {d' : UdpDriver F}
    (h : recover maxDelayMs opens retryDelayMs w d = (r, w', d')) :
    SameFilter d.socket d'.socket := by
  fun_induction recover maxDelayMs opens retryDelayMs w d with
  | case1 opens retryDelayMs w d hok =>
    cases h
    exact SameFilter.refl _
  | case2 opens retryDelayMs w d hok ok sleepsMs hsleep _ _ hcheck =>
    obtain ⟨rfl, rfl, rfl⟩ := by simpa only [Prod.mk.injEq] using h
    exact SameFilter.refl _
  | case3 retryDelayMs w d hok ok sleepsMs hsleep _ _ hcheck =>
    obtain ⟨rfl, rfl, rfl⟩ := by simpa only [Prod.mk.injEq] using h
    exact SameFilter.refl _
  | case4 retryDelayMs w d hok ok sleepsMs hsleep _ _ hcheck k opens socket hre =>
    have hfilter := sameFilter_reopen d.socket k
    cases h
    rwa [hre] at hfilter
  | case5 retryDelayMs w d hok ok sleepsMs hsleep _ _ hcheck k opens e socket hre _ ih =>
    have hfilter := sameFilter_reopen d.socket k
    rw [hre] at hfilter
    exact hfilter.trans (ih h)

section Any

variable {inetPton : String → Option UInt32} {ipAddr : String} {port : Int}
  {s socket : ReceiverSocket}

/-- `get_packet` returns 0 on a wanted datagram only. -/
theorem getPacket_wanted (hs : SocketObject.Configured inetPton ipAddr port s)
    (hf : SameFilter s socket) {buffer raw : RawPacket} {k : Arrival}
    (h : socket.getPacket buffer k = (.ok 0, raw)) :
    ∃ datagram, k.received = some datagram ∧ wanted inetPton ipAddr datagram = true ∧
      raw.toList = datagram.2 := by
  have hopen : 0 ≤ socket.udpSocket := by
    by_contra hclosed
    have hneg : socket.udpSocket < 0 := by omega
    simp only [ReceiverSocket.getPacket, if_pos hneg] at h
    cases h
  have hget := getPacket_verdict hopen buffer k
  rw [hf.verdict, h] at hget
  cases hk : k.fails with
  | true =>
    obtain ⟨e, hv⟩ := verdict_fails (s := s) hk
    rw [hv] at hget
    cases hget
  | false =>
    by_cases hw : ∃ datagram, k.received = some datagram ∧ wanted inetPton ipAddr datagram = true
    · obtain ⟨datagram, hreceived, hwanted⟩ := hw
      obtain ⟨raw', hraw, hv⟩ := verdict_wanted hs hreceived hwanted
      rw [hv] at hget
      cases hget
      exact ⟨datagram, hreceived, hwanted, hraw⟩
    · have hv := verdict_skips hs hk fun datagram hreceived =>
        Bool.eq_false_iff.2 fun hwanted => hw ⟨datagram, hreceived, hwanted⟩
      rw [hv] at hget
      obtain ⟨c, buffer', hc, heq⟩ := hget
      cases heq
      exact absurd rfl hc

/-- Nothing else is ever received, whatever `ros::ok()` and the reopens answer. -/
theorem receiveLoop_wanted (hs : SocketObject.Configured inetPton ipAddr port s)
    (gets : List Arrival) :
    ∀ (buffer : RawPacket) (w : World) (d : UdpDriver F) {raw : RawPacket} {w' : World}
      {d' : UdpDriver F}, SameFilter s d.socket →
      receiveLoop gets buffer w d = (.packet raw, w', d') →
      ∃ k ∈ gets, ∃ datagram, k.received = some datagram ∧
        wanted inetPton ipAddr datagram = true ∧ raw.toList = datagram.2 := by
  induction gets with
  | nil =>
    intro buffer w d raw w' d' _ h
    rw [receiveLoop] at h
    split at h
    · cases h
    · cases h
  | cons k gets ih =>
    intro buffer w d raw w' d' hf h
    have hbehind : (∃ k ∈ gets, ∃ datagram, k.received = some datagram ∧
        wanted inetPton ipAddr datagram = true ∧ raw.toList = datagram.2) →
        ∃ k' ∈ k :: gets, ∃ datagram, k'.received = some datagram ∧
          wanted inetPton ipAddr datagram = true ∧ raw.toList = datagram.2 := by
      rintro ⟨k', hk', hrest⟩
      exact ⟨k', List.mem_cons_of_mem k hk', hrest⟩
    rw [receiveLoop] at h
    split at h
    · cases h
    dsimp only at h
    split at h
    · next c buffer' hget =>
      split at h
      · next hc =>
        cases h
        rw [hc] at hget
        exact ⟨k, List.mem_cons_self, getPacket_wanted hs hf hget⟩
      · exact hbehind (ih _ _ _ hf h)
    · split at h
      · next w₁ d₁ hre =>
        have hrec := recover_filter _ _ _ _ _ hre
        exact hbehind (ih _ _ _ (hf.trans hrec) h)
      · cases h
      · cases h

end Any

/-! ## The receive loop -/

/-- The first wanted datagram is received: as long as `ros::ok()` is true and the reopens get
through. Without these two, what is received is still a wanted datagram. -/
theorem receives_first_wanted {inetPton : String → Option UInt32} {ipAddr : String} {port : Int}
    {s : ReceiverSocket} {k : OpenCalls}
    (h : ReceiverSocket.receiverSocket inetPton ipAddr port k = .ok s) (buffer : RawPacket)
    (w : World) (d : UdpDriver F) :
    (Receiving s w.gets w d →
      match firstWanted inetPton ipAddr w.gets with
      | none => ∃ w' d', receiveLoop w.gets buffer w d = (.waiting, w', d') ∧ w'.gets = []
      | some (data, rest) => ∃ raw w' d',
          receiveLoop w.gets buffer w d = (.packet raw, w', d') ∧ raw.toList = data ∧
            w'.gets = rest ∧ Receiving s rest w' d') ∧
    ∀ {raw : RawPacket} {w' : World} {d' : UdpDriver F}, SameFilter s d.socket →
      receiveLoop w.gets buffer w d = (.packet raw, w', d') →
      ∃ k ∈ w.gets, ∃ datagram, k.received = some datagram ∧
        wanted inetPton ipAddr datagram = true ∧ raw.toList = datagram.2 := by
  have hs := configured_of_receiverSocket h
  constructor
  · intro hr
    exact receiveLoop_first hs w.gets buffer w d hr
  · intro raw w' d' hf hloop
    exact receiveLoop_wanted hs w.gets buffer w d hf hloop

/-- A socket that asks for 10.0.0.5. -/
def filteredSocket : ReceiverSocket :=
  { plainSocket with
    mIpAddr := "10.0.0.5", mExpectedAddr := 0x0500000a, mFilterBySource := true }

def inetPtonFive (ipAddr : String) : Option UInt32 :=
  if ipAddr = "10.0.0.5" then some 0x0500000a else none

/-- Behind a datagram of another source and a short one the socket fails, and is reopened in the
second attempt. -/
def filteredWorld (other raw : RawPacket) : World :=
  { quietWorld [datagram 0x0600000a other.toList, datagram 0x0500000a [1], .pollFailed EIO,
      .timeout, datagram 0x0500000a raw.toList] with
    opens := [⟨.error 24, none, none, none, none⟩, ⟨.ok 3, none, none, none, none⟩] }

theorem firstWanted_filtered (other raw : RawPacket) :
    firstWanted inetPtonFive "10.0.0.5" (filteredWorld other raw).gets =
      some (raw.toList, []) := by
  simp [filteredWorld, quietWorld, firstWanted, datagram, Arrival.received, Revents.failed, wanted,
    inetPtonFive]

theorem receives_first_wanted_filtered :
    ∃ raw w' d', receiveLoop (filteredWorld (plainRaw 1 0) (plainRaw 2 0)).gets
        (plainRaw 0 0) (filteredWorld (plainRaw 1 0) (plainRaw 2 0))
        (UdpDriver.initial plainOptions filteredSocket : UdpDriver ℝ) = (.packet raw, w', d') ∧
      raw.toList = (plainRaw 2 0).toList ∧ w'.gets = [] ∧
      ∃ k ∈ (filteredWorld (plainRaw 1 0) (plainRaw 2 0)).gets, ∃ datagram,
        k.received = some datagram ∧ raw.toList = datagram.2 := by
  have hconstruct : ReceiverSocket.receiverSocket inetPtonFive "10.0.0.5" 51630
      ⟨.ok 3, none, none, none, none⟩ = .ok filteredSocket := rfl
  obtain ⟨hfirst, hwanted⟩ := receives_first_wanted hconstruct (plainRaw 0 0)
    (filteredWorld (plainRaw 1 0) (plainRaw 2 0))
    (UdpDriver.initial plainOptions filteredSocket : UdpDriver ℝ)
  rw [firstWanted_filtered] at hfirst
  have hreopens : (filteredWorld (plainRaw 1 0) (plainRaw 2 0)).gets.countP Arrival.fails ≤ 1 := by
    simp [filteredWorld, quietWorld, datagram, Arrival.fails, Revents.failed, EIO, EINTR]
  obtain ⟨raw, w', d', hloop, hraw, hgets, -⟩ :=
    hfirst ⟨⟨rfl, show (0 : Int) ≤ 3 by decide⟩, SameFilter.refl _, hreopens⟩
  obtain ⟨k, hk, datagram, hreceived, -, heq⟩ := hwanted (SameFilter.refl _) hloop
  exact ⟨raw, w', d', hloop, hraw, hgets, k, hk, datagram, hreceived, heq⟩

end UdpDriver

end MechLidar
