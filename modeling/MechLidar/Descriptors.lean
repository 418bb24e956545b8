import MechLidar.Lib.Handles
import MechLidar.Socket

/-!
# MechLidar.Descriptors

The descriptors of a `receiver_socket` over its whole life: the system calls that each operation
makes on a descriptor, next to what the operation does to the object.

* `openCalls`, `closeCalls`, `getPacketCalls`: the calls in their order
* `SocketObject`: the object with the rest of `m_fds[0]` and the two addresses
* `owned`: the descriptors the object owns between two operations
* `hold_operate`: one operation takes what is owned before it to what is owned after it
* `descriptors_owned`: a whole life, with every failure of the system calls
-/

namespace MechLidar

open Lib

/-- `socket()`, a call on a descriptor, `close()`. -/
abbrev Call := Event Int

/-- The calls behind `socket()`, up to the first that fails. -/
def usesUntilFailure (descriptor : Int) : List (Option Nat) → List Call
  | [] => []
  | some _ :: _ => [.use descriptor]
  | none :: answers => .use descriptor :: usesUntilFailure descriptor answers

def noEvents : Revents := ⟨false, false, false, false⟩

/-- `receiver_socket` with the members that `ReceiverSocket` leaves out. -/
structure SocketObject extends ReceiverSocket where
  /-- `m_fds[0].events` asks for `POLLIN`. -/
  events : Bool
  revents : Revents
  /-- The port of `si_me` and the address of `si_from`. -/
  siMePort : Int
  siFrom : UInt32

namespace SocketObject

/-! ## Operations -/

def closeCalls (s : ReceiverSocket) : List Call :=
  if 0 ≤ s.udpSocket then [.release s.udpSocket] else []

def closeSocket (s : SocketObject) : SocketObject :=
  { s with toReceiverSocket := s.toReceiverSocket.closeSocket, revents := noEvents }

def openCalls (k : OpenCalls) : List Call :=
  match k.socket with
  | .error _ => []
  | .ok descriptor =>
    .acquire (descriptor : Int) ::
      (usesUntilFailure descriptor [k.reuseAddr, k.reusePort, k.bind, k.nonBlock] ++
        if k.failure.isSome then [.release (descriptor : Int)] else [])

def openSocket (s : SocketObject) (k : OpenCalls) : Option SystemError × SocketObject :=
  let s := { s with siMePort := s.mSockPort, siFrom := 0 }
  match s.toReceiverSocket.openSocket k, k.socket with
  | (some e, socket), .error _ => (some e, { s with toReceiverSocket := socket })
  | (some e, socket), .ok _ =>
    (some e, { s with toReceiverSocket := socket, revents := noEvents })
  | (none, socket), _ =>
    (none, { s with toReceiverSocket := socket, events := true, revents := noEvents })

/-- The constructor, where `open_socket` sets all that it has not set itself. -/
def construct (inetPton : String → Option UInt32) (ipAddr : String) (port : Int) (k : OpenCalls) :
    Except SocketError SocketObject :=
  match ReceiverSocket.receiverSocket inetPton ipAddr port k with
  | .error e => .error e
  | .ok socket =>
    .ok { toReceiverSocket := socket, events := true, revents := noEvents, siMePort := port
          siFrom := 0 }

def constructCalls (inetPton : String → Option UInt32) (ipAddr : String) (k : OpenCalls) :
    List Call :=
  if (ipAddr != "" && ipAddr != "0.0.0.0") = true ∧ inetPton ipAddr = none then []
  else openCalls k

def reopen (s : SocketObject) (k : OpenCalls) : Option SystemError × SocketObject :=
  s.closeSocket.openSocket k

def reopenCalls (s : ReceiverSocket) (k : OpenCalls) : List Call := closeCalls s ++ openCalls k

/-- The members that `get_packet` writes. -/
def getPacket (s : SocketObject) (k : Arrival) : SocketObject :=
  if s.udpSocket < 0 then s
  else
    match k with
    | .ready revents recv =>
      if revents.pollErr || revents.pollHup || revents.pollNval || !revents.pollIn then
        { s with revents }
      else
        match recv with
        | .failed _ => { s with revents }
        | .datagram source _ => { s with revents, siFrom := source }
    | .timeout => { s with revents := noEvents }
    | .pollFailed _ => { s with revents := noEvents }

/-- `poll()` is on `m_fds[0].fd`, `recvfrom()` on `udp_socket`. -/
def getPacketCalls (s : ReceiverSocket) (k : Arrival) : List Call :=
  if s.udpSocket < 0 then []
  else
    match k with
    | .ready revents _ =>
      if revents.pollErr || revents.pollHup || revents.pollNval || !revents.pollIn then [.use s.fd]
      else [.use s.fd, .use s.udpSocket]
    | .timeout => [.use s.fd]
    | .pollFailed _ => [.use s.fd]

inductive Operation where
  | getPacket (k : Arrival)
  | reopen (k : OpenCalls)

def operate (s : SocketObject) : Operation → SocketObject
  | .getPacket k => s.getPacket k
  | .reopen k => (s.reopen k).2

def operateCalls (s : SocketObject) : Operation → List Call
  | .getPacket k => getPacketCalls s.toReceiverSocket k
  | .reopen k => reopenCalls s.toReceiverSocket k

def operateAll (s : SocketObject) (ops : List Operation) : SocketObject := ops.foldl operate s

/-- The calls of a sequence of operations. -/
def allCalls (s : SocketObject) : List Operation → List Call
  | [] => []
  | op :: ops => s.operateCalls op ++ (s.operate op).allCalls ops

/-! ## What one operation does -/

/-- The object that `open_socket` leaves when every call succeeds. -/
def openedAt (s : SocketObject) (descriptor : Nat) : SocketObject :=
  { s with
    udpSocket := descriptor
    fd := descriptor
    opened := s.opened ++ [(descriptor : Int)]
    events := true
    revents := noEvents
    siMePort := s.mSockPort
    siFrom := 0 }

/-- `m_expected_addr`, none where `inet_pton` refuses the address. -/
def expectedAddr (inetPton : String → Option UInt32) (ipAddr : String) : Option UInt32 :=
  if (ipAddr != "" && ipAddr != "0.0.0.0") = true then inetPton ipAddr else some 0

/-- The settings of the constructor. -/
structure Configured (inetPton : String → Option UInt32) (ipAddr : String) (port : Int)
    (s : ReceiverSocket) : Prop where
  mIpAddr : s.mIpAddr = ipAddr
  mSockPort : s.mSockPort = port
  mFilterBySource : s.mFilterBySource = (ipAddr != "" && ipAddr != "0.0.0.0")
  mExpectedAddr : expectedAddr inetPton ipAddr = some s.mExpectedAddr

/-- `m_fds[0].fd` follows `udp_socket`, which is -1 while the object is closed. -/
structure Sound (s : ReceiverSocket) : Prop where
  fd_eq : s.fd = s.udpSocket
  closed : s.udpSocket < 0 → s.udpSocket = -1

/-- The descriptors that the object owns between two operations. -/
def owned (s : ReceiverSocket) : Finset Int := if 0 ≤ s.udpSocket then {s.udpSocket} else ∅

theorem owned_closed {s : ReceiverSocket} (h : s.udpSocket = -1) : owned s = ∅ := by
  rw [owned, if_neg (by omega)]

theorem openSocket_cases (s : SocketObject) (k : OpenCalls) :
    (∃ e, (s.openSocket k).1 = some e ∧ (s.openSocket k).2.udpSocket = -1 ∧
      (s.fd = -1 → (s.openSocket k).2.fd = -1) ∧
      ∀ {inetPton ipAddr port}, Configured inetPton ipAddr port s.toReceiverSocket →
        Configured inetPton ipAddr port (s.openSocket k).2.toReceiverSocket) ∨
    ∃ d, k.socket = .ok d ∧ k.failure = none ∧ s.openSocket k = (none, s.openedAt d) := by
  cases hsocket : k.socket with
  | error e =>
    refine .inl ⟨⟨e, "socket() failed"⟩, ?_⟩
    simp only [openSocket, ReceiverSocket.openSocket, hsocket]
    exact ⟨trivial, trivial, id, fun h => ⟨h.1, h.2, h.3, h.4⟩⟩
  | ok d =>
    cases hfailure : k.failure with
    | none =>
      refine .inr ⟨d, rfl, rfl, ?_⟩
      simp only [openSocket, ReceiverSocket.openSocket, hsocket, hfailure]
      rfl
    | some e =>
      refine .inl ⟨e, ?_⟩
      have hd : (0 : Int) ≤ d := by omega
      simp only [openSocket, ReceiverSocket.openSocket, hsocket, hfailure,
        ReceiverSocket.closeSocket, if_pos hd]
      exact ⟨trivial, trivial, fun _ => trivial, fun h => ⟨h.1, h.2, h.3, h.4⟩⟩

theorem closeSocket_sound {s : SocketObject} (hs : Sound s.toReceiverSocket) :
    s.closeSocket.udpSocket = -1 ∧ s.closeSocket.fd = -1 := by
  simp only [closeSocket, ReceiverSocket.closeSocket]
  split
  · exact ⟨rfl, rfl⟩
  · next h => exact ⟨hs.closed (by omega), rfl⟩

theorem Configured.closeSocket {inetPton : String → Option UInt32} {ipAddr : String} {port : Int}
    {s : SocketObject} (h : Configured inetPton ipAddr port s.toReceiverSocket) :
    Configured inetPton ipAddr port s.closeSocket.toReceiverSocket := by
  simp only [SocketObject.closeSocket, ReceiverSocket.closeSocket]
  split
  · exact ⟨h.1, h.2, h.3, h.4⟩
  · exact ⟨h.1, h.2, h.3, h.4⟩

theorem sound_openedAt (s : SocketObject) (d : Nat) : Sound (s.openedAt d).toReceiverSocket :=
  ⟨rfl, fun h => absurd h (by simp [openedAt])⟩

/-- `get_packet` leaves the descriptors and the settings alone. -/
theorem getPacket_socket (s : SocketObject) (k : Arrival) :
    (s.getPacket k).toReceiverSocket = s.toReceiverSocket := by
  by_cases hclosed : s.udpSocket < 0
  · simp [getPacket, hclosed]
  · cases k with
    | timeout => simp [getPacket, hclosed]
    | pollFailed errno => simp [getPacket, hclosed]
    | ready revents recv =>
      simp only [getPacket, if_neg hclosed]
      split
      · rfl
      · cases recv with
        | failed errno => rfl
        | datagram source data => rfl

/-! ## The calls of one operation -/

theorem hold_uses (d : Int) (answers : List (Option Nat)) (es : List Call) :
    hold {d} (usesUntilFailure d answers ++ es) = hold {d} es := by
  induction answers with
  | nil => rfl
  | cons answer answers ih =>
    cases answer with
    | some e => exact hold_use (Finset.mem_singleton_self d) es
    | none => exact (hold_use (Finset.mem_singleton_self d) _).trans ih

theorem hold_openCalls {s : SocketObject} (k : OpenCalls) :
    hold ∅ (openCalls k) = some (owned (s.openSocket k).2.toReceiverSocket) := by
  rcases openSocket_cases s k with ⟨e, hfailed, hclosed, -, -⟩ | ⟨d, hsocket, hfailure, hopen⟩
  · rw [owned_closed hclosed, openCalls]
    cases hsocket : k.socket with
    | error e => rfl
    | ok d =>
      have hsome : k.failure.isSome = true := by
        cases hfailure : k.failure with
        | some e => rfl
        | none =>
          simp [openSocket, ReceiverSocket.openSocket, hsocket, hfailure] at hfailed
      simp only [hsome, if_true]
      rw [hold_acquire (Finset.notMem_empty _), insert_empty_eq, hold_uses,
        hold_release (Finset.mem_singleton_self _)]
      simp
  · rw [hopen]
    have howned : owned (s.openedAt d).toReceiverSocket = {(d : Int)} := by
      simp [owned, openedAt]
    simp only [howned, openCalls, hsocket, hfailure]
    rw [hold_acquire (Finset.notMem_empty _), insert_empty_eq, hold_uses]
    rfl

theorem hold_closeCalls (s : ReceiverSocket) : hold (owned s) (closeCalls s) = some ∅ := by
  rw [owned, closeCalls]
  split
  · rw [hold_release (Finset.mem_singleton_self _)]
    simp
  · rfl

theorem hold_getPacketCalls {s : ReceiverSocket} (hs : Sound s) (k : Arrival) :
    hold (owned s) (getPacketCalls s k) = some (owned s) := by
  by_cases hclosed : s.udpSocket < 0
  · simp [getPacketCalls, hclosed]
  · have hudp : s.udpSocket ∈ owned s := by
      rw [owned, if_pos (by omega)]
      exact Finset.mem_singleton_self _
    have hfd : s.fd ∈ owned s := hs.fd_eq ▸ hudp
    cases k with
    | timeout => simp only [getPacketCalls, if_neg hclosed, hold_use hfd, hold_nil]
    | pollFailed errno => simp only [getPacketCalls, if_neg hclosed, hold_use hfd, hold_nil]
    | ready revents recv =>
      simp only [getPacketCalls, if_neg hclosed]
      split
      · rw [hold_use hfd, hold_nil]
      · rw [hold_use hfd, hold_use hudp, hold_nil]

/-! ## Sequences of operations -/

theorem sound_reopen {s : SocketObject} (hs : Sound s.toReceiverSocket) (k : OpenCalls) :
    Sound (s.reopen k).2.toReceiverSocket := by
  obtain ⟨-, hfd⟩ := closeSocket_sound hs
  rw [reopen]
  rcases openSocket_cases s.closeSocket k with ⟨e, -, hclosed, hfd', -⟩ | ⟨d, -, -, hopen⟩
  · exact ⟨(hfd' hfd).trans hclosed.symm, fun _ => hclosed⟩
  · rw [hopen]
    exact sound_openedAt _ d

theorem sound_operate {s : SocketObject} (hs : Sound s.toReceiverSocket) (op : Operation) :
    Sound (s.operate op).toReceiverSocket := by
  cases op with
  | getPacket k => exact (getPacket_socket s k).symm ▸ hs
  | reopen k => exact sound_reopen hs k

theorem Configured.operate {inetPton : String → Option UInt32} {ipAddr : String} {port : Int}
    {s : SocketObject} (h : Configured inetPton ipAddr port s.toReceiverSocket) (op : Operation) :
    Configured inetPton ipAddr port (s.operate op).toReceiverSocket := by
  cases op with
  | getPacket k => exact (getPacket_socket s k).symm ▸ h
  | reopen k =>
    rcases openSocket_cases s.closeSocket k with ⟨e, -, -, -, hkeeps⟩ | ⟨d, -, -, hopen⟩
    · exact hkeeps h.closeSocket
    · simp only [SocketObject.operate, SocketObject.reopen, hopen]
      exact ⟨h.closeSocket.1, h.closeSocket.2, h.closeSocket.3, h.closeSocket.4⟩

/-- One operation takes what is owned before it to what is owned behind it. -/
theorem hold_operate {s : SocketObject} (hs : Sound s.toReceiverSocket) (op : Operation) :
    hold (owned s.toReceiverSocket) (s.operateCalls op) =
      some (owned (s.operate op).toReceiverSocket) := by
  cases op with
  | getPacket k =>
    rw [operateCalls, operate, getPacket_socket]
    exact hold_getPacketCalls hs k
  | reopen k =>
    rw [operateCalls, reopenCalls, hold_append (hold_closeCalls _)]
    exact hold_openCalls k

theorem hold_operateAll {s : SocketObject} (hs : Sound s.toReceiverSocket)
    (ops : List Operation) :
    hold (owned s.toReceiverSocket) (s.allCalls ops) =
      some (owned (s.operateAll ops).toReceiverSocket) := by
  induction ops generalizing s with
  | nil => rfl
  | cons op ops ih =>
    rw [allCalls, hold_append (hold_operate hs op)]
    exact ih (sound_operate hs op)

theorem sound_operateAll {s : SocketObject} (hs : Sound s.toReceiverSocket)
    (ops : List Operation) : Sound (s.operateAll ops).toReceiverSocket := by
  induction ops generalizing s with
  | nil => exact hs
  | cons op ops ih => exact ih (sound_operate hs op)

theorem Configured.operateAll {inetPton : String → Option UInt32} {ipAddr : String} {port : Int}
    {s : SocketObject} (h : Configured inetPton ipAddr port s.toReceiverSocket)
    (ops : List Operation) :
    Configured inetPton ipAddr port (s.operateAll ops).toReceiverSocket := by
  induction ops generalizing s with
  | nil => exact h
  | cons op ops ih => exact ih (h.operate op)

/-! ## Construction -/

/-- The object in front of the `open_socket` of its constructor. -/
def initial (ipAddr : String) (port : Int) (addr : UInt32) : SocketObject where
  mIpAddr := ipAddr
  mExpectedAddr := addr
  mFilterBySource := ipAddr != "" && ipAddr != "0.0.0.0"
  mSockPort := port
  udpSocket := -1
  fd := -1
  opened := []
  closed := []
  events := false
  revents := noEvents
  siMePort := 0
  siFrom := 0

/-- The members that the constructor sets after `open_socket` are those that it sets itself. -/
theorem openSocket_initial (ipAddr : String) (port : Int) (addr : UInt32) (k : OpenCalls) :
    (match (match (initial ipAddr port addr).toReceiverSocket.openSocket k with
        | (some e, _) => (Except.error (SocketError.system e) : Except SocketError ReceiverSocket)
        | (none, s) => Except.ok s) with
      | .error e => Except.error e
      | .ok socket => Except.ok (⟨socket, true, noEvents, port, 0⟩ : SocketObject)) =
      match (initial ipAddr port addr).openSocket k with
      | (some e, _) => Except.error (.system e)
      | (none, s) => Except.ok s := by
  simp only [openSocket, ReceiverSocket.openSocket, initial]
  cases k.socket with
  | error e => rfl
  | ok d =>
    cases k.failure with
    | none => rfl
    | some e => rfl

/-- The constructor is `open_socket` on the initial object. -/
theorem construct_eq (inetPton : String → Option UInt32) (ipAddr : String) (port : Int)
    (k : OpenCalls) : construct inetPton ipAddr port k =
      match expectedAddr inetPton ipAddr with
      | none => .error (.invalidArgument ("Invalid source IP address: " ++ ipAddr))
      | some addr =>
        match (initial ipAddr port addr).openSocket k with
        | (some e, _) => .error (.system e)
        | (none, s) => .ok s := by
  by_cases hfilter : (ipAddr != "" && ipAddr != "0.0.0.0") = true
  · simp only [expectedAddr, if_pos hfilter]
    cases hpton : inetPton ipAddr with
    | none => simp [construct, ReceiverSocket.receiverSocket, hfilter, hpton]
    | some addr =>
      refine Eq.trans ?_ (openSocket_initial ipAddr port addr k)
      simp only [construct, ReceiverSocket.receiverSocket, if_pos hfilter, hpton]
      rfl
  · simp only [expectedAddr, if_neg hfilter]
    refine Eq.trans ?_ (openSocket_initial ipAddr port 0 k)
    simp only [construct, ReceiverSocket.receiverSocket, if_neg hfilter]
    rfl

theorem constructCalls_eq {inetPton : String → Option UInt32} {ipAddr : String} {addr : UInt32}
    (h : expectedAddr inetPton ipAddr = some addr) (k : OpenCalls) :
    constructCalls inetPton ipAddr k = openCalls k := by
  rw [constructCalls, if_neg]
  rintro ⟨hfilter, hnone⟩
  rw [expectedAddr, if_pos hfilter, hnone] at h
  cases h

/-- The members, without the history. -/
def members (s : SocketObject) : SocketObject := { s with opened := [], closed := [] }

/-- With the settings of the constructor, a successful `open_socket` gives what it gives there. -/
theorem members_openedAt {inetPton : String → Option UInt32} {ipAddr : String} {port : Int}
    {addr : UInt32} {s : SocketObject} (h : Configured inetPton ipAddr port s.toReceiverSocket)
    (haddr : expectedAddr inetPton ipAddr = some addr) (d : Nat) :
    (s.openedAt d).members = ((initial ipAddr port addr).openedAt d).members := by
  have hexpected : s.mExpectedAddr = addr := Option.some.inj (h.mExpectedAddr.symm.trans haddr)
  simp only [members, openedAt, initial, h.mIpAddr, h.mSockPort, h.mFilterBySource, hexpected]

/-- The calls of a whole life are in order, and each descriptor is closed as often as opened. -/
def Balanced (calls : List Call) : Prop :=
  hold ∅ calls = some ∅ ∧ ∀ d, calls.count (.acquire d) = calls.count (.release d)

theorem balanced_of_hold {calls : List Call} (h : hold ∅ calls = some ∅) : Balanced calls :=
  ⟨h, fun d => by simpa using count_of_hold h d⟩

/-- What holds of an object behind the calls made so far. -/
structure Owns (inetPton : String → Option UInt32) (ipAddr : String) (port : Int)
    (calls : List Call) (s : SocketObject) : Prop where
  held : hold ∅ calls = some (owned s.toReceiverSocket)
  fd_eq : s.fd = s.udpSocket
  destroyed : Balanced (calls ++ closeCalls s.toReceiverSocket)
  reopen_failed : ∀ k e, (s.reopen k).1 = some e →
    (s.reopen k).2.udpSocket = -1 ∧ (s.reopen k).2.fd = -1 ∧
      Balanced (calls ++ reopenCalls s.toReceiverSocket k)
  reopened : ∀ k, (s.reopen k).1 = none → ∃ fresh,
    construct inetPton ipAddr port k = .ok fresh ∧ (s.reopen k).2.members = fresh.members
  closed : s.udpSocket < 0 → ∀ n (buf : Vector UInt8 n) k,
    s.toReceiverSocket.getPacket buf k = (.error ⟨EBADF, "UDP socket is closed"⟩, buf) ∧
      getPacketCalls s.toReceiverSocket k = []

theorem reopened_fresh {inetPton : String → Option UInt32} {ipAddr : String} {port : Int}
    {s : SocketObject} (hconf : Configured inetPton ipAddr port s.toReceiverSocket) {k : OpenCalls}
    (h : (s.reopen k).1 = none) : ∃ fresh,
      construct inetPton ipAddr port k = .ok fresh ∧ (s.reopen k).2.members = fresh.members := by
  rw [reopen] at h ⊢
  rcases openSocket_cases s.closeSocket k with ⟨e, hfailed, -⟩ | ⟨d, hsocket, hfailure, hopen⟩
  · rw [hfailed] at h
    cases h
  · rw [hopen]
    refine ⟨(initial ipAddr port s.mExpectedAddr).openedAt d, ?_,
      members_openedAt hconf.closeSocket hconf.mExpectedAddr d⟩
    rw [construct_eq, hconf.mExpectedAddr]
    simp only [openSocket, ReceiverSocket.openSocket, hsocket, hfailure]
    rfl

theorem owns_operateAll {inetPton : String → Option UInt32} {ipAddr : String} {port : Int}
    {calls : List Call} {s : SocketObject} (hheld : hold ∅ calls = some (owned s.toReceiverSocket))
    (hs : Sound s.toReceiverSocket) (hconf : Configured inetPton ipAddr port s.toReceiverSocket)
    (ops : List Operation) :
    Owns inetPton ipAddr port (calls ++ s.allCalls ops) (s.operateAll ops) := by
  have hheld' : hold ∅ (calls ++ s.allCalls ops) =
      some (owned (s.operateAll ops).toReceiverSocket) := by
    rw [hold_append hheld, hold_operateAll hs]
  have hs' := sound_operateAll hs ops
  refine ⟨hheld', hs'.fd_eq, ?_, ?_, fun k h => reopened_fresh (hconf.operateAll ops) h, ?_⟩
  · refine balanced_of_hold ?_
    rw [hold_append hheld', hold_closeCalls]
  · intro k e hfailed
    have hsound := sound_reopen hs' k
    have hclosed : ((s.operateAll ops).reopen k).2.udpSocket = -1 := by
      rw [reopen] at hfailed ⊢
      rcases openSocket_cases (s.operateAll ops).closeSocket k with
        ⟨e', -, hclosed, -⟩ | ⟨d, -, -, hopen⟩
      · exact hclosed
      · rw [hopen] at hfailed
        cases hfailed
    refine ⟨hclosed, hsound.fd_eq.trans hclosed, balanced_of_hold ?_⟩
    have hreopen := hold_operate hs' (.reopen k)
    rw [operateCalls, operate, owned_closed hclosed] at hreopen
    rw [hold_append hheld', hreopen]
  · intro hclosed n buf k
    exact ⟨by simp [ReceiverSocket.getPacket, hclosed], by simp [getPacketCalls, hclosed]⟩

/-- A descriptor is never leaked, closed twice or used when closed, whatever fails: neither by a
constructor that throws nor by an object, whatever is done with it. -/
theorem descriptors_owned (inetPton : String → Option UInt32) (ipAddr : String) (port : Int)
    (k : OpenCalls) :
    match construct inetPton ipAddr port k with
    | .error _ => Balanced (constructCalls inetPton ipAddr k)
    | .ok s => ∀ ops, Owns inetPton ipAddr port
        (constructCalls inetPton ipAddr k ++ s.allCalls ops) (s.operateAll ops) := by
  rw [construct_eq]
  cases haddr : expectedAddr inetPton ipAddr with
  | none =>
    have hnone : constructCalls inetPton ipAddr k = [] := by
      rw [expectedAddr] at haddr
      split at haddr
      · next hfilter => exact if_pos ⟨hfilter, haddr⟩
      · cases haddr
    rw [hnone]
    exact balanced_of_hold rfl
  | some addr =>
    have hcalls := constructCalls_eq haddr k
    have hheld := hold_openCalls (s := initial ipAddr port addr) k
    dsimp only
    rcases openSocket_cases (initial ipAddr port addr) k with
      ⟨e, hfailed, hclosed, -, -⟩ | ⟨d, hsocket, hfailure, hopen⟩
    · rw [show (initial ipAddr port addr).openSocket k = (some e, _) from Prod.ext hfailed rfl,
        hcalls]
      exact balanced_of_hold (hheld.trans (congrArg some (owned_closed hclosed)))
    · rw [hopen]
      intro ops
      rw [hopen] at hheld
      have hsound := sound_openedAt (initial ipAddr port addr) d
      have hconf : Configured inetPton ipAddr port
          ((initial ipAddr port addr).openedAt d).toReceiverSocket := ⟨rfl, rfl, rfl, haddr⟩
      rw [hcalls]
      exact owns_operateAll hheld hsound hconf ops

/-- A life with a receive, a `reopen` whose `bind` fails, a receive on the closed object, and a
`reopen` that succeeds on another descriptor. -/
def reopenedLife : List Operation :=
  [.getPacket .timeout, .reopen ⟨.ok 3, none, none, some 98, none⟩, .getPacket .timeout,
    .reopen ⟨.ok 4, none, none, none, none⟩]

theorem descriptors_owned_reopened :
    let k : OpenCalls := ⟨.ok 3, none, none, none, none⟩
    let s := (initial "" 50007 0).openedAt 3
    let calls := constructCalls (fun _ => none) "" k ++ s.allCalls reopenedLife
    construct (fun _ => none) "" 50007 k = .ok s ∧
      calls = [.acquire 3, .use 3, .use 3, .use 3, .use 3, .use 3, .release 3,
        .acquire 3, .use 3, .use 3, .use 3, .release 3,
        .acquire 4, .use 4, .use 4, .use 4, .use 4] ∧
      (s.operateAll reopenedLife).udpSocket = 4 ∧
      Owns (fun _ => none) "" 50007 calls (s.operateAll reopenedLife) :=
  ⟨rfl, by decide, rfl,
    descriptors_owned (fun _ => none) "" 50007 ⟨.ok 3, none, none, none, none⟩ reopenedLife⟩

end SocketObject

end MechLidar
