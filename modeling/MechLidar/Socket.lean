import MechLidar.Packet

/-!
# MechLidar.Socket

`receiver_socket` (`reciever_socket.cpp`): the UDP socket with its source filter. What the kernel
answers is the input: an `OpenCalls` for each `open_socket`, an `Arrival` for each `get_packet`.
`MSG_TRUNC` makes `recvfrom` return the real length of a datagram, and write what fits.

* `Arrival.verdict`: whether an open socket throws, skips the arrival or delivers it, which it does
  with a datagram of the buffer's length from an accepted source.
* `getPacket_verdict`: that is what `get_packet` does.
-/

namespace MechLidar

def EINTR : Nat := 4
def EIO : Nat := 5
def EBADF : Nat := 9
/-- Also `EWOULDBLOCK`. -/
def EAGAIN : Nat := 11

/-- A `std::system_error` of the generic category. -/
structure SystemError where
  code : Nat
  whatArg : String
deriving DecidableEq, Repr

/-- `ex.what()`, where `strerror` gives the messages of the category. -/
def SystemError.what (strerror : Nat → String) (e : SystemError) : String :=
  e.whatArg ++ ": " ++ strerror e.code

/-- What the constructor of `receiver_socket` throws. -/
inductive SocketError where
  | invalidArgument (what : String)
  | system (e : SystemError)
deriving DecidableEq, Repr

/-- The answers to the system calls of one `open_socket`: a descriptor, and `none` for success. -/
structure OpenCalls where
  socket : Except Nat Nat
  reuseAddr : Option Nat
  reusePort : Option Nat
  bind : Option Nat
  nonBlock : Option Nat

/-- `m_fds[0].revents`. -/
structure Revents where
  pollErr : Bool
  pollHup : Bool
  pollNval : Bool
  pollIn : Bool
deriving DecidableEq, Repr

/-- The answer to `recvfrom`. -/
inductive Recv where
  | failed (errno : Nat)
  | datagram (source : UInt32) (data : List UInt8)
deriving DecidableEq, Repr

/-- The answers to the system calls of one `get_packet`. -/
inductive Arrival where
  | timeout
  | pollFailed (errno : Nat)
  | ready (revents : Revents) (recv : Recv)
deriving DecidableEq, Repr

structure ReceiverSocket where
  mIpAddr : String
  mExpectedAddr : UInt32
  mFilterBySource : Bool
  mSockPort : Int
  udpSocket : Int
  /-- `m_fds[0].fd`. -/
  fd : Int
  /-- The descriptors opened and closed so far. -/
  opened : List Int
  closed : List Int

/-- The first call after `socket()` that fails, with the error thrown for it. -/
def OpenCalls.failure (k : OpenCalls) : Option SystemError :=
  match k.reuseAddr, k.reusePort, k.bind, k.nonBlock with
  | some e, _, _, _ => some ⟨e, "setsockopt(SO_REUSEADDR) failed"⟩
  | none, some e, _, _ => some ⟨e, "setsockopt(SO_REUSEPORT) failed"⟩
  | none, none, some e, _ => some ⟨e, "bind() failed"⟩
  | none, none, none, some e => some ⟨e, "fcntl(O_NONBLOCK) failed"⟩
  | none, none, none, none => none

namespace ReceiverSocket

def closeSocket (s : ReceiverSocket) : ReceiverSocket :=
  if 0 ≤ s.udpSocket then
    { s with closed := s.closed ++ [s.udpSocket], udpSocket := -1, fd := -1 }
  else { s with fd := -1 }

def openSocket (s : ReceiverSocket) (k : OpenCalls) : Option SystemError × ReceiverSocket :=
  match k.socket with
  | .error e => (some ⟨e, "socket() failed"⟩, { s with udpSocket := -1 })
  | .ok descriptor =>
    let s := { s with udpSocket := descriptor, opened := s.opened ++ [(descriptor : Int)] }
    match k.failure with
    | some e => (some e, s.closeSocket)
    | none => (none, { s with fd := s.udpSocket })

/-- The constructor. `inetPton` parses the address, or returns `none`. -/
def receiverSocket (inetPton : String → Option UInt32) (ipAddr : String) (port : Int)
    (k : OpenCalls) : Except SocketError ReceiverSocket :=
  let s : ReceiverSocket :=
    { mIpAddr := ipAddr, mExpectedAddr := 0, mFilterBySource := ipAddr != "" && ipAddr != "0.0.0.0"
      mSockPort := port, udpSocket := -1, fd := -1, opened := [], closed := [] }
  let finish (s : ReceiverSocket) : Except SocketError ReceiverSocket :=
    match s.openSocket k with
    | (some e, _) => .error (.system e)
    | (none, s) => .ok s
  if s.mFilterBySource then
    match inetPton ipAddr with
    | none => .error (.invalidArgument ("Invalid source IP address: " ++ ipAddr))
    | some addr => finish { s with mExpectedAddr := addr }
  else finish s

def reopen (s : ReceiverSocket) (k : OpenCalls) : Option SystemError × ReceiverSocket :=
  s.closeSocket.openSocket k

end ReceiverSocket

variable {n : Nat}

/-- What `recvfrom` writes into the buffer: the bytes that fit. -/
def fillBuffer (buf : Vector UInt8 n) (data : List UInt8) : Vector UInt8 n :=
  Vector.ofFn fun i => data.getD i (buf.get i)

/-- `get_packet`: what it returns or throws, and the buffer. -/
def ReceiverSocket.getPacket (s : ReceiverSocket) (buf : Vector UInt8 n) (k : Arrival) :
    Except SystemError Int × Vector UInt8 n :=
  if s.udpSocket < 0 then (.error ⟨EBADF, "UDP socket is closed"⟩, buf)
  else
    match k with
    | .timeout => (.ok 1, buf)
    | .pollFailed errno =>
      if errno = EINTR then (.ok 1, buf) else (.error ⟨errno, "poll() failed"⟩, buf)
    | .ready revents recv =>
      if revents.pollErr || revents.pollHup || revents.pollNval then
        (.error ⟨ EIO, "poll() reported a socket error"⟩, buf)
      else if revents.pollIn = false then (.ok (-1), buf)
      else
        match recv with
        | .failed errno =>
          if errno ≠ EAGAIN then (.error ⟨errno, "recvfrom() failed"⟩, buf) else (.ok 1, buf)
        | .datagram source data =>
          let buf := fillBuffer buf data
          if s.mFilterBySource && source != s.mExpectedAddr then (.ok (-1), buf)
          else if data.length ≠ n then (.ok (-1), buf)
          else (.ok 0, buf)

/-! ## What an arrival amounts to -/

/-- The source filter. -/
def ReceiverSocket.fromSource (s : ReceiverSocket) (source : UInt32) : Bool :=
  !(s.mFilterBySource && source != s.mExpectedAddr)

theorem ReceiverSocket.fromSource_expected (s : ReceiverSocket) :
    s.fromSource s.mExpectedAddr = true := by
  simp [ReceiverSocket.fromSource]

/-- What an open socket makes of an arrival, into a buffer of `n` bytes. -/
inductive Verdict (n : Nat) where
  | throws (e : SystemError)
  | skips
  | delivers (v : Vector UInt8 n)

def Arrival.verdict (s : ReceiverSocket) (n : Nat) : Arrival → Verdict n
  | .timeout => .skips
  | .pollFailed errno => if errno = EINTR then .skips else .throws ⟨errno, "poll() failed"⟩
  | .ready revents recv =>
    if revents.pollErr || revents.pollHup || revents.pollNval then
      .throws ⟨ EIO, "poll() reported a socket error"⟩
    else if revents.pollIn = false then .skips
    else
      match recv with
      | .failed errno =>
        if errno ≠ EAGAIN then .throws ⟨errno, "recvfrom() failed"⟩ else .skips
      | .datagram source data =>
        if h : s.fromSource source = true ∧ data.length = n then .delivers ⟨⟨data⟩, h.2⟩
        else .skips

/-- The datagram that an open socket delivers. -/
def Arrival.accepted (s : ReceiverSocket) (n : Nat) (k : Arrival) : Option (Vector UInt8 n) :=
  match k.verdict s n with
  | .delivers v => some v
  | _ => none

theorem fillBuffer_eq (buf : Vector UInt8 n) {data : List UInt8} (h : data.length = n) :
    fillBuffer buf data = ⟨⟨data⟩, h⟩ := by
  apply Vector.ext
  intro i hi
  simp [fillBuffer, h]

/-- What `get_packet` does on an open socket. -/
def Verdict.Describes (buf : Vector UInt8 n) (result : Except SystemError Int × Vector UInt8 n) :
    Verdict n → Prop
  | .throws e => result = (.error e, buf)
  | .skips => ∃ c buf', c ≠ 0 ∧ result = (.ok c, buf')
  | .delivers v => result = (.ok 0, v)

theorem getPacket_verdict {s : ReceiverSocket} (hs : 0 ≤ s.udpSocket) (buf : Vector UInt8 n)
    (k : Arrival) : (k.verdict s n).Describes buf (s.getPacket buf k) := by
  have hs' : ¬ s.udpSocket < 0 := by omega
  simp only [ReceiverSocket.getPacket, if_neg hs']
  cases k with
  | timeout => exact ⟨1, buf, by decide, rfl⟩
  | pollFailed errno =>
    simp only [Arrival.verdict]
    split
    · exact ⟨1, buf, by decide, rfl⟩
    · rfl
  | ready revents recv =>
    simp only [Arrival.verdict]
    split
    · rfl
    split
    · exact ⟨-1, buf, by decide, rfl⟩
    cases recv with
    | failed errno =>
      dsimp only
      split
      · rfl
      · exact ⟨1, buf, by decide, rfl⟩
    | datagram source data =>
      dsimp only
      by_cases hsrc : s.fromSource source = true
      · have hf : (s.mFilterBySource && source != s.mExpectedAddr) = false := by
          simpa only [ReceiverSocket.fromSource, Bool.not_eq_true'] using hsrc
        rw [hf]
        by_cases hlen : data.length = n
        · rw [dif_pos ⟨hsrc, hlen⟩, fillBuffer_eq buf hlen]
          simp [hlen, Verdict.Describes]
        · rw [dif_neg (fun h => hlen h.2)]
          exact ⟨-1, fillBuffer buf data, by decide, by simp [hlen]⟩
      · have hf : (s.mFilterBySource && source != s.mExpectedAddr) = true := by
          simpa only [ReceiverSocket.fromSource, Bool.not_eq_true', Bool.not_eq_false] using hsrc
        rw [hf, dif_neg (fun h => hsrc h.1)]
        exact ⟨-1, fillBuffer buf data, by decide, rfl⟩

end MechLidar
