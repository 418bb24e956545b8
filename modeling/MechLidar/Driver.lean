import MechLidar.Scan
import MechLidar.Socket

/-!
# MechLidar.Driver

The data stream of `Driver` (`ros_driver.cpp`): the counters that the diagnostics report, the two
messages that are published together, and the UDP transport with its recovery.

A driver built by one of the two constructors never uses the members of the other transport, so
`Driver` has the shared ones and `UdpDriver` adds the socket. Every call is recorded in `trace`.
The counters are `uint64_t`, modelled without their bound.

* `tryAdd`, `publishFull`, `trySingle`: the parts that the polls of both transports share.
* `receiveUdpPacket`: the receive loop, with the backoff of `recover` around `reopen`.
* `pollFullUdp`, `pollUdp`, and `polls` for consecutive calls of one of them.
-/

namespace MechLidar

open Lib

variable {F : Type}

/-- What a driver does that can be seen from outside. -/
inductive Event (F : Type) where
  /-- A buffer is given to the constructor of `pkt_hdl_Mech`. -/
  | handed (raw : RawPacket)
  /-- Both messages are published. The ROT value is the one of the revolution that they show. -/
  | published (rot : UInt16) (scan : LaserScan F) (cloud : PointCloud2 F)
  /-- The capture file is opened again. -/
  | startOver
  /-- `sleep_for` before a frame. -/
  | slept (microseconds : Int)

structure Driver (F : Type) where
  options : DriverRuntimeOptions F
  packetsReceived : Nat
  messagesPublished : Nat
  invalidPackets : Nat
  discardedRevolutions : Nat
  trace : List (Event F)

/-- What the event publishes. -/
def Event.publication : Event F → Option (UInt16 × LaserScan F × PointCloud2 F)
  | .published rot scan cloud => some (rot, scan, cloud)
  | _ => none

namespace Driver

def log (d : Driver F) (e : Event F) : Driver F := { d with trace := d.trace ++ [e] }

def initial (options : DriverRuntimeOptions F) : Driver F where
  options := options
  packetsReceived := 0
  messagesPublished := 0
  invalidPackets := 0
  discardedRevolutions := 0
  trace := []

def countInvalid (d : Driver F) : Driver F := { d with invalidPackets := d.invalidPackets + 1 }

def countReceived (d : Driver F) : Driver F := { d with packetsReceived := d.packetsReceived + 1 }

/-- Everything published so far. -/
def publications (d : Driver F) : List (UInt16 × LaserScan F × PointCloud2 F) :=
  d.trace.filterMap Event.publication

variable [Arith F]

/-- `publish_scan_and_cloud`, and then `record_published_message`. -/
def publish (d : Driver F) (rot : UInt16) (scan : LaserScan F) : Driver F :=
  { d.log (.published rot scan (makePointcloudMsg scan)) with
    messagesPublished := d.messagesPublished + 1 }

/-- The try block of `_poll_full_udp` and `_poll_full_pcap`. -/
def tryAdd (d : Driver F) (assembler : FullScanAssembler F) (raw : RawPacket) :
    Driver F × FullScanAssembler F :=
  let d := d.log (.handed raw)
  match decode raw with
  | .error _ => (d.countInvalid, assembler)
  | .ok pkt =>
    let d := d.countReceived
    match assembler.addPacket pkt with
    -- never taken (`addPacket_eq`)
    | .error _ => (d.countInvalid, assembler)
    | .ok (_, assembler) => (d, assembler)

/-- The end of `_poll_full_udp` and `_poll_full_pcap`, from the assembler on. -/
def publishFull (d : Driver F) (assembler : FullScanAssembler F) : Driver F :=
  let d :=
    if 0 < assembler.discardedRevolutions then
      { d with discardedRevolutions := d.discardedRevolutions + assembler.discardedRevolutions }
    else d
  d.publish assembler.rotationCounter (fullScan d.options assembler)

/-- `_poll_udp` and `_poll_pcap`, from the buffer on. -/
def trySingle (d : Driver F) (raw : RawPacket) : Driver F :=
  let d := d.log (.handed raw)
  match decode raw with
  | .error _ => d.countInvalid
  | .ok pkt => d.countReceived.publish pkt.rotationCounter (singleScan d.options pkt)

end Driver

/-! ## UDP -/

structure UdpDriver (F : Type) extends Driver F where
  socket : ReceiverSocket
  socketRecovering : Bool
  socketErrors : Nat
  socketReconnects : Nat
  socketRetryDelayMs : Int
  lastSocketError : String
  /-- The sleeps of the recovery, in milliseconds. -/
  sleepsMs : List Int

/-- What the process finds outside: the answers of `ros::ok()`, of the kernel to each
`get_packet` and to each `reopen`, the messages of the system errors, and what a new buffer
holds. -/
structure World where
  ok : Stream' Bool
  gets : List Arrival
  opens : List OpenCalls
  strerror : Nat → String
  memory : RawPacket

/-- `receive_udp_packet` returns true with a packet in the buffer, or false, or the answers of the
world run out and it is still waiting. -/
inductive Received where
  | packet (raw : RawPacket)
  | stopped
  | waiting

namespace UdpDriver

/-- The constructor, once the socket is open. -/
def initial (options : DriverRuntimeOptions F) (socket : ReceiverSocket) : UdpDriver F where
  toDriver := Driver.initial options
  socket := socket
  socketRecovering := false
  socketErrors := 0
  socketReconnects := 0
  socketRetryDelayMs := 0
  lastSocketError := ""
  sleepsMs := []

def recordSocketError (d : UdpDriver F) (message : String) : UdpDriver F :=
  { d with socketErrors := d.socketErrors + 1, lastSocketError := message }

/-- The sleep of one delay, in slices. -/
def sleepSlices (remainingMs : Int) (ok : Stream' Bool) (sleepsMs : List Int) :
    Stream' Bool × List Int :=
  if 0 < remainingMs then
    if ok.head then
      let stepMs := min remainingMs 100
      sleepSlices (remainingMs - stepMs) ok.tail (sleepsMs ++ [stepMs])
    else (ok.tail, sleepsMs)
  else (ok, sleepsMs)
termination_by remainingMs.toNat
decreasing_by omega

/-- How the recovery ends. -/
inductive Recovery where
  | resume
  | stopped
  | waiting

/-- The inner loop of `receive_udp_packet`, on the answers of `reopen` to come. -/
def recover (maxDelayMs : Int) :
    List OpenCalls → Int → World → UdpDriver F → Recovery × World × UdpDriver F
  | opens, retryDelayMs, w, d =>
    if w.ok.head = false then (.resume, { w with ok := w.ok.tail, opens := opens }, d)
    else
      let (ok, sleepsMs) := sleepSlices retryDelayMs w.ok.tail d.sleepsMs
      let d := { d with socketRetryDelayMs := retryDelayMs, sleepsMs := sleepsMs }
      let w := { w with ok := ok.tail }
      if ok.head = false then (.stopped, { w with opens := opens }, d)
      else
        match opens with
        | [] => (.waiting, { w with opens := [] }, d)
        | k :: opens =>
          match d.socket.reopen k with
          | (none, socket) =>
            (.resume, { w with opens := opens },
              { d with
                socket := socket
                socketReconnects := d.socketReconnects + 1
                socketRecovering := false
                socketRetryDelayMs := 0 })
          | (some e, socket) =>
            let d := { d with socket := socket }.recordSocketError (e.what w.strerror)
            recover maxDelayMs opens
              (retryDelayMs + min retryDelayMs (maxDelayMs - retryDelayMs)) w d

/-- The outer loop of `receive_udp_packet`, on the answers of `get_packet` to come. -/
def receiveLoop : List Arrival → RawPacket → World → UdpDriver F → Received × World × UdpDriver F
  | gets, buffer, w, d =>
    if w.ok.head = false then (.stopped, { w with ok := w.ok.tail, gets := gets }, d)
    else
      let w := { w with ok := w.ok.tail }
      match gets with
      | [] => (.waiting, { w with gets := [] }, d)
      | k :: gets =>
        match d.socket.getPacket buffer k with
        | (.ok c, buffer) =>
          if c = 0 then (.packet buffer, { w with gets := gets }, d)
          else receiveLoop gets buffer w d
        | (.error e, buffer) =>
          let d := { d with socketRecovering := true }.recordSocketError (e.what w.strerror)
          let initialMs := max 1 d.options.udpReconnectInitialMs
          let maxDelayMs := max initialMs d.options.udpReconnectMaxMs
          match recover maxDelayMs w.opens initialMs w d with
          | (.resume, w, d) => receiveLoop gets buffer w d
          | (.stopped, w, d) => (.stopped, { w with gets := gets }, d)
          | (.waiting, w, d) => (.waiting, { w with gets := gets }, d)

def receiveUdpPacket (w : World) (d : UdpDriver F) : Received × World × UdpDriver F :=
  receiveLoop w.gets w.memory w d

theorem receiveLoop_length (gets : List Arrival) :
    ∀ (buffer : RawPacket) (w : World) (d : UdpDriver F) {raw : RawPacket} {w' : World}
      {d' : UdpDriver F}, receiveLoop gets buffer w d = (.packet raw, w', d') →
        w'.gets.length < gets.length := by
  induction gets with
  | nil =>
    intro buffer w d raw w' d' h
    rw [receiveLoop] at h
    split at h
    · cases h
    · cases h
  | cons k gets ih =>
    intro buffer w d raw w' d' h
    rw [receiveLoop] at h
    split at h
    · cases h
    dsimp only at h
    split at h
    · split at h
      · cases h
        exact Nat.lt_succ_self _
      · exact Nat.lt_succ_of_lt (ih _ _ _ h)
    · split at h
      · exact Nat.lt_succ_of_lt (ih _ _ _ h)
      · cases h
      · cases h

end UdpDriver

/-- A poll returns, or the answers of the world run out inside of it. -/
inductive Polled (σ : Type) where
  | returned (s : σ)
  | waiting (s : σ)

def Polled.state {σ : Type} : Polled σ → σ
  | .returned s => s
  | .waiting s => s

/-- Consecutive calls of one poll. -/
def polls {σ : Type} (poll : σ → Polled σ) : Nat → σ → Polled σ
  | 0, s => .returned s
  | n + 1, s =>
    match poll s with
    | .returned s => polls poll n s
    | .waiting s => .waiting s

namespace UdpDriver

variable [Arith F]

/-- The loop of `_poll_full_udp`, and what follows it. -/
def fullUdpLoop (assembler : FullScanAssembler F) (w : World) (d : UdpDriver F) :
    Polled (World × UdpDriver F) :=
  if w.ok.head = true ∧ assembler.complete = false then
    match _h : receiveUdpPacket { w with ok := w.ok.tail } d with
    | (.packet raw, w', d') =>
      let (core, assembler) := d'.toDriver.tryAdd assembler raw
      fullUdpLoop assembler w' { d' with toDriver := core }
    | (.stopped, w', d') => .returned (w', d')
    | (.waiting, w', d') => .waiting (w', d')
  else
    .returned ({ w with ok := w.ok.tail },
      { d with toDriver := d.toDriver.publishFull assembler })
termination_by w.gets.length
decreasing_by exact receiveLoop_length _ _ _ _ _h

def pollFullUdp (s : World × UdpDriver F) : Polled (World × UdpDriver F) :=
  fullUdpLoop FullScanAssembler.fresh s.1 s.2

def pollUdp (s : World × UdpDriver F) : Polled (World × UdpDriver F) :=
  match receiveUdpPacket s.1 s.2 with
  | (.packet raw, w, d) => .returned (w, { d with toDriver := d.toDriver.trySingle raw })
  | (.stopped, w, d) => .returned (w, d)
  | (.waiting, w, d) => .waiting (w, d)

end UdpDriver

end MechLidar
