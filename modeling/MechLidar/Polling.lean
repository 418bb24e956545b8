import MechLidar.Recovery
import MechLidar.Pcap
import MechLidar.Config

/-!
# MechLidar.Polling

The main thread of the node, from the loop of `run_driver_runtime` through the four polls down to
`receive_udp_packet`, statement by statement, as the other threads see it: every access to a shared
member is a step of its own.

* `SharedMembers`: the members that the threads share, and the clock
* `Position`: where the main thread stands
* `Poller.Step`: one statement, labelled with what is seen of it
* `Counted`: what the counters say about a run, at every point
* `counters_in_step`: they do so in every run, for each transport and capture type
-/

namespace MechLidar

open Lib

variable {F : Type}

/-- The members that the threads share, and what `steady_clock::now()` returns. -/
structure SharedMembers extends SocketStatus where
  packetsReceived : Nat
  messagesPublished : Nat
  invalidPackets : Nat
  discardedRevolutions : Nat
  lastPublishNs : Nat
  nowNs : Nat

def SharedMembers.initial (nowNs : Nat) : SharedMembers where
  toSocketStatus := SocketStatus.initial
  packetsReceived := 0
  messagesPublished := 0
  invalidPackets := 0
  discardedRevolutions := 0
  lastPublishNs := 0
  nowNs := nowNs

/-- The next statement of the main thread. A FULL poll has an assembler, a SINGLE poll has none. -/
inductive Position (F : Type) where
  | mainLoop
  /-- The loop condition of a FULL poll. -/
  | loop (assembler : FullScanAssembler F)
  /-- In `receive_udp_packet`. -/
  | receiving (point : Statement) (assembler : Option (FullScanAssembler F))
  /-- `next_packet` -/
  | reading (assembler : Option (FullScanAssembler F))
  /-- The pause in front of a frame, and then its payload. -/
  | pausing (f : Frame) (assembler : Option (FullScanAssembler F))
  | payload (f : Frame) (assembler : Option (FullScanAssembler F))
  /-- The constructor of `pkt_hdl_Mech`. -/
  | handing (raw : RawPacket) (assembler : Option (FullScanAssembler F))
  | countReceived (pkt : PktHdlMech F) (assembler : Option (FullScanAssembler F))
  | countInvalid (assembler : Option (FullScanAssembler F))
  | adding (pkt : PktHdlMech F) (assembler : FullScanAssembler F)
  | countDiscarded (assembler : FullScanAssembler F)
  | publishing (rot : UInt16) (scan : LaserScan F)
  /-- `record_published_message` -/
  | countPublished
  | readClock
  | storeTime (ns : Nat)
  /-- `run_driver_runtime` has returned, or an exception has left it. -/
  | finished
  | thrown

/-- What is seen of a statement. -/
inductive PollAction (F : Type) where
  /-- Time passes. -/
  | time
  /-- `ros::ok()` in the main loop, and in a FULL poll -/
  | mainOk (answer : Bool)
  | ok (answer : Bool)
  | receive (a : Action)
  | frame (f : Frame)
  | event (e : Event F)
  /-- The time of a publication is stored. -/
  | recorded (ns : Nat)
  | threw
  | silent

structure Poller (F : Type) where
  members : SharedMembers
  position : Position F

namespace Position

/-- The start of a poll, from the loop condition on. -/
def acquire (mode : DriverMode) (assembler : Option (FullScanAssembler F)) : Position F :=
  match mode with
  | .udp => .receiving .idle assembler
  | .pcap => .reading assembler

/-- Behind a packet that is not used any more. -/
def again : Option (FullScanAssembler F) → Position F
  | some assembler => .loop assembler
  | none => .mainLoop

variable [Arith F]

/-- Behind the constructor of `pkt_hdl_Mech`. -/
def handed (raw : RawPacket) (assembler : Option (FullScanAssembler F)) : Position F :=
  match decode raw with
  | .error _ => .countInvalid assembler
  | .ok pkt => .countReceived pkt assembler

/-- Behind `++packets_received`. -/
def received (options : DriverRuntimeOptions F) (pkt : PktHdlMech F) :
    Option (FullScanAssembler F) → Position F
  | some assembler => .adding pkt assembler
  | none => .publishing pkt.rotationCounter (singleScan options pkt)

/-- Behind `add_packet`. -/
def added (pkt : PktHdlMech F) (assembler : FullScanAssembler F) : Position F :=
  match assembler.addPacket pkt with
  | .error _ => .countInvalid (some assembler)
  | .ok (_, assembler) => .loop assembler

/-- Where a frame has a payload. -/
def payloadRead (payload : List UInt8) (assembler : Option (FullScanAssembler F)) : Position F :=
  match rawPacket payload with
  | none => .countInvalid assembler
  | some raw => .handing raw assembler

end Position

namespace Poller

def initial (nowNs : Nat) : Poller F := ⟨SharedMembers.initial nowNs, .mainLoop⟩

variable [Arith F]

/-- The options of the backoff. -/
def backoff (options : DriverRuntimeOptions F) : Backoff :=
  ⟨options.udpReconnectInitialMs, options.udpReconnectMaxMs⟩

inductive Step (mode : DriverMode) (captureType : CaptureType) (options : DriverRuntimeOptions F) :
    Poller F → PollAction F → Poller F → Prop where
  | time {m : SharedMembers} {p : Position F} {ns : Nat} (h : m.nowNs ≤ ns) :
      Step mode captureType options ⟨m, p⟩ .time ⟨{ m with nowNs := ns }, p⟩
  | leave {m : SharedMembers} :
      Step mode captureType options ⟨m, .mainLoop⟩ (.mainOk false) ⟨m, .finished⟩
  | poll {m : SharedMembers} (h : captureType = .single) :
      Step mode captureType options ⟨m, .mainLoop⟩ (.mainOk true) ⟨m, .acquire mode none⟩
  | pollFull {m : SharedMembers} (h : captureType = .full) :
      Step mode captureType options ⟨m, .mainLoop⟩ (.mainOk true)
        ⟨m, .loop FullScanAssembler.fresh⟩
  | loop {m : SharedMembers} {a : FullScanAssembler F} (h : a.complete = false) :
      Step mode captureType options ⟨m, .loop a⟩ (.ok true) ⟨m, .acquire mode (some a)⟩
  | loopComplete {m : SharedMembers} {a : FullScanAssembler F} (h : a.complete = true) :
      Step mode captureType options ⟨m, .loop a⟩ (.ok true) ⟨m, .countDiscarded a⟩
  | loopStop {m : SharedMembers} {a : FullScanAssembler F} :
      Step mode captureType options ⟨m, .loop a⟩ (.ok false) ⟨m, .countDiscarded a⟩
  | receive {m : SharedMembers} {s : SocketStatus} {point point' : Statement} {x : Action}
      {a : Option (FullScanAssembler F)} (hx : ∀ value, x ≠ .ret value)
      (h : Receiver.Step (backoff options) ⟨m.toSocketStatus, point⟩ x ⟨s, point'⟩) :
      Step mode captureType options ⟨m, .receiving point a⟩ (.receive x)
        ⟨{ m with toSocketStatus := s }, .receiving point' a⟩
  | receiveFalse {m : SharedMembers} {a : Option (FullScanAssembler F)} :
      Step mode captureType options ⟨m, .receiving (.returning false) a⟩ (.receive (.ret false))
        ⟨m, .mainLoop⟩
  | receiveTrue {m : SharedMembers} {a : Option (FullScanAssembler F)} (raw : RawPacket) :
      Step mode captureType options ⟨m, .receiving (.returning true) a⟩ (.receive (.ret true))
        ⟨m, .handing raw a⟩
  | startOver {m : SharedMembers} {a : Option (FullScanAssembler F)} :
      Step mode captureType options ⟨m, .reading a⟩ (.event .startOver) ⟨m, .again a⟩
  /-- The file cannot be read, or not be opened again. -/
  | readThrew {m : SharedMembers} {a : Option (FullScanAssembler F)} :
      Step mode captureType options ⟨m, .reading a⟩ .threw ⟨m, .thrown⟩
  | frame {m : SharedMembers} {a : Option (FullScanAssembler F)} {f : Frame} :
      Step mode captureType options ⟨m, .reading a⟩ (.frame f) ⟨m, .pausing f a⟩
  | pause {m : SharedMembers} {a : Option (FullScanAssembler F)} {f : Frame} {us : Int} :
      Step mode captureType options ⟨m, .pausing f a⟩ (.event (.slept us)) ⟨m, .payload f a⟩
  | noPause {m : SharedMembers} {a : Option (FullScanAssembler F)} {f : Frame} :
      Step mode captureType options ⟨m, .pausing f a⟩ .silent ⟨m, .payload f a⟩
  | noPayload {m : SharedMembers} {a : Option (FullScanAssembler F)} {f : Frame}
      (h : f.rawPdu = none) :
      Step mode captureType options ⟨m, .payload f a⟩ .threw ⟨m, .thrown⟩
  | payload {m : SharedMembers} {a : Option (FullScanAssembler F)} {f : Frame}
      {payload : List UInt8} (h : f.rawPdu = some payload) :
      Step mode captureType options ⟨m, .payload f a⟩ .silent ⟨m, .payloadRead payload a⟩
  | handing {m : SharedMembers} {a : Option (FullScanAssembler F)} {raw : RawPacket} :
      Step mode captureType options ⟨m, .handing raw a⟩ (.event (.handed raw)) ⟨m, .handed raw a⟩
  | countReceived {m : SharedMembers} {a : Option (FullScanAssembler F)} {pkt : PktHdlMech F} :
      Step mode captureType options ⟨m, .countReceived pkt a⟩ .silent
        ⟨{ m with packetsReceived := m.packetsReceived + 1 }, .received options pkt a⟩
  | countInvalid {m : SharedMembers} {a : Option (FullScanAssembler F)} :
      Step mode captureType options ⟨m, .countInvalid a⟩ .silent
        ⟨{ m with invalidPackets := m.invalidPackets + 1 }, .again a⟩
  | adding {m : SharedMembers} {a : FullScanAssembler F} {pkt : PktHdlMech F} :
      Step mode captureType options ⟨m, .adding pkt a⟩ .silent ⟨m, .added pkt a⟩
  | countDiscarded {m : SharedMembers} {a : FullScanAssembler F} :
      Step mode captureType options ⟨m, .countDiscarded a⟩ .silent
        ⟨{ m with discardedRevolutions := m.discardedRevolutions + a.discardedRevolutions },
          .publishing a.rotationCounter (fullScan options a)⟩
  | publishing {m : SharedMembers} {rot : UInt16} {scan : LaserScan F} :
      Step mode captureType options ⟨m, .publishing rot scan⟩
        (.event (.published rot scan (makePointcloudMsg scan))) ⟨m, .countPublished⟩
  | countPublished {m : SharedMembers} :
      Step mode captureType options ⟨m, .countPublished⟩ .silent
        ⟨{ m with messagesPublished := m.messagesPublished + 1 }, .readClock⟩
  | readClock {m : SharedMembers} :
      Step mode captureType options ⟨m, .readClock⟩ .silent ⟨m, .storeTime m.nowNs⟩
  | storeTime {m : SharedMembers} {ns : Nat} :
      Step mode captureType options ⟨m, .storeTime ns⟩ (.recorded ns)
        ⟨{ m with lastPublishNs := ns }, .mainLoop⟩

/-- Any run of the node. -/
abbrev Reached (mode : DriverMode) (captureType : CaptureType) (options : DriverRuntimeOptions F)
    (startNs : Nat) : List (PollAction F) → Poller F → Prop :=
  Runs (Step mode captureType options) (initial startNs)

end Poller

/-! ## What is seen -/

/-- A payload of a wrong length. -/
def Frame.rejected (f : Frame) : Bool :=
  match f.rawPdu with
  | some payload => (rawPacket payload).isNone
  | none => false

namespace PollAction

def okAnswer : PollAction F → Option Bool
  | .mainOk answer => some answer
  | .ok answer => some answer
  | .receive a => a.okAnswer
  | _ => none

def action : PollAction F → Option Action
  | .receive a => some a
  | _ => none

def event? : PollAction F → Option (Event F)
  | .event e => some e
  | _ => none

def recordedNs : PollAction F → Option Nat
  | .recorded ns => some ns
  | _ => none

/-- A FULL poll is ended by `ros::ok()`. -/
def cutsShort : PollAction F → Bool
  | .ok false => true
  | _ => false

def publishes : PollAction F → Bool
  | .event (.published _ _ _) => true
  | _ => false

variable [Arith F]

/-- A packet is accepted. -/
def accepts : PollAction F → Bool
  | .event (.handed raw) => (decode raw : Except PacketError (PktHdlMech F)).isOk
  | _ => false

/-- A packet or the payload of a frame is refused. -/
def refuses : PollAction F → Bool
  | .event (.handed raw) => !(decode raw : Except PacketError (PktHdlMech F)).isOk
  | .frame f => f.rejected
  | _ => false

end PollAction

section Seen

variable (as : List (PollAction F)) (a : PollAction F)

def pollOkAnswers : List Bool := as.filterMap PollAction.okAnswer

def socketActions : List Action := as.filterMap PollAction.action

def eventsOf : List (Event F) := as.filterMap PollAction.event?

/-- The times of the publications. -/
def recordedNs : List Nat := as.filterMap PollAction.recordedNs

def cutShort : Nat := as.countP PollAction.cutsShort

def publishedScans : Nat := as.countP PollAction.publishes

@[simp] theorem pollOkAnswers_concat :
    pollOkAnswers (as ++ [a]) = pollOkAnswers as ++ a.okAnswer.toList := by
  cases h : a.okAnswer <;> simp [pollOkAnswers, h]

@[simp] theorem socketActions_concat :
    socketActions (as ++ [a]) = socketActions as ++ a.action.toList := by
  cases h : a.action <;> simp [socketActions, h]

@[simp] theorem recordedNs_concat :
    recordedNs (as ++ [a]) = recordedNs as ++ a.recordedNs.toList := by
  cases h : a.recordedNs <;> simp [recordedNs, h]

@[simp] theorem cutShort_concat :
    cutShort (as ++ [a]) = cutShort as + if a.cutsShort then 1 else 0 := by
  simp [cutShort, List.countP_singleton]

@[simp] theorem publishedScans_concat :
    publishedScans (as ++ [a]) = publishedScans as + if a.publishes then 1 else 0 := by
  simp [publishedScans, List.countP_singleton]

variable [Arith F]

def acceptedPackets : Nat := as.countP PollAction.accepts

def refusedPackets : Nat := as.countP PollAction.refuses

@[simp] theorem acceptedPackets_concat :
    acceptedPackets (as ++ [a]) = acceptedPackets as + if a.accepts then 1 else 0 := by
  simp [acceptedPackets, List.countP_singleton]

@[simp] theorem refusedPackets_concat :
    refusedPackets (as ++ [a]) = refusedPackets as + if a.refuses then 1 else 0 := by
  simp [refusedPackets, List.countP_singleton]

end Seen

namespace Poller

/-- Once `ros::ok()` is false, it stays false. -/
def OkStays (as : List (PollAction F)) : Prop :=
  (pollOkAnswers as).Pairwise fun earlier later => earlier = false → later = false

end Poller

/-! ## What the counters say -/

namespace Position

/-- The statement of `receive_udp_packet` that the main thread is at. -/
def socketPoint : Position F → Statement
  | .receiving point _ => point
  | _ => .idle

/-- What has happened and is not yet counted. -/
structure Owed where
  received : Nat := 0
  invalid : Nat := 0
  published : Nat := 0
  /-- The time of a counted publication. -/
  time : Nat := 0

def owed : Position F → Owed
  | .countReceived _ _ => { received := 1 }
  | .countInvalid _ => { invalid := 1 }
  | .pausing f _ => { invalid := if f.rejected then 1 else 0 }
  | .payload f _ => { invalid := if f.rejected then 1 else 0 }
  | .countPublished => { published := 1 }
  | .readClock => { time := 1 }
  | .storeTime _ => { time := 1 }
  | _ => {}

/-- A counted packet of a SINGLE poll, in front of `++messages_published`. -/
def unpublished : Position F → Nat
  | .publishing _ _ => 1
  | .countPublished => 1
  | _ => 0

def stored : Option (FullScanAssembler F) → Nat
  | some a => a.packetCount
  | none => 0

/-- The packets that the scan of a FULL poll is made of, so far. -/
def collected : Position F → Nat
  | .loop a => a.packetCount
  | .receiving _ a => stored a
  | .reading a => stored a
  | .pausing _ a => stored a
  | .payload _ a => stored a
  | .handing _ a => stored a
  | .countReceived _ a => stored a
  | .countInvalid a => stored a
  | .adding _ a => a.packetCount + 1
  | .countDiscarded _ => 20
  | .publishing _ _ => 20
  | .countPublished => 20
  | _ => 0

/-- The last reading of the clock that the thread uses. -/
def readNs (nowNs : Nat) : Position F → Nat
  | .storeTime ns => ns
  | _ => nowNs

/-- Behind a FULL poll that `ros::ok()` has ended. -/
def Ending : Position F → Prop
  | .mainLoop => True
  | .countDiscarded _ => True
  | .publishing _ _ => True
  | .countPublished => True
  | .readClock => True
  | .storeTime _ => True
  | .finished => True
  | _ => False

/-- A complete assembler has its 20 packets. A SINGLE poll has no assembler. -/
def Fits : CaptureType → Option (FullScanAssembler F) → Prop
  | .single, none => True
  | .full, some a => a.complete = true → a.packetCount = 20
  | _, _ => False

def Belongs (captureType : CaptureType) : Position F → Prop
  | .loop a => Fits captureType (some a)
  | .receiving _ a => Fits captureType a
  | .reading a => Fits captureType a
  | .pausing _ a => Fits captureType a
  | .payload _ a => Fits captureType a
  | .handing _ a => Fits captureType a
  | .countReceived _ a => Fits captureType a
  | .countInvalid a => Fits captureType a
  | .adding _ a => Fits captureType (some a)
  | .countDiscarded a => Fits captureType (some a)
  | _ => True

section Behind

variable (assembler : Option (FullScanAssembler F))

theorem payloadRead_cases {f : Frame} {payload : List UInt8} (h : f.rawPdu = some payload) :
    (f.rejected = true ∧ payloadRead payload assembler = .countInvalid assembler) ∨
    (f.rejected = false ∧ ∃ raw, payloadRead payload assembler = .handing raw assembler) := by
  simp only [Frame.rejected, h, payloadRead]
  cases rawPacket payload with
  | none => exact .inl ⟨rfl, rfl⟩
  | some raw => exact .inr ⟨rfl, raw, rfl⟩

variable [Arith F]

theorem handed_cases (raw : RawPacket) :
    ((decode raw : Except PacketError (PktHdlMech F)).isOk = false ∧
      handed raw assembler = .countInvalid assembler) ∨
    ((decode raw : Except PacketError (PktHdlMech F)).isOk = true ∧
      ∃ pkt, handed raw assembler = .countReceived pkt assembler) := by
  rw [handed]
  cases (decode raw : Except PacketError (PktHdlMech F)) with
  | error e => exact .inl ⟨rfl, rfl⟩
  | ok pkt => exact .inr ⟨rfl, pkt, rfl⟩

theorem handed_ok {raw : RawPacket} {pkt : PktHdlMech F} (h : decode raw = .ok pkt) :
    handed raw assembler = .countReceived pkt assembler := by
  rw [handed, h]

theorem handed_error {raw : RawPacket} {e : PacketError}
    (h : (decode raw : Except PacketError (PktHdlMech F)) = .error e) :
    handed raw assembler = .countInvalid assembler := by
  rw [handed, h]

@[simp] theorem added_eq (pkt : PktHdlMech F) (a : FullScanAssembler F) :
    added pkt a = .loop (a.add pkt) := by
  rw [added, FullScanAssembler.addPacket_eq]

end Behind

end Position

section Packets

variable (a : FullScanAssembler F) (p : PktHdlMech F)

theorem packetCount_accept_le : (a.accept p).packetCount ≤ a.packetCount + 1 := by
  unfold FullScanAssembler.accept
  split
  · exact Nat.le_succ _
  · rfl

theorem accept_complete (h : a.complete = true → a.packetCount = 20)
    (hc : (a.accept p).complete = true) : (a.accept p).packetCount = 20 := by
  unfold FullScanAssembler.accept at hc ⊢
  split at hc
  · simp [*] at h ⊢
  · simpa [*, FullScanAssembler.stored] using hc

theorem packetCount_add_le [Arith F] : (a.add p).packetCount ≤ a.packetCount + 1 := by
  obtain ⟨-, he⟩ | ⟨-, he⟩ | ⟨-, -, he⟩ := a.add_cases p
  · rw [he]
    exact Nat.le_succ _
  · rw [he]
    exact (packetCount_accept_le _ p).trans (Nat.succ_le_succ (Nat.zero_le _))
  · rw [he]
    exact packetCount_accept_le a p

theorem add_complete [Arith F] (h : a.complete = true → a.packetCount = 20)
    (hc : (a.add p).complete = true) : (a.add p).packetCount = 20 := by
  obtain ⟨-, he⟩ | ⟨-, he⟩ | ⟨-, -, he⟩ := a.add_cases p
  · rw [he] at hc ⊢
    exact h hc
  · rw [he] at hc ⊢
    refine accept_complete _ p ?_ hc
    intro hbegin
    cases hbegin
  · rw [he] at hc ⊢
    exact accept_complete a p h hc

end Packets

namespace Poller

variable [Arith F] {mode : DriverMode} {captureType : CaptureType}
  {options : DriverRuntimeOptions F} {startNs : Nat} {as : List (PollAction F)} {p : Poller F}

section Packet

variable {m : SharedMembers} {assembler : Option (FullScanAssembler F)} {raw : RawPacket}

theorem Step.handing_ok {pkt : PktHdlMech F} (h : decode raw = .ok pkt) :
    Step mode captureType options ⟨m, .handing raw assembler⟩ (.event (.handed raw))
      ⟨m, .countReceived pkt assembler⟩ := by
  rw [← Position.handed_ok assembler h]
  exact .handing

theorem Step.handing_error {e : PacketError}
    (h : (decode raw : Except PacketError (PktHdlMech F)) = .error e) :
    Step mode captureType options ⟨m, .handing raw assembler⟩ (.event (.handed raw))
      ⟨m, .countInvalid assembler⟩ := by
  rw [← Position.handed_error assembler h]
  exact .handing

theorem Step.adding_loop {a : FullScanAssembler F} {pkt : PktHdlMech F} :
    Step mode captureType options ⟨m, .adding pkt a⟩ .silent ⟨m, .loop (a.add pkt)⟩ := by
  rw [← Position.added_eq]
  exact .adding

end Packet

/-- The calls of `receive_udp_packet` in a run. -/
theorem socket_reached (h : Reached mode captureType options startNs as p) :
    Receiver.Reached (backoff options) (socketActions as)
      ⟨p.members.toSocketStatus, p.position.socketPoint⟩ := by
  refine h.invariant (P := fun as p => Receiver.Reached (backoff options) (socketActions as)
    ⟨p.members.toSocketStatus, p.position.socketPoint⟩) .start ?_
  intro as t x u ih hs
  cases hs with
  | receive _ hstep =>
    simpa [PollAction.action, Position.socketPoint] using ih.after hstep
  | receiveFalse => simpa [PollAction.action, Position.socketPoint] using ih.after .ret
  | receiveTrue raw => simpa [PollAction.action, Position.socketPoint] using ih.after .ret
  | poll =>
    cases mode <;> simpa [PollAction.action, Position.socketPoint, Position.acquire] using ih
  | loop =>
    cases mode <;> simpa [PollAction.action, Position.socketPoint, Position.acquire] using ih
  | @startOver m a =>
    cases a <;> simpa [PollAction.action, Position.socketPoint, Position.again] using ih
  | @countInvalid m a =>
    cases a <;> simpa [PollAction.action, Position.socketPoint, Position.again] using ih
  | @countReceived m a pkt =>
    cases a <;> simpa [PollAction.action, Position.socketPoint, Position.received] using ih
  | @payload m a f payload hf =>
    rcases Position.payloadRead_cases a hf with ⟨-, he⟩ | ⟨-, raw, he⟩ <;>
      simpa [PollAction.action, Position.socketPoint, he] using ih
  | @handing m a raw =>
    rcases Position.handed_cases a raw with ⟨-, he⟩ | ⟨-, pkt, he⟩ <;>
      simpa [PollAction.action, Position.socketPoint, he] using ih
  | _ => simpa [PollAction.action, Position.socketPoint] using ih

/-- Everything that has happened is counted once, but for what the thread still owes. -/
structure Balanced (as : List (PollAction F)) (p : Poller F) : Prop where
  received : p.members.packetsReceived + p.position.owed.received = acceptedPackets as
  invalid : p.members.invalidPackets + p.position.owed.invalid = refusedPackets as
  published : p.members.messagesPublished + p.position.owed.published = publishedScans as
  times : (recordedNs as).length + p.position.owed.time = p.members.messagesPublished

/-- A step settles as much as it counts. -/
theorem Balanced.step {m m' : SharedMembers} {pos pos' : Position F} {x : PollAction F}
    (h : Balanced as ⟨m, pos⟩)
    (hreceived : m'.packetsReceived + pos'.owed.received =
      m.packetsReceived + pos.owed.received + if x.accepts then 1 else 0)
    (hinvalid : m'.invalidPackets + pos'.owed.invalid =
      m.invalidPackets + pos.owed.invalid + if x.refuses then 1 else 0)
    (hpublished : m'.messagesPublished + pos'.owed.published =
      m.messagesPublished + pos.owed.published + if x.publishes then 1 else 0)
    (htimes : m'.messagesPublished + pos.owed.time =
      m.messagesPublished + pos'.owed.time + x.recordedNs.toList.length) :
    Balanced (as ++ [x]) ⟨m', pos'⟩ where
  received := by rw [hreceived, h.received, acceptedPackets_concat]
  invalid := by rw [hinvalid, h.invalid, refusedPackets_concat]
  published := by rw [hpublished, h.published, publishedScans_concat]
  times := by
    have hbefore := h.times
    rw [recordedNs_concat, List.length_append]
    dsimp only at hbefore ⊢
    omega

theorem balanced (h : Reached mode captureType options startNs as p) : Balanced as p := by
  refine h.invariant (P := Balanced) ⟨rfl, rfl, rfl, rfl⟩ ?_
  intro as t x u ih hs
  cases hs with
  | poll => cases mode <;> exact ih.step rfl rfl rfl rfl
  | loop => cases mode <;> exact ih.step rfl rfl rfl rfl
  | @startOver m a => cases a <;> exact ih.step rfl rfl rfl rfl
  | @countReceived m a => cases a <;> exact ih.step rfl rfl rfl rfl
  | @countInvalid m a => cases a <;> exact ih.step rfl rfl rfl rfl
  | noPayload hf =>
    exact ih.step rfl (by simp [Position.owed, PollAction.refuses, Frame.rejected, hf]) rfl rfl
  | @payload m a f payload hf =>
    rcases Position.payloadRead_cases a hf with ⟨hrejected, he⟩ | ⟨hrejected, raw, he⟩ <;>
      rw [he] <;>
      exact ih.step rfl (by simp [Position.owed, PollAction.refuses, hrejected]) rfl rfl
  | @handing m a raw =>
    rcases Position.handed_cases a raw with ⟨hd, he⟩ | ⟨hd, pkt, he⟩ <;> rw [he] <;>
      refine ih.step ?_ ?_ rfl rfl <;>
      simp [Position.owed, PollAction.accepts, PollAction.refuses, hd]
  | adding =>
    rw [Position.added_eq]
    exact ih.step rfl rfl rfl rfl
  | _ => exact ih.step rfl rfl rfl rfl

/-! ### Scans -/

theorem belongs (h : Reached mode captureType options startNs as p) :
    p.position.Belongs captureType := by
  refine h.invariant (P := fun _ p => p.position.Belongs captureType) trivial ?_
  intro as t x u ih hs
  cases hs with
  | poll hcapture =>
    subst hcapture
    cases mode <;> trivial
  | pollFull hcapture =>
    subst hcapture
    intro hcomplete
    cases hcomplete
  | loop => cases mode <;> exact ih
  | @startOver m a =>
    cases a with
    | none => trivial
    | some a => exact ih
  | @countInvalid m a =>
    cases a with
    | none => trivial
    | some a => exact ih
  | @countReceived m a =>
    cases a with
    | none => trivial
    | some a => exact ih
  | @payload m a f payload hf =>
    rcases Position.payloadRead_cases a hf with ⟨-, he⟩ | ⟨-, raw, he⟩ <;> rw [he] <;> exact ih
  | @handing m a raw =>
    rcases Position.handed_cases a raw with ⟨-, he⟩ | ⟨-, pkt, he⟩ <;> rw [he] <;> exact ih
  | @adding m a pkt =>
    rw [Position.added_eq]
    cases captureType with
    | single => cases ih
    | full => exact add_complete a pkt ih
  | time => exact ih
  | receive => exact ih
  | receiveTrue raw => exact ih
  | frame => exact ih
  | pause => exact ih
  | noPause => exact ih
  | loopComplete => exact ih
  | loopStop => exact ih
  | _ => trivial

/-- A SINGLE poll publishes every accepted packet. -/
theorem single_published (h : Reached mode .single options startNs as p) :
    p.members.packetsReceived = p.members.messagesPublished + p.position.unpublished := by
  induction h with
  | start => rfl
  | @after as x t u ht hs ih =>
    have hb := belongs ht
    cases hs with
    | poll => cases mode <;> exact ih
    | pollFull hcapture => cases hcapture
    | loop => cases hb
    | loopComplete => cases hb
    | loopStop => cases hb
    | adding => cases hb
    | countDiscarded => cases hb
    | @startOver m a => cases a <;> exact ih
    | @countInvalid m a => cases a <;> exact ih
    | @countReceived m a =>
      cases a with
      | none => exact congrArg (· + 1) ih
      | some a => cases hb
    | @payload m a f payload hf =>
      rcases Position.payloadRead_cases a hf with ⟨-, he⟩ | ⟨-, raw, he⟩ <;> rw [he] <;> exact ih
    | @handing m a raw =>
      rcases Position.handed_cases a raw with ⟨-, he⟩ | ⟨-, pkt, he⟩ <;> rw [he] <;> exact ih
    | _ => exact ih

/-- A FULL poll takes 20 packets for a scan, unless `ros::ok()` ends it. -/
theorem full_published (h : Reached mode .full options startNs as p) :
    20 * p.members.messagesPublished + p.position.collected ≤
      p.members.packetsReceived + 20 * cutShort as := by
  induction h with
  | start => exact Nat.le_refl 0
  | @after as x t u ht hs ih =>
    have hb := belongs ht
    rw [cutShort_concat]
    cases hs with
    | poll hcapture => cases hcapture
    | loop => cases mode <;> exact ih
    | @loopComplete m a hcomplete =>
      have hcount : a.packetCount = 20 := hb hcomplete
      simp only [Position.collected, hcount] at ih ⊢
      exact ih
    | @loopStop m a =>
      simp only [Position.collected, PollAction.cutsShort, if_true] at ih ⊢
      omega
    | @startOver m a => cases a <;> exact ih
    | @countInvalid m a => cases a <;> exact ih
    | @countReceived m a =>
      cases a with
      | none => cases hb
      | some a =>
        simp only [Position.collected, Position.stored, Position.received,
          PollAction.cutsShort] at ih ⊢
        omega
    | @payload m a f payload hf =>
      rcases Position.payloadRead_cases a hf with ⟨-, he⟩ | ⟨-, raw, he⟩ <;> rw [he] <;> exact ih
    | @handing m a raw =>
      rcases Position.handed_cases a raw with ⟨-, he⟩ | ⟨-, pkt, he⟩ <;> rw [he] <;> exact ih
    | @adding m a pkt =>
      have hadd := packetCount_add_le a pkt
      rw [Position.added_eq]
      simp only [Position.collected, PollAction.cutsShort] at ih ⊢
      omega
    | countPublished =>
      simp only [Position.collected, PollAction.cutsShort] at ih ⊢
      omega
    -- the poll ends without a scan
    | receiveFalse => exact (Nat.add_le_add_left (Nat.zero_le _) _).trans ih
    | readThrew => exact (Nat.add_le_add_left (Nat.zero_le _) _).trans ih
    | noPayload => exact (Nat.add_le_add_left (Nat.zero_le _) _).trans ih
    | _ => exact ih

/-! ### Times -/

/-- The stored times, in the order of the clock. -/
structure Timed (startNs : Nat) (as : List (PollAction F)) (p : Poller F) : Prop where
  read : startNs ≤ p.position.readNs p.members.nowNs ∧
    p.position.readNs p.members.nowNs ≤ p.members.nowNs
  sorted : (recordedNs as).Pairwise (· ≤ ·)
  bounds : ∀ ns ∈ recordedNs as, startNs ≤ ns ∧ ns ≤ p.position.readNs p.members.nowNs
  last : p.members.lastPublishNs = (recordedNs as).getLastD 0

omit [Arith F] in
/-- Nothing is stored, and the clock does not go back. -/
theorem Timed.keep {p' : Poller F} {x : PollAction F} (h : Timed startNs as p)
    (hx : x.recordedNs = none) (hlast : p'.members.lastPublishNs = p.members.lastPublishNs)
    (hread : p.position.readNs p.members.nowNs ≤ p'.position.readNs p'.members.nowNs)
    (hnow : p'.position.readNs p'.members.nowNs ≤ p'.members.nowNs) :
    Timed startNs (as ++ [x]) p' where
  read := ⟨h.read.1.trans hread, hnow⟩
  sorted := by simpa [hx] using h.sorted
  bounds ns hns := by
    obtain ⟨hstart, hle⟩ := h.bounds ns (by simpa [hx] using hns)
    exact ⟨hstart, hle.trans hread⟩
  last := by simpa [hx, hlast] using h.last

omit [Arith F] in
/-- Nothing is stored, and the thread uses the clock as it is. -/
theorem Timed.step {m m' : SharedMembers} {pos pos' : Position F} {x : PollAction F}
    (h : Timed startNs as ⟨m, pos⟩) (hx : x.recordedNs = none)
    (hlast : m'.lastPublishNs = m.lastPublishNs) (hnow : m'.nowNs = m.nowNs)
    (hpos : pos'.readNs m'.nowNs = m'.nowNs) : Timed startNs (as ++ [x]) ⟨m', pos'⟩ :=
  h.keep hx hlast (by rw [hpos, hnow]; exact h.read.2) (Nat.le_of_eq hpos)

omit [Arith F] in
/-- `last_publish_ns` is the latest stored time. On a clock that does not start at 0, it is 0 only
if no time is stored. -/
theorem Timed.last_cases (h : Timed startNs as p) (hstart : 0 < startNs) :
    (recordedNs as = [] ∧ p.members.lastPublishNs = 0) ∨
    (p.members.lastPublishNs ∈ recordedNs as ∧ p.members.lastPublishNs ≠ 0 ∧
      startNs ≤ p.members.lastPublishNs ∧
      ∀ ns ∈ recordedNs as, ns ≤ p.members.lastPublishNs) := by
  have hlast := h.last
  have hsorted := h.sorted
  have hbounds := h.bounds
  rcases List.eq_nil_or_concat (recordedNs as) with hnil | ⟨earlier, last, hconcat⟩
  · rw [hnil] at hlast
    exact .inl ⟨hnil, hlast⟩
  · have heq : p.members.lastPublishNs = last := by simpa [hconcat] using hlast
    have hmem : last ∈ recordedNs as := by simp [hconcat]
    have hge := (hbounds last hmem).1
    rw [heq]
    refine .inr ⟨hmem, by omega, hge, ?_⟩
    intro ns hns
    rw [hconcat, List.concat_eq_append] at hns hsorted
    rcases List.mem_append.1 hns with hearlier | hsame
    · exact (List.pairwise_append.1 hsorted).2.2 ns hearlier last (by simp)
    · exact Nat.le_of_eq (by simpa using hsame)

theorem timed (h : Reached mode captureType options startNs as p) : Timed startNs as p := by
  refine h.invariant (P := Timed startNs) ⟨⟨Nat.le_refl _, Nat.le_refl _⟩, .nil, ?_, rfl⟩ ?_
  · intro ns hns
    cases hns
  intro as t x u ih hs
  cases hs with
  | @time m pos ns hle =>
    cases pos with
    | storeTime read => exact ih.keep rfl rfl (Nat.le_refl _) (ih.read.2.trans hle)
    | _ => exact ih.keep rfl rfl hle (Nat.le_refl _)
  | poll => exact ih.step rfl rfl rfl (by cases mode <;> rfl)
  | loop => exact ih.step rfl rfl rfl (by cases mode <;> rfl)
  | @startOver m a => exact ih.step rfl rfl rfl (by cases a <;> rfl)
  | @countInvalid m a => exact ih.step rfl rfl rfl (by cases a <;> rfl)
  | @countReceived m a => exact ih.step rfl rfl rfl (by cases a <;> rfl)
  | @payload m a f payload hf =>
    rcases Position.payloadRead_cases a hf with ⟨-, he⟩ | ⟨-, raw, he⟩ <;> rw [he] <;>
      exact ih.step rfl rfl rfl rfl
  | @handing m a raw =>
    rcases Position.handed_cases a raw with ⟨-, he⟩ | ⟨-, pkt, he⟩ <;> rw [he] <;>
      exact ih.step rfl rfl rfl rfl
  | adding =>
    rw [Position.added_eq]
    exact ih.step rfl rfl rfl rfl
  | @storeTime m ns =>
    obtain ⟨⟨hstart, hnow⟩, hsorted, hbounds, -⟩ := ih
    have hnew : ∀ ns' ∈ recordedNs (as ++ [.recorded ns]), startNs ≤ ns' ∧ ns' ≤ ns := by
      intro ns' hmem
      rcases List.mem_append.1 (recordedNs_concat as (.recorded ns) ▸ hmem) with hold | hlast
      · exact hbounds ns' hold
      · obtain rfl : ns' = ns := by simpa [PollAction.recordedNs] using hlast
        exact ⟨hstart, Nat.le_refl _⟩
    refine ⟨⟨hstart.trans hnow, Nat.le_refl _⟩, ?_, ?_, by simp [PollAction.recordedNs]⟩
    · rw [recordedNs_concat, List.pairwise_append]
      refine ⟨hsorted, by simp [PollAction.recordedNs], ?_⟩
      intro ns' hold ns'' hlast
      obtain rfl : ns'' = ns := by simpa [PollAction.recordedNs] using hlast
      exact (hbounds ns' hold).2
    · intro ns' hmem
      exact ⟨(hnew ns' hmem).1, (hnew ns' hmem).2.trans hnow⟩
  | _ => exact ih.step rfl rfl rfl rfl

/-! ### The end -/

omit [Arith F] in
theorem OkStays.before {x : PollAction F} (h : OkStays (as ++ [x])) : OkStays as := by
  rw [OkStays, pollOkAnswers_concat, List.pairwise_append] at h
  exact h.1

omit [Arith F] in
theorem OkStays.answer {x : PollAction F} {answer : Bool} (h : OkStays (as ++ [x]))
    (hx : x.okAnswer = some answer) (hmem : false ∈ pollOkAnswers as) : answer = false := by
  rw [OkStays, pollOkAnswers_concat, List.pairwise_append] at h
  exact h.2.2 false hmem answer (by simp [hx]) rfl

theorem ending (h : Reached mode captureType options startNs as p) : OkStays as →
    cutShort as = 0 ∨ cutShort as = 1 ∧ false ∈ pollOkAnswers as ∧ p.position.Ending := by
  refine h.invariant (P := fun as p => OkStays as → cutShort as = 0 ∨
    cutShort as = 1 ∧ false ∈ pollOkAnswers as ∧ p.position.Ending) (fun _ => .inl rfl) ?_
  intro as t x u ih hs hstays
  have hbefore := ih hstays.before
  cases hs with
  | loopStop =>
    rcases hbefore with h0 | ⟨-, -, hend⟩
    · exact .inr ⟨by simp [h0, PollAction.cutsShort], by simp [PollAction.okAnswer], trivial⟩
    · exact hend.elim
  | poll =>
    rcases hbefore with h0 | ⟨-, hmem, -⟩
    · exact .inl (by simpa [PollAction.cutsShort] using h0)
    · cases hstays.answer rfl hmem
  | pollFull =>
    rcases hbefore with h0 | ⟨-, hmem, -⟩
    · exact .inl (by simpa [PollAction.cutsShort] using h0)
    · cases hstays.answer rfl hmem
  | time =>
    rcases hbefore with h0 | ⟨h1, hmem, hend⟩
    · exact .inl (by simpa [PollAction.cutsShort] using h0)
    · exact .inr ⟨by simpa [PollAction.cutsShort] using h1, by simp [hmem], hend⟩
  | _ =>
    rcases hbefore with h0 | ⟨h1, hmem, hend⟩
    · exact .inl (by simpa [PollAction.cutsShort] using h0)
    · first
      | exact hend.elim
      | exact .inr ⟨by simpa [PollAction.cutsShort] using h1, by simp [hmem], trivial⟩

/-- `ros::ok()` ends at most one FULL poll, if it stays false: the main loop is left then. -/
theorem cutShort_le_one (h : Reached mode captureType options startNs as p)
    (hok : OkStays as) : cutShort as ≤ 1 := by
  rcases ending h hok with h0 | ⟨h1, -⟩ <;> omega

theorem reconnects_le_errors (h : Reached mode captureType options startNs as p) :
    p.members.socketReconnects ≤ p.members.socketErrors := by
  have hsocket := socket_reached h
  have herrors := Receiver.errors_eq hsocket
  have hreconnects := Receiver.reconnects_eq hsocket
  have hreopens := Receiver.reopens_le hsocket
  have howed : p.position.socketPoint.owedErrors ≤ p.position.socketPoint.openErrors := by
    cases p.position.socketPoint <;> simp [Statement.owedErrors, Statement.openErrors]
  dsimp only at herrors hreconnects hreopens
  omega

/-! ### Every run -/

/-- The counters against what has happened, at every point of a run. -/
structure Counted (captureType : CaptureType) (as : List (PollAction F)) (p : Poller F) :
    Prop extends Balanced as p where
  single : captureType = .single →
    p.members.packetsReceived = p.members.messagesPublished + p.position.unpublished
  full : captureType = .full →
    20 * p.members.messagesPublished + p.position.collected ≤
      p.members.packetsReceived + 20 * cutShort as
  cut : OkStays as → cutShort as ≤ 1
  reconnects : p.members.socketReconnects ≤ p.members.socketErrors

/-- Over UDP or from a file, every accepted packet, every refused one and every published scan is
counted exactly once. A SINGLE driver publishes each accepted packet; a FULL driver takes at least
20 of them for a scan, except for one that the shutdown may cut short. -/
theorem counters_in_step (h : Reached mode captureType options startNs as p) :
    Counted captureType as p where
  toBalanced := balanced h
  single hcapture := by
    subst hcapture
    exact single_published h
  full hcapture := by
    subst hcapture
    exact full_published h
  cut := cutShort_le_one h
  reconnects := reconnects_le_errors h

/-- One SINGLE poll. -/
theorem exists_single_poll (options : DriverRuntimeOptions ℝ) (startNs : Nat) : ∃ as m,
    Reached .udp .single options startNs as ⟨m, .mainLoop⟩ ∧
      m = { SharedMembers.initial startNs with
        packetsReceived := 1, messagesPublished := 1, lastPublishNs := startNs } ∧
      (∀ a ∈ as, a.okAnswer ≠ some false) ∧ publishedScans as = 1 := by
  have hdecode : decode (plainRaw 7 0) = .ok (plainPacket 7 0 : PktHdlMech ℝ) := decode_plainRaw 7 0
  refine ⟨[_, _, _, _, _, _, _, _, _, _, _], _,
    .cons (.poll rfl) <| .cons (.receive (by simp) .call) <|
    .cons (.receive (by simp) .outerLoop) <| .cons (.receive (by simp) .received) <|
    .cons (.receiveTrue (plainRaw 7 0)) <| .cons (.handing_ok hdecode) <| .cons .countReceived <|
    .cons .publishing <| .cons .countPublished <| .cons .readClock <| .single .storeTime, rfl, ?_,
    rfl⟩
  simp [PollAction.okAnswer, Action.okAnswer]

theorem counters_in_step_single : ∃ as p,
    Reached .udp .single (plainOptions : DriverRuntimeOptions ℝ) 1 as p ∧ Counted .single as p ∧
      p.members.packetsReceived = 1 ∧ p.members.messagesPublished = 1 := by
  obtain ⟨as, m, hreached, rfl, -⟩ := exists_single_poll plainOptions 1
  exact ⟨as, _, hreached, counters_in_step hreached, rfl, rfl⟩

end Poller

end MechLidar
