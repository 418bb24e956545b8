import MechLidar.Driver
import MechLidar.Lib.Loop

/-!
# MechLidar.Pcap

The PCAP transport of `Driver` (`ros_driver.cpp`): a capture file is replayed, and opened again at
its end. Opening the file anew returns the same frames.

* `pollPcap`: one SINGLE poll.
* `fullPcapPass`: one pass of the loop of `_poll_full_pcap`, which need not terminate;
  `pollFullPcap` is one call of it.
* `fullReplay`: one pass over the loop in consecutive FULL polls.
* `fullReplay_cases`, `pollPcap_cases`: everything that a step does.
-/

namespace MechLidar

open Lib

variable {F : Type}

structure Frame where
  /-- `timestamp().microseconds()`, the part of the time below one second. -/
  microseconds : Nat
  /-- The payload of the `RawPDU`, in a frame that has one. -/
  rawPdu : Option (List UInt8)

/-- The exceptions of a poll that nothing catches before `main`. -/
inductive Escaped where
  | pduNotFound
deriving DecidableEq, Repr

structure PcapDriver (F : Type) extends Driver F where
  /-- The frames of the file `pcap_path`. -/
  pcapFile : List Frame
  /-- The frames that `pcap_sniffer` has not returned yet. -/
  pcapSniffer : List Frame
  prevPktTmstmp : Int

/-- The time of the first packet. At the end of a file it is the time of an empty packet. -/
def firstTmstmp : List Frame → Int
  | [] => 0
  | f :: _ => f.microseconds

/-- The buffer with the payload, if the length is right. -/
def rawPacket (payload : List UInt8) : Option RawPacket :=
  if h : payload.length = 936 then some ⟨⟨payload⟩, h⟩ else none

theorem rawPacket_toList (raw : RawPacket) : rawPacket raw.toList = some raw := by
  have hlen : raw.toList.length = 936 := by simp
  rw [rawPacket, dif_pos hlen]
  rfl

/-- A frame with the buffer as its payload. -/
def frameOf (raw : RawPacket) : Frame := ⟨0, some raw.toList⟩

namespace PcapDriver

/-- The constructor. It takes the first packet for its time. -/
def initial (options : DriverRuntimeOptions F) (file : List Frame) : PcapDriver F where
  toDriver := Driver.initial options
  pcapFile := file
  pcapSniffer := file.tail
  prevPktTmstmp := firstTmstmp file

/-- `pcap_sniffer.reset`. -/
def reopen (d : PcapDriver F) : PcapDriver F :=
  { d with toDriver := d.toDriver.log .startOver, pcapSniffer := d.pcapFile }

/-- The end of the file in `_poll_pcap`. It takes the first packet, too. -/
def restart (d : PcapDriver F) : PcapDriver F :=
  { d.reopen with pcapSniffer := d.pcapFile.tail, prevPktTmstmp := firstTmstmp d.pcapFile }

/-- The end of the file in `_poll_full_pcap`. -/
def restartFull (d : PcapDriver F) : PcapDriver F := { d.reopen with prevPktTmstmp := 0 }

/-- The frame `f` has been read, and `rest` is left. -/
def advance (d : PcapDriver F) (f : Frame) (rest : List Frame) (core : Driver F) : PcapDriver F :=
  { d with toDriver := core, pcapSniffer := rest, prevPktTmstmp := f.microseconds }

/-- The pause in front of a frame of `_poll_pcap`. -/
def sleep (d : PcapDriver F) (f : Frame) : Driver F :=
  d.toDriver.log (.slept (f.microseconds - d.prevPktTmstmp))

/-- The pause in front of a frame of `_poll_full_pcap`. -/
def sleepFull (d : PcapDriver F) (f : Frame) : Driver F :=
  if 0 < d.prevPktTmstmp ∧ d.prevPktTmstmp ≤ f.microseconds then
    d.toDriver.log (.slept (f.microseconds - d.prevPktTmstmp))
  else d.toDriver

theorem sleepFull_cases (d : PcapDriver F) (f : Frame) :
    d.sleepFull f = d.toDriver ∨ ∃ t, d.sleepFull f = d.toDriver.log (.slept t) := by
  unfold sleepFull
  split
  · exact .inr ⟨_, rfl⟩
  · exact .inl rfl

end PcapDriver

variable [Arith F]

/-- `_poll_pcap`, from the payload on. -/
def Driver.singlePayload (d : Driver F) (payload : List UInt8) : Driver F :=
  match rawPacket payload with
  | none => d.countInvalid
  | some raw => d.trySingle raw

/-- The loop body of `_poll_full_pcap`, from the payload on. -/
def Driver.fullPayload (d : Driver F) (assembler : FullScanAssembler F) (payload : List UInt8) :
    Driver F × FullScanAssembler F :=
  match rawPacket payload with
  | none => (d.countInvalid, assembler)
  | some raw => d.tryAdd assembler raw

def pollPcap (d : PcapDriver F) : Except Escaped (PcapDriver F) :=
  match d.pcapSniffer with
  | [] => .ok d.restart
  | f :: rest =>
    let core := d.sleep f
    match f.rawPdu with
    | none => .error .pduNotFound
    | some payload => .ok (d.advance f rest (core.singlePayload payload))

/-- The loop head of `_poll_full_pcap`, with the answers of `ros::ok()` to come. -/
structure FullReplay (F : Type) where
  ok : Stream' Bool
  driver : PcapDriver F
  assembler : FullScanAssembler F

namespace FullReplay

/-- A call of `_poll_full_pcap`. -/
def enter (r : Stream' Bool × PcapDriver F) : FullReplay F := ⟨r.1, r.2, FullScanAssembler.fresh⟩

def start (options : DriverRuntimeOptions F) (file : List Frame) (ok : Stream' Bool) :
    FullReplay F :=
  enter (ok, PcapDriver.initial options file)

/-- The loop body is entered. -/
def Runs (s : FullReplay F) : Prop := s.ok.head = true ∧ s.assembler.complete = false

instance (s : FullReplay F) : Decidable s.Runs := inferInstanceAs (Decidable (_ ∧ _))

/-- The file is opened again in the middle of a poll. -/
def startOver (s : FullReplay F) : FullReplay F := ⟨s.ok.tail, s.driver.restartFull, s.assembler⟩

/-- A frame with a payload. -/
def read (s : FullReplay F) (f : Frame) (rest : List Frame) (payload : List UInt8) :
    FullReplay F :=
  let r := (s.driver.sleepFull f).fullPayload s.assembler payload
  ⟨s.ok.tail, s.driver.advance f rest r.1, r.2⟩

/-- The end of the poll. -/
def finish (s : FullReplay F) : Stream' Bool × PcapDriver F :=
  (s.ok.tail, { s.driver with toDriver := s.driver.toDriver.publishFull s.assembler })

end FullReplay

/-- One evaluation of the loop condition, with the body or with what follows the loop. -/
def fullPcapPass (s : FullReplay F) :
    Except Escaped (Pass (FullReplay F) (Stream' Bool × PcapDriver F)) :=
  if s.Runs then
    match s.driver.pcapSniffer with
    | [] => .ok (.again s.startOver)
    | f :: rest =>
      match f.rawPdu with
      | none => .error .pduNotFound
      | some payload => .ok (.again (s.read f rest payload))
  else .ok (.leave s.finish)

/-- `_poll_full_pcap`, if it ends within the given number of passes. -/
def pollFullPcap (fuel : Nat) (s : Stream' Bool × PcapDriver F) :
    Except Escaped (Option (Stream' Bool × PcapDriver F)) :=
  call fullPcapPass fuel (FullReplay.enter s)

/-- One pass in consecutive calls. -/
def fullReplay (s : FullReplay F) : Except Escaped (FullReplay F) :=
  next fullPcapPass FullReplay.enter s

/-- Consecutive calls of `_poll_full_pcap`. -/
abbrev PolledFull (s s' : Stream' Bool × PcapDriver F) : Prop :=
  Called fullPcapPass FullReplay.enter s s'

/-! ## Steps -/

section Full

variable {s s' : FullReplay F} {f : Frame} {rest : List Frame}

theorem fullReplay_finish (h : ¬ s.Runs) : fullReplay s = .ok (FullReplay.enter s.finish) :=
  next_leave (if_neg h)

theorem fullReplay_startOver (h : s.Runs) (hs : s.driver.pcapSniffer = []) :
    fullReplay s = .ok s.startOver := by
  refine next_again ?_
  rw [fullPcapPass, if_pos h, hs]

theorem fullReplay_read (h : s.Runs) (hs : s.driver.pcapSniffer = f :: rest)
    {payload : List UInt8} (hf : f.rawPdu = some payload) :
    fullReplay s = .ok (s.read f rest payload) := by
  refine next_again ?_
  rw [fullPcapPass, if_pos h, hs]
  simp only [hf]

theorem fullReplay_throws (h : s.Runs) (hs : s.driver.pcapSniffer = f :: rest)
    (hf : f.rawPdu = none) : fullReplay s = .error .pduNotFound := by
  refine next_error ?_
  rw [fullPcapPass, if_pos h, hs]
  simp only [hf]

/-- What a pass can do, unless it throws. -/
theorem fullReplay_cases (h : fullReplay s = .ok s') :
    (¬ s.Runs ∧ s' = FullReplay.enter s.finish) ∨
    (s.Runs ∧ s.driver.pcapSniffer = [] ∧ s' = s.startOver) ∨
    (s.Runs ∧ ∃ f rest payload, s.driver.pcapSniffer = f :: rest ∧ f.rawPdu = some payload ∧
      s' = s.read f rest payload) := by
  by_cases hr : s.Runs
  · cases hs : s.driver.pcapSniffer with
    | nil =>
      rw [fullReplay_startOver hr hs] at h
      cases h
      exact .inr (.inl ⟨hr, rfl, rfl⟩)
    | cons f rest =>
      cases hf : f.rawPdu with
      | none =>
        rw [fullReplay_throws hr hs hf] at h
        cases h
      | some payload =>
        rw [fullReplay_read hr hs hf] at h
        cases h
        exact .inr (.inr ⟨hr, f, rest, payload, rfl, hf, rfl⟩)
  · rw [fullReplay_finish hr] at h
    cases h
    exact .inl ⟨hr, rfl⟩

end Full

theorem pollPcap_read {d : PcapDriver F} {f : Frame} {rest : List Frame}
    (hs : d.pcapSniffer = f :: rest) {payload : List UInt8} (hf : f.rawPdu = some payload) :
    pollPcap d = .ok (d.advance f rest ((d.sleep f).singlePayload payload)) := by
  unfold pollPcap
  simp only [hs, hf]

theorem pollPcap_throws {d : PcapDriver F} {f : Frame} {rest : List Frame}
    (hs : d.pcapSniffer = f :: rest) (hf : f.rawPdu = none) :
    pollPcap d = .error .pduNotFound := by
  unfold pollPcap
  simp only [hs, hf]

theorem pollPcap_restart {d : PcapDriver F} (hs : d.pcapSniffer = []) :
    pollPcap d = .ok d.restart := by
  unfold pollPcap
  simp only [hs]

/-- What a SINGLE poll can do, unless it throws. -/
theorem pollPcap_cases {d d' : PcapDriver F} (h : pollPcap d = .ok d') :
    (d.pcapSniffer = [] ∧ d' = d.restart) ∨
    (∃ f rest payload, d.pcapSniffer = f :: rest ∧ f.rawPdu = some payload ∧
      d' = d.advance f rest ((d.sleep f).singlePayload payload)) := by
  cases hs : d.pcapSniffer with
  | nil =>
    rw [pollPcap_restart hs] at h
    cases h
    exact .inl ⟨rfl, rfl⟩
  | cons f rest =>
    cases hf : f.rawPdu with
    | none =>
      rw [pollPcap_throws hs hf] at h
      cases h
    | some payload =>
      rw [pollPcap_read hs hf] at h
      cases h
      exact .inr ⟨f, rest, payload, rfl, hf, rfl⟩

end MechLidar
