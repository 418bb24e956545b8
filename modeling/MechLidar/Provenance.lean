import MechLidar.PollRuns

/-!
# MechLidar.Provenance

Where a published message comes from. Whatever arrives, fails or starts over, a scan is made of the
packets that were accepted since the main loop began the poll, and of nothing else.

* `pollPackets`: the accepted packets of a part of a run
* `FullOf`: the scan of a FULL poll, told from its packets
* `Position.Explained`: what the main thread holds, told from the packets of the poll so far
* `published_traced`: so it is for every message of every run
-/

namespace MechLidar

open Lib

variable {F : Type}

section Packets

variable [Arith F]

/-- The packet that is accepted. -/
def PollAction.packet : PollAction F → Option (PktHdlMech F)
  | .event (.handed raw) => (decode raw).toOption
  | _ => none

def pollPackets (as : List (PollAction F)) : List (PktHdlMech F) := as.filterMap PollAction.packet

@[simp] theorem pollPackets_concat (as : List (PollAction F)) (x : PollAction F) :
    pollPackets (as ++ [x]) = pollPackets as ++ x.packet.toList := by
  cases h : x.packet <;> simp [pollPackets, h]

end Packets

/-- The main loop begins a poll, or ends. -/
def PollAction.starts : PollAction F → Bool
  | .mainOk _ => true
  | _ => false

/-- `poll` is what the poll that was begun last has done. -/
def Within (as poll : List (PollAction F)) : Prop :=
  ∃ done, as = done ++ .mainOk true :: poll ∧ ∀ x ∈ poll, x.starts = false ∧ x.publishes = false

theorem Within.next {as poll : List (PollAction F)} {x : PollAction F} (h : Within as poll)
    (hstarts : x.starts = false) (hpublishes : x.publishes = false) :
    Within (as ++ [x]) (poll ++ [x]) := by
  obtain ⟨done, rfl, hall⟩ := h
  refine ⟨done, by simp, fun y hy => ?_⟩
  rcases List.mem_append.1 hy with hold | hnew
  · exact hall y hold
  · obtain rfl : y = x := by simpa using hnew
    exact ⟨hstarts, hpublishes⟩

/-! ## The scan of a FULL poll -/

section Scans

variable [Arith F]

/-- Each beam has the reading of the first packet at its position, of those since the revolution was
begun. Without any packet all the ranges are 0. -/
structure FullOf (options : DriverRuntimeOptions F) (ps : List (PktHdlMech F)) (rot : UInt16)
    (scan : LaserScan F) : Prop where
  rotation : rot = ((sinceBegun ps).head?.map PktHdlMech.rotationCounter).getD 0
  range : ∀ q < 2300, scan.ranges[q]? = some ((readingOf (firstAt (sinceBegun ps) rot (q / 115))
    PktHdlMech.ranges (if ps = [] then .fin 0 else .inf) (channelOf q)).divBy ((1000 : Nat) : F))
  intensity : ∀ q < 2300, scan.intensities[q]? = some (readingOf
    (firstAt (sinceBegun ps) rot (q / 115)) PktHdlMech.intensities (.fin 0) (channelOf q))
  angle : ∀ q, scan.angle q = options.angleOffsetRad + (q : F) * (fullTurn / ((2300 : Nat) : F))
  scanTime : scan.scanTime = scanTimeOf
    ((((firstAt (sinceBegun ps) rot 0).or (sinceBegun ps).head?).map
      PktHdlMech.rotationFrequencyHz).getD 0)

/-- The packet at each position of the revolution. -/
def Whole (ps : List (PktHdlMech F)) (rot : UInt16) : Prop :=
  ∀ i < 20, (firstAt (sinceBegun ps) rot i).isSome = true

theorem fullOf_assembler (options : DriverRuntimeOptions F) {ps : List (PktHdlMech F)}
    {a : FullScanAssembler F} (ha : a = ps.foldl FullScanAssembler.add FullScanAssembler.fresh) :
    FullOf options ps a.rotationCounter (fullScan options a) ∧
      (a.complete = true → Whole ps a.rotationCounter) := by
  rcases List.eq_nil_or_concat ps with rfl | ⟨earlier, last, rfl⟩
  · obtain rfl : a = FullScanAssembler.fresh := ha
    refine ⟨⟨rfl, fun q hq => ?_, fun q hq => ?_, fun _ => rfl, rfl⟩, nofun⟩
    · rw [fullScan_range, FullScanAssembler.fresh]
      simp [hq, sinceBegun, firstAt, readingOf]
    · rw [fullScan_intensity, FullScanAssembler.fresh]
      simp [hq, sinceBegun, firstAt, readingOf]
  · obtain ⟨b, t, hsince, hasm⟩ := tracks_run earlier last
    rw [List.concat_eq_append] at ha ⊢
    rw [← ha] at hasm
    have hhead : (sinceBegun (earlier ++ [last])).head? = some b := by rw [hsince]; rfl
    refine ⟨⟨?_, fun q hq => ?_, fun q hq => ?_, fun _ => rfl, ?_⟩, fun hcomplete i hi => ?_⟩
    · rw [hhead]
      exact hasm.rotation
    · rw [fullScan_range, Vector.getElem?_eq_getElem hq, hasm.ranges q hq, hsince]
      simp
    · rw [fullScan_intensity, Vector.getElem?_eq_getElem hq, hasm.intensities q hq, hsince]
    · rw [hhead, hsince]
      refine (congrArg scanTimeOf hasm.frequency).trans ?_
      cases firstAt (b :: t) a.rotationCounter 0 <;> rfl
    · rw [hasm.complete, beq_iff_eq] at hcomplete
      rw [hsince, ← hasm.received i hi]
      exact hasm.complete_iff.1 hcomplete i hi

/-- A message, of the packets of its poll. -/
def Traced (captureType : CaptureType) (options : DriverRuntimeOptions F)
    (ps : List (PktHdlMech F)) (cut : Nat) (rot : UInt16) (scan : LaserScan F) : Prop :=
  match captureType with
  | .single => ∃ pkt, ps = [pkt] ∧ rot = pkt.rotationCounter ∧ scan = singleScan options pkt
  | .full => FullOf options ps rot scan ∧ (cut = 0 → Whole ps rot)

end Scans

/-! ## What the main thread holds -/

namespace Position

/-- The main thread has nothing of a poll. -/
def between : Position F → Bool
  | .mainLoop => true
  | .countPublished => true
  | .readClock => true
  | .storeTime _ => true
  | .finished => true
  | .thrown => true
  | _ => false

variable [Arith F]

/-- What a poll has of its packets. A SINGLE poll has none that it goes on with. -/
def Took (ps : List (PktHdlMech F)) : Option (FullScanAssembler F) → Prop
  | some a => a = ps.foldl FullScanAssembler.add FullScanAssembler.fresh
  | none => ps = []

/-- What stands at a position, behind these packets of the poll. -/
def Made (captureType : CaptureType) (options : DriverRuntimeOptions F)
    (ps : List (PktHdlMech F)) (cut : Nat) : Position F → Prop
  | .loop a => Took ps (some a)
  | .receiving _ a => Took ps a
  | .reading a => Took ps a
  | .pausing _ a => Took ps a
  | .payload _ a => Took ps a
  | .handing _ a => Took ps a
  | .countReceived pkt a => ∃ earlier, ps = earlier ++ [pkt] ∧ Took earlier a
  | .countInvalid a => Took ps a
  | .adding pkt a => ∃ earlier, ps = earlier ++ [pkt] ∧ Took earlier (some a)
  | .countDiscarded a => Took ps (some a) ∧ (cut = 0 → a.complete = true)
  | .publishing rot scan => Traced captureType options ps cut rot scan
  | _ => True

def Explained (captureType : CaptureType) (options : DriverRuntimeOptions F)
    (as : List (PollAction F)) (p : Position F) : Prop :=
  p.between = true ∨ ∃ poll, Within as poll ∧
    p.Made captureType options (pollPackets poll) (cutShort poll)

section Explained

variable {captureType : CaptureType} {options : DriverRuntimeOptions F}
  {as : List (PollAction F)} {p p' : Position F} {x : PollAction F}

/-- A statement in a poll. -/
theorem Explained.next (h : Explained captureType options as p) (hp : p.between = false)
    (hstarts : x.starts = false) (hpublishes : x.publishes = false)
    (hnext : ∀ ps cut, p.Made captureType options ps cut → p'.Made captureType options
      (ps ++ x.packet.toList) (cut + if x.cutsShort then 1 else 0)) :
    Explained captureType options (as ++ [x]) p' := by
  rcases h with hbetween | ⟨poll, hwithin, hmade⟩
  · exact absurd (hp.symm.trans hbetween) Bool.false_ne_true
  · refine .inr ⟨poll ++ [x], hwithin.next hstarts hpublishes, ?_⟩
    rw [pollPackets_concat, cutShort_concat]
    exact hnext _ _ hmade

/-- A statement that takes no packet. -/
theorem Explained.keep (h : Explained captureType options as p) (hp : p.between = false)
    (hstarts : x.starts = false) (hpublishes : x.publishes = false) (hpacket : x.packet = none)
    (hcut : x.cutsShort = false) (hnext : ∀ ps cut, p.Made captureType options ps cut →
      p'.Made captureType options ps cut) :
    Explained captureType options (as ++ [x]) p' := by
  refine h.next hp hstarts hpublishes fun ps cut hmade => ?_
  rw [hpacket, hcut]
  simpa using hnext ps cut hmade

/-- The first statement of a poll. -/
theorem explained_start (hmade : p.Made captureType options [] 0) :
    Explained captureType options (as ++ [.mainOk true]) p :=
  .inr ⟨[], ⟨as, rfl, by simp⟩, hmade⟩

end Explained

end Position

namespace Poller

variable [Arith F] {mode : DriverMode} {captureType : CaptureType}
  {options : DriverRuntimeOptions F} {startNs : Nat} {as : List (PollAction F)} {p p' : Poller F}
  {x : PollAction F}

theorem Step.explained (h : Step mode captureType options p x p')
    (hbelongs : p.position.Belongs captureType)
    (hp : p.position.Explained captureType options as) :
    p'.position.Explained captureType options (as ++ [x]) := by
  cases h with
  | @time m pos ns =>
    cases hbetween : pos.between with
    | true => exact .inl hbetween
    | false => exact hp.keep hbetween rfl rfl rfl rfl fun _ _ hmade => hmade
  | poll => exact Position.explained_start (by cases mode <;> rfl)
  | pollFull => exact Position.explained_start rfl
  | loop => exact hp.keep rfl rfl rfl rfl rfl fun _ _ hmade => by cases mode <;> exact hmade
  | loopComplete hcomplete =>
    exact hp.keep rfl rfl rfl rfl rfl fun _ _ hmade => ⟨hmade, fun _ => hcomplete⟩
  | loopStop =>
    refine hp.next rfl rfl rfl fun ps cut hmade => ⟨?_, fun hcut => ?_⟩
    · simpa [PollAction.packet, Position.Made, Position.Took] using hmade
    · simp [PollAction.cutsShort] at hcut
  | receive => exact hp.keep rfl rfl rfl rfl rfl fun _ _ hmade => hmade
  | receiveTrue => exact hp.keep rfl rfl rfl rfl rfl fun _ _ hmade => hmade
  | @startOver m a =>
    cases a with
    | none => exact .inl rfl
    | some a => exact hp.keep rfl rfl rfl rfl rfl fun _ _ hmade => hmade
  | frame => exact hp.keep rfl rfl rfl rfl rfl fun _ _ hmade => hmade
  | pause => exact hp.keep rfl rfl rfl rfl rfl fun _ _ hmade => hmade
  | noPause => exact hp.keep rfl rfl rfl rfl rfl fun _ _ hmade => hmade
  | @payload m a f payload hf =>
    refine hp.keep rfl rfl rfl rfl rfl fun ps cut hmade => ?_
    rcases Position.payloadRead_cases a hf with ⟨-, he⟩ | ⟨-, raw, he⟩ <;> rw [he] <;> exact hmade
  | @handing m a raw =>
    cases hdecode : (decode raw : Except PacketError (PktHdlMech F)) with
    | error e =>
      rw [Position.handed_error a hdecode]
      have hpacket : (PollAction.event (.handed raw) : PollAction F).packet = none := by
        simp [PollAction.packet, hdecode, Except.toOption]
      exact hp.keep rfl rfl rfl hpacket rfl fun _ _ hmade => hmade
    | ok pkt =>
      rw [Position.handed_ok a hdecode]
      refine hp.next rfl rfl rfl fun ps cut hmade => ⟨ps, ?_, hmade⟩
      simp [PollAction.packet, hdecode, Except.toOption]
  | @countReceived m a pkt =>
    refine hp.keep rfl rfl rfl rfl rfl fun ps cut hmade => ?_
    obtain ⟨earlier, rfl, htook⟩ := hmade
    cases a with
    | some a => exact ⟨earlier, rfl, htook⟩
    | none =>
      obtain rfl : earlier = [] := htook
      cases captureType with
      | single => exact ⟨pkt, rfl, rfl, rfl⟩
      | full => cases hbelongs
  | @countInvalid m a =>
    cases a with
    | none => exact .inl rfl
    | some a => exact hp.keep rfl rfl rfl rfl rfl fun _ _ hmade => hmade
  | @adding m a pkt =>
    rw [Position.added_eq]
    refine hp.keep rfl rfl rfl rfl rfl fun ps cut hmade => ?_
    obtain ⟨earlier, rfl, htook⟩ := hmade
    simpa [Position.Made, Position.Took] using congrArg (fun a => a.add pkt) htook
  | @countDiscarded m a =>
    refine hp.keep rfl rfl rfl rfl rfl fun ps cut hmade => ?_
    cases captureType with
    | single => cases hbelongs
    | full =>
      obtain ⟨hfull, hwhole⟩ := fullOf_assembler options hmade.1
      exact ⟨hfull, fun hcut => hwhole (hmade.2 hcut)⟩
  | _ => exact .inl rfl

theorem explained (h : Reached mode captureType options startNs as p) :
    p.position.Explained captureType options as := by
  induction h with
  | start => exact .inl rfl
  | after ht hs ih => exact hs.explained (belongs ht) ih

/-- Whatever was received and whatever failed before it, a message shows packets that were accepted
in the poll that publishes it: a SINGLE one the packet, a FULL one the revolution that was begun
last, each position by its first packet, and all of them unless `ros::ok()` has ended the poll. -/
theorem published_traced {before after : List (PollAction F)} {rot : UInt16} {scan : LaserScan F}
    {cloud : PointCloud2 F} (h : Reached mode captureType options startNs
      (before ++ .event (.published rot scan cloud) :: after) p) :
    cloud = makePointcloudMsg scan ∧ ∃ done poll, before = done ++ .mainOk true :: poll ∧
      (∀ x ∈ poll, x.starts = false ∧ x.publishes = false) ∧
      Traced captureType options (pollPackets poll) (cutShort poll) rot scan := by
  rw [List.append_cons] at h
  obtain ⟨u, hu, -⟩ := Runs.append_iff.1 h
  obtain ⟨t, ht, hs⟩ := Runs.concat_iff.1 hu
  have hexplained := explained ht
  cases hs with
  | publishing =>
    rcases hexplained with hbetween | ⟨poll, ⟨done, hdone, hall⟩, hmade⟩
    · cases hbetween
    · exact ⟨rfl, done, poll, hdone, hall, hmade⟩

/-- One SINGLE poll, up to the publication. -/
theorem exists_publishing : ∃ before m rot,
    Reached .udp .single (plainOptions : DriverRuntimeOptions ℝ) 1 before
      ⟨m, .publishing rot (singleScan plainOptions (plainPacket 7 0))⟩ := by
  have hdecode : decode (plainRaw 7 0) = .ok (plainPacket 7 0 : PktHdlMech ℝ) := decode_plainRaw 7 0
  exact ⟨_, _, _,
    .cons (.poll rfl) <| .cons (.receive (by simp) .call) <|
    .cons (.receive (by simp) .outerLoop) <| .cons (.receive (by simp) .received) <|
    .cons (.receiveTrue (plainRaw 7 0)) <| .cons (.handing_ok hdecode) <| .single .countReceived⟩

omit [Arith F] in
/-- What a trace publishes is published at a point of the run. -/
theorem exists_publication {as : List (PollAction F)} {x : UInt16 × LaserScan F × PointCloud2 F}
    (h : x ∈ (eventsOf as).filterMap Event.publication) :
    ∃ before rot scan cloud after, as = before ++ .event (.published rot scan cloud) :: after ∧
      (rot, scan, cloud) = x := by
  obtain ⟨e, he, hx⟩ := List.mem_filterMap.mp h
  obtain ⟨a, ha, hae⟩ := List.mem_filterMap.mp he
  cases a with
  | event e' =>
    obtain rfl : e' = e := Option.some.inj hae
    cases e' with
    | published rot scan cloud =>
      obtain ⟨before, after, has⟩ := List.append_of_mem ha
      exact ⟨before, rot, scan, cloud, after, has, Option.some.inj hx⟩
    | _ => cases hx
  | _ => cases hae

/-- One FULL poll of a plain revolution 7. -/
theorem exists_published : ∃ before rot scan cloud after p,
    Reached .udp .full (plainOptions : DriverRuntimeOptions ℝ) 1
      (before ++ .event (.published rot scan cloud) :: after) p ∧
    (rot, scan, cloud) = publicationOf plainOptions (plainRevolution 7) := by
  obtain ⟨as, p, ns, hruns, -, hevents⟩ := DrivenBy.reached 1
    (.fullUdp plainSocket (quietWorld (datagrams 0 (plainRaws 7))) 1)
  have hpubs := publications_full_plain
  rw [Driver.publications, ← hevents] at hpubs
  have hmem : publicationOf plainOptions (plainRevolution 7) ∈
      (eventsOf as).filterMap Event.publication := by
    rw [hpubs]
    exact List.mem_singleton_self _
  obtain ⟨before, rot, scan, cloud, after, rfl, hx⟩ := exists_publication hmem
  exact ⟨before, rot, scan, cloud, after, _, hruns, hx⟩

theorem published_traced_plain :
    (∃ before rot cloud p,
      Reached .udp .single (plainOptions : DriverRuntimeOptions ℝ) 1 (before ++ [.event
        (.published rot (singleScan plainOptions (plainPacket 7 0)) cloud)]) p ∧
      ∃ done poll pkt, before = done ++ .mainOk true :: poll ∧ pollPackets poll = [pkt] ∧
        rot = pkt.rotationCounter) ∧
    ∃ before rot scan cloud after p,
      Reached .udp .full (plainOptions : DriverRuntimeOptions ℝ) 1
        (before ++ .event (.published rot scan cloud) :: after) p ∧
      (rot, scan, cloud) = publicationOf plainOptions (plainRevolution 7) ∧
      ∃ done poll, before = done ++ .mainOk true :: poll ∧
        Traced .full plainOptions (pollPackets poll) (cutShort poll) rot scan := by
  obtain ⟨before, m, rot, hreached⟩ := exists_publishing
  have hall := hreached.after .publishing
  obtain ⟨-, done, poll, hdone, -, pkt, hpkt, hrot, -⟩ := published_traced hall
  refine ⟨⟨before, rot, _, _, hall, done, poll, pkt, hdone, hpkt, hrot⟩, ?_⟩
  obtain ⟨before, rot, scan, cloud, after, p, hfull, hshows⟩ := exists_published
  obtain ⟨-, done, poll, hdone, -, htraced⟩ := published_traced hfull
  exact ⟨before, rot, scan, cloud, after, p, hfull, hshows, done, poll, hdone, htraced⟩

end Poller

end MechLidar
