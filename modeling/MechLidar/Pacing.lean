import MechLidar.Passes
import MechLidar.Config

/-!
# MechLidar.Pacing

The pauses of a PCAP replay, against the times at which the frames were captured.

* `Captured`: a frame with its whole time. `Captured.frame` is what the driver sees of it: the
  part of the time below one second.
* `pauseOf`: the pause in front of a frame, of the two remainders. `pauseOf_eq_iff` says when it is
  the true difference.
* `Place captures seen next d`: the driver has read `seen` of the capture in this pass.
* `replay_timeCorrect_iff`: the replay is time-correct when no two consecutive frames of the
  capture, up to the first one that has no payload, are in different seconds. A FULL replay also
  skips the pause after a frame at the very start of a second.
-/

namespace MechLidar

open Lib

/-- A frame of a capture file, with its time in microseconds since the epoch. -/
structure Captured where
  time : Nat
  rawPdu : Option (List UInt8)

/-- `timestamp().microseconds()` has no whole seconds. -/
def Captured.frame (c : Captured) : Frame := ⟨c.time % 1000000, c.rawPdu⟩

/-- The pause in front of a frame, with 0 for none. -/
def pauseOf : CaptureType → Int → Nat → Int
  | .single, prev, current => current - prev
  | .full, prev, current => if 0 < prev ∧ prev ≤ current then current - prev else 0

/-- Consecutive frames at these times are played with the right pause. -/
def Paced : CaptureType → Nat → Nat → Prop
  | .single, prev, current => prev / 1000000 = current / 1000000
  | .full, prev, current =>
    prev = current ∨ prev / 1000000 = current / 1000000 ∧ prev % 1000000 ≠ 0

instance : (captureType : CaptureType) → (prev current : Nat) →
    Decidable (Paced captureType prev current)
  | .single, _, _ => inferInstanceAs (Decidable (_ = _))
  | .full, _, _ => inferInstanceAs (Decidable (_ ∨ _))

theorem pauseOf_eq_iff (captureType : CaptureType) {prev current : Nat} (h : prev ≤ current) :
    pauseOf captureType (prev % 1000000 : Nat) (current % 1000000) = current - prev ↔
      Paced captureType prev current := by
  cases captureType with
  | single =>
    simp only [pauseOf, Paced]
    omega
  | full =>
    simp only [pauseOf, Paced]
    split <;> omega

/-- After a restart a FULL replay does not pause. -/
theorem pauseOf_zero (current : Nat) : pauseOf .full 0 current = 0 := rfl

/-- The frames after the first one are played with the right pauses, as far as the replay gets: a
frame without a payload ends it. -/
def WellPaced (captureType : CaptureType) : List Captured → Prop
  | prev :: f :: next =>
    Paced captureType prev.time f.time ∧
      (f.rawPdu.isSome = true → WellPaced captureType (f :: next))
  | _ => True

/-- The last time minus the first one. -/
def elapsed (seen : List Captured) : Int :=
  match seen.head?, seen.getLast? with
  | some first, some last => last.time - first.time
  | _, _ => 0

/-- What `_prev_pkt_tmstmp` is after these frames of a pass. -/
def lastRemainder (seen : List Captured) : Int :=
  match seen.getLast? with
  | some last => last.frame.microseconds
  | none => 0

theorem elapsed_concat (seen : List Captured) (last f : Captured)
    (h : seen.getLast? = some last) :
    elapsed (seen ++ [f]) = elapsed seen + (f.time - last.time) := by
  cases seen with
  | nil => cases h
  | cons first seen =>
    have hlast : (first :: (seen ++ [f])).getLast? = some f :=
      List.getLast?_concat (l := first :: seen)
    simp only [elapsed, h, hlast, List.cons_append, List.head?_cons]
    omega

theorem lastRemainder_concat (seen : List Captured) (f : Captured) :
    lastRemainder (seen ++ [f]) = f.frame.microseconds := by
  simp [lastRemainder]

variable {F : Type}

/-! ## The pauses of a driver -/

/-- From `d` to `d'` a pause is requested; no pause counts as 0. -/
def Pauses (d d' : Driver F) (microseconds : Int) : Prop :=
  d' = d.log (.slept microseconds) ∨ d' = d ∧ microseconds = 0

/-- What an event means for the pauses of a pass. -/
def notePause (s : Batches Int) : Event F → Batches Int
  | .slept microseconds => ⟨s.done, s.current ++ [microseconds]⟩
  | .startOver => ⟨s.done ++ [s.current], []⟩
  | .handed _ => s
  | .published _ _ _ => s

/-- The pauses of each finished pass, and of the current one. -/
def Driver.pauses (d : Driver F) : Batches Int := d.trace.foldl notePause Batches.empty

theorem pauses_log (d : Driver F) (e : Event F) : (d.log e).pauses = notePause d.pauses e := by
  simp [Driver.pauses, Driver.log]

theorem Pauses.sum {d d' : Driver F} {x : Int} (h : Pauses d d' x) :
    d'.pauses.current.sum = d.pauses.current.sum + x := by
  rcases h with rfl | ⟨rfl, rfl⟩
  · rw [pauses_log]
    simp [notePause]
  · simp

/-- The pause is determined by the driver before and after it. -/
theorem Pauses.unique {d d' : Driver F} {x y : Int} (hx : Pauses d d' x) (hy : Pauses d d' y) :
    x = y := by
  have h := hx.sum.symm.trans hy.sum
  omega

/-- The driver after the pause in front of `f`. -/
def PcapDriver.pause (captureType : CaptureType) (d : PcapDriver F) (f : Frame) : Driver F :=
  match captureType with
  | .single => d.sleep f
  | .full => d.sleepFull f

theorem pauses_pause (captureType : CaptureType) (d : PcapDriver F) (f : Frame) :
    Pauses d.toDriver (d.pause captureType f)
      (pauseOf captureType d.prevPktTmstmp f.microseconds) := by
  cases captureType with
  | single => exact .inl rfl
  | full =>
    simp only [PcapDriver.pause, PcapDriver.sleepFull, pauseOf]
    split
    · exact .inl rfl
    · exact .inr ⟨rfl, rfl⟩

/-! ## Where a replay is -/

/-- The driver has read the frames `seen` of the capture in this pass, and `next` is left. -/
structure Place (captureType : CaptureType) (captures seen next : List Captured)
    (d : PcapDriver F) : Prop where
  split : captures = seen ++ next
  file : d.pcapFile = captures.map Captured.frame
  sniffer : d.pcapSniffer = next.map Captured.frame
  prev : d.prevPktTmstmp = lastRemainder seen
  payloads : ∀ c ∈ seen.tail, c.rawPdu.isSome = true
  /-- A SINGLE replay takes the first frame for its time. -/
  started : captureType = .single → captures ≠ [] → seen ≠ []

section Place

variable {captureType : CaptureType} {captures seen next : List Captured} {d : PcapDriver F}

/-- The capture decides where a sniffer with this many frames is. -/
theorem Place.eq_of_sniffer (h : Place captureType captures seen next d)
    {seen' next' : List Captured}
    (hsplit : captures = seen' ++ next') (hs : d.pcapSniffer = next'.map Captured.frame) :
    seen = seen' ∧ next = next' := by
  have hlength : next.length = next'.length := by
    rw [← List.length_map (f := Captured.frame), ← h.sniffer, hs, List.length_map]
  exact List.append_inj' (h.split.symm.trans hsplit) hlength

/-- As far as a replay gets, consecutive frames are well paced. -/
theorem WellPaced.at_split {seen : List Captured} {prev f : Captured} {next : List Captured}
    (h : WellPaced captureType (seen ++ prev :: f :: next))
    (hp : ∀ c ∈ (seen ++ [prev]).tail, c.rawPdu.isSome = true) :
    Paced captureType prev.time f.time := by
  induction seen with
  | nil => exact h.1
  | cons first seen ih =>
    cases seen with
    | nil => exact (h.2 (hp prev List.mem_cons_self)).1
    | cons second seen =>
      have hsecond := hp second List.mem_cons_self
      exact ih (h.2 hsecond) fun c hc => hp c (List.mem_cons_of_mem second hc)

theorem Place.initial (options : DriverRuntimeOptions F) (captureType : CaptureType)
    (captures : List Captured) : Place captureType captures (captures.take 1) captures.tail
      (PcapDriver.initial options (captures.map Captured.frame)) where
  split := by cases captures <;> rfl
  file := rfl
  sniffer := by cases captures <;> rfl
  prev := by cases captures <;> rfl
  payloads := by cases captures <;> simp
  started := by cases captures <;> simp

theorem Place.restart (h : Place captureType captures seen next d) :
    Place captureType captures (captures.take 1) captures.tail d.restart where
  split := by cases captures <;> rfl
  file := h.file
  sniffer := by
    show d.pcapFile.tail = _
    rw [h.file, List.map_tail]
  prev := by
    show firstTmstmp d.pcapFile = _
    rw [h.file]
    cases captures <;> rfl
  payloads := by cases captures <;> simp
  started := by cases captures <;> simp

theorem Place.restartFull (h : Place .full captures seen next d) :
    Place .full captures [] captures d.restartFull where
  split := rfl
  file := h.file
  sniffer := h.file
  prev := rfl
  payloads := by simp
  started := by simp

theorem Place.read {f : Captured} (h : Place captureType captures seen (f :: next) d)
    (hf : f.rawPdu.isSome = true) (core : Driver F) :
    Place captureType captures (seen ++ [f]) next
      (d.advance f.frame (next.map Captured.frame) core) where
  split := by rw [h.split, List.append_assoc]; rfl
  file := h.file
  sniffer := rfl
  prev := (lastRemainder_concat seen f).symm
  payloads := by
    intro c hc
    cases seen with
    | nil => cases hc
    | cons first seen =>
      rcases List.mem_append.mp hc with hc | hc
      · exact h.payloads c hc
      · rw [List.mem_singleton.mp hc]
        exact hf
  started := by simp

/-- The pause in front of a frame with a predecessor in the pass. -/
theorem Place.pauseOf_iff {prev f : Captured}
    (h : Place captureType captures (seen ++ [prev]) next d)
    (hle : prev.time ≤ f.time) :
    pauseOf captureType d.prevPktTmstmp f.frame.microseconds = f.time - prev.time ↔
      Paced captureType prev.time f.time := by
  rw [h.prev, lastRemainder_concat]
  exact pauseOf_eq_iff captureType hle

/-- In a well paced capture the pause in front of `f` is the time since the frame before it. -/
theorem Place.pauseOf_eq {f : Captured} (h : Place captureType captures seen (f :: next) d)
    (hpaced : WellPaced captureType captures)
    (hsorted : captures.Pairwise fun c c' => c.time ≤ c'.time) :
    0 ≤ pauseOf captureType d.prevPktTmstmp f.frame.microseconds ∧
      elapsed (seen ++ [f]) =
        elapsed seen + pauseOf captureType d.prevPktTmstmp f.frame.microseconds := by
  rcases List.eq_nil_or_concat' seen with rfl | ⟨done, prev, rfl⟩
  · cases captureType with
    | single =>
      have hne : captures ≠ [] := by rw [h.split]; exact List.cons_ne_nil f next
      exact absurd rfl (h.started rfl hne)
    | full =>
      rw [h.prev]
      show 0 ≤ pauseOf .full 0 _ ∧ _ = 0 + pauseOf .full 0 _
      rw [pauseOf_zero]
      simp [elapsed]
  · have hsplit : captures = done ++ prev :: f :: next := by rw [h.split]; simp
    have hle : prev.time ≤ f.time := by
      rw [hsplit, List.pairwise_append] at hsorted
      exact (List.pairwise_cons.mp hsorted.2.1).1 f List.mem_cons_self
    have hpause := (h.pauseOf_iff hle).mpr ((hsplit ▸ hpaced).at_split h.payloads)
    rw [hpause, elapsed_concat _ prev f List.getLast?_concat]
    exact ⟨by omega, rfl⟩

end Place

/-! ## Every state of a replay -/

section Runs

/-- The driver is at some frame of the capture. The pauses of this pass add up to the time between
its first frame and the last one that was read, if the capture is well paced. -/
def OnTime (captureType : CaptureType) (captures : List Captured) (d : PcapDriver F) : Prop :=
  ∃ seen next, Place captureType captures seen next d ∧
    (WellPaced captureType captures → (captures.Pairwise fun c c' => c.time ≤ c'.time) →
      d.pauses.current.sum = elapsed seen)

variable {captureType : CaptureType} {captures : List Captured} {d : PcapDriver F}

theorem elapsed_take_one (captures : List Captured) : elapsed (captures.take 1) = 0 := by
  cases captures with
  | nil => rfl
  | cons c captures => simp [elapsed]

theorem onTime_initial (options : DriverRuntimeOptions F) (captureType : CaptureType)
    (captures : List Captured) :
    OnTime captureType captures (PcapDriver.initial options (captures.map Captured.frame)) :=
  ⟨_, _, Place.initial options captureType captures, fun _ _ => (elapsed_take_one captures).symm⟩

theorem OnTime.read (h : OnTime captureType captures d) {f : Frame} {rest : List Frame}
    {payload : List UInt8} (hs : d.pcapSniffer = f :: rest) (hf : f.rawPdu = some payload)
    {core : Driver F} (hcore : core.pauses = (d.pause captureType f).pauses) :
    OnTime captureType captures (d.advance f rest core) := by
  obtain ⟨seen, next, hplace, hsum⟩ := h
  cases next with
  | nil => rw [hplace.sniffer] at hs; cases hs
  | cons c next =>
    rw [hplace.sniffer, List.map_cons, List.cons.injEq] at hs
    obtain ⟨rfl, rfl⟩ := hs
    have hpayload : c.rawPdu.isSome = true := by
      rw [show c.rawPdu = some payload from hf]
      rfl
    refine ⟨seen ++ [c], next, hplace.read hpayload core, fun hpaced hsorted => ?_⟩
    show core.pauses.current.sum = _
    rw [hcore, (pauses_pause captureType d c.frame).sum, hsum hpaced hsorted]
    exact (hplace.pauseOf_eq hpaced hsorted).2.symm

variable [Arith F]

theorem pauses_publish (d : Driver F) (rot : UInt16) (scan : LaserScan F) :
    (d.publish rot scan).pauses = d.pauses :=
  pauses_log d (.published rot scan (makePointcloudMsg scan))

theorem pauses_publishFull (d : Driver F) (a : FullScanAssembler F) :
    (d.publishFull a).pauses = d.pauses := by
  unfold Driver.publishFull
  split
  · exact pauses_publish _ _ _
  · exact pauses_publish _ _ _

theorem pauses_fullPayload (d : Driver F) (a : FullScanAssembler F) (payload : List UInt8) :
    (d.fullPayload a payload).1.pauses = d.pauses := by
  unfold Driver.fullPayload
  split
  · rfl
  · rename_i raw _
    cases hd : (decode raw : Except PacketError (PktHdlMech F)) with
    | error e => rw [tryAdd_error d a hd]; exact pauses_log d (.handed raw)
    | ok p => rw [tryAdd_ok d a hd]; exact pauses_log d (.handed raw)

theorem pauses_singlePayload (d : Driver F) (payload : List UInt8) :
    (d.singlePayload payload).pauses = d.pauses := by
  unfold Driver.singlePayload
  split
  · rfl
  · rename_i raw _
    unfold Driver.trySingle
    split
    · exact pauses_log d (.handed raw)
    · exact (pauses_publish _ _ _).trans (pauses_log d (.handed raw))

theorem onTime_single (options : DriverRuntimeOptions F)
    (h : Steps pollPcap (PcapDriver.initial options (captures.map Captured.frame)) d) :
    OnTime .single captures d := by
  refine Steps.preserves (fun t t' ht hstep => ?_) h (onTime_initial options .single captures)
  obtain ⟨-, rfl⟩ | ⟨f, rest, payload, hs, hf, rfl⟩ := pollPcap_cases hstep
  · obtain ⟨seen, next, hplace, -⟩ := ht
    refine ⟨_, _, hplace.restart, fun _ _ => ?_⟩
    have hnew : t.restart.pauses = notePause t.pauses (.startOver : Event F) :=
      pauses_log t.toDriver .startOver
    rw [hnew, elapsed_take_one]
    rfl
  · exact ht.read hs hf (pauses_singlePayload (t.sleep f) payload)

theorem onTime_full (options : DriverRuntimeOptions F) {ok : Stream' Bool} {s : FullReplay F}
    (h : Steps fullReplay (FullReplay.start options (captures.map Captured.frame) ok) s) :
    OnTime .full captures s.driver := by
  refine Steps.preserves (P := fun t => OnTime .full captures t.driver) (fun t t' ht hstep => ?_) h
    (onTime_initial options .full captures)
  obtain ⟨-, rfl⟩ | ⟨-, -, rfl⟩ | ⟨-, f, rest, payload, hs, hf, rfl⟩ := fullReplay_cases hstep
  · obtain ⟨seen, next, hplace, hsum⟩ := ht
    refine ⟨seen, next, ⟨hplace.split, hplace.file, hplace.sniffer, hplace.prev, hplace.payloads,
      hplace.started⟩, fun hpaced hsorted => ?_⟩
    show (t.driver.toDriver.publishFull t.assembler).pauses.current.sum = _
    rw [pauses_publishFull]
    exact hsum hpaced hsorted
  · obtain ⟨seen, next, hplace, -⟩ := ht
    refine ⟨_, _, hplace.restartFull, fun _ _ => ?_⟩
    show t.driver.restartFull.pauses.current.sum = _
    have hnew : t.driver.restartFull.pauses = notePause t.driver.pauses (.startOver : Event F) :=
      pauses_log t.driver.toDriver .startOver
    rw [hnew]
    rfl
  · exact ht.read hs hf (pauses_fullPayload (t.driver.sleepFull f) t.assembler payload)

/-- The driver is about to read, after some polls of a replay. -/
inductive Reaches (options : DriverRuntimeOptions F) (captures : List Captured) :
    CaptureType → PcapDriver F → Prop where
  | single {d : PcapDriver F} :
    Steps pollPcap (PcapDriver.initial options (captures.map Captured.frame)) d →
      Reaches options captures .single d
  | full {ok : Stream' Bool} {s : FullReplay F} :
    Steps fullReplay (FullReplay.start options (captures.map Captured.frame) ok) s → s.Runs →
      Reaches options captures .full s.driver

theorem Reaches.onTime {options : DriverRuntimeOptions F}
    (h : Reaches options captures captureType d) : OnTime captureType captures d := by
  cases h with
  | single hrun => exact onTime_single options hrun
  | full hrun _ => exact onTime_full options hrun

/-- Every frame of the capture is reached, up to the first one without a payload. -/
theorem exists_reaches (options : DriverRuntimeOptions F) (captureType : CaptureType)
    {seen next : List Captured} (hsplit : captures = seen ++ next) (hne : seen ≠ [])
    (hp : ∀ c ∈ seen.tail, c.rawPdu.isSome = true) :
    ∃ d : PcapDriver F, Reaches options captures captureType d ∧
      d.pcapSniffer = next.map Captured.frame := by
  have hframes : ∀ f ∈ seen.tail.map Captured.frame, f.rawPdu ≠ none := by
    intro f hf
    obtain ⟨c, hc, rfl⟩ := List.mem_map.mp hf
    have hsome := hp c hc
    intro hnone
    rw [show c.rawPdu = none from hnone] at hsome
    cases hsome
  have hsniffer : (captures.map Captured.frame).tail =
      seen.tail.map Captured.frame ++ next.map Captured.frame := by
    obtain ⟨first, seen, rfl⟩ := List.exists_cons_of_ne_nil hne
    rw [hsplit]
    simp
  cases captureType with
  | single =>
    obtain ⟨d, hsteps, hs, -⟩ := single_reads (F := F) _ _
      (d := PcapDriver.initial options (captures.map Captured.frame)) hsniffer hframes
    exact ⟨d, .single hsteps, hs⟩
  | full =>
    obtain ⟨s, hsteps, hread, hs, -⟩ := reads (F := F) _ _
      (reading_start options (captures.map Captured.frame)) hsniffer hframes
    exact ⟨s.driver, .full hsteps hread.runs, hs⟩

/-! ## Time-correct replays -/

/-- In every pass of every run, the pause in front of each frame after the first one is the time
since the frame before it, the pauses add up to the time between the first and the last frame, and
no pause is negative. -/
structure TimeCorrect (options : DriverRuntimeOptions F) (captureType : CaptureType)
    (captures : List Captured) : Prop where
  each : ∀ d, Reaches options captures captureType d → ∀ done prev f next,
    captures = done ++ prev :: f :: next →
    d.pcapSniffer = (f :: next).map Captured.frame →
    Pauses d.toDriver (d.pause captureType f.frame) (f.time - prev.time)
  total : ∀ d, Reaches options captures captureType d → d.pcapSniffer = [] →
    d.pauses.current.sum = elapsed captures
  nonneg : ∀ d, Reaches options captures captureType d → ∀ f rest, d.pcapSniffer = f :: rest →
    ∃ x, 0 ≤ x ∧ Pauses d.toDriver (d.pause captureType f) x

theorem timeCorrect_of_wellPaced (options : DriverRuntimeOptions F)
    (hsorted : captures.Pairwise fun c c' => c.time ≤ c'.time)
    (h : WellPaced captureType captures) : TimeCorrect options captureType captures where
  each := by
    intro d hd done prev f next hsplit hs
    obtain ⟨seen, next', hplace, -⟩ := hd.onTime
    have hcut : captures = (done ++ [prev]) ++ f :: next := by rw [hsplit]; simp
    obtain ⟨rfl, rfl⟩ := hplace.eq_of_sniffer hcut hs
    have hle : prev.time ≤ f.time := by
      rw [hsplit, List.pairwise_append] at hsorted
      exact (List.pairwise_cons.mp hsorted.2.1).1 f List.mem_cons_self
    rw [← (hplace.pauseOf_iff hle).mpr ((hsplit ▸ h).at_split hplace.payloads)]
    exact pauses_pause captureType d f.frame
  total := by
    intro d hd hs
    obtain ⟨seen, next, hplace, hsum⟩ := hd.onTime
    obtain ⟨rfl, rfl⟩ := hplace.eq_of_sniffer (List.append_nil captures).symm hs
    exact hsum h hsorted
  nonneg := by
    intro d hd f rest hs
    obtain ⟨seen, next, hplace, -⟩ := hd.onTime
    cases next with
    | nil => rw [hplace.sniffer] at hs; cases hs
    | cons c next =>
      rw [hplace.sniffer, List.map_cons, List.cons.injEq] at hs
      obtain ⟨rfl, rfl⟩ := hs
      exact ⟨_, (hplace.pauseOf_eq h hsorted).1, pauses_pause captureType d c.frame⟩

theorem wellPaced_of_timeCorrect {options : DriverRuntimeOptions F}
    (hsorted : captures.Pairwise fun c c' => c.time ≤ c'.time)
    (h : TimeCorrect options captureType captures) (next : List Captured) :
    ∀ (seen : List Captured) (prev : Captured), captures = seen ++ prev :: next →
      (∀ c ∈ (seen ++ [prev]).tail, c.rawPdu.isSome = true) →
      WellPaced captureType (prev :: next) := by
  induction next with
  | nil => intro seen prev _ _; trivial
  | cons f next ih =>
    intro seen prev hsplit hp
    have hcut : captures = (seen ++ [prev]) ++ f :: next := by rw [hsplit]; simp
    have hle : prev.time ≤ f.time := by
      have hsorted' := hsorted
      rw [hsplit, List.pairwise_append] at hsorted'
      exact (List.pairwise_cons.mp hsorted'.2.1).1 f List.mem_cons_self
    obtain ⟨d, hd, hs⟩ := exists_reaches options captureType hcut (by simp) hp
    obtain ⟨seen', next', hplace, -⟩ := hd.onTime
    obtain ⟨rfl, rfl⟩ := hplace.eq_of_sniffer hcut hs
    have hpause := (pauses_pause captureType d f.frame).unique
      (h.each d hd seen prev f next hsplit hs)
    refine ⟨(hplace.pauseOf_iff hle).mp hpause, fun hf => ih (seen ++ [prev]) f hcut ?_⟩
    intro c hc
    rw [List.tail_append_of_ne_nil (by simp)] at hc
    rcases List.mem_append.mp hc with hc | hc
    · exact hp c hc
    · rw [List.mem_singleton.mp hc]
      exact hf

/-- For every capture in the order of its times: both kinds of replay are time-correct exactly when
the capture is well paced for them. -/
theorem replay_timeCorrect_iff (options : DriverRuntimeOptions F) (captureType : CaptureType)
    (hsorted : captures.Pairwise fun c c' => c.time ≤ c'.time) :
    TimeCorrect options captureType captures ↔ WellPaced captureType captures := by
  constructor
  · intro h
    cases captures with
    | nil => trivial
    | cons first next =>
      exact wellPaced_of_timeCorrect hsorted h next [] first rfl (by simp)
  · intro h
    exact timeCorrect_of_wellPaced options hsorted h

/-! ## Across a second -/

/-- Two frames 2 ms apart, the second one in the next second. -/
def crossing : List Captured := [⟨1999000, some []⟩, ⟨2001000, some []⟩]

theorem crossing_sorted : crossing.Pairwise fun c c' => c.time ≤ c'.time := by
  simp [crossing]

/-- A SINGLE replay requests a pause of -998 ms in front of the second frame, a FULL replay
none. -/
theorem crossing_not_timeCorrect :
    let d : PcapDriver ℝ := PcapDriver.initial plainOptions (crossing.map Captured.frame)
    let f : Frame := ⟨1000, some []⟩
    d.pcapSniffer = [f] ∧
    Pauses d.toDriver (d.pause .single f) (-998000) ∧ Pauses d.toDriver (d.pause .full f) 0 ∧
    ∀ captureType, ¬ TimeCorrect (plainOptions : DriverRuntimeOptions ℝ) captureType crossing := by
  intro d f
  refine ⟨rfl, pauses_pause .single d f, pauses_pause .full d f, fun captureType h => ?_⟩
  have hpaced := (wellPaced_of_timeCorrect crossing_sorted h _ [] _ rfl (by simp)).1
  cases captureType with
  | single => exact absurd hpaced (by decide)
  | full => exact absurd hpaced (by decide)

/-- Two frames 2 ms apart in the same second. -/
def steady : List Captured := [⟨1001000, some []⟩, ⟨1003000, some []⟩]

theorem replay_timeCorrect_steady :
    TimeCorrect (plainOptions : DriverRuntimeOptions ℝ) .single steady ∧
      TimeCorrect (plainOptions : DriverRuntimeOptions ℝ) .full steady := by
  have hsorted : steady.Pairwise fun c c' => c.time ≤ c'.time := by simp [steady]
  constructor
  · refine (replay_timeCorrect_iff plainOptions .single hsorted).mpr ⟨?_, fun _ => trivial⟩
    decide
  · refine (replay_timeCorrect_iff plainOptions .full hsorted).mpr ⟨?_, fun _ => trivial⟩
    decide

end Runs

end MechLidar
