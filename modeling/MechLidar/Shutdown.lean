import MechLidar.Lifecycle

/-!
# MechLidar.Shutdown

The end of the process. Once `ros::ok()` is false, or the destructor has cleared the flags, only so
many statements are left, in whatever order the threads make them.

* `Statement.rank`, `Position.rank`: how many statements of the main thread are left at most before
  it leaves its loop
* `Poller.Step.rank_lt`: each of them is one less, as long as `ros::ok()` answers false
* `Poller.exists_step`: the main thread is never stuck
* `process_ends`: the process ends, if the calls of its background threads return
-/

namespace MechLidar

open Lib

variable {F : Type}

/-! ## What is left of a poll -/

def Statement.rank : Statement → Nat
  | .idle => 14
  | .outerLoop => 13
  | .getPacket => 18
  | .caught _ => 17
  | .countError _ _ => 16
  | .storeError _ _ => 15
  | .retryLoop _ => 14
  | .setDelay _ => 15
  | .sleepLoop _ _ => 14
  | .sleep _ _ => 15
  | .check _ => 13
  | .reopen _ => 17
  | .countReconnect => 16
  | .clearRecovering => 15
  | .clearDelay => 14
  | .returning _ => 12

def Position.rank : Position F → Nat
  | .mainLoop => 1
  | .loop _ => 7
  | .receiving point _ => point.rank
  | .reading _ => 14
  | .pausing _ _ => 13
  | .payload _ _ => 12
  | .handing _ _ => 11
  | .countReceived _ _ => 10
  | .countInvalid _ => 8
  | .adding _ _ => 9
  | .countDiscarded _ => 6
  | .publishing _ _ => 5
  | .countPublished => 4
  | .readClock => 3
  | .storeTime _ => 2
  | .finished => 0
  | .thrown => 0

theorem Statement.rank_le (point : Statement) : point.rank ≤ 18 := by
  cases point <;> simp [rank]

theorem Position.rank_le (p : Position F) : p.rank ≤ 18 := by
  cases p with
  | receiving point a => exact point.rank_le
  | _ => simp [rank]

/-- A statement of `receive_udp_packet`. -/
theorem Receiver.Step.rank_lt {o : Backoff} {r r' : Receiver} {x : Action}
    (h : Receiver.Step o r x r') (hx : ∀ value, x ≠ .ret value)
    (hok : ∀ answer, x.okAnswer = some answer → answer = false) :
    r'.point.rank < r.point.rank := by
  cases h with
  | ret => exact absurd rfl (hx _)
  | outerLoop => cases hok true rfl
  | retryLoop => cases hok true rfl
  | sleepLoop => cases hok true rfl
  | check => cases hok true rfl
  | _ => simp [Statement.rank]

section Places

theorem again_rank_lt (a : Option (FullScanAssembler F)) : (Position.again a).rank < 8 := by
  cases a <;> simp [Position.again, Position.rank]

variable [Arith F]

theorem handed_rank_lt (raw : RawPacket) (a : Option (FullScanAssembler F)) :
    (Position.handed raw a).rank < 11 := by
  rw [Position.handed]
  split <;> simp [Position.rank]

theorem received_rank_lt (options : DriverRuntimeOptions F) (pkt : PktHdlMech F)
    (a : Option (FullScanAssembler F)) : (Position.received options pkt a).rank < 10 := by
  cases a <;> simp [Position.received, Position.rank]

theorem added_rank_lt (pkt : PktHdlMech F) (a : FullScanAssembler F) :
    (Position.added pkt a).rank < 9 := by
  rw [Position.added]
  split <;> simp [Position.rank]

omit [Arith F] in
theorem payloadRead_rank_lt (payload : List UInt8) (a : Option (FullScanAssembler F)) :
    (Position.payloadRead payload a).rank < 12 := by
  rw [Position.payloadRead]
  split <;> simp [Position.rank]

end Places

namespace Poller

variable [Arith F] {mode : DriverMode} {captureType : CaptureType}
  {options : DriverRuntimeOptions F} {p p' : Poller F} {x : PollAction F}

/-- As long as `ros::ok()` answers false. -/
theorem Step.rank_lt (h : Step mode captureType options p x p')
    (hok : ∀ answer, x.okAnswer = some answer → answer = false) (hx : x ≠ .time) :
    p'.position.rank < p.position.rank := by
  cases h with
  | time => exact absurd rfl hx
  | poll => cases hok true rfl
  | pollFull => cases hok true rfl
  | loop => cases hok true rfl
  | loopComplete => cases hok true rfl
  | receive hret hs => exact hs.rank_lt hret hok
  | startOver => exact (again_rank_lt _).trans (by simp [Position.rank])
  | payload => exact payloadRead_rank_lt _ _
  | handing => exact handed_rank_lt _ _
  | countReceived => exact received_rank_lt _ _ _
  | countInvalid => exact again_rank_lt _
  | adding => exact added_rank_lt _ _
  | _ => simp [Position.rank, Statement.rank]

end Poller

/-! ## No statement is stuck -/

theorem Receiver.exists_step (o : Backoff) (ok : Bool) (s : SocketStatus) (point : Statement)
    (h : ∀ value, point ≠ .returning value) :
    ∃ x s' point', Receiver.Step o ⟨s, point⟩ x ⟨s', point'⟩ ∧ (∀ value, x ≠ .ret value) ∧
      (x.okAnswer = none ∨ x.okAnswer = some ok) := by
  cases point with
  | idle => exact ⟨_, _, _, .call, nofun, .inl rfl⟩
  | outerLoop =>
    cases ok with
    | true => exact ⟨_, _, _, .outerLoop, nofun, .inr rfl⟩
    | false => exact ⟨_, _, _, .outerEnd, nofun, .inr rfl⟩
  | getPacket => exact ⟨_, _, _, .received, nofun, .inl rfl⟩
  | caught what => exact ⟨_, _, _, .caught, nofun, .inl rfl⟩
  | countError what delay => exact ⟨_, _, _, .countError, nofun, .inl rfl⟩
  | storeError what delay => exact ⟨_, _, _, .storeError, nofun, .inl rfl⟩
  | retryLoop delay =>
    cases ok with
    | true => exact ⟨_, _, _, .retryLoop, nofun, .inr rfl⟩
    | false => exact ⟨_, _, _, .retryEnd, nofun, .inr rfl⟩
  | setDelay delay => exact ⟨_, _, _, .setDelay, nofun, .inl rfl⟩
  | sleepLoop delay remaining =>
    by_cases hremaining : 0 < remaining
    · cases ok with
      | true => exact ⟨_, _, _, .sleepLoop hremaining, nofun, .inr rfl⟩
      | false => exact ⟨_, _, _, .sleepStop hremaining, nofun, .inr rfl⟩
    · exact ⟨_, _, _, .sleepEnd hremaining, nofun, .inl rfl⟩
  | sleep delay remaining => exact ⟨_, _, _, .sleep, nofun, .inl rfl⟩
  | check delay =>
    cases ok with
    | true => exact ⟨_, _, _, .check, nofun, .inr rfl⟩
    | false => exact ⟨_, _, _, .checkStop, nofun, .inr rfl⟩
  | reopen delay => exact ⟨_, _, _, .reopened, nofun, .inl rfl⟩
  | countReconnect => exact ⟨_, _, _, .countReconnect, nofun, .inl rfl⟩
  | clearRecovering => exact ⟨_, _, _, .clearRecovering, nofun, .inl rfl⟩
  | clearDelay => exact ⟨_, _, _, .clearDelay, nofun, .inl rfl⟩
  | returning value => exact absurd rfl (h value)

namespace Poller

variable [Arith F]

theorem exists_step (mode : DriverMode) (captureType : CaptureType)
    (options : DriverRuntimeOptions F) (ok : Bool) (p : Poller F)
    (hfinished : p.position ≠ .finished) (hthrown : p.position ≠ .thrown) :
    ∃ x p', Step mode captureType options p x p' ∧ x ≠ .time ∧
      (x.okAnswer = none ∨ x.okAnswer = some ok) := by
  obtain ⟨m, position⟩ := p
  cases position with
  | mainLoop =>
    cases ok with
    | false => exact ⟨_, _, .leave, nofun, .inr rfl⟩
    | true =>
      cases captureType with
      | single => exact ⟨_, _, .poll rfl, nofun, .inr rfl⟩
      | full => exact ⟨_, _, .pollFull rfl, nofun, .inr rfl⟩
  | loop a =>
    cases ok with
    | false => exact ⟨_, _, .loopStop, nofun, .inr rfl⟩
    | true =>
      cases hcomplete : a.complete with
      | true => exact ⟨_, _, .loopComplete hcomplete, nofun, .inr rfl⟩
      | false => exact ⟨_, _, .loop hcomplete, nofun, .inr rfl⟩
  | receiving point a =>
    by_cases hret : ∃ value, point = .returning value
    · obtain ⟨value, rfl⟩ := hret
      cases value with
      | false => exact ⟨_, _, .receiveFalse, nofun, .inl rfl⟩
      | true =>
        exact ⟨_, _, .receiveTrue (plainRaw 0 0), nofun, .inl rfl⟩
    · obtain ⟨x, s, point', hs, hx, hok⟩ := Receiver.exists_step (backoff options) ok
        m.toSocketStatus point fun value hvalue => hret ⟨value, hvalue⟩
      exact ⟨_, _, .receive hx hs, nofun, hok⟩
  | reading a => exact ⟨_, _, .startOver, nofun, .inl rfl⟩
  | pausing f a => exact ⟨_, _, .noPause, nofun, .inl rfl⟩
  | payload f a =>
    cases hpayload : f.rawPdu with
    | none => exact ⟨_, _, .noPayload hpayload, nofun, .inl rfl⟩
    | some payload => exact ⟨_, _, .payload hpayload, nofun, .inl rfl⟩
  | handing raw a => exact ⟨_, _, .handing, nofun, .inl rfl⟩
  | countReceived pkt a => exact ⟨_, _, .countReceived, nofun, .inl rfl⟩
  | countInvalid a => exact ⟨_, _, .countInvalid, nofun, .inl rfl⟩
  | adding pkt a => exact ⟨_, _, .adding, nofun, .inl rfl⟩
  | countDiscarded a => exact ⟨_, _, .countDiscarded, nofun, .inl rfl⟩
  | publishing rot scan => exact ⟨_, _, .publishing, nofun, .inl rfl⟩
  | countPublished => exact ⟨_, _, .countPublished, nofun, .inl rfl⟩
  | readClock => exact ⟨_, _, .readClock, nofun, .inl rfl⟩
  | storeTime ns => exact ⟨_, _, .storeTime, nofun, .inl rfl⟩
  | finished => exact absurd rfl hfinished
  | thrown => exact absurd rfl hthrown

end Poller

/-! ## The end of the process -/

/-- Time passes. -/
def MainAction.idle : MainAction F → Bool
  | .poll .time => true
  | _ => false

/-- The statements of the main thread that are left at most. -/
def Phase.rest : Phase F → Nat
  | .constructing rest => rest.length + 8
  | .polling p => p.position.rank + 6
  | .destroying rest _ => rest.length + 1
  | .exited _ => 0
  | .terminated => 0

section Process

variable [Arith F] {l : Launch F} {as bs : List (CrewAction (MainAction F) Background)}
  {c c' : Crew (MainThread F) Background}

omit [Arith F] in
theorem rest_unwound_le (j : Background → Bool) (n : Nat) :
    (unwound j : Phase F).rest < n + 8 := by
  rw [unwound]
  split <;> simp [Phase.rest]

/-- The main thread comes to its end. -/
theorem process_ends_main (l : Launch F) :
    Crew.Ends (process l) MainAction.idle fun w => w.phase.rest where
  leaves := by
    intro ok w k w' h hleaving
    cases h with
    | clear => exact ⟨rfl, nofun⟩
    | join => exact ⟨rfl, nofun⟩
    | skip => exact ⟨rfl, nofun⟩
    | exit => exact ⟨rfl, nofun⟩
    | _ => cases hleaving
  busy := by
    intro ok w k w' h hstop hbusy
    cases h with
    | setup => simp [Phase.rest]
    | threw => exact rest_unwound_le _ _
    | constructed => simp [Phase.rest, Poller.initial, Position.rank]
    | @poll p p' x j hok hs =>
      obtain rfl : ok = false := hstop.resolve_right nofun
      have hx : x ≠ .time := by
        rintro rfl
        cases hbusy
      have hlt := hs.rank_lt hok hx
      simpa [Phase.rest] using hlt
    | finished => simp [Phase.rest, destructor]
    | thrown => simp [Phase.rest, destructor]
    | _ => simp [Phase.rest]
  idle := by
    intro ok w k w' h hidle
    cases h with
    | @poll p p' x j hok hs =>
      cases hs with
      | time => exact ⟨Nat.le_refl _, rfl⟩
      | _ => cases hidle
    | _ => cases hidle

theorem process_live (l : Launch F) (ok : Bool) (w : MainThread F) (h : w.ended = false) :
    ∃ k w', (process l).step ok w k w' ∧ k.idle = false ∧
      ∀ b, (process l).duty k = .join b → (process l).holds w b = true := by
  obtain ⟨phase, j⟩ := w
  cases phase with
  | constructing rest =>
    cases rest with
    | nil => exact ⟨.constructed 0, _, .constructed, rfl, nofun⟩
    | cons s rest =>
      refine ⟨_, _, .setup, rfl, ?_⟩
      intro b hb
      cases s <;> cases hb
  | polling p =>
    by_cases hfinished : p.position = .finished
    · obtain ⟨m, position⟩ := p
      obtain rfl : position = .finished := hfinished
      exact ⟨_, _, .finished, rfl, nofun⟩
    · by_cases hthrown : p.position = .thrown
      · obtain ⟨m, position⟩ := p
        obtain rfl : position = .thrown := hthrown
        exact ⟨_, _, .thrown, rfl, nofun⟩
      · obtain ⟨x, p', hs, hx, hok⟩ :=
          Poller.exists_step l.mode l.captureType l.stream ok p hfinished hthrown
        refine ⟨_, _, .poll ?_ hs, ?_, nofun⟩
        · intro answer hanswer
          rcases hok with hnone | hsome
          · cases hnone.symm.trans hanswer
          · exact (Option.some.inj (hsome.symm.trans hanswer)).symm
        · cases x with
          | time => exact absurd rfl hx
          | _ => rfl
  | destroying rest code =>
    cases rest with
    | nil => exact ⟨_, _, .exit, rfl, nofun⟩
    | cons t rest =>
      cases t with
      | clear b => exact ⟨_, _, .clear, rfl, nofun⟩
      | join b =>
        cases hb : j b with
        | false => exact ⟨_, _, .skip hb, rfl, nofun⟩
        | true =>
          refine ⟨_, _, .join hb, rfl, ?_⟩
          rintro b' hb'
          cases hb'
          exact hb
  | exited code => cases h
  | terminated => cases h

theorem length_constructor (l : Launch F) : l.constructor.length ≤ 10 := by
  have hsafety : (l.setupOf .safetyDebug).length ≤ 4 := by
    rw [Launch.setupOf]
    split <;> simp [Launch.topics]
  have hdiagnostics : (l.setupOf .diagnostics).length ≤ 3 := by
    rw [Launch.setupOf]
    split <;> simp [Launch.topics]
  simp only [Launch.constructor, List.length_append, List.length_cons, List.length_nil]
  omega

theorem Ran.rest_le (h : Ran l as c) : c.owner.phase.rest ≤ 24 := by
  have hhistory := h.history
  obtain ⟨⟨phase, j⟩, ok, running, worker⟩ := c
  cases phase with
  | constructing rest =>
    obtain ⟨done, hdone, -⟩ := hhistory
    have hlength := length_constructor l
    rw [hdone, List.length_append] at hlength
    simp only [Phase.rest]
    omega
  | polling p =>
    have hrank := p.position.rank_le
    simp only [Phase.rest]
    omega
  | destroying rest code =>
    obtain ⟨-, -, -, -, -, -, -, done, hdone⟩ := hhistory.1
    have hlength := congrArg List.length hdone
    rw [List.length_append] at hlength
    simp only [Phase.rest]
    simp [destructor] at hlength
    omega
  | _ => simp [Phase.rest]

/-- Once `ros::ok()` is false, or the destructor has cleared the flags, the threads make no more
than 128 steps in all, whatever their order, but that time passes; none begins more than one call;
and until the process has ended there is always a step to make.

The calls of the background threads are taken to return, as `Worker.Step.ret` has it: an HTTP peer
that keeps sending holds the safety thread in its call, and the `join` with it. -/
theorem process_ends (h : Ran l as c)
    (hstop : c.ok = false ∨
      ∃ rest code, c.owner.phase = .destroying rest code ∧ ∀ b, .clear b ∉ rest)
    (h' : Runs (Crew.Step (process l)) c bs c') :
    bs.countP (CrewAction.busy MainAction.idle) ≤ 128 ∧
      (∀ b, bs.countP (CrewAction.callsOf b) ≤ 1) ∧
      (c'.owner.ended = false → ∃ a c'', Crew.Step (process l) c' a c'' ∧
        a.busy MainAction.idle = true) := by
  have hends := process_ends_main l
  have hstopping : Crew.Stopping (process l) c := by
    rcases hstop with hok | ⟨rest, code, hphase, hclear⟩
    · exact .inl hok
    · have hflagged := h.flagged
      rw [Flagged, hphase] at hflagged
      refine .inr ⟨?_, fun b => hflagged b (hclear b)⟩
      show c.owner.leaving = true
      rw [MainThread.leaving, hphase]
  refine ⟨?_, fun b => ?_, fun hended => ?_⟩
  · have hcount := Crew.stopping hends h' hstopping
    have hrest := h.rest_le
    have hsum : ∑ b, (c.worker b).rank (c.running b) ≤ 8 := by
      refine (Finset.sum_le_card_nsmul _ _ 4 fun b _ => Worker.rank_le _ _).trans ?_
      decide
    rw [Crew.work, Crew.work] at hcount
    omega
  · rcases hstopping with hok | ⟨hleaving, hflags⟩
    · have hcalls := Crew.calls_le h' hok b
      have hdue : (c.worker b).due ≤ 1 := by
        cases c.worker b <;> simp [Worker.due]
      omega
    · rw [Crew.calls_of_leaving hends h' hleaving hflags b]
      exact Nat.zero_le 1
  · have hall : Ran l (as ++ bs) c' := h.trans h'
    exact Crew.progress (process_live l) hall.present_eq hended

/-- The node is told to stop before its first poll. -/
theorem process_ends_debug : ∃ as c, Ran debugLaunch as c ∧ c.ok = false ∧
    c.owner.phase = .polling (.initial 1) ∧ ∃ a c', Crew.Step (process debugLaunch) c a c' ∧
      a.busy MainAction.idle = true := by
  obtain ⟨c, hran, hphase, -⟩ := exists_polling debugLaunch 1
  have hall : Ran debugLaunch (_ ++ [.shutdown]) { c with ok := false } := hran.after .shutdown
  have hended : c.owner.ended = false := by rw [MainThread.ended, hphase]
  obtain ⟨-, -, hstep⟩ := process_ends hall (.inl rfl) .start
  exact ⟨_, _, hall, rfl, hphase, hstep hended⟩

end Process

end MechLidar
