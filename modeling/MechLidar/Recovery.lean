import MechLidar.Lib.Labelled
import MechLidar.Receive

/-!
# MechLidar.Recovery

`receive_udp_packet` statement by statement, as the diagnostics thread sees it: every assignment to
a shared member is a step of its own, and `ros::ok()`, `get_packet` and `reopen` answer anything.

* `Statement`: where in its three loops the receiving thread stands
* `Step`: one statement, labelled with the answer it gets
* `InStep`: what the shared members say about the answers so far, at every point
* `receiveUdpPacket_reached`: the receive loop on given answers is such a run
* `recovery_in_step`: the members follow the answers over any number of calls
-/

namespace MechLidar

open Lib

variable {F : Type}

/-- The shared members. -/
structure SocketStatus where
  socketRecovering : Bool
  socketErrors : Nat
  socketReconnects : Nat
  socketRetryDelayMs : Int
  lastSocketError : String
deriving DecidableEq, Repr

def SocketStatus.initial : SocketStatus := ⟨false, 0, 0, 0, ""⟩

/-- `get_packet` returns, or throws a system error with this `what()`. -/
inductive GetPacket where
  | returned (code : Int)
  | threw (what : String)
deriving DecidableEq, Repr

/-- What is seen of a statement. -/
inductive Action where
  | call
  | ok (answer : Bool)
  | getPacket (outcome : GetPacket)
  /-- `reopen()`, which returns or throws with this `what()`. -/
  | reopen (failure : Option String)
  | sleep (ms : Int)
  /-- Nothing but an assignment, or a comparison of local variables. -/
  | silent
  | ret (value : Bool)
deriving DecidableEq, Repr

/-- The next statement of the receiving thread, with the local variables that are still read. -/
inductive Statement where
  /-- Outside of `receive_udp_packet`. -/
  | idle
  | outerLoop
  | getPacket
  /-- `socket_recovering = true` -/
  | caught (what : String)
  /-- `record_socket_error`, with the delay that the retry loop goes on with -/
  | countError (what : String) (retryDelayMs : Int)
  | storeError (what : String) (retryDelayMs : Int)
  | retryLoop (retryDelayMs : Int)
  | setDelay (retryDelayMs : Int)
  | sleepLoop (retryDelayMs remainingMs : Int)
  | sleep (retryDelayMs remainingMs : Int)
  | check (retryDelayMs : Int)
  | reopen (retryDelayMs : Int)
  /-- `++socket_reconnects`, `socket_recovering = false`, `socket_retry_delay_ms = 0` -/
  | countReconnect
  | clearRecovering
  | clearDelay
  | returning (value : Bool)
deriving DecidableEq, Repr

/-- `udp_reconnect_initial_ms` and `udp_reconnect_max_ms`. -/
structure Backoff where
  initialMs : Int
  maxMs : Int

namespace Backoff

def firstDelayMs (o : Backoff) : Int := max 1 o.initialMs

def maxDelayMs (o : Backoff) : Int := max o.firstDelayMs o.maxMs

def nextDelayMs (o : Backoff) (retryDelayMs : Int) : Int :=
  retryDelayMs + min retryDelayMs (o.maxDelayMs - retryDelayMs)

end Backoff

structure Receiver extends SocketStatus where
  point : Statement
deriving DecidableEq, Repr

namespace Receiver

def initial : Receiver := ⟨SocketStatus.initial, .idle⟩

/-! ## Statements -/

inductive Step (o : Backoff) : Receiver → Action → Receiver → Prop where
  | call {s : SocketStatus} : Step o ⟨s, .idle⟩ .call ⟨s, .outerLoop⟩
  | outerLoop {s : SocketStatus} : Step o ⟨s, .outerLoop⟩ (.ok true) ⟨s, .getPacket⟩
  | outerEnd {s : SocketStatus} : Step o ⟨s, .outerLoop⟩ (.ok false) ⟨s, .returning false⟩
  | received {s : SocketStatus} :
      Step o ⟨s, .getPacket⟩ (.getPacket (.returned 0)) ⟨s, .returning true⟩
  | skipped {s : SocketStatus} {code : Int} (h : code ≠ 0) :
      Step o ⟨s, .getPacket⟩ (.getPacket (.returned code)) ⟨s, .outerLoop⟩
  | threw {s : SocketStatus} {what : String} :
      Step o ⟨s, .getPacket⟩ (.getPacket (.threw what)) ⟨s, .caught what⟩
  | caught {s : SocketStatus} {what : String} :
      Step o ⟨s, .caught what⟩ .silent
        ⟨{ s with socketRecovering := true }, .countError what o.firstDelayMs⟩
  | countError {s : SocketStatus} {what : String} {retryDelayMs : Int} :
      Step o ⟨s, .countError what retryDelayMs⟩ .silent
        ⟨{ s with socketErrors := s.socketErrors + 1 }, .storeError what retryDelayMs⟩
  | storeError {s : SocketStatus} {what : String} {retryDelayMs : Int} :
      Step o ⟨s, .storeError what retryDelayMs⟩ .silent
        ⟨{ s with lastSocketError := what }, .retryLoop retryDelayMs⟩
  | retryLoop {s : SocketStatus} {retryDelayMs : Int} :
      Step o ⟨s, .retryLoop retryDelayMs⟩ (.ok true) ⟨s, .setDelay retryDelayMs⟩
  | retryEnd {s : SocketStatus} {retryDelayMs : Int} :
      Step o ⟨s, .retryLoop retryDelayMs⟩ (.ok false) ⟨s, .outerLoop⟩
  | setDelay {s : SocketStatus} {retryDelayMs : Int} :
      Step o ⟨s, .setDelay retryDelayMs⟩ .silent
        ⟨{ s with socketRetryDelayMs := retryDelayMs }, .sleepLoop retryDelayMs retryDelayMs⟩
  | sleepLoop {s : SocketStatus} {retryDelayMs remainingMs : Int} (h : 0 < remainingMs) :
      Step o ⟨s, .sleepLoop retryDelayMs remainingMs⟩ (.ok true)
        ⟨s, .sleep retryDelayMs remainingMs⟩
  | sleepStop {s : SocketStatus} {retryDelayMs remainingMs : Int} (h : 0 < remainingMs) :
      Step o ⟨s, .sleepLoop retryDelayMs remainingMs⟩ (.ok false) ⟨s, .check retryDelayMs⟩
  | sleepEnd {s : SocketStatus} {retryDelayMs remainingMs : Int} (h : ¬ 0 < remainingMs) :
      Step o ⟨s, .sleepLoop retryDelayMs remainingMs⟩ .silent ⟨s, .check retryDelayMs⟩
  | sleep {s : SocketStatus} {retryDelayMs remainingMs : Int} :
      Step o ⟨s, .sleep retryDelayMs remainingMs⟩ (.sleep (min remainingMs 100))
        ⟨s, .sleepLoop retryDelayMs (remainingMs - min remainingMs 100)⟩
  | check {s : SocketStatus} {retryDelayMs : Int} :
      Step o ⟨s, .check retryDelayMs⟩ (.ok true) ⟨s, .reopen retryDelayMs⟩
  | checkStop {s : SocketStatus} {retryDelayMs : Int} :
      Step o ⟨s, .check retryDelayMs⟩ (.ok false) ⟨s, .returning false⟩
  | reopened {s : SocketStatus} {retryDelayMs : Int} :
      Step o ⟨s, .reopen retryDelayMs⟩ (.reopen none) ⟨s, .countReconnect⟩
  | reopenThrew {s : SocketStatus} {retryDelayMs : Int} {what : String} :
      Step o ⟨s, .reopen retryDelayMs⟩ (.reopen (some what))
        ⟨s, .countError what (o.nextDelayMs retryDelayMs)⟩
  | countReconnect {s : SocketStatus} :
      Step o ⟨s, .countReconnect⟩ .silent
        ⟨{ s with socketReconnects := s.socketReconnects + 1 }, .clearRecovering⟩
  | clearRecovering {s : SocketStatus} :
      Step o ⟨s, .clearRecovering⟩ .silent ⟨{ s with socketRecovering := false }, .clearDelay⟩
  | clearDelay {s : SocketStatus} :
      Step o ⟨s, .clearDelay⟩ .silent ⟨{ s with socketRetryDelayMs := 0 }, .outerLoop⟩
  | ret {s : SocketStatus} {value : Bool} :
      Step o ⟨s, .returning value⟩ (.ret value) ⟨s, .idle⟩

/-- Any number of calls on a new driver. -/
abbrev Reached (o : Backoff) : List Action → Receiver → Prop := Runs (Step o) initial

end Receiver

/-! ## Answers -/

namespace Action

def isGetError : Action → Bool
  | .getPacket (.threw _) => true
  | _ => false

def isReopened : Action → Bool
  | .reopen none => true
  | _ => false

def isReopenFailure : Action → Bool
  | .reopen (some _) => true
  | _ => false

def okAnswer : Action → Option Bool
  | .ok answer => some answer
  | _ => none

end Action

def getErrors (as : List Action) : Nat := as.countP Action.isGetError

def reopens (as : List Action) : Nat := as.countP Action.isReopened

def failedReopens (as : List Action) : Nat := as.countP Action.isReopenFailure

/-- The last system error of `get_packet` has not been followed by a successful reopen. -/
def recoveringAfter (as : List Action) : Bool :=
  as.foldl (fun recovering a => a.isGetError || recovering && !a.isReopened) false

def okAnswers (as : List Action) : List Bool := as.filterMap Action.okAnswer

/-- Once `ros::ok()` is false, it stays false. -/
def OkStays (as : List Action) : Prop :=
  (okAnswers as).Pairwise fun earlier later => earlier = false → later = false

section Concat

variable (as : List Action) (a : Action)

@[simp] theorem getErrors_concat :
    getErrors (as ++ [a]) = getErrors as + if a.isGetError then 1 else 0 := by
  simp [getErrors, List.countP_singleton]

@[simp] theorem reopens_concat :
    reopens (as ++ [a]) = reopens as + if a.isReopened then 1 else 0 := by
  simp [reopens, List.countP_singleton]

@[simp] theorem failedReopens_concat :
    failedReopens (as ++ [a]) = failedReopens as + if a.isReopenFailure then 1 else 0 := by
  simp [failedReopens, List.countP_singleton]

@[simp] theorem recoveringAfter_concat :
    recoveringAfter (as ++ [a]) = (a.isGetError || recoveringAfter as && !a.isReopened) := by
  simp [recoveringAfter]

@[simp] theorem okAnswers_concat :
    okAnswers (as ++ [a]) = okAnswers as ++ a.okAnswer.toList := by
  cases h : a.okAnswer <;> simp [okAnswers, h]

end Concat

/-! ## What the members say -/

namespace Statement

/-- The errors that are caught and not yet counted. -/
def owedErrors : Statement → Nat
  | .caught _ => 1
  | .countError _ _ => 1
  | _ => 0

/-- The reopens that are not yet counted. -/
def owedReconnects : Statement → Nat
  | .countReconnect => 1
  | _ => 0

/-- In the recovery from a system error of `get_packet`, in front of a successful reopen. -/
def openErrors : Statement → Nat
  | .idle => 0
  | .outerLoop => 0
  | .getPacket => 0
  | .countReconnect => 0
  | .clearRecovering => 0
  | .clearDelay => 0
  | .returning _ => 0
  | _ => 1

/-- Between a caught error or a reopen and the assignment to `socket_recovering` for it. -/
def assigning : Statement → Bool
  | .caught _ => true
  | .countReconnect => true
  | .clearRecovering => true
  | _ => false

end Statement

namespace Receiver

variable {o : Backoff} {as : List Action} {r : Receiver}

/-- `socket_recovering`, once the assignment that stands next is made. -/
def recoveringNext (r : Receiver) : Bool :=
  match r.point with
  | .caught _ => true
  | .countReconnect => false
  | .clearRecovering => false
  | _ => r.socketRecovering

theorem recoveringNext_eq (h : Reached o as r) : r.recoveringNext = recoveringAfter as := by
  refine h.invariant (P := fun as r => r.recoveringNext = recoveringAfter as) rfl ?_
  intro as t a u ih hs
  cases hs <;> simp [recoveringNext, Action.isGetError, Action.isReopened] at ih ⊢ <;> exact ih

theorem errors_eq (h : Reached o as r) :
    r.socketErrors + r.point.owedErrors = getErrors as + failedReopens as := by
  refine h.invariant (P := fun as r =>
    r.socketErrors + r.point.owedErrors = getErrors as + failedReopens as) rfl ?_
  intro as t a u ih hs
  cases hs <;>
    simp [Statement.owedErrors, Action.isGetError, Action.isReopenFailure] at ih ⊢ <;> omega

theorem reconnects_eq (h : Reached o as r) :
    r.socketReconnects + r.point.owedReconnects = reopens as := by
  refine h.invariant (P := fun as r =>
    r.socketReconnects + r.point.owedReconnects = reopens as) rfl ?_
  intro as t a u ih hs
  cases hs <;> simp [Statement.owedReconnects, Action.isReopened] at ih ⊢ <;> omega

/-- Every successful reopen ends the recovery from an error of its own. -/
theorem reopens_le (h : Reached o as r) : reopens as + r.point.openErrors ≤ getErrors as := by
  refine h.invariant (P := fun as r => reopens as + r.point.openErrors ≤ getErrors as)
    (Nat.le_refl 0) ?_
  intro as t a u ih hs
  cases hs <;>
    simp [Statement.openErrors, Action.isReopened, Action.isGetError] at ih ⊢ <;> omega

/-- Where no recovery is under way, the members say so. -/
def Calm (r : Receiver) : Prop :=
  match r.point with
  | .idle => r.socketRecovering = false ∧ r.socketRetryDelayMs = 0
  | .outerLoop => r.socketRecovering = false ∧ r.socketRetryDelayMs = 0
  | .getPacket => r.socketRecovering = false ∧ r.socketRetryDelayMs = 0
  | .returning _ => r.socketRecovering = false ∧ r.socketRetryDelayMs = 0
  | .clearDelay => r.socketRecovering = false
  | _ => True

/-- The retry loop is left by a successful reopen, or with `ros::ok()` false. -/
theorem calm_of_ok (h : Reached o as r) : (∀ answer ∈ okAnswers as, answer = true) → r.Calm := by
  refine h.invariant (P := fun as r => (∀ answer ∈ okAnswers as, answer = true) → r.Calm)
    (fun _ => ⟨rfl, rfl⟩) ?_
  intro as t a u ih hs
  cases hs <;> simp [Calm, Action.okAnswer] at ih ⊢ <;> exact ih

/-- What was seen last. -/
def Trail (as : List Action) (r : Receiver) : Prop :=
  match r.point with
  | .getPacket => ∃ before, as = before ++ [.ok true]
  | .returning true => ∃ before, as = before ++ [.ok true, .getPacket (.returned 0)]
  | .returning false => ∃ before, as = before ++ [.ok false]
  | _ => True

theorem trail (h : Reached o as r) : Trail as r := by
  refine h.invariant (P := Trail) (show Trail [] initial from trivial) ?_
  intro as t a u ih hs
  cases hs <;> simp [Trail] at ih ⊢
  obtain ⟨before, rfl⟩ := ih
  exact ⟨before, by simp⟩

/-! ## The contract -/

/-- The members and the results against the answers: exactly, but for the assignments of one catch
block or one successful reopen that the thread is still making. -/
structure InStep (o : Backoff) (as : List Action) (r : Receiver) : Prop where
  recovering : r.point.assigning = false → r.socketRecovering = recoveringAfter as
  errors : r.socketErrors + r.point.owedErrors = getErrors as + failedReopens as
  reconnects : r.socketReconnects + r.point.owedReconnects = reopens as
  reopens_le : reopens as ≤ getErrors as
  returnsTrue : ∀ before, as = before ++ [.ret true] →
    (∃ earlier, before = earlier ++ [.getPacket (.returned 0)]) ∧
      (OkStays as → r.socketRecovering = false ∧ r.socketRetryDelayMs = 0)
  returnsFalse : ∀ before, as = before ++ [.ret false] →
    ∃ earlier, before = earlier ++ [.ok false]
  skips : ∀ code r', Step o r (.getPacket (.returned code)) r' →
    r'.toSocketStatus = r.toSocketStatus

/-- While the last answer is true and answers stay false, all of them are true. -/
theorem ok_of_okStays {before : List Bool} (h : (before ++ [true]).Pairwise
    fun earlier later => earlier = false → later = false) :
    ∀ answer ∈ before ++ [true], answer = true := by
  rw [List.pairwise_append] at h
  intro answer hmem
  rcases List.mem_append.1 hmem with hbefore | hlast
  · cases answer with
    | true => rfl
    | false => cases h.2.2 false hbefore true (List.mem_singleton.2 rfl) rfl
  · exact List.mem_singleton.1 hlast

theorem returns_true (h : Reached o (as ++ [.ret true]) r) :
    (∃ earlier, as = earlier ++ [.getPacket (.returned 0)]) ∧
      (OkStays (as ++ [.ret true]) → r.socketRecovering = false ∧ r.socketRetryDelayMs = 0) := by
  obtain ⟨t, ht, hs⟩ := Runs.concat_iff.1 h
  cases hs
  obtain ⟨before, rfl⟩ := trail ht
  refine ⟨⟨before ++ [.ok true], by simp⟩, ?_⟩
  intro hstays
  refine calm_of_ok ht (o := o) ?_
  have hanswers : okAnswers (before ++ [.ok true, .getPacket (.returned 0)]) =
      okAnswers before ++ [true] := by
    simp [okAnswers, Action.okAnswer]
  rw [OkStays, okAnswers_concat, hanswers] at hstays
  rw [hanswers]
  exact ok_of_okStays (by simpa [Action.okAnswer] using hstays)

theorem returns_false (h : Reached o (as ++ [.ret false]) r) :
    ∃ earlier, as = earlier ++ [.ok false] := by
  obtain ⟨t, ht, hs⟩ := Runs.concat_iff.1 h
  cases hs
  exact trail ht

theorem recovering_eq (h : Reached o as r) (hp : r.point.assigning = false) :
    r.socketRecovering = recoveringAfter as := by
  rw [← recoveringNext_eq h, recoveringNext]
  split <;> simp_all [Statement.assigning]

/-! ## The receive loop -/

/-- Statements that lead from one to the other and use up these answers of `ros::ok()`. -/
def Uses (o : Backoff) (r : Receiver) (ok : Stream' Bool) (r' : Receiver) (ok' : Stream' Bool) :
    Prop :=
  ∃ as, Runs (Step o) r as r' ∧ okAnswers as ++ₛ ok' = ok

theorem okAnswers_append (as bs : List Action) :
    okAnswers (as ++ bs) = okAnswers as ++ okAnswers bs := List.filterMap_append

section Uses

variable {t r' : Receiver} {ok ok' ok'' : Stream' Bool}

theorem Uses.refl : Uses o r ok r ok := ⟨[], .start, rfl⟩

theorem Uses.trans (h : Uses o r ok t ok') (h' : Uses o t ok' r' ok'') : Uses o r ok r' ok'' := by
  obtain ⟨as, has, rfl⟩ := h
  obtain ⟨bs, hbs, rfl⟩ := h'
  exact ⟨as ++ bs, has.trans hbs, by simp [okAnswers_append]⟩

theorem Uses.cons {a : Action} (ha : a.okAnswer = none) (hs : Step o r a t)
    (h : Uses o t ok r' ok') : Uses o r ok r' ok' := by
  obtain ⟨as, has, hok⟩ := h
  exact ⟨a :: as, .cons hs has, by simpa [okAnswers, ha] using hok⟩

theorem Uses.ask {answer : Bool} (hok : ok.head = answer) (hs : Step o r (.ok answer) t)
    (h : Uses o t ok.tail r' ok') : Uses o r ok r' ok' := by
  obtain ⟨as, has, htail⟩ := h
  refine ⟨.ok answer :: as, .cons hs has, ?_⟩
  rw [← Stream'.eta ok, hok, ← htail]
  rfl

end Uses

end Receiver

open Receiver

namespace UdpDriver

def status (d : UdpDriver F) : SocketStatus :=
  ⟨d.socketRecovering, d.socketErrors, d.socketReconnects, d.socketRetryDelayMs,
    d.lastSocketError⟩

def backoff (d : UdpDriver F) : Backoff :=
  ⟨d.options.udpReconnectInitialMs, d.options.udpReconnectMaxMs⟩

/-- Where the retry loop is left. -/
def Recovery.Stands : Recovery → Statement → Prop
  | .resume, p => p = .outerLoop
  | .stopped, p => p = .returning false
  | .waiting, p => ∃ retryDelayMs, p = .reopen retryDelayMs

theorem sleepSlices_uses (o : Backoff) (s : SocketStatus) (retryDelayMs remainingMs : Int)
    (ok : Stream' Bool) (sleepsMs : List Int) :
    Uses o ⟨s, .sleepLoop retryDelayMs remainingMs⟩ ok ⟨s, .check retryDelayMs⟩
      (sleepSlices remainingMs ok sleepsMs).1 := by
  fun_induction sleepSlices remainingMs ok sleepsMs with
  | case1 remainingMs ok sleepsMs hpos hok stepMs ih =>
    exact .ask hok (.sleepLoop hpos) (.cons rfl .sleep ih)
  | case2 remainingMs ok sleepsMs hpos hok =>
    exact .ask (by simpa using hok) (.sleepStop hpos) .refl
  | case3 remainingMs ok sleepsMs hpos => exact .cons rfl (.sleepEnd hpos) .refl

/-- The retry loop up to the check behind the delay. -/
theorem retry_uses (o : Backoff) (s : SocketStatus) {retryDelayMs : Int} {ok ok' : Stream' Bool}
    {sleepsMs sleepsMs' : List Int} (hok : ¬ ok.head = false)
    (hsleep : sleepSlices retryDelayMs ok.tail sleepsMs = (ok', sleepsMs')) :
    Uses o ⟨s, .retryLoop retryDelayMs⟩ ok
      ⟨{ s with socketRetryDelayMs := retryDelayMs }, .check retryDelayMs⟩ ok' := by
  have hslices := sleepSlices_uses o { s with socketRetryDelayMs := retryDelayMs } retryDelayMs
    retryDelayMs ok.tail sleepsMs
  rw [hsleep] at hslices
  exact .ask (by simpa using hok) .retryLoop (.cons rfl .setDelay hslices)

theorem recover_uses (o : Backoff) (opens : List OpenCalls) (retryDelayMs : Int) (w : World)
    (d : UdpDriver F) {r : Recovery} {w' : World} {d' : UdpDriver F}
    (h : recover o.maxDelayMs opens retryDelayMs w d = (r, w', d')) :
      d'.toDriver = d.toDriver ∧
        ∃ p, r.Stands p ∧ Uses o ⟨d.status, .retryLoop retryDelayMs⟩ w.ok ⟨d'.status, p⟩ w'.ok := by
  fun_induction recover o.maxDelayMs opens retryDelayMs w d with
  | case1 opens retryDelayMs w d hok =>
    cases h
    exact ⟨rfl, _, rfl, .ask hok .retryEnd .refl⟩
  | case2 opens retryDelayMs w d hok ok' sleepsMs' hsleep _ _ hcheck =>
    obtain ⟨rfl, rfl, rfl⟩ := by simpa only [Prod.mk.injEq] using h
    exact ⟨rfl, _, rfl, (retry_uses o d.status hok hsleep).trans (.ask hcheck .checkStop .refl)⟩
  | case3 retryDelayMs w d hok ok' sleepsMs' hsleep _ _ hcheck =>
    have hreopen := (retry_uses o d.status hok hsleep).trans
      (.ask (by simpa using hcheck) .check .refl)
    obtain ⟨rfl, rfl, rfl⟩ := by simpa only [Prod.mk.injEq] using h
    exact ⟨rfl, _, ⟨_, rfl⟩, hreopen⟩
  | case4 retryDelayMs w d hok ok' sleepsMs' hsleep _ _ hcheck k opens socket _ =>
    have hreopen := (retry_uses o d.status hok hsleep).trans
      (.ask (by simpa using hcheck) .check .refl)
    cases h
    exact ⟨rfl, _, rfl, hreopen.trans (.cons rfl .reopened (.cons rfl .countReconnect
      (.cons rfl .clearRecovering (.cons rfl .clearDelay .refl))))⟩
  | case5 retryDelayMs w d hok ok' sleepsMs' hsleep _ _ hcheck k opens e socket _ _ ih =>
    have hreopen := (retry_uses o d.status hok hsleep).trans
      (.ask (by simpa using hcheck) .check .refl)
    obtain ⟨hcore, p, hp, hrest⟩ := ih h
    exact ⟨hcore, p, hp, hreopen.trans (.cons rfl .reopenThrew (.cons rfl .countError
      (.cons rfl .storeError hrest)))⟩

/-- Where the receive loop is left, or waits for an answer. -/
def ReceivedAt : Received → Statement → Prop
  | .packet _, p => p = .returning true
  | .stopped, p => p = .returning false
  | .waiting, p => p = .getPacket ∨ ∃ retryDelayMs, p = .reopen retryDelayMs

/-- From the outer loop into the retry loop, where `get_packet` has thrown. -/
theorem threw_uses (w : World) (d : UdpDriver F) {what : String} (hok : ¬ w.ok.head = false) :
    Uses d.backoff ⟨d.status, .outerLoop⟩ w.ok
      ⟨({ d with socketRecovering := true }.recordSocketError what).status,
        .retryLoop d.backoff.firstDelayMs⟩ w.ok.tail :=
  .ask (by simpa using hok) .outerLoop (.cons rfl .threw (.cons rfl .caught (.cons rfl .countError
    (.cons rfl .storeError .refl))))

theorem receiveLoop_uses (gets : List Arrival) (buffer : RawPacket) (w : World) (d : UdpDriver F)
    {r : Received} {w' : World} {d' : UdpDriver F}
    (h : receiveLoop gets buffer w d = (r, w', d')) :
    d'.toDriver = d.toDriver ∧ ∃ p, ReceivedAt r p ∧
      Uses d.backoff ⟨d.status, .outerLoop⟩ w.ok ⟨d'.status, p⟩ w'.ok := by
  fun_induction receiveLoop gets buffer w d with
  | case1 gets buffer w d hok =>
    cases h
    exact ⟨rfl, _, rfl, .ask hok .outerEnd .refl⟩
  | case2 buffer w d hok =>
    cases h
    exact ⟨rfl, _, .inl rfl, .ask (by simpa using hok) .outerLoop .refl⟩
  | case3 buffer w d hok =>
    cases h
    exact ⟨rfl, _, rfl, .ask (by simpa using hok) .outerLoop (.cons rfl .received .refl)⟩
  | case4 buffer w d hok _ k gets c buffer' _ hc ih =>
    obtain ⟨hcore, p, hp, hrest⟩ := ih h
    exact ⟨hcore, p, hp, .ask (by simpa using hok) .outerLoop (.cons rfl (.skipped hc) hrest)⟩
  | case5 buffer w d hok _ k gets e buffer' _ _ _ _ w₁ d₁ hre ih =>
    obtain ⟨hcore₁, p₁, rfl, huses⟩ := recover_uses d.backoff _ _ _ _ hre
    obtain ⟨hcore, p, hp, hrest⟩ := ih h
    have hbackoff : d₁.backoff = d.backoff := by
      rw [backoff, hcore₁]
      rfl
    rw [hbackoff] at hrest
    exact ⟨hcore.trans hcore₁, p, hp, ((threw_uses w d hok).trans huses).trans hrest⟩
  | case6 buffer w d hok _ k gets e buffer' _ _ _ _ w₁ d₁ hre =>
    obtain ⟨hcore, p, hp, huses⟩ := recover_uses d.backoff _ _ _ _ hre
    cases h
    exact ⟨hcore, p, hp, (threw_uses w d hok).trans huses⟩
  | case7 buffer w d hok _ k gets e buffer' _ _ _ _ w₁ d₁ hre =>
    obtain ⟨hcore, p, hp, huses⟩ := recover_uses d.backoff _ _ _ _ hre
    cases h
    exact ⟨hcore, p, .inr hp, (threw_uses w d hok).trans huses⟩

/-- A call that returns true, as a run of statements behind all that was run before. -/
theorem receiveUdpPacket_reached {w w' : World} {d d' : UdpDriver F} {raw : RawPacket}
    {as : List Action} (h : Reached d.backoff as ⟨d.status, .idle⟩)
    (hr : receiveUdpPacket w d = (.packet raw, w', d')) :
    ∃ bs, Reached d'.backoff (as ++ .call :: bs ++ [.ret true]) ⟨d'.status, .idle⟩ ∧
      okAnswers bs ++ₛ w'.ok = w.ok := by
  obtain ⟨hcore, p, rfl, bs, hbs, hok⟩ := receiveLoop_uses w.gets w.memory w d hr
  have hbackoff : d'.backoff = d.backoff := by rw [backoff, hcore, backoff]
  refine ⟨bs, ?_, hok⟩
  rw [hbackoff]
  exact (h.trans (.cons .call hbs)).after .ret

/-- As long as `ros::ok()` is true, no recovery is left under way by a call that returns true. -/
theorem receiveUdpPacket_calm {w w' : World} {d d' : UdpDriver F} {raw : RawPacket}
    {as : List Action} (h : Reached d.backoff as ⟨d.status, .idle⟩)
    (has : ∀ answer ∈ okAnswers as, answer = true) (hw : w.ok = Stream'.const true)
    (hr : receiveUdpPacket w d = (.packet raw, w', d')) :
    d'.socketRecovering = false ∧ d'.socketRetryDelayMs = 0 := by
  obtain ⟨bs, hbs, hok⟩ := receiveUdpPacket_reached h hr
  refine calm_of_ok hbs ?_
  intro answer hmem
  have hcases : answer ∈ okAnswers as ∨ answer ∈ okAnswers bs := by
    simpa [okAnswers, Action.okAnswer] using hmem
  rcases hcases with hearlier | hnow
  · exact has answer hearlier
  · have hconst := Stream'.mem_append_stream_left w'.ok hnow
    rw [hok, hw] at hconst
    obtain ⟨n, hn⟩ := hconst
    exact hn

end UdpDriver

namespace Receiver

/-! ## Every run -/

/-- Over any number of calls and for any answers the members are in step with them. Only a result
of true says that no recovery is under way, and only if `ros::ok()` stays false once it is. -/
theorem recovery_in_step (o : Backoff) {as : List Action} {r : Receiver} (h : Reached o as r) :
    InStep o as r where
  recovering := recovering_eq h
  errors := errors_eq h
  reconnects := reconnects_eq h
  reopens_le := Nat.le_of_add_right_le (reopens_le h)
  returnsTrue before hbefore := by
    subst hbefore
    exact returns_true h
  returnsFalse before hbefore := by
    subst hbefore
    exact returns_false h
  skips code r' hs := by
    cases hs with
    | received => rfl
    | skipped _ => rfl

def backoff50 : Backoff := ⟨50, 5000⟩

/-- A system error, a reopen in the second attempt, and a packet. -/
theorem recovery_in_step_reopened :
    ∃ as r, Reached backoff50 as r ∧ InStep backoff50 as r ∧ r.socketErrors = 2 ∧
      r.socketReconnects = 1 ∧ r.socketRecovering = false := by
  have hreached : Reached backoff50 _ ⟨⟨false, 2, 1, 0, "bind() failed"⟩, .idle⟩ :=
    .cons .call <| .cons .outerLoop <| .cons (@Step.threw backoff50 _ "recvfrom() failed") <|
    .cons .caught <| .cons .countError <| .cons .storeError <| .cons .retryLoop <|
    .cons .setDelay <| .cons (.sleepLoop (by decide)) <| .cons .sleep <|
    .cons (.sleepEnd (by decide)) <| .cons .check <|
    .cons (@Step.reopenThrew backoff50 _ _ "bind() failed") <|
    .cons .countError <| .cons .storeError <| .cons .retryLoop <| .cons .setDelay <|
    .cons (.sleepLoop (by decide)) <| .cons .sleep <| .cons (.sleepEnd (by decide)) <|
    .cons .check <| .cons .reopened <| .cons .countReconnect <| .cons .clearRecovering <|
    .cons .clearDelay <| .cons .outerLoop <| .cons .received <| .single .ret
  exact ⟨_, _, hreached, recovery_in_step backoff50 hreached, rfl, rfl, rfl⟩

/-- If `ros::ok()` is false once and then true again, the retry loop is left without a reopen, and
a packet is received in a recovery. -/
theorem received_in_recovery :
    ∃ as r, Reached backoff50 (as ++ [.ret true]) r ∧ r.socketRecovering = true := by
  have hreached : Reached backoff50 _ ⟨⟨true, 1, 0, 0, "recvfrom() failed"⟩, .returning true⟩ :=
    .cons .call <| .cons .outerLoop <| .cons (@Step.threw backoff50 _ "recvfrom() failed") <|
    .cons .caught <| .cons .countError <| .cons .storeError <| .cons .retryEnd <|
    .cons .outerLoop <| .single .received
  exact ⟨_, _, hreached.after .ret, rfl⟩

end Receiver

end MechLidar
