import MechLidar.Commands
import MechLidar.Lifecycle

/-!
# MechLidar.ExitStatus

What `main` returns, and what that says.

* `MainReturns`: the ways through `main`
* `ended_iff`: the main loop is left by `ros::ok()`, or by an exception
* `udp_not_thrown`: over UDP no exception leaves a poll
* `main_returns`: 0 says that all has been done as asked for
-/

namespace MechLidar

open Lib

variable {F : Type}

/-! ## How the polls end -/

/-- The part of a PCAP poll that may throw, and what comes of it. -/
def Position.fromFile : Position F → Bool
  | .reading _ => true
  | .pausing _ _ => true
  | .payload _ _ => true
  | .thrown => true
  | _ => false

namespace Poller

variable [Arith F] {mode : DriverMode} {captureType : CaptureType}
  {options : DriverRuntimeOptions F} {startNs : Nat} {xs : List (PollAction F)} {p : Poller F}

/-- Behind the main loop nothing is done. -/
theorem ended_iff (h : Reached mode captureType options startNs xs p) :
    (.mainOk false ∈ xs ↔ p.position = .finished) ∧ (.threw ∈ xs ↔ p.position = .thrown) := by
  refine h.invariant (P := fun xs p => (.mainOk false ∈ xs ↔ p.position = .finished) ∧
    (.threw ∈ xs ↔ p.position = .thrown)) (by simp [initial]) ?_
  intro xs t x u ih hs
  have hmem : ∀ y, y ∈ xs ++ [x] ↔ y ∈ xs ∨ y = x := by simp
  simp only [hmem]
  cases hs with
  | time => simpa using ih
  | leave =>
    have hbefore : .mainOk false ∉ xs ∧ .threw ∉ xs := by simpa using ih
    simpa using hbefore.2
  | readThrew =>
    have hbefore : .mainOk false ∉ xs ∧ .threw ∉ xs := by simpa using ih
    simpa using hbefore.1
  | noPayload =>
    have hbefore : .mainOk false ∉ xs ∧ .threw ∉ xs := by simpa using ih
    simpa using hbefore.1
  | poll => cases mode <;> simpa [Position.acquire] using ih
  | loop => cases mode <;> simpa [Position.acquire] using ih
  | @startOver m a => cases a <;> simpa [Position.again] using ih
  | @countInvalid m a => cases a <;> simpa [Position.again] using ih
  | @countReceived m a => cases a <;> simpa [Position.received] using ih
  | @payload m a f payload hf =>
    rcases Position.payloadRead_cases a hf with ⟨-, he⟩ | ⟨-, raw, he⟩ <;> simpa [he] using ih
  | @handing m a raw =>
    rcases Position.handed_cases a raw with ⟨-, he⟩ | ⟨-, pkt, he⟩ <;> simpa [he] using ih
  | _ => simpa using ih

/-- The main thread is not in a part of a PCAP poll that may throw. -/
theorem udp_not_thrown (h : Reached .udp captureType options startNs xs p) :
    p.position.fromFile = false := by
  refine h.invariant (P := fun _ p => p.position.fromFile = false) rfl ?_
  intro xs t x u ih hs
  cases hs with
  | time => exact ih
  | startOver => cases ih
  | readThrew => cases ih
  | frame => cases ih
  | pause => cases ih
  | noPause => cases ih
  | noPayload => cases ih
  | payload => cases ih
  | @countInvalid m a => cases a <;> rfl
  | @countReceived m a => cases a <;> rfl
  | @handing m a raw =>
    rcases Position.handed_cases a raw with ⟨-, he⟩ | ⟨-, pkt, he⟩ <;> rw [he] <;> rfl
  | adding =>
    rw [Position.added_eq]
    rfl
  | _ => rfl

end Poller

/-! ## The process -/

section Process

variable [Arith F] {l : Launch F} {as : List (CrewAction (MainAction F) Background)}
  {c : Crew (MainThread F) Background}

/-- `ros::ok()` is false once somebody has been told so, and only behind a shutdown. -/
theorem Ran.told (h : Ran l as c) :
    (∀ x, .owner (.poll x) ∈ as → x.okAnswer = some false → c.ok = false) ∧
      (c.ok = false → .shutdown ∈ as) := by
  refine h.invariant (P := fun as c =>
    (∀ x, .owner (.poll x) ∈ as → x.okAnswer = some false → c.ok = false) ∧
      (c.ok = false → .shutdown ∈ as)) ⟨by simp, by simp [Crew.initial]⟩ ?_
  rintro as t a u ⟨htold, hshutdown⟩ hs
  cases hs with
  | shutdown => exact ⟨fun _ _ _ => rfl, by simp⟩
  | @worker i x v hended hw =>
    refine ⟨fun x hx hfalse => htold x (by simpa using hx) hfalse, fun hok => ?_⟩
    simpa using hshutdown hok
  | @owner k w hown hjoin =>
    refine ⟨fun x hx hfalse => ?_, fun hok => by simpa using hshutdown hok⟩
    rcases List.mem_append.1 hx with hold | hnew
    · exact htold x hold hfalse
    · obtain rfl : k = .poll x := by simpa [eq_comm] using hnew
      obtain ⟨⟨phase, j⟩, ok, running, worker⟩ := t
      cases hown with
      | poll hok => exact (hok false hfalse).symm

omit [Arith F] in
theorem mem_pollsOf {x : PollAction F} :
    x ∈ pollsOf (Crew.ownerActions as) ↔ .owner (.poll x) ∈ as := by
  rw [← Crew.mem_ownerActions, pollsOf, List.mem_filterMap]
  constructor
  · rintro ⟨k, hk, hx⟩
    cases k with
    | poll y =>
      obtain rfl : y = x := Option.some.inj hx
      exact hk
    | _ => cases hx
  · exact fun hx => ⟨_, hx, rfl⟩

/-- How a process ends that has not been aborted. -/
theorem Ran.exited {code : Int} (h : Ran l as c) (hphase : c.owner.phase = .exited code) :
    code = 0 ∧ .owner (.poll (.mainOk false)) ∈ as ∨
    code = 1 ∧ .owner (.poll (.mainOk false)) ∉ as ∧
      ((∃ s, .owner (.threw s) ∈ as) ∨ .owner (.poll .threw) ∈ as ∧ l.mode = .pcap) := by
  have hhistory := h.history
  rw [MainThread.History, hphase] at hhistory
  have hthrew : ∀ s, .owner (.threw s) ∈ as ↔ .threw s ∈ Crew.ownerActions as :=
    fun _ => Crew.mem_ownerActions.symm
  simp only [← mem_pollsOf, hthrew]
  obtain ⟨-, ⟨rfl, s, hfailed, -⟩ | ⟨ks, hks, hdestroyed⟩⟩ := hhistory
  · refine .inr ⟨rfl, by simp [hfailed.polls], .inl ⟨s, ?_⟩⟩
    obtain ⟨done, rest, -, -, hks⟩ := hfailed
    simp [hks]
  · obtain ⟨ns, p, hreached, hleft⟩ := hdestroyed.polls
    have hpolls : pollsOf (Crew.ownerActions as) = pollsOf ks := by
      rw [hks, pollsOf_append]
      exact List.append_nil _
    rw [hpolls]
    obtain ⟨hfinished, hthrown⟩ := Poller.ended_iff hreached
    rcases hleft with ⟨hposition, rfl⟩ | ⟨hposition, rfl⟩
    · exact .inl ⟨rfl, hfinished.2 hposition⟩
    · refine .inr ⟨rfl, ?_, .inr ⟨hthrown.2 hposition, ?_⟩⟩
      · rw [hfinished, hposition]
        simp
      · cases hmode : l.mode with
        | pcap => rfl
        | udp =>
          rw [hmode] at hreached
          have hnot := Poller.udp_not_thrown hreached
          rw [hposition] at hnot
          cases hnot

end Process

/-! ## `main` -/

section Main

variable [Arith F] [IntCast F] {env : StartupEnv F} {arguments : List Bytes}
  {as : List (CrewAction (MainAction F) Background)} {code : Int}

/-- What `main` returns, with the run of the driver if there is one. -/
inductive MainReturns (env : StartupEnv F) (arguments : List Bytes) :
    List (CrewAction (MainAction F) Background) → Int → Prop where
  | helped (h : startup env arguments = .helped) : MainReturns env arguments [] 0
  | command {run : CommandRun} {code : Int} (h : startup env arguments = .command run)
      (hcode : run.exitCode = .ok code) : MainReturns env arguments [] code
  | commandThrew {run : CommandRun} {e : HttpError} (h : startup env arguments = .command run)
      (hcode : run.exitCode = .error e) : MainReturns env arguments [] 1
  | failed {output : List Bytes} {e : StartupError} (h : startup env arguments = .failed output e) :
      MainReturns env arguments [] 1
  | driver {output : List Bytes} {l : Launch F} {as : List (CrewAction (MainAction F) Background)}
      {c : Crew (MainThread F) Background} {code : Int}
      (h : startup env arguments = .launched output l) (hran : Ran l as c)
      (hphase : c.owner.phase = .exited code) : MainReturns env arguments as code

/-- The help is asked for, or a command is answered with success. -/
def Answered (env : StartupEnv F) (arguments : List Bytes) : Prop :=
  ∃ o, parseCli env.toCliEnv arguments = .ok o ∧ (o.help = true ∨ hasHttpCommand o = true ∧
    ∃ r, Completes o env.file env.peer r ∧ 200 ≤ r.statusCode ∧ r.statusCode < 300)

/-- What `startup` is, by the options. -/
theorem startup_cases (env : StartupEnv F) (arguments : List Bytes) :
    (∃ e, parseCli env.toCliEnv arguments = .error e ∧
      startup env arguments = .failed [] (.cli e)) ∨
    ∃ o, parseCli env.toCliEnv arguments = .ok o ∧
      (o.help = true ∧ startup env arguments = .helped ∨
        o.help = false ∧ hasHttpCommand o = true ∧
          startup env arguments = .command (runHttpCommand o env.file env.peer) ∨
        o.help = false ∧ hasHttpCommand o = false ∧ startup env arguments = runDriver env o) := by
  rw [startup]
  cases parseCli env.toCliEnv arguments with
  | error e => exact .inl ⟨e, rfl, rfl⟩
  | ok o =>
    refine .inr ⟨o, rfl, ?_⟩
    cases hhelp : o.help with
    | true => simp [hhelp]
    | false =>
      cases hcommand : hasHttpCommand o with
      | true => simp [hhelp, hcommand]
      | false => simp [hhelp, hcommand]

theorem runDriver_cases (env : StartupEnv F) (o : CliOptions) :
    (∃ output e, runDriver env o = .failed output e) ∨
      ∃ output l, runDriver env o = .launched output l := by
  rw [runDriver]
  split
  · next output e _ => exact .inl ⟨output, e, rfl⟩
  · next output v _ =>
    split
    · next e _ => exact .inl ⟨output, .config e, rfl⟩
    · next configuration _ =>
      rw [runDriverRuntime]
      split
      · exact .inl ⟨_, _, rfl⟩
      · exact .inr ⟨_, _, rfl⟩

omit [Arith F] [IntCast F] in
theorem answered_iff {o : CliOptions} (h : parseCli env.toCliEnv arguments = .ok o) :
    Answered env arguments ↔ o.help = true ∨ hasHttpCommand o = true ∧
      ∃ r, Completes o env.file env.peer r ∧ 200 ≤ r.statusCode ∧ r.statusCode < 300 := by
  constructor
  · rintro ⟨o', ho', hanswered⟩
    obtain rfl : o = o' := Except.ok.inj (h.symm.trans ho')
    exact hanswered
  · exact fun hanswered => ⟨o, h, hanswered⟩

/-- A driver that is started, or could not be, was asked for. -/
theorem not_answered (hhelped : startup env arguments ≠ .helped)
    (hcommand : ∀ run, startup env arguments ≠ .command run) : ¬ Answered env arguments := by
  rcases startup_cases env arguments with ⟨e, hparse, -⟩ | ⟨o, hparse, ⟨-, h⟩ | ⟨-, -, h⟩ | h⟩
  · rintro ⟨o, ho, -⟩
    cases hparse.symm.trans ho
  · exact absurd h hhelped
  · exact absurd h (hcommand _)
  · rw [answered_iff hparse]
    simp [h.1, h.2.1]

/-- A command that is run, and how it ends. -/
theorem startup_command {run : CommandRun} (h : startup env arguments = .command run) :
    ∃ o, Ended o env.file env.peer run ∧ (Answered env arguments ↔
      ∃ r, Completes o env.file env.peer r ∧ 200 ≤ r.statusCode ∧ r.statusCode < 300) := by
  rcases startup_cases env arguments with ⟨e, -, h'⟩ | ⟨o, hparse, ⟨-, h'⟩ | ⟨hhelp, hc, h'⟩ | h'⟩
  · cases h.symm.trans h'
  · cases h.symm.trans h'
  · cases h.symm.trans h'
    exact ⟨o, ended_runHttpCommand (accepted_of_parseCli hparse) hc,
      by simp [answered_iff hparse, hhelp, hc]⟩
  · rcases runDriver_cases env o with ⟨output, e, hdriver⟩ | ⟨output, l, hdriver⟩
    · cases (h.symm.trans h'.2.2).trans hdriver
    · cases (h.symm.trans h'.2.2).trans hdriver

theorem startup_helped (h : startup env arguments = .helped) : Answered env arguments := by
  rcases startup_cases env arguments with ⟨e, -, h'⟩ | ⟨o, hparse, ⟨hhelp, -⟩ | ⟨-, -, h'⟩ | h'⟩
  · cases h.symm.trans h'
  · exact (answered_iff hparse).2 (.inl hhelp)
  · cases h.symm.trans h'
  · rcases runDriver_cases env o with ⟨output, e, hdriver⟩ | ⟨output, l, hdriver⟩
    · cases (h.symm.trans h'.2.2).trans hdriver
    · cases (h.symm.trans h'.2.2).trans hdriver

/-- `main` returns 0 or 1: 0 exactly if the help was asked for, a command was answered with success,
or the driver has found `ros::ok()` false in its main loop, and so has been told to stop. It is 1 of
a driver that throws, in its constructor or while it reads a file. -/
theorem main_returns (h : MainReturns env arguments as code) :
    (code = 0 ∨ code = 1) ∧
    (code = 0 ↔ Answered env arguments ∨ .owner (.poll (.mainOk false)) ∈ as) ∧
    (.owner (.poll (.mainOk false)) ∈ as → .shutdown ∈ as) ∧
    (code = 1 → ∀ output l, startup env arguments = .launched output l →
      (∃ s, .owner (.threw s) ∈ as) ∨ .owner (.poll .threw) ∈ as ∧ l.mode = .pcap) := by
  cases h with
  | helped h => simp [startup_helped h]
  | @command run code h hcode =>
    obtain ⟨o, hended, hanswered⟩ := startup_command h
    obtain ⟨hzero, hone, -, -⟩ := hended.exit_iff
    rw [hcode, ← hanswered] at hzero
    have hcodes : code = 0 ∨ code = 1 := by
      rcases hended with ⟨r, -, hexit, -⟩ | ⟨-, e, hexit⟩
      · rw [hcode] at hexit
        cases hexit
        rw [exitCode]
        split <;> simp
      · cases hcode.symm.trans hexit
    refine ⟨hcodes, by simpa using hzero, by simp, fun _ output l hlaunched => ?_⟩
    cases h.symm.trans hlaunched
  | @commandThrew run e h hcode =>
    obtain ⟨o, hended, hanswered⟩ := startup_command h
    have hnone := hended.exit_iff.2.2.1.1 ⟨e, hcode⟩
    have hnot : ¬ Answered env arguments := by
      rw [hanswered]
      rintro ⟨r, hr, -⟩
      exact hnone r hr
    refine ⟨.inr rfl, by simp [hnot], by simp, fun _ output l hlaunched => ?_⟩
    cases h.symm.trans hlaunched
  | failed h =>
    have hnot : ¬ Answered env arguments := not_answered (by simp [h]) (by simp [h])
    refine ⟨.inr rfl, by simp [hnot], by simp, fun _ output l hlaunched => ?_⟩
    cases h.symm.trans hlaunched
  | @driver output l as c code h hran hphase =>
    have hnot : ¬ Answered env arguments := not_answered (by simp [h]) (by simp [h])
    have hshutdown : .owner (.poll (.mainOk false)) ∈ as → .shutdown ∈ as :=
      fun hmem => hran.told.2 (hran.told.1 _ hmem rfl)
    rcases hran.exited hphase with ⟨rfl, hmem⟩ | ⟨rfl, hmem, hwhy⟩
    · exact ⟨.inl rfl, by simp [hmem], hshutdown, by simp⟩
    · refine ⟨.inr rfl, by simp [hnot, hmem], hshutdown, fun _ output' l' hlaunched => ?_⟩
      cases h.symm.trans hlaunched
      exact hwhy

noncomputable def statusStart : StartupEnv ℝ := { udpStart with peer := statusPeer }

theorem startup_status : ∃ run : CommandRun, run.exitCode = .ok 0 ∧
    startup statusStart [bytes "mech_driver", bytes "--get-status"] = .command run := by
  have hparse : parseCli statusStart.toCliEnv [bytes "mech_driver", bytes "--get-status"] =
      .ok statusOptions := by decide
  refine ⟨runHttpCommand statusOptions .written statusPeer, by decide, ?_⟩
  rw [startup, hparse]
  rfl

/-- A command that is answered, and a driver that makes one poll and is told to stop. -/
theorem main_returns_zero :
    (MainReturns statusStart [bytes "mech_driver", bytes "--get-status"] [] 0 ∧
      Answered statusStart [bytes "mech_driver", bytes "--get-status"]) ∧
    ∃ as, MainReturns switchStart [bytes "mech_driver"] as 0 ∧
      publishedScans (pollsOf (Crew.ownerActions as)) = 1 ∧
      .owner (.poll (.mainOk false)) ∈ as ∧ .shutdown ∈ as := by
  constructor
  · obtain ⟨run, hexit, hstart⟩ := startup_status
    have hreturns := MainReturns.command hstart hexit
    exact ⟨hreturns, by simpa using (main_returns hreturns).2.1⟩
  · obtain ⟨output, hstart⟩ := startup_switched
    obtain ⟨xs, m, hpoll, -, hok, hpublished⟩ :=
      Poller.exists_single_poll switchedLaunch.stream 1
    obtain ⟨as, c, hran, hphase, hpolls⟩ := @exists_exited _ _ switchedLaunch _ _ _ hpoll hok
    have hreturns := MainReturns.driver hstart hran hphase
    have hmem : .owner (.poll (.mainOk false)) ∈ as :=
      mem_pollsOf.1 (hpolls ▸ List.mem_append_right xs (List.mem_singleton_self _))
    refine ⟨as, hreturns, ?_, hmem, (main_returns hreturns).2.2.1 hmem⟩
    rw [hpolls, publishedScans, List.countP_append]
    exact hpublished

end Main

end MechLidar
