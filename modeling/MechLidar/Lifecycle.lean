import MechLidar.Polling
import MechLidar.Startup
import MechLidar.Lib.Workers

/-!
# MechLidar.Lifecycle

The process from the constructor of `Driver` to its end (`ros_driver.cpp`, `driver_runtime.cpp`,
`dephan_node.cpp`): the constructor, the loop of `run_driver_runtime`, the destructor and the two
background threads, with any interleaving of them. `ros::ok()` turns false at any time.

* `constructor`: its statements. Any of them may throw, but the stores to the flags.
* `MainThread.Step`: the main thread. A poll is made of the statements of `Poller.Step`.
* `process`: the main thread as the owner of the background threads
* `History`: what has been done, told from where the main thread stands
* `process_threads`: a thread is there only between the constructor and the destructor, and calls
  nothing before its topics are advertised
* `terminated_iff`: when the process is aborted
* `process_ends`: once it is told to stop, the process ends
-/

namespace MechLidar

open Lib

variable {F : Type}

/-! ## Topics -/

inductive MessageType where
  | laserScan
  | pointCloud2
  | markerArray
  | string
  | diagnosticArray
deriving DecidableEq, Repr

structure Topic where
  name : String
  type : MessageType
  queueSize : Nat
  latch : Bool
deriving DecidableEq, Repr

def defaultPointcloudTopic (laserscanTopic : String) : String :=
  match find "laserscan".toList laserscanTopic.toList with
  | some pos => .ofList (laserscanTopic.toList.take pos ++ "pointcloud".toList ++
      laserscanTopic.toList.drop (pos + "laserscan".length))
  | none => laserscanTopic ++ "_pointcloud"

example : defaultPointcloudTopic "front/laserscan" = "front/pointcloud" := by decide

/-- Points and scans do not go to the same topic. -/
theorem defaultPointcloudTopic_ne (t : String) : defaultPointcloudTopic t ≠ t := by
  intro h
  have hlength := congrArg String.length h
  rw [defaultPointcloudTopic] at hlength
  split at hlength
  · next pos hpos =>
    have hoccurs := (find_eq_some_iff.1 hpos).1.length_le
    have hscan : "laserscan".toList.length = 9 := rfl
    have hcloud : "pointcloud".toList.length = 10 := rfl
    have hname : "laserscan".length = 9 := rfl
    simp only [String.length_ofList, List.length_append, List.length_take, List.length_drop,
      hcloud, hname, String.length_toList] at hlength
    rw [hscan, String.length_toList] at hoccurs
    omega
  · have hsuffix : "_pointcloud".length = 11 := rfl
    rw [String.length_append, hsuffix] at hlength
    omega

/-! ## The threads -/

inductive Background where
  | safetyDebug
  | diagnostics
deriving DecidableEq, Repr

instance : Fintype Background where
  elems := {.safetyDebug, .diagnostics}
  complete b := by cases b <;> simp

/-- A statement of a constructor. -/
inductive Setup where
  /-- The socket, or the file with its first packet. -/
  | openSource
  | advertise (t : Topic)
  /-- `running = true` -/
  | raise (b : Background)
  | start (b : Background)
deriving DecidableEq, Repr

/-- A store does not throw. -/
def Setup.throws : Setup → Bool
  | .raise _ => false
  | _ => true

/-- A statement of the destructor. -/
inductive Teardown where
  /-- `running = false` -/
  | clear (b : Background)
  /-- `if (thread.joinable()) thread.join();` -/
  | join (b : Background)
deriving DecidableEq, Repr

def destructor : List Teardown :=
  [.clear .safetyDebug, .clear .diagnostics, .join .safetyDebug, .join .diagnostics]

section Main

variable [Arith F]

namespace Launch

def scanTopic (l : Launch F) : Topic := ⟨l.topic, .laserScan, 10, false⟩

def pointcloudTopic (l : Launch F) : Topic where
  name := if l.options.pointcloudTopic = "" then defaultPointcloudTopic l.topic
    else l.options.pointcloudTopic
  type := .pointCloud2
  queueSize := 10
  latch := false

/-- What a thread publishes to. -/
def topics (l : Launch F) : Background → List Topic
  | .safetyDebug => [⟨l.options.safetyZonesTopic, .markerArray, 1, true⟩,
      ⟨l.options.safetyStatusTopic, .string, 1, true⟩]
  | .diagnostics => [⟨l.options.diagnosticsTopic, .diagnosticArray, 1, true⟩]

def enabled (l : Launch F) : Background → Bool
  | .safetyDebug => l.options.safetyDebug
  | .diagnostics => l.options.diagnosticsEnabled

/-- The `if` statement of a thread. -/
def setupOf (l : Launch F) (b : Background) : List Setup :=
  if l.enabled b then (l.topics b).map .advertise ++ [.raise b, .start b] else []

/-- Both constructors of `Driver`. -/
def constructor (l : Launch F) : List Setup :=
  [.openSource, .advertise l.scanTopic, .advertise l.pointcloudTopic] ++
    (l.setupOf .safetyDebug ++ l.setupOf .diagnostics)

end Launch

/-- The next statement of the main thread. -/
inductive Phase (F : Type) where
  | constructing (rest : List Setup)
  | polling (p : Poller F)
  /-- With what `main` returns afterwards. -/
  | destroying (rest : List Teardown) (code : Int)
  | exited (code : Int)
  /-- `std::terminate` has been called. -/
  | terminated

/-- With what `joinable()` says of its threads. -/
structure MainThread (F : Type) where
  phase : Phase F
  joinable : Background → Bool

/-- What is seen of a statement. -/
inductive MainAction (F : Type) where
  | setup (s : Setup)
  | threw (s : Setup)
  /-- The constructor returns, at this time. -/
  | constructed (ns : Nat)
  | poll (x : PollAction F)
  /-- The loop ends, or an exception leaves it. -/
  | left (code : Int)
  | cleared (b : Background)
  | joined (b : Background)
  | notJoinable (b : Background)
  | exit (code : Int)

/-- What becomes of the background threads. -/
def MainAction.duty : MainAction F → Duty Background
  | .setup (.raise b) => .raise b
  | .setup (.start b) => .start b
  | .cleared b => .clear b
  | .joined b => .join b
  | _ => .none

/-- A statement of the destructor. -/
def MainAction.tearsDown : MainAction F → Bool
  | .cleared _ => true
  | .joined _ => true
  | .notJoinable _ => true
  | _ => false

/-- Where the exception of a constructor goes: the members are destroyed, and a `std::thread` that
is joinable then calls `std::terminate`. Else `main` catches it. -/
def unwound (joinable : Background → Bool) : Phase F :=
  if ∃ b, joinable b = true then .terminated else .exited 1

namespace MainThread

inductive Step (l : Launch F) (ok : Bool) : MainThread F → MainAction F → MainThread F → Prop where
  | setup {s : Setup} {rest : List Setup} {j : Background → Bool} :
      Step l ok ⟨.constructing (s :: rest), j⟩ (.setup s)
        ⟨.constructing rest, (MainAction.setup s : MainAction F).duty.held j⟩
  | threw {s : Setup} {rest : List Setup} {j : Background → Bool} (h : s.throws = true) :
      Step l ok ⟨.constructing (s :: rest), j⟩ (.threw s) ⟨unwound j, j⟩
  | constructed {j : Background → Bool} {ns : Nat} :
      Step l ok ⟨.constructing [], j⟩ (.constructed ns) ⟨.polling (.initial ns), j⟩
  | poll {p p' : Poller F} {x : PollAction F} {j : Background → Bool}
      (hok : ∀ answer, x.okAnswer = some answer → answer = ok)
      (h : Poller.Step l.mode l.captureType l.stream p x p') :
      Step l ok ⟨.polling p, j⟩ (.poll x) ⟨.polling p', j⟩
  | finished {m : SharedMembers} {j : Background → Bool} :
      Step l ok ⟨.polling ⟨m, .finished⟩, j⟩ (.left 0) ⟨.destroying destructor 0, j⟩
  | thrown {m : SharedMembers} {j : Background → Bool} :
      Step l ok ⟨.polling ⟨m, .thrown⟩, j⟩ (.left 1) ⟨.destroying destructor 1, j⟩
  | clear {b : Background} {rest : List Teardown} {code : Int} {j : Background → Bool} :
      Step l ok ⟨.destroying (.clear b :: rest) code, j⟩ (.cleared b) ⟨.destroying rest code, j⟩
  | join {b : Background} {rest : List Teardown} {code : Int} {j : Background → Bool}
      (h : j b = true) : Step l ok ⟨.destroying (.join b :: rest) code, j⟩ (.joined b)
        ⟨.destroying rest code, Function.update j b false⟩
  | skip {b : Background} {rest : List Teardown} {code : Int} {j : Background → Bool}
      (h : j b = false) : Step l ok ⟨.destroying (.join b :: rest) code, j⟩ (.notJoinable b)
        ⟨.destroying rest code, j⟩
  | exit {code : Int} {j : Background → Bool} :
      Step l ok ⟨.destroying [] code, j⟩ (.exit code) ⟨.exited code, j⟩

def initial (l : Launch F) : MainThread F := ⟨.constructing l.constructor, fun _ => false⟩

def leaving (w : MainThread F) : Bool :=
  match w.phase with
  | .constructing _ => false
  | .polling _ => false
  | _ => true

def ended (w : MainThread F) : Bool :=
  match w.phase with
  | .exited _ => true
  | .terminated => true
  | _ => false

end MainThread

/-- The main thread and its background threads. -/
def process (l : Launch F) : Owner (MainThread F) (MainAction F) Background where
  step := MainThread.Step l
  duty := MainAction.duty
  holds := MainThread.joinable
  leaving := MainThread.leaving
  ended := MainThread.ended

/-- A run of the process. -/
abbrev Ran (l : Launch F) (as : List (CrewAction (MainAction F) Background))
    (c : Crew (MainThread F) Background) : Prop :=
  Runs (Crew.Step (process l)) (Crew.initial (MainThread.initial l)) as c

/-! ## What has been done -/

namespace MainThread

variable {l : Launch F} {ks : List (MainAction F)} {w w' : MainThread F} {k : MainAction F}
  {ok : Bool}

/-- The constructor has returned, and the polls have led here. -/
def Polled (l : Launch F) (ks : List (MainAction F)) (p : Poller F) : Prop :=
  ∃ ns xs, ks = l.constructor.map .setup ++ .constructed ns :: xs.map .poll ∧
    Poller.Reached l.mode l.captureType l.stream ns xs p

/-- How the loop was left, and what `main` returns then. -/
def Left (p : Poller F) (code : Int) : Prop :=
  p.position = .finished ∧ code = 0 ∨ p.position = .thrown ∧ code = 1

/-- The destructor has come to `rest`. -/
def Destroyed (l : Launch F) (ks : List (MainAction F)) (rest : List Teardown) (code : Int) :
    Prop :=
  ∃ polled p ends, ks = polled ++ .left code :: ends ∧ Polled l polled p ∧ Left p code ∧
    (∀ k ∈ ends, k.tearsDown = true) ∧ ∃ done, destructor = done ++ rest

/-- The constructor has thrown at `s`. -/
def Failed (l : Launch F) (ks : List (MainAction F)) (s : Setup) : Prop :=
  ∃ done rest, l.constructor = done ++ s :: rest ∧ s.throws = true ∧
    ks = done.map .setup ++ [.threw s]

def History (l : Launch F) (ks : List (MainAction F)) (w : MainThread F) : Prop :=
  match w.phase with
  | .constructing rest => ∃ done, l.constructor = done ++ rest ∧ ks = done.map .setup ∧
      ∀ b, w.joinable b = decide (.start b ∈ done)
  | .polling p => Polled l ks p ∧ ∀ b, w.joinable b = decide (.start b ∈ l.constructor)
  | .destroying rest code => Destroyed l ks rest code ∧
      ∀ b, w.joinable b = decide (.start b ∈ l.constructor ∧ .join b ∈ rest)
  | .exited code => (∀ b, w.joinable b = false) ∧
      (code = 1 ∧ (∃ s, Failed l ks s ∧ ∀ b, .setup (.start b) ∉ ks) ∨
        ∃ ks', ks = ks' ++ [.exit code] ∧ Destroyed l ks' [] code)
  | .terminated => ∃ s, Failed l ks s ∧ (∃ b, w.joinable b = true) ∧
      ∀ b, w.joinable b = true → .setup (.start b) ∈ ks

theorem nodup_destructor : destructor.Nodup := by decide

/-- A thread is joined once. -/
theorem join_notMem {b : Background} {done rest : List Teardown}
    (h : destructor = done ++ .join b :: rest) : .join b ∉ rest := by
  have hnodup := nodup_destructor
  rw [h] at hnodup
  exact (List.nodup_cons.1 hnodup.of_append_right).1

omit [Arith F] in
theorem held_setup (s : Setup) (done : List Setup) {j : Background → Bool}
    (hj : ∀ b, j b = decide (.start b ∈ done)) (b : Background) :
    (MainAction.setup s : MainAction F).duty.held j b = decide (.start b ∈ done ++ [s]) := by
  cases s with
  | start b' =>
    by_cases hb : b = b'
    · simp [MainAction.duty, Duty.held, hb]
    · simp [MainAction.duty, Duty.held, hb, hj]
  | _ => simp [MainAction.duty, Duty.held, hj]

theorem Polled.step {p p' : Poller F} {x : PollAction F} (hp : Polled l ks p)
    (h : Poller.Step l.mode l.captureType l.stream p x p') : Polled l (ks ++ [.poll x]) p' := by
  obtain ⟨ns, xs, rfl, hruns⟩ := hp
  exact ⟨ns, xs ++ [x], by simp, hruns.after h⟩

theorem Destroyed.step {t : Teardown} {rest : List Teardown} {code : Int}
    (h : Destroyed l ks (t :: rest) code) (hk : k.tearsDown = true) :
    Destroyed l (ks ++ [k]) rest code := by
  obtain ⟨polled, p, ends, rfl, hpolled, hleft, hends, done, hdone⟩ := h
  refine ⟨polled, p, ends ++ [k], by simp, hpolled, hleft, ?_, done ++ [t], by simp [hdone]⟩
  intro k' hk'
  rcases List.mem_append.1 hk' with hold | hnew
  · exact hends k' hold
  · obtain rfl : k' = k := by simpa using hnew
    exact hk

theorem Polled.left {p : Poller F} {code : Int} (hp : Polled l ks p) (h : Left p code) :
    Destroyed l (ks ++ [.left code]) destructor code :=
  ⟨ks, p, [], rfl, hp, h, by simp, [], rfl⟩

theorem Step.history (h : Step l ok w k w') (hw : History l ks w) :
    History l (ks ++ [k]) w' := by
  cases h with
  | @setup s rest j =>
    obtain ⟨done, hdone, rfl, hj⟩ := hw
    exact ⟨done ++ [s], by simp [hdone], by simp, held_setup s done hj⟩
  | @threw s rest j hthrows =>
    obtain ⟨done, hdone, rfl, hj⟩ := hw
    have hfailed : Failed l (done.map .setup ++ [.threw s]) s := ⟨done, rest, hdone, hthrows, rfl⟩
    dsimp only at hj
    rw [unwound]
    split
    · next hjoinable =>
      refine ⟨s, hfailed, hjoinable, fun b hb => ?_⟩
      have hstart := (hj b).symm.trans hb
      rw [decide_eq_true_eq] at hstart
      exact List.mem_append_left _ (List.mem_map_of_mem hstart)
    · next hnone =>
      have hnot : ∀ b, j b = false := by simpa using hnone
      refine ⟨hnot, .inl ⟨rfl, s, hfailed, fun b hb => ?_⟩⟩
      have hstart : .start b ∈ done := by simpa using hb
      exact Bool.false_ne_true ((hnot b).symm.trans ((hj b).trans (decide_eq_true hstart)))
  | @constructed j ns =>
    obtain ⟨done, hdone, rfl, hj⟩ := hw
    obtain rfl : l.constructor = done := by simpa using hdone
    exact ⟨⟨ns, [], by simp, .start⟩, hj⟩
  | poll _ hs => exact ⟨hw.1.step hs, hw.2⟩
  | finished =>
    refine ⟨hw.1.left (.inl ⟨rfl, rfl⟩), fun b => (hw.2 b).trans ?_⟩
    cases b <;> simp [destructor]
  | thrown =>
    refine ⟨hw.1.left (.inr ⟨rfl, rfl⟩), fun b => (hw.2 b).trans ?_⟩
    cases b <;> simp [destructor]
  | clear =>
    exact ⟨hw.1.step rfl, fun b => (hw.2 b).trans (by simp)⟩
  | @join b rest code j hb =>
    obtain ⟨hdestroyed, hj⟩ := hw
    refine ⟨hdestroyed.step rfl, fun b' => ?_⟩
    obtain ⟨-, -, -, -, -, -, -, done, hdone⟩ := hdestroyed
    by_cases hb' : b' = b
    · simp [hb', join_notMem hdone]
    · simpa [hb'] using hj b'
  | @skip b rest code j hb =>
    obtain ⟨hdestroyed, hj⟩ := hw
    refine ⟨hdestroyed.step rfl, fun b' => ?_⟩
    obtain ⟨-, -, -, -, -, -, -, done, hdone⟩ := hdestroyed
    by_cases hb' : b' = b
    · simp [hb', join_notMem hdone, hb]
    · simpa [hb'] using hj b'
  | exit => exact ⟨by simpa using hw.2, .inr ⟨_, rfl, hw.1⟩⟩

/-- The main thread on its own. -/
theorem history_of_runs
    (h : Runs (fun w k w' => ∃ ok, Step l ok w k w') (initial l) ks w) : History l ks w := by
  have hstart : History l [] (initial l) := ⟨[], rfl, rfl, by simp [initial]⟩
  exact h.invariant (P := History l) hstart fun _ _ _ _ hw hs => hs.elim fun _ hs => hs.history hw

end MainThread

section Process

variable {l : Launch F} {as : List (CrewAction (MainAction F) Background)}
  {c : Crew (MainThread F) Background}

theorem Ran.history (h : Ran l as c) : MainThread.History l (Crew.ownerActions as) c.owner :=
  MainThread.history_of_runs (Crew.owner_runs h)

theorem process_accounts (l : Launch F) : Crew.Accounts (process l) := by
  intro ok w k w' h
  cases h with
  | setup => rfl
  | join => rfl
  | _ => rfl

/-- A thread is there exactly while it is joinable. -/
theorem Ran.present_eq (h : Ran l as c) (b : Background) :
    (c.worker b).present = c.owner.joinable b :=
  Crew.present_eq (process_accounts l) h (fun _ => rfl) b

/-! ## The start of a thread -/

/-- The statements in front of the start. -/
def beforeStart (l : Launch F) : Background → List Setup
  | .safetyDebug => [.openSource, .advertise l.scanTopic, .advertise l.pointcloudTopic] ++
      ((l.topics .safetyDebug).map .advertise ++ [.raise .safetyDebug])
  | .diagnostics => [.openSource, .advertise l.scanTopic, .advertise l.pointcloudTopic] ++
      (l.setupOf .safetyDebug ++ ((l.topics .diagnostics).map .advertise ++ [.raise .diagnostics]))

theorem start_notMem_beforeStart (l : Launch F) (b : Background) :
    .start b ∉ beforeStart l b := by
  cases b with
  | safetyDebug => simp [beforeStart]
  | diagnostics => cases h : l.enabled .safetyDebug <;> simp [beforeStart, Launch.setupOf, h]

theorem start_mem_constructor {b : Background} :
    .start b ∈ l.constructor ↔ l.enabled b = true := by
  cases b <;> cases h : l.enabled .safetyDebug <;> cases h' : l.enabled .diagnostics <;>
    simp [Launch.constructor, Launch.setupOf, h, h']

theorem constructor_eq {b : Background} (h : l.enabled b = true) :
    ∃ behind, l.constructor = beforeStart l b ++ .start b :: behind := by
  cases b with
  | safetyDebug =>
    refine ⟨l.setupOf .diagnostics, ?_⟩
    simp [Launch.constructor, Launch.setupOf, beforeStart, h]
  | diagnostics =>
    refine ⟨[], ?_⟩
    simp [Launch.constructor, Launch.setupOf, beforeStart, h]

/-- A constructor that has come to the start of a thread has come by everything in front of it. -/
theorem beforeStart_subset {b : Background} {done rest : List Setup}
    (h : l.constructor = done ++ rest) (hb : .start b ∈ done) : beforeStart l b ⊆ done := by
  have hmem : .start b ∈ l.constructor := h ▸ List.mem_append_left _ hb
  obtain ⟨behind, hbehind⟩ := constructor_eq (start_mem_constructor.1 hmem)
  have hdone : done <+: l.constructor := ⟨rest, h.symm⟩
  have hbefore : beforeStart l b <+: l.constructor := ⟨_, hbehind.symm⟩
  rcases List.prefix_or_prefix_of_prefix hbefore hdone with hle | hle
  · exact hle.subset
  · exact absurd (hle.subset hb) (start_notMem_beforeStart l b)

namespace MainThread

variable {ks : List (MainAction F)} {w : MainThread F} {b : Background}

theorem Polled.setup {p : Poller F} (h : Polled l ks p) {s : Setup} (hs : s ∈ l.constructor) :
    .setup s ∈ ks := by
  obtain ⟨ns, xs, rfl, -⟩ := h
  exact List.mem_append_left _ (List.mem_map_of_mem hs)

theorem Destroyed.setup {rest : List Teardown} {code : Int} (h : Destroyed l ks rest code)
    {s : Setup} (hs : s ∈ l.constructor) : .setup s ∈ ks := by
  obtain ⟨polled, p, ends, rfl, hpolled, -⟩ := h
  exact List.mem_append_left _ (hpolled.setup hs)

/-- A thread that is joinable has been started, and everything in front of that has been done. -/
theorem History.started (h : History l ks w) (hb : w.joinable b = true) :
    .start b ∈ l.constructor ∧ .setup (.start b) ∈ ks ∧ ∀ s ∈ beforeStart l b, .setup s ∈ ks := by
  have hall : ∀ done rest, l.constructor = done ++ rest → .start b ∈ done →
      (∀ s ∈ done, .setup s ∈ ks) →
      .start b ∈ l.constructor ∧ .setup (.start b) ∈ ks ∧
        ∀ s ∈ beforeStart l b, .setup s ∈ ks := by
    intro done rest hdone hstart hks
    refine ⟨hdone ▸ List.mem_append_left _ hstart, hks _ hstart, fun s hs => ?_⟩
    exact hks s (beforeStart_subset hdone hstart hs)
  obtain ⟨phase, j⟩ := w
  cases phase with
  | constructing rest =>
    obtain ⟨done, hdone, rfl, hj⟩ := h
    rw [hj, decide_eq_true_eq] at hb
    exact hall done rest hdone hb fun s hs => List.mem_map_of_mem hs
  | polling p =>
    obtain ⟨hpolled, hj⟩ := h
    rw [hj, decide_eq_true_eq] at hb
    exact hall l.constructor [] (by simp) hb fun s hs => hpolled.setup hs
  | destroying rest code =>
    obtain ⟨hdestroyed, hj⟩ := h
    rw [hj, decide_eq_true_eq] at hb
    exact hall l.constructor [] (by simp) hb.1 fun s hs => hdestroyed.setup hs
  | exited code => exact absurd ((h.1 b).symm.trans hb) Bool.false_ne_true
  | terminated =>
    obtain ⟨s, ⟨done, rest, hdone, -, rfl⟩, -, hj⟩ := h
    have hstart : .start b ∈ done := by simpa using hj b hb
    exact hall done (s :: rest) hdone hstart fun s hs =>
      List.mem_append_left _ (List.mem_map_of_mem hs)

end MainThread

/-! ## The flags -/

/-- A flag is up from its store in the constructor to its store in the destructor. -/
def Flagged (as : List (CrewAction (MainAction F) Background))
    (c : Crew (MainThread F) Background) : Prop :=
  match c.owner.phase with
  | .destroying rest _ => ∀ b, .clear b ∉ rest → c.running b = false
  | .exited _ => True
  | .terminated => True
  | _ => ∀ b, .owner (.setup (.raise b)) ∈ as → c.running b = true

omit [Arith F] in
theorem Flagged.other {a : CrewAction (MainAction F) Background}
    {c' : Crew (MainThread F) Background}
    (h : Flagged as c) (howner : c'.owner = c.owner) (hrunning : c'.running = c.running)
    (ha : ∀ b, a ≠ .owner (.setup (.raise b))) : Flagged (as ++ [a]) c' := by
  obtain ⟨⟨phase, j⟩, ok, running, worker⟩ := c
  obtain ⟨⟨phase', j'⟩, ok', running', worker'⟩ := c'
  obtain ⟨rfl, rfl⟩ : phase' = phase ∧ j' = j := by simpa using howner
  subst hrunning
  cases phase' with
  | constructing rest =>
    intro b hb
    exact h b (by simpa [(ha b).symm] using hb)
  | polling p =>
    intro b hb
    exact h b (by simpa [(ha b).symm] using hb)
  | _ => exact h

theorem flagged_step {a : CrewAction (MainAction F) Background}
    {c' : Crew (MainThread F) Background}
    (h : Crew.Step (process l) c a c') (hc : Flagged as c) : Flagged (as ++ [a]) c' := by
  cases h with
  | shutdown => exact hc.other rfl rfl (by simp)
  | worker => exact hc.other rfl rfl (by simp)
  | @owner k w hown hjoin =>
    obtain ⟨⟨phase, j⟩, ok, running, worker⟩ := c
    dsimp only at hown
    cases hown with
    | @setup s rest j =>
      intro b hb
      rcases List.mem_append.1 hb with hold | hnew
      · have hup := hc b hold
        cases s with
        | raise b' =>
          by_cases hbb : b = b'
          · simp [process, MainAction.duty, Duty.flags, hbb]
          · simpa [process, MainAction.duty, Duty.flags, hbb] using hup
        | _ => exact hup
      · obtain rfl : s = .raise b := by simpa [eq_comm] using hnew
        simp [process, MainAction.duty, Duty.flags]
    | @threw s rest j hthrows =>
      rw [unwound]
      split <;> trivial
    | constructed =>
      intro b hb
      exact hc b (by simpa using hb)
    | poll =>
      intro b hb
      exact hc b (by simpa using hb)
    | finished => exact fun b hb => absurd (by cases b <;> simp [destructor]) hb
    | thrown => exact fun b hb => absurd (by cases b <;> simp [destructor]) hb
    | @clear b' rest code j =>
      intro b hb
      by_cases hbb : b = b'
      · simp [process, MainAction.duty, Duty.flags, hbb]
      · have hdown := hc b (by simp [hbb, hb])
        simpa [process, MainAction.duty, Duty.flags, hbb] using hdown
    | join => exact fun b hb => hc b (by simp [hb])
    | skip => exact fun b hb => hc b (by simp [hb])
    | exit => trivial

theorem Ran.flagged (h : Ran l as c) : Flagged as c :=
  h.invariant (P := Flagged) (by simp [Flagged, Crew.initial, MainThread.initial])
    fun _ _ _ _ hc hs => flagged_step hs hc

/-- The driver is there and not being destroyed. -/
def Phase.serves : Phase F → Bool
  | .constructing _ => true
  | .polling _ => true
  | _ => false

omit [Arith F] in
theorem running_of_flagged (h : Flagged as c) (hserves : c.owner.phase.serves = true)
    {b : Background} (hb : .owner (.setup (.raise b)) ∈ as) : c.running b = true := by
  obtain ⟨⟨phase, j⟩, ok, running, worker⟩ := c
  cases phase with
  | constructing rest => exact h b hb
  | polling p => exact h b hb
  | _ => cases hserves

theorem raise_mem_beforeStart (l : Launch F) (b : Background) : .raise b ∈ beforeStart l b := by
  cases b <;> simp [beforeStart]

theorem advertise_mem_beforeStart (l : Launch F) {b : Background} {t : Topic}
    (ht : t ∈ l.topics b) : .advertise t ∈ beforeStart l b := by
  cases b with
  | safetyDebug =>
    exact List.mem_append_right _ (List.mem_append_left _ (List.mem_map_of_mem ht))
  | diagnostics =>
    exact List.mem_append_right _ (List.mem_append_right _
      (List.mem_append_left _ (List.mem_map_of_mem ht)))

theorem Ran.raised (h : Ran l as c) {b : Background} (hb : (c.worker b).present = true) :
    .owner (.setup (.raise b)) ∈ as :=
  Crew.mem_ownerActions.1
    ((h.history.started (h.present_eq b ▸ hb)).2.2 _ (raise_mem_beforeStart l b))

/-- A step behind which the driver still serves. -/
theorem serves_step {ok : Bool} {w w' : MainThread F} {k : MainAction F}
    (h : MainThread.Step l ok w k w') (hw : w'.phase.serves = true) :
    w.phase.serves = true ∧ ∀ b, k.duty ≠ .join b := by
  cases h with
  | setup => exact ⟨rfl, fun b => by cases ‹Setup› <;> simp [MainAction.duty]⟩
  | threw =>
    rw [unwound] at hw
    split at hw <;> cases hw
  | constructed => exact ⟨rfl, by simp [MainAction.duty]⟩
  | poll => exact ⟨rfl, by simp [MainAction.duty]⟩
  | _ => cases hw

/-- No background thread ends on its own while the driver serves. -/
theorem Ran.stopped_of_finished (h : Ran l as c) (b : Background) :
    c.owner.phase.serves = true → c.worker b = .finished → c.ok = false := by
  have hboth := h.invariant (P := fun as c => Ran l as c ∧
    (c.owner.phase.serves = true → c.worker b = .finished → c.ok = false)) ?_ ?_
  · exact hboth.2
  · exact ⟨.start, fun _ hb => nomatch hb⟩
  · rintro as t a u ⟨hran, ih⟩ hs
    refine ⟨hran.after hs, ?_⟩
    cases hs with
    | shutdown => exact fun _ _ => rfl
    | @owner k w hown hjoin =>
      intro hserves hfinished
      obtain ⟨hbefore, hnot⟩ := serves_step hown hserves
      refine ih hbefore ?_
      dsimp only [process] at hfinished hnot
      cases hduty : k.duty with
      | start b' =>
        rw [hduty] at hfinished
        by_cases hbb : b = b'
        · simp [Duty.workers, hbb] at hfinished
        · simpa [Duty.workers, hbb] using hfinished
      | join b' => exact absurd hduty (hnot b')
      | _ =>
        rw [hduty] at hfinished
        exact hfinished
    | @worker b' x v hended hw =>
      intro hserves hfinished
      by_cases hbb : b = b'
      · subst hbb
        dsimp only at hfinished
        rw [Function.update_self] at hfinished
        subst hfinished
        have hpresent : (t.worker b).present = true := hw.present_eq.symm
        have hrunning := running_of_flagged hran.flagged hserves (hran.raised hpresent)
        generalize t.worker b = v at hw
        cases hw with
        | notOk hok => exact hok
        | notRunning hdown => exact absurd (hdown.symm.trans hrunning) Bool.false_ne_true
      · exact ih hserves (by simpa [hbb] using hfinished)

/-! ### A run -/

omit [Arith F] in
theorem MainAction.eq_joined {k : MainAction F} {b : Background} (h : k.duty = .join b) :
    k = .joined b := by
  cases k with
  | setup s => cases s <;> cases h
  | joined b' =>
    cases h
    rfl
  | _ => cases h

/-- A statement of the main thread that joins no thread. -/
theorem Ran.stepped {w w' : MainThread F} {ok : Bool} {running : Background → Bool}
    {worker : Background → Worker} {k : MainAction F} (h : Ran l as ⟨w, ok, running, worker⟩)
    (hs : MainThread.Step l ok w k w') (hk : ∀ b, k ≠ .joined b) :
    Ran l (as ++ [.owner k]) ⟨w', ok, k.duty.flags running, k.duty.workers worker⟩ :=
  h.after (.owner hs fun b hjoin => absurd (MainAction.eq_joined hjoin) (hk b))

/-- The node runs, and the threads that are there have not made a step. -/
structure Waiting (c : Crew (MainThread F) Background) : Prop where
  ok : c.ok = true
  worker : ∀ b, (c.worker b).present = true → c.worker b = .atOk

omit [Arith F] in
theorem Waiting.setup {w w' : MainThread F} {ok : Bool} {running : Background → Bool}
    {worker : Background → Worker} (h : Waiting ⟨w, ok, running, worker⟩) (s : Setup)
    (running' : Background → Bool) :
    Waiting ⟨w', ok, running', (MainAction.setup s : MainAction F).duty.workers worker⟩ := by
  refine ⟨h.ok, fun b hb => ?_⟩
  cases s with
  | start b' =>
    by_cases hbb : b = b'
    · simp [MainAction.duty, Duty.workers, hbb]
    · simp only [MainAction.duty, Duty.workers, Function.update_of_ne hbb] at hb ⊢
      exact h.worker b hb
  | _ => exact h.worker b hb

/-- The statements of the constructor, one after the other. -/
theorem exists_setup {done rest : List Setup} (h : l.constructor = done ++ rest) :
    ∃ c, Ran l (done.map fun s => .owner (.setup s)) c ∧
      c.owner.phase = .constructing rest ∧ Waiting c := by
  induction done using List.reverseRecOn generalizing rest with
  | nil =>
    obtain rfl : l.constructor = rest := h
    exact ⟨_, .start, rfl, rfl, fun b hb => absurd hb Bool.false_ne_true⟩
  | append_singleton done s ih =>
    obtain ⟨⟨⟨phase, j⟩, ok, running, worker⟩, hran, hphase, hwaiting⟩ :=
      @ih (s :: rest) (by simp [h])
    obtain rfl : phase = .constructing (s :: rest) := hphase
    rw [List.map_append]
    exact ⟨_, hran.stepped .setup (by simp), rfl, hwaiting.setup s _⟩

theorem exists_polling (l : Launch F) (ns : Nat) :
    ∃ c, Ran l ((l.constructor.map fun s => .owner (.setup s)) ++ [.owner (.constructed ns)]) c ∧
      c.owner.phase = .polling (.initial ns) ∧ Waiting c := by
  obtain ⟨⟨⟨phase, j⟩, ok, running, worker⟩, hran, hphase, hwaiting⟩ :=
    @exists_setup _ _ l l.constructor [] (List.append_nil _).symm
  obtain rfl : phase = .constructing [] := hphase
  exact ⟨_, hran.stepped .constructed (by simp), rfl, hwaiting.ok, hwaiting.worker⟩

/-! ## The background threads -/

/-- A background thread is there only if it is enabled, has its topics advertised and its flag
raised, and never behind the end of the process. While the driver is polled every enabled one is
there, and ends for no other reason than `ros::ok()`. The destructor leaves none. -/
theorem process_threads (h : Ran l as c) (b : Background) :
    ((c.worker b).present = true → l.enabled b = true ∧
      (∀ t ∈ l.topics b, .owner (.setup (.advertise t)) ∈ as) ∧
      .owner (.setup (.raise b)) ∈ as ∧ ∀ code, c.owner.phase ≠ .exited code) ∧
    (∀ p, c.owner.phase = .polling p → (c.worker b).present = l.enabled b ∧
      (l.enabled b = true → c.running b = true) ∧ (c.worker b = .finished → c.ok = false)) ∧
    ∀ rest code, c.owner.phase = .destroying rest code →
      (.clear b ∉ rest → c.running b = false) ∧
      (.join b ∉ rest → (c.worker b).present = false) := by
  have hhistory := h.history
  have hpresent := h.present_eq b
  refine ⟨?_, ?_, ?_⟩
  · intro hb
    rw [hpresent] at hb
    obtain ⟨hstart, -, hbefore⟩ := hhistory.started hb
    refine ⟨start_mem_constructor.1 hstart, fun t ht => ?_, ?_, fun code hcode => ?_⟩
    · exact Crew.mem_ownerActions.1 (hbefore _ (advertise_mem_beforeStart l ht))
    · exact Crew.mem_ownerActions.1 (hbefore _ (raise_mem_beforeStart l b))
    · rw [MainThread.History, hcode] at hhistory
      exact Bool.false_ne_true ((hhistory.1 b).symm.trans hb)
  · intro p hp
    have hserves : c.owner.phase.serves = true := by rw [hp]; rfl
    have henabled : (c.worker b).present = l.enabled b := by
      rw [MainThread.History, hp] at hhistory
      rw [hpresent, hhistory.2, Bool.eq_iff_iff, decide_eq_true_eq]
      exact start_mem_constructor
    refine ⟨henabled, fun hb => ?_, h.stopped_of_finished b hserves⟩
    exact running_of_flagged h.flagged hserves (h.raised (henabled.trans hb))
  · intro rest code hphase
    have hflagged := h.flagged
    rw [Flagged, hphase] at hflagged
    rw [MainThread.History, hphase] at hhistory
    refine ⟨hflagged b, fun hrest => ?_⟩
    rw [hpresent, hhistory.2]
    simp [hrest]

/-- A driver with both threads. -/
theorem sound_debugConfig : Sound { udpConfig with safetyDebug := true } :=
  have hsound := sound_of_parse parse_udpJson
  have hvalid := hsound.validated
  { validated := ⟨hvalid.1, hvalid.2, hvalid.3, hvalid.4, hvalid.5, hvalid.6, hvalid.7, hvalid.8,
      hvalid.9, hvalid.10, hvalid.11, hvalid.12, hvalid.13, hvalid.14⟩
    otherDefault := hsound.otherDefault
    httpPort := hsound.httpPort
    port := hsound.port
    pcapPath := hsound.pcapPath }

noncomputable def debugLaunch : Launch ℝ := launchOf _ sound_debugConfig

theorem process_threads_debug : ∃ as c, Ran debugLaunch as c ∧
    ∀ b, (c.worker b).present = true ∧ c.running b = true := by
  obtain ⟨c, hran, hphase, -⟩ := exists_polling debugLaunch 1
  refine ⟨_, c, hran, fun b => ?_⟩
  obtain ⟨hpresent, hrunning, -⟩ := (process_threads hran b).2.1 _ hphase
  have henabled : debugLaunch.enabled b = true := by cases b <;> rfl
  exact ⟨hpresent.trans henabled, hrunning henabled⟩

/-! ## The polls -/

def MainAction.polled : MainAction F → Option (PollAction F)
  | .poll x => some x
  | _ => none

/-- What is seen of the polls. -/
def pollsOf (ks : List (MainAction F)) : List (PollAction F) := ks.filterMap MainAction.polled

omit [Arith F] in
theorem pollsOf_append (ks ks' : List (MainAction F)) :
    pollsOf (ks ++ ks') = pollsOf ks ++ pollsOf ks' := List.filterMap_append

omit [Arith F] in
theorem pollsOf_setup (done : List Setup) :
    pollsOf (done.map .setup : List (MainAction F)) = [] := by
  simp [pollsOf, MainAction.polled]

omit [Arith F] in
theorem pollsOf_eq_nil {ks : List (MainAction F)} (h : ∀ k ∈ ks, k.tearsDown = true) :
    pollsOf ks = [] := by
  refine List.filterMap_eq_nil_iff.2 fun k hk => ?_
  have hends := h k hk
  cases k with
  | poll x => cases hends
  | _ => rfl

namespace MainThread

variable {ks : List (MainAction F)} {w : MainThread F}

theorem Polled.polls {p : Poller F} (h : Polled l ks p) :
    ∃ ns, Poller.Reached l.mode l.captureType l.stream ns (pollsOf ks) p := by
  obtain ⟨ns, xs, rfl, hruns⟩ := h
  refine ⟨ns, ?_⟩
  have hpolls : pollsOf (.constructed ns :: xs.map .poll : List (MainAction F)) = xs := by
    rw [pollsOf, List.filterMap_cons_none rfl, List.filterMap_map]
    exact List.filterMap_some
  rwa [pollsOf_append, pollsOf_setup, hpolls]

theorem Destroyed.polls {rest : List Teardown} {code : Int} (h : Destroyed l ks rest code) :
    ∃ ns p, Poller.Reached l.mode l.captureType l.stream ns (pollsOf ks) p ∧ Left p code := by
  obtain ⟨polled, p, ends, rfl, hpolled, hleft, hends, -⟩ := h
  obtain ⟨ns, hruns⟩ := hpolled.polls
  refine ⟨ns, p, ?_, hleft⟩
  have hnone : pollsOf (.left code :: ends : List (MainAction F)) = [] :=
    show pollsOf ends = [] from pollsOf_eq_nil hends
  rwa [pollsOf_append, hnone, List.append_nil]

theorem Failed.polls {s : Setup} (h : Failed l ks s) : pollsOf ks = [] := by
  obtain ⟨done, rest, -, -, rfl⟩ := h
  rw [pollsOf_append, pollsOf_setup]
  rfl

end MainThread

/-- The polls of a process are a run of the main thread as the diagnostics see it, whatever the
other threads do. They are made of a whole driver, and what `main` returns says how they ended. -/
theorem process_polls (h : Ran l as c) :
    ∃ ns p, Poller.Reached l.mode l.captureType l.stream ns (pollsOf (Crew.ownerActions as)) p ∧
      (∀ p', c.owner.phase = .polling p' → p' = p) ∧
      (∀ x, .owner (.poll x) ∈ as → ∀ s ∈ l.constructor, .owner (.setup s) ∈ as) ∧
      ∀ code, c.owner.phase = .exited code → MainThread.Left p code ∨
        code = 1 ∧ p = .initial ns ∧ pollsOf (Crew.ownerActions as) = [] ∧
          ∃ s, .owner (.threw s) ∈ as := by
  have hhistory := h.history
  generalize hks : Crew.ownerActions as = ks at hhistory
  have hmem : ∀ k, .owner k ∈ as ↔ k ∈ ks := fun k => hks ▸ Crew.mem_ownerActions.symm
  simp only [hmem]
  obtain ⟨⟨phase, j⟩, ok, running, worker⟩ := c
  cases phase with
  | constructing rest =>
    obtain ⟨done, hdone, rfl, -⟩ := hhistory
    rw [pollsOf_setup]
    exact ⟨0, _, .start, by simp, by simp, by simp⟩
  | polling p =>
    obtain ⟨ns, hruns⟩ := hhistory.1.polls
    exact ⟨ns, p, hruns, by simp, fun _ _ s hs => hhistory.1.setup hs, by simp⟩
  | destroying rest code =>
    obtain ⟨ns, p, hruns, -⟩ := hhistory.1.polls
    exact ⟨ns, p, hruns, by simp, fun _ _ s hs => hhistory.1.setup hs, by simp⟩
  | exited code =>
    obtain ⟨-, ⟨rfl, s, hfailed, -⟩ | ⟨ks', rfl, hdestroyed⟩⟩ := hhistory
    · rw [hfailed.polls]
      obtain ⟨done, rest, -, -, rfl⟩ := hfailed
      exact ⟨0, _, .start, by simp, by simp, by simp⟩
    · obtain ⟨ns, p, hruns, hleft⟩ := hdestroyed.polls
      refine ⟨ns, p, ?_, by simp, fun _ _ s hs => ?_, ?_⟩
      · have hexit : pollsOf ([.exit code] : List (MainAction F)) = [] := rfl
        rwa [pollsOf_append, hexit, List.append_nil]
      · exact List.mem_append_left _ (hdestroyed.setup hs)
      · rintro code' hcode
        cases hcode
        exact .inl hleft
  | terminated =>
    obtain ⟨s, hfailed, -⟩ := hhistory
    rw [hfailed.polls]
    obtain ⟨done, rest, -, -, rfl⟩ := hfailed
    exact ⟨0, _, .start, by simp, by simp, by simp⟩

/-! ### A process that comes to its end -/

omit [Arith F] in
theorem pollsOf_ownerActions_append (as bs : List (CrewAction (MainAction F) Background)) :
    pollsOf (Crew.ownerActions (as ++ bs)) =
      pollsOf (Crew.ownerActions as) ++ pollsOf (Crew.ownerActions bs) := by
  rw [Crew.ownerActions, List.filterMap_append, pollsOf_append]
  rfl

/-- Steps of polls that find `ros::ok()` true. -/
theorem exists_polled {xs : List (PollAction F)} {p : Poller F} {ns : Nat}
    (h : Poller.Reached l.mode l.captureType l.stream ns xs p)
    (hxs : ∀ x ∈ xs, x.okAnswer ≠ some false) :
    ∃ as c, Ran l as c ∧ c.owner.phase = .polling p ∧ Waiting c ∧
      pollsOf (Crew.ownerActions as) = xs := by
  induction h with
  | start =>
    obtain ⟨c, hran, hphase, hwaiting⟩ := exists_polling l ns
    refine ⟨_, c, hran, hphase, hwaiting, ?_⟩
    simp [pollsOf, Crew.ownerActions, CrewAction.ofOwner, MainAction.polled]
  | @after xs x p p' _ hs ih =>
    obtain ⟨as, ⟨⟨phase, j⟩, ok, running, worker⟩, hran, hphase, hwaiting, hpolls⟩ :=
      ih fun y hy => hxs y (List.mem_append_left _ hy)
    obtain rfl : phase = .polling p := hphase
    obtain rfl : ok = true := hwaiting.ok
    have hok : ∀ answer, x.okAnswer = some answer → answer = true := by
      rintro (_ | _) hanswer
      · exact absurd hanswer (hxs x (by simp))
      · rfl
    refine ⟨_, _, hran.stepped (.poll hok hs) (by simp), rfl, ⟨rfl, hwaiting.worker⟩, ?_⟩
    rw [pollsOf_ownerActions_append, hpolls]
    rfl

/-- A statement of the destructor that joins a thread, and the end of the thread. -/
theorem exists_joined {b : Background} {rest : List Teardown} {code : Int} (h : Ran l as c)
    (hphase : c.owner.phase = .destroying (.join b :: rest) code) (hok : c.ok = false)
    (hworker : ∀ b, (c.worker b).present = true → c.worker b = .atOk) :
    ∃ bs c', Ran l (as ++ bs) c' ∧ c'.owner.phase = .destroying rest code ∧ c'.ok = false ∧
      (∀ b, (c'.worker b).present = true → c'.worker b = .atOk) ∧
      pollsOf (Crew.ownerActions bs) = [] := by
  have hpresent := h.present_eq b
  obtain ⟨⟨phase, j⟩, ok, running, worker⟩ := c
  obtain rfl : phase = .destroying (.join b :: rest) code := hphase
  obtain rfl : ok = false := hok
  dsimp only at hpresent hworker
  cases hj : j b with
  | false =>
    exact ⟨_, _, h.stepped (.skip hj) (by simp), rfl, rfl, hworker, rfl⟩
  | true =>
    have hwaits := hworker b (hpresent.trans hj)
    have hend : Crew.Step (process l) ⟨⟨.destroying (.join b :: rest) code, j⟩, false, running,
        worker⟩ (.worker b .left) _ := .worker rfl (by
      show Worker.Step false (running b) (worker b) .left .finished
      rw [hwaits]
      exact .notOk rfl)
    have hjoin : Crew.Step (process l) ⟨⟨.destroying (.join b :: rest) code, j⟩, false, running,
        Function.update worker b .finished⟩ (.owner (.joined b)) _ := .owner (.join hj) (by
      intro i hi
      cases hi
      exact Function.update_self ..)
    have hboth := (h.after hend).after hjoin
    rw [List.append_assoc] at hboth
    refine ⟨_, _, hboth, rfl, rfl, fun b' hb' => ?_, rfl⟩
    by_cases hbb : b' = b
    · subst hbb
      have hgone : (Function.update (Function.update worker b' .finished) b' .joined b').present =
          true := hb'
      rw [Function.update_self] at hgone
      cases hgone
    · have hsame : Function.update (Function.update worker b .finished) b .joined b' =
          worker b' := by rw [Function.update_of_ne hbb, Function.update_of_ne hbb]
      exact hsame.trans (hworker b' (hsame ▸ hb'))

/-- The node is told to stop between two polls. -/
theorem exists_exited {xs : List (PollAction F)} {m : SharedMembers} {ns : Nat}
    (h : Poller.Reached l.mode l.captureType l.stream ns xs ⟨m, .mainLoop⟩)
    (hxs : ∀ x ∈ xs, x.okAnswer ≠ some false) :
    ∃ as c, Ran l as c ∧ c.owner.phase = .exited 0 ∧
      pollsOf (Crew.ownerActions as) = xs ++ [.mainOk false] := by
  obtain ⟨as, ⟨⟨phase, j⟩, ok, running, worker⟩, hran, hphase, hwaiting, hpolls⟩ :=
    exists_polled h hxs
  obtain rfl : phase = .polling ⟨m, .mainLoop⟩ := hphase
  have htold : Ran l (as ++ [.shutdown]) ⟨⟨.polling ⟨m, .mainLoop⟩, j⟩, false, running, worker⟩ :=
    hran.after .shutdown
  have hanswer : ∀ answer, (.mainOk false : PollAction F).okAnswer = some answer →
      answer = false := fun _ h => (Option.some.inj h).symm
  have hleft := htold.stepped (.poll hanswer .leave) (by simp)
  have hcleared := ((hleft.stepped .finished (by simp)).stepped .clear (by simp)).stepped .clear
    (by simp)
  obtain ⟨bs, c, hran, hphase, hok, hworker, hnone⟩ :=
    exists_joined hcleared rfl rfl hwaiting.worker
  obtain ⟨bs', ⟨⟨phase, j⟩, ok, running, worker⟩, hran, hphase, -, -, hnone'⟩ :=
    exists_joined hran hphase hok hworker
  obtain rfl : phase = .destroying [] 0 := hphase
  refine ⟨_, _, hran.stepped .exit (by simp), rfl, ?_⟩
  simp only [pollsOf_ownerActions_append, hpolls, hnone, hnone']
  simp [pollsOf, Crew.ownerActions, CrewAction.ofOwner, MainAction.polled, List.filterMap_cons]

noncomputable def switchedLaunch : Launch ℝ := launchOf _ sound_switchedConfig

/-- A process that makes one poll, is told to stop and ends. -/
theorem process_polls_switched : ∃ as c ns p, Ran switchedLaunch as c ∧
    c.owner.phase = .exited 0 ∧ Poller.Reached .udp .single switchedLaunch.stream ns
      (pollsOf (Crew.ownerActions as)) p ∧
    publishedScans (pollsOf (Crew.ownerActions as)) = 1 ∧ MainThread.Left p 0 := by
  obtain ⟨xs, m, hpoll, -, hok, hpublished⟩ := Poller.exists_single_poll switchedLaunch.stream 1
  obtain ⟨as, c, hran, hphase, hpolls⟩ := @exists_exited _ _ switchedLaunch _ _ _ hpoll hok
  obtain ⟨ns, p, hreached, -, -, hleft⟩ := process_polls hran
  refine ⟨as, c, ns, p, hran, hphase, hreached, ?_, ?_⟩
  · rw [hpolls, publishedScans, List.countP_append]
    exact hpublished
  · rcases hleft 0 hphase with hleft | ⟨hcode, -⟩
    · exact hleft
    · cases hcode

/-! ## `std::terminate` -/

/-- The constructor throws while it sets up the diagnostics. -/
def Launch.late (l : Launch F) (s : Setup) : Prop :=
  s.throws = true ∧ s ∈ l.setupOf .diagnostics

theorem late_notMem (l : Launch F) {s : Setup} (h : l.late s) :
    s ∉ beforeStart l .safetyDebug ++ [.start .safetyDebug] := by
  obtain ⟨hthrows, hmem⟩ := h
  rw [Launch.setupOf] at hmem
  split at hmem
  · simp only [Launch.topics, List.map_cons, List.map_nil, List.mem_append, List.mem_cons,
      List.not_mem_nil, or_false] at hmem
    rcases hmem with rfl | rfl | rfl
    · simp [beforeStart, Launch.topics, Launch.scanTopic, Launch.pointcloudTopic]
    · cases hthrows
    · simp [beforeStart]
  · cases hmem

/-- The safety thread has been started where the constructor throws late. -/
theorem start_mem_of_late {s : Setup} {done rest : List Setup}
    (hdone : l.constructor = done ++ s :: rest) (hlate : l.late s)
    (hsafety : l.enabled .safetyDebug = true) : .start .safetyDebug ∈ done := by
  obtain ⟨behind, hbehind⟩ := constructor_eq hsafety
  have hbefore : beforeStart l .safetyDebug ++ [.start .safetyDebug] <+: l.constructor :=
    ⟨behind, by simp [hbehind]⟩
  have hcut : done ++ [s] <+: l.constructor := ⟨rest, by simp [hdone]⟩
  have hnot := late_notMem l hlate
  rcases List.prefix_or_prefix_of_prefix hbefore hcut with hle | hle
  · have hstart : .start .safetyDebug ∈ done ++ [s] := hle.subset (by simp)
    rcases List.mem_append.1 hstart with hold | hnew
    · exact hold
    · obtain rfl : s = .start .safetyDebug := by simpa [eq_comm] using hnew
      exact absurd (by simp) hnot
  · exact absurd (hle.subset (by simp)) hnot

/-- Behind the start of a thread only the diagnostics are left to set up. -/
theorem late_of_start {b : Background} {s : Setup} {done rest : List Setup}
    (hdone : l.constructor = done ++ s :: rest) (hthrows : s.throws = true)
    (hb : .start b ∈ done) : l.enabled .safetyDebug = true ∧ l.late s := by
  have hstart : .start b ∈ l.constructor := hdone ▸ List.mem_append_left _ hb
  cases b with
  | diagnostics =>
    -- the last statement of the constructor
    have hlast : l.constructor = beforeStart l .diagnostics ++ [.start .diagnostics] := by
      simp [Launch.constructor, Launch.setupOf, beforeStart, start_mem_constructor.1 hstart]
    have hdone' : done <+: beforeStart l .diagnostics ++ [.start .diagnostics] :=
      hlast ▸ ⟨s :: rest, hdone.symm⟩
    rcases List.prefix_concat_iff.1 hdone' with hall | hle
    · rw [hlast, hall] at hdone
      simp at hdone
    · exact absurd (hle.subset hb) (start_notMem_beforeStart l .diagnostics)
  | safetyDebug =>
    have hsafety := start_mem_constructor.1 hstart
    refine ⟨hsafety, hthrows, ?_⟩
    have hcut : beforeStart l .safetyDebug ++ [.start .safetyDebug] ++ l.setupOf .diagnostics =
        done ++ s :: rest := by
      rw [← hdone]
      simp [Launch.constructor, Launch.setupOf, beforeStart, hsafety]
    rcases List.append_eq_append_iff.1 hcut with ⟨as, -, h⟩ | ⟨cs, h, h'⟩
    · rw [h]
      simp
    · rcases List.prefix_concat_iff.1 ⟨cs, h.symm⟩ with hall | hle
      · obtain rfl : cs = [] := by simpa [hall] using h
        rw [show l.setupOf .diagnostics = s :: rest from h'.symm]
        exact List.mem_cons_self
      · exact absurd (hle.subset hb) (start_notMem_beforeStart l .safetyDebug)

namespace MainThread

variable {ks : List (MainAction F)} {w : MainThread F} {s : Setup}

theorem Polled.not_threw {p : Poller F} (h : Polled l ks p) : .threw s ∉ ks := by
  obtain ⟨ns, xs, rfl, -⟩ := h
  simp

theorem Destroyed.not_threw {rest : List Teardown} {code : Int}
    (h : Destroyed l ks rest code) : .threw s ∉ ks := by
  obtain ⟨polled, p, ends, rfl, hpolled, -, hends, -⟩ := h
  intro hmem
  rcases List.mem_append.1 hmem with hold | hnew
  · exact hpolled.not_threw hold
  · rcases List.mem_cons.1 hnew with hleft | hend
    · cases hleft
    · cases hends _ hend

theorem Failed.eq {s' : Setup} (h : Failed l ks s') (hs : .threw s ∈ ks) : s = s' := by
  obtain ⟨done, rest, -, -, rfl⟩ := h
  simpa using hs

/-- A constructor that throws is the end of the process. -/
theorem History.threw (h : History l ks w) (hs : .threw s ∈ ks) :
    Failed l ks s ∧ (w.phase = .terminated ∨
      w.phase = .exited 1 ∧ ∀ b, .setup (.start b) ∉ ks) := by
  obtain ⟨phase, j⟩ := w
  cases phase with
  | constructing rest =>
    obtain ⟨done, -, rfl, -⟩ := h
    simp at hs
  | polling p => exact absurd hs h.1.not_threw
  | destroying rest code => exact absurd hs h.1.not_threw
  | exited code =>
    obtain ⟨-, ⟨rfl, s', hfailed, hnone⟩ | ⟨ks', rfl, hdestroyed⟩⟩ := h
    · obtain rfl := hfailed.eq hs
      exact ⟨hfailed, .inr ⟨rfl, hnone⟩⟩
    · exact absurd (by simpa using hs) hdestroyed.not_threw
  | terminated =>
    obtain ⟨s', hfailed, -⟩ := h
    obtain rfl := hfailed.eq hs
    exact ⟨hfailed, .inl rfl⟩

end MainThread

/-- The process is aborted exactly if the constructor throws while it sets up the diagnostics,
behind the start of the safety thread. Wherever else it throws, `main` returns 1. -/
theorem terminated_iff (h : Ran l as c) :
    (c.owner.phase = .terminated ↔
      l.options.safetyDebug = true ∧ ∃ s, .owner (.threw s) ∈ as ∧ l.late s) ∧
    ∀ s, .owner (.threw s) ∈ as → c.owner.phase ≠ .terminated → c.owner.phase = .exited 1 := by
  have hhistory := h.history
  refine ⟨⟨fun hphase => ?_, ?_⟩, fun s hs hphase => ?_⟩
  · rw [MainThread.History, hphase] at hhistory
    obtain ⟨s, ⟨done, rest, hdone, hthrows, hks⟩, ⟨b, hb⟩, hstarted⟩ := hhistory
    have hstart : .start b ∈ done := by
      have hmem := hstarted b hb
      rw [hks] at hmem
      simpa using hmem
    obtain ⟨hsafety, hlate⟩ := late_of_start hdone hthrows hstart
    refine ⟨hsafety, s, Crew.mem_ownerActions.1 ?_, hlate⟩
    rw [hks]
    simp
  · rintro ⟨hsafety, s, hs, hlate⟩
    obtain ⟨⟨done, rest, hdone, -, hks⟩, hphase | ⟨-, hnone⟩⟩ :=
      hhistory.threw (Crew.mem_ownerActions.2 hs)
    · exact hphase
    · refine absurd ?_ (hnone .safetyDebug)
      rw [hks]
      exact List.mem_append_left _
        (List.mem_map_of_mem (start_mem_of_late hdone hlate hsafety))
  · obtain ⟨-, hterminated | ⟨hexited, -⟩⟩ := hhistory.threw (Crew.mem_ownerActions.2 hs)
    · exact absurd hterminated hphase
    · exact hexited

def debugTopic : Topic := ⟨"diagnostics", .diagnosticArray, 1, true⟩

noncomputable def debugSetup : List Setup :=
  beforeStart debugLaunch .safetyDebug ++ [.start .safetyDebug]

/-- The topic of the diagnostics cannot be advertised. -/
theorem terminated_iff_debug : ∃ as c, Ran debugLaunch as c ∧ c.owner.phase = .terminated := by
  obtain ⟨⟨⟨phase, j⟩, ok, running, worker⟩, hran, hphase, -⟩ := exists_setup
    (show debugLaunch.constructor = debugSetup ++ debugLaunch.setupOf .diagnostics from rfl)
  obtain rfl : phase = .constructing (debugLaunch.setupOf .diagnostics) := hphase
  have hall := hran.stepped (k := .threw (.advertise debugTopic)) (.threw rfl) (by simp)
  have hthrew := List.mem_append_right (debugSetup.map fun s => .owner (.setup s))
    (List.mem_singleton_self
      (.owner (.threw (.advertise debugTopic)) : CrewAction (MainAction ℝ) Background))
  exact ⟨_, _, hall, (terminated_iff hall).1.2 ⟨rfl, _, hthrew, rfl, List.mem_cons_self⟩⟩

end Process

end Main

end MechLidar
