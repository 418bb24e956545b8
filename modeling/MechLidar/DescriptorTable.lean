import MechLidar.Descriptors
import MechLidar.Exchange
import MechLidar.Lib.Owners

/-!
# MechLidar.DescriptorTable

The descriptors of the process: those of the `receiver_socket`, on the main thread, and those of the
requests that the safety thread makes. A descriptor that one thread has closed may be given to the
other one at once.

* `lifeCalls`: the calls of a `receiver_socket` from its constructor to its destructor
* `requestsCalls`: the calls of one request after the other
* `descriptors_apart`: no thread gets hold of a descriptor of the other one, in any interleaving
-/

namespace MechLidar

open Lib

/-! ## The main thread -/

namespace SocketObject

/-- The calls of a whole life. -/
def lifeCalls (inetPton : String → Option UInt32) (ipAddr : String) (port : Int) (k : OpenCalls)
    (ops : List Operation) : List Call :=
  constructCalls inetPton ipAddr k ++
    match construct inetPton ipAddr port k with
    | .error _ => []
    | .ok s => s.allCalls ops ++ closeCalls (s.operateAll ops).toReceiverSocket

theorem hold_lifeCalls (inetPton : String → Option UInt32) (ipAddr : String) (port : Int)
    (k : OpenCalls) (ops : List Operation) :
    hold ∅ (lifeCalls inetPton ipAddr port k ops) = some ∅ := by
  rw [lifeCalls, construct_eq]
  cases haddr : expectedAddr inetPton ipAddr with
  | none =>
    have hnone : constructCalls inetPton ipAddr k = [] := by
      rw [expectedAddr] at haddr
      split at haddr
      · next hfilter => exact if_pos ⟨hfilter, haddr⟩
      · cases haddr
    rw [hnone]
    rfl
  | some addr =>
    have hheld := hold_openCalls (s := initial ipAddr port addr) k
    rw [← constructCalls_eq haddr k] at hheld
    dsimp only
    rw [hold_append hheld]
    rcases openSocket_cases (initial ipAddr port addr) k with
      ⟨e, hfailed, hclosed, -, -⟩ | ⟨d, -, -, hopen⟩
    · rw [show (initial ipAddr port addr).openSocket k = (some e, _) from Prod.ext hfailed rfl]
      exact congrArg some (owned_closed hclosed)
    · rw [hopen]
      have hsound := sound_openedAt (initial ipAddr port addr) d
      dsimp only
      rw [hold_append (hold_operateAll hsound ops), hold_closeCalls]

end SocketObject

/-! ## The safety thread -/

/-- A `get`, with the answers of its system calls. -/
structure Get (c : HttpClient) where
  path : Bytes
  answers : SystemAnswers
  size : (requestText c (bytes "GET") path []).length < 2 ^ 64
  kernel : KernelAnswers (sendLoop ⟨requestText c (bytes "GET") path [], size⟩ 0 answers.send).1

namespace Get

variable {c : HttpClient}

def routine (g : Get c) : Routine ExchangeCall HttpError HttpResponse :=
  c.requestCalls (bytes "GET") g.path [] g.size g.answers

theorem exchanged (g : Get c) :
    Exchanged (requestText c (bytes "GET") g.path []) g.routine.result g.routine.calls := by
  rw [routine, HttpClient.requestCalls]
  split
  · exact ⟨fun _ _ => rfl, by simp [Routine.throw], List.nil_prefix, AtRecv.nil,
      by simp [Routine.throw]⟩
  · exact exchange_exchanged c ⟨_, g.size⟩ requestReader [] g.answers g.kernel [] rfl

/-- Behind a request that waits nothing is done. -/
def requestsCalls : List (Get c) → List (Lib.Event Nat)
  | [] => []
  | g :: gs => handles g.routine.calls ++ if g.routine.result = none then [] else requestsCalls gs

theorem hold_requestsCalls (gs : List (Get c)) :
    ∃ held, hold ∅ (requestsCalls gs) = some held ∧
      ((∀ g ∈ gs, g.routine.result ≠ none) → held = ∅) := by
  induction gs with
  | nil => exact ⟨∅, rfl, fun _ => rfl⟩
  | cons g gs ih =>
    obtain ⟨held, hheld, hended⟩ := ih
    have hexchanged := g.exchanged
    rw [requestsCalls]
    cases hresult : g.routine.result with
    | none =>
      obtain ⟨d, hd⟩ := hexchanged.waiting hresult
      refine ⟨{d}, by simpa using hd, fun hall => ?_⟩
      exact absurd hresult (hall g List.mem_cons_self)
    | some r =>
      refine ⟨held, ?_, fun hall => hended fun g hg => hall g (List.mem_cons_of_mem _ hg)⟩
      simpa [hold_append (hexchanged.closed r hresult)] using hheld

end Get

/-! ## Both -/

/-- The threads that make calls on descriptors. -/
inductive SocketThread where
  | main
  | safetyDebug
deriving DecidableEq, Repr

/-- The kernel gives out no descriptor that is open. Then each thread uses and closes none but those
that it has opened itself, whatever the order of the calls and whatever of them fails; and when the
socket is destroyed and the last request is over, none is left open. -/
theorem descriptors_apart {inetPton : String → Option UInt32} {ipAddr : String} {port : Int}
    {k : OpenCalls} {ops : List SocketObject.Operation} {c : HttpClient} {gs : List (Get c)}
    {es : List (SocketThread × Call)} (hfresh : Fresh es)
    (hmain : doneBy .main es <+: SocketObject.lifeCalls inetPton ipAddr port k ops)
    (hsafety : doneBy .safetyDebug es <+: (Get.requestsCalls gs).map (Event.map Nat.cast)) :
    hold ∅ (es.map Prod.snd) = some (openAfter es) ∧
    (∀ before t e after d, es = before ++ (t, e) :: after → e = .use d ∨ e = .release d →
      ∃ held, hold ∅ (doneBy t before) = some held ∧ d ∈ held ∧
        ∀ t' held', t' ≠ t → hold ∅ (doneBy t' before) = some held' → d ∉ held') ∧
    (doneBy .main es = SocketObject.lifeCalls inetPton ipAddr port k ops →
      doneBy .safetyDebug es = (Get.requestsCalls gs).map (Event.map Nat.cast) →
      (∀ g ∈ gs, g.routine.result ≠ none) → openAfter es = ∅) := by
  have hcast : Function.Injective (Nat.cast : Nat → Int) := Nat.cast_injective
  obtain ⟨requested, hrequested, hended⟩ := Get.hold_requestsCalls gs
  have hmapped := hold_map hcast hrequested
  rw [Finset.image_empty] at hmapped
  have hheld : ∀ t, ∃ held, hold ∅ (doneBy t es) = some held := by
    intro t
    cases t with
    | main => exact hold_of_prefix hmain (SocketObject.hold_lifeCalls inetPton ipAddr port k ops)
    | safetyDebug => exact hold_of_prefix hsafety hmapped
  choose held hall using hheld
  obtain ⟨htable, hapart⟩ := hold_owners hfresh hall
  refine ⟨htable, ?_, fun hlife hrequests hresults => ?_⟩
  · intro before t e after d hes he
    obtain ⟨held, hbefore, -, hown⟩ := owners_apart hfresh (fun t => ⟨_, hall t⟩) hes
    obtain ⟨hd, hothers⟩ := hown d he
    refine ⟨held t, hbefore t, hd, fun t' held' ht' hheld' => ?_⟩
    obtain rfl : held t' = held' := Option.some.inj ((hbefore t').symm.trans hheld')
    exact hothers t' ht'
  · have hmainHeld : held .main = ∅ := by
      have hmain := hall .main
      rw [hlife, SocketObject.hold_lifeCalls] at hmain
      exact (Option.some.inj hmain).symm
    have hsafetyHeld : held .safetyDebug = ∅ := by
      have hsafety := hall .safetyDebug
      rw [hrequests, hmapped, hended hresults] at hsafety
      exact (Option.some.inj hsafety).symm
    refine Finset.eq_empty_of_forall_notMem fun d hd => ?_
    obtain ⟨t, ht⟩ := (hapart.open_iff d).1 hd
    cases t with
    | main => simp [hmainHeld] at ht
    | safetyDebug => simp [hsafetyHeld] at ht

/-! ### A descriptor that is reused -/

def opensAt (descriptor : Nat) : OpenCalls := ⟨.ok descriptor, none, none, none, none⟩

/-- The second address answers. -/
def plainGet : Get plainClient where
  path := bytes "/z"
  answers := plainAnswers
  size := by decide
  kernel := by decide

def reopenedLife : List Call :=
  SocketObject.lifeCalls (fun _ => none) "" 2368 (opensAt 5) [.reopen (opensAt 7)]

/-- The socket is opened again while a request has its old descriptor. -/
def reusedCalls : List (SocketThread × Call) :=
  (reopenedLife.take 6).map (Prod.mk .main) ++
    ((Get.requestsCalls [plainGet]).map fun e => (.safetyDebug, e.map Nat.cast)) ++
    (reopenedLife.drop 6).map (Prod.mk .main)

theorem descriptors_apart_reused : (.safetyDebug, .use 5) ∈ reusedCalls ∧
    (.main, .release 5) ∈ reusedCalls ∧ openAfter reusedCalls = ∅ := by
  have hall : hold ∅ (reusedCalls.map Prod.snd) = some ∅ := by decide
  have hmain : doneBy .main reusedCalls = reopenedLife := by decide
  have hsafety : doneBy .safetyDebug reusedCalls =
      (Get.requestsCalls [plainGet]).map (Event.map Nat.cast) := by decide
  have hended : ∀ g ∈ [plainGet], g.routine.result ≠ none := by decide
  refine ⟨by decide, by decide, ?_⟩
  exact (descriptors_apart (fresh_of_hold hall) (hmain ▸ List.prefix_rfl)
    (hsafety ▸ List.prefix_rfl)).2.2 hmain hsafety hended

end MechLidar
