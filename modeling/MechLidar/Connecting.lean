import MechLidar.Descriptors
import MechLidar.Http

/-!
# MechLidar.Connecting

`HttpClient::connect_socket` (`http_client.cpp`) with its system calls. The addresses that
`getaddrinfo` has found are the input, each with the answers of the system calls on it.

* `connectSteps`, `timeoutSteps`: the calls on a descriptor, each with the error it leads to
* `tryAddress`: one pass of the loop, with the `close` of `socket_fd` at its end
* `connectSocket`: the calls in their order, and the descriptor or what is thrown
* `settings`: what the calls have made of a descriptor
* `tryAddress_cases`: the three ends of a pass
* `connectSocket_owned`: what is open, and what was tried, when the function is left
-/

namespace MechLidar

open Lib

def ETIMEDOUT : Nat := 110
def EINPROGRESS : Nat := 115
def O_NONBLOCK : Nat := 2048

/-- `addrinfo`, as far as the loop reads it. -/
structure AddrInfo where
  aiFamily : Int
  aiSocktype : Int
  aiProtocol : Int
  aiAddr : Bytes
deriving DecidableEq, Repr

structure Timeval where
  tvSec : Int
  tvUsec : Int
deriving DecidableEq, Repr

/-- The answer of `poll`, for a descriptor that is ready, after the timeout, or with `errno`. -/
inductive PollAnswer where
  | ready
  | timeout
  | failed (errno : Nat)
deriving DecidableEq, Repr

/-- The answers for one address: a descriptor with its flags, and `none` for success. -/
structure ConnectAnswers where
  socket : Except Nat Nat
  flags : Nat
  getFlags : Option Nat
  setNonBlock : Option Nat
  connect : Option Nat
  poll : PollAnswer
  getError : Option Nat
  /-- `SO_ERROR`, zero for success. -/
  connectError : Nat
  restoreFlags : Option Nat
  receiveTimeout : Option Nat
  sendTimeout : Option Nat

/-! ## Calls -/

/-- A system call on a descriptor. -/
inductive SocketOp where
  | getFlags
  | setFlags (flags : Nat)
  | connect (address : Bytes)
  | poll (timeoutMs : Int)
  | getError
  | setReceiveTimeout (tv : Timeval)
  | setSendTimeout (tv : Timeval)
deriving DecidableEq, Repr

inductive SocketCall where
  /-- The descriptor and its flags, none if the call fails. -/
  | socket (address : AddrInfo) (opened : Option (Nat × Nat))
  | use (descriptor : Nat) (op : SocketOp) (ok : Bool)
  | close (descriptor : Nat)
deriving DecidableEq, Repr

/-- What the calls of a list lead to, up to the first error. -/
def firstError : List (SocketOp × Option SystemError) → Option SystemError
  | [] => none
  | (_, some e) :: _ => some e
  | (_, none) :: steps => firstError steps

def callsUntilError (descriptor : Nat) : List (SocketOp × Option SystemError) → List SocketCall
  | [] => []
  | (op, some _) :: _ => [.use descriptor op false]
  | (op, none) :: steps => .use descriptor op true :: callsUntilError descriptor steps

/-! ## The source -/

/-- `timeval` of a number of milliseconds. -/
def timeval (timeoutMs : Int) : Timeval where
  tvSec := timeoutMs.tdiv 1000
  tvUsec := timeoutMs.tmod 1000 * 1000

def failedWith (whatArg : String) (answer : Option Nat) : Option SystemError :=
  answer.map fun errno => ⟨errno, whatArg⟩

/-- From `fcntl(F_GETFL)` to the last `fcntl(F_SETFL)`. -/
def connectSteps (timeoutMs : Int) (ai : AddrInfo) (k : ConnectAnswers) :
    List (SocketOp × Option SystemError) :=
  [(.getFlags, failedWith "fcntl(O_NONBLOCK) failed" k.getFlags),
   (.setFlags (k.flags ||| O_NONBLOCK), failedWith "fcntl(O_NONBLOCK) failed" k.setNonBlock),
   (.connect ai.aiAddr,
    if k.connect = some EINPROGRESS then none else failedWith "connect() failed" k.connect),
   (.poll timeoutMs,
    match k.poll with
    | .ready => none
    | .timeout => some ⟨ETIMEDOUT, ""⟩
    | .failed errno => some ⟨errno, "poll() failed"⟩),
   (.getError,
    match k.getError with
    | some errno => some ⟨errno, "getsockopt(SO_ERROR) failed"⟩
    | none => if k.connectError ≠ 0 then some ⟨k.connectError, "connect() failed"⟩ else none),
   (.setFlags k.flags, failedWith "fcntl(restore flags) failed" k.restoreFlags)]

/-- `set_timeout`. -/
def timeoutSteps (timeoutMs : Int) (k : ConnectAnswers) : List (SocketOp × Option SystemError) :=
  [(.setReceiveTimeout (timeval timeoutMs),
    failedWith "setsockopt(timeout) failed" k.receiveTimeout),
   (.setSendTimeout (timeval timeoutMs), failedWith "setsockopt(timeout) failed" k.sendTimeout)]

/-- How a pass of the loop ends: with `continue`, with an exception or with `return`. -/
inductive AddressOutcome where
  | failed (lastError : SystemError)
  | threw (e : SystemError)
  | connected (descriptor : Nat)

/-- `socket_fd` closes the descriptor wherever the pass ends, but for the `return`. -/
def tryAddress (timeoutMs : Int) (ai : AddrInfo) (k : ConnectAnswers) :
    List SocketCall × AddressOutcome :=
  match k.socket with
  | .error errno => ([.socket ai none], .failed ⟨errno, "socket() failed"⟩)
  | .ok descriptor =>
    let calls := .socket ai (some (descriptor, k.flags)) ::
      callsUntilError descriptor (connectSteps timeoutMs ai k)
    match firstError (connectSteps timeoutMs ai k) with
    | some e => (calls ++ [.close descriptor], .failed e)
    | none =>
      let calls := calls ++ callsUntilError descriptor (timeoutSteps timeoutMs k)
      match firstError (timeoutSteps timeoutMs k) with
      | some e => (calls ++ [.close descriptor], .threw e)
      | none => (calls, .connected descriptor)

def connectLoop (timeoutMs : Int) (lastError : SystemError) :
    List (AddrInfo × ConnectAnswers) → List SocketCall × Except SystemError Nat
  | [] => ([], .error lastError)
  | (ai, k) :: addresses =>
    match tryAddress timeoutMs ai k with
    | (calls, .failed e) =>
      let (rest, result) := connectLoop timeoutMs e addresses
      (calls ++ rest, result)
    | (calls, .threw e) => (calls, .error e)
    | (calls, .connected descriptor) => (calls, .ok descriptor)

/-- `getaddrinfo` finds addresses, or fails with the message of `gai_strerror`. The loop begins with
the `errno` of that moment. -/
def HttpClient.connectSocket (c : HttpClient) (errno : Nat)
    (getaddrinfo : Except Bytes (List (AddrInfo × ConnectAnswers))) :
    List SocketCall × Except HttpError Nat :=
  match getaddrinfo with
  | .error message => ([], .error (.runtimeError (bytes "getaddrinfo() failed: " ++ message)))
  | .ok addresses =>
    let (calls, result) := connectLoop c.mTimeoutMs ⟨errno, ""⟩ addresses
    (calls, result.mapError .system)

/-! ## What the calls do -/

/-- What a descriptor is, from `socket` to `close`. -/
structure Settings where
  flags : Nat
  receiveTimeout : Option Timeval
  sendTimeout : Option Timeval
deriving DecidableEq, Repr

def SocketOp.apply (s : Settings) : SocketOp → Settings
  | .setFlags flags => { s with flags }
  | .setReceiveTimeout tv => { s with receiveTimeout := some tv }
  | .setSendTimeout tv => { s with sendTimeout := some tv }
  | _ => s

def SocketCall.apply (descriptor : Nat) (s : Option Settings) : SocketCall → Option Settings
  | .socket _ (some (d, flags)) => if d = descriptor then some ⟨flags, none, none⟩ else s
  | .use d op true => if d = descriptor then s.map op.apply else s
  | .close d => if d = descriptor then none else s
  | _ => s

/-- Of a descriptor that is not open there is nothing to say. -/
def settings (descriptor : Nat) (calls : List SocketCall) : Option Settings :=
  calls.foldl (SocketCall.apply descriptor) none

def SocketCall.event : SocketCall → Option (Lib.Event Nat)
  | .socket _ none => none
  | .socket _ (some (d, _)) => some (.acquire d)
  | .use d _ _ => some (.use d)
  | .close d => some (.release d)

def events (calls : List SocketCall) : List (Lib.Event Nat) := calls.filterMap SocketCall.event

/-- The addresses for which a socket was asked. -/
def triedAddresses (calls : List SocketCall) : List AddrInfo :=
  calls.filterMap fun
    | .socket ai _ => some ai
    | _ => none

/-- Every step up to the timeouts has succeeded. -/
structure ConnectAnswers.Connects (k : ConnectAnswers) (descriptor : Nat) : Prop where
  socket : k.socket = .ok descriptor
  getFlags : k.getFlags = none
  setNonBlock : k.setNonBlock = none
  connect : k.connect = none ∨ k.connect = some EINPROGRESS
  poll : k.poll = .ready
  getError : k.getError = none
  connectError : k.connectError = 0
  restoreFlags : k.restoreFlags = none

structure ConnectAnswers.Succeeds (k : ConnectAnswers) (descriptor : Nat) : Prop
    extends k.Connects descriptor where
  receiveTimeout : k.receiveTimeout = none
  sendTimeout : k.sendTimeout = none

/-- The error that an address leaves behind for the next one. -/
def ConnectAnswers.lastError (k : ConnectAnswers) (timeoutMs : Int) (ai : AddrInfo) :
    Option SystemError :=
  match k.socket with
  | .error errno => some ⟨errno, "socket() failed"⟩
  | .ok _ => firstError (connectSteps timeoutMs ai k)

/-- What holds when the function returns a descriptor: it is that of the first address that
succeeds, and nothing else is open. -/
structure Returned (timeoutMs : Int) (addresses : List (AddrInfo × ConnectAnswers))
    (calls : List SocketCall) (descriptor : Nat) : Prop where
  first : ∃ before ai k after, addresses = before ++ (ai, k) :: after ∧ k.Succeeds descriptor ∧
    (∀ earlier ∈ before, ∀ d, ¬ earlier.2.Connects d) ∧
    triedAddresses calls = before.map Prod.fst ++ [ai] ∧
    settings descriptor calls =
      some ⟨k.flags, some (timeval timeoutMs), some (timeval timeoutMs)⟩
  owned : hold ∅ (events calls) = some {descriptor}

/-- What holds when it throws: nothing is open. -/
structure Thrown (timeoutMs : Int) (addresses : List (AddrInfo × ConnectAnswers))
    (calls : List SocketCall) (e : SystemError) : Prop where
  owned : hold ∅ (events calls) = some ∅
  closed : ∀ d, (events calls).count (.acquire d) = (events calls).count (.release d)
  error :
    (∃ before ai k after d, addresses = before ++ (ai, k) :: after ∧ k.Connects d ∧
      (k.receiveTimeout ≠ none ∨ k.sendTimeout ≠ none) ∧
      firstError (timeoutSteps timeoutMs k) = some e) ∨
    (triedAddresses calls = addresses.map Prod.fst ∧
      ∀ last ∈ addresses.getLast?, last.2.lastError timeoutMs last.1 = some e)

/-! ## Lists of calls -/

theorem firstError_eq_none {steps : List (SocketOp × Option SystemError)} :
    firstError steps = none ↔ ∀ step ∈ steps, step.2 = none := by
  fun_induction firstError steps with
  | case1 => simp
  | case2 => simp
  | case3 op steps ih => simpa using ih

@[simp] theorem events_append (calls rest : List SocketCall) :
    events (calls ++ rest) = events calls ++ events rest := List.filterMap_append ..

@[simp] theorem triedAddresses_append (calls rest : List SocketCall) :
    triedAddresses (calls ++ rest) = triedAddresses calls ++ triedAddresses rest :=
  List.filterMap_append ..

@[simp] theorem events_socket (ai : AddrInfo) (descriptor flags : Nat) (calls : List SocketCall) :
    events (.socket ai (some (descriptor, flags)) :: calls) =
      .acquire descriptor :: events calls := rfl

@[simp] theorem events_close (descriptor : Nat) :
    events [.close descriptor] = [.release descriptor] := rfl

@[simp] theorem triedAddresses_socket (ai : AddrInfo) (opened : Option (Nat × Nat))
    (calls : List SocketCall) :
    triedAddresses (.socket ai opened :: calls) = ai :: triedAddresses calls := rfl

@[simp] theorem triedAddresses_close (descriptor : Nat) :
    triedAddresses [.close descriptor] = [] := rfl

@[simp] theorem triedAddresses_callsUntilError (descriptor : Nat)
    (steps : List (SocketOp × Option SystemError)) :
    triedAddresses (callsUntilError descriptor steps) = [] := by
  fun_induction callsUntilError descriptor steps with
  | case1 => rfl
  | case2 => rfl
  | case3 op steps ih => exact ih

/-- Between `socket` and `close` a descriptor is only used. -/
theorem hold_callsUntilError (descriptor : Nat) (steps : List (SocketOp × Option SystemError))
    (es : List (Lib.Event Nat)) :
    hold {descriptor} (events (callsUntilError descriptor steps) ++ es) = hold {descriptor} es := by
  fun_induction callsUntilError descriptor steps with
  | case1 => rfl
  | case2 => exact hold_use (Finset.mem_singleton_self descriptor) es
  | case3 op steps ih => exact (hold_use (Finset.mem_singleton_self descriptor) _).trans ih

theorem callsUntilError_of_none {descriptor : Nat} {steps : List (SocketOp × Option SystemError)}
    (h : firstError steps = none) :
    callsUntilError descriptor steps = steps.map fun step => .use descriptor step.1 true := by
  fun_induction callsUntilError descriptor steps with
  | case1 => rfl
  | case2 => cases h
  | case3 op steps ih => rw [ih h, List.map_cons]

/-- Without an error the calls leave their settings behind. -/
theorem foldl_apply_uses (descriptor : Nat) (steps : List (SocketOp × Option SystemError))
    (s : Settings) :
    (steps.map fun step => SocketCall.use descriptor step.1 true).foldl
      (SocketCall.apply descriptor) (some s) =
        some (steps.foldl (fun s step => step.1.apply s) s) := by
  induction steps generalizing s with
  | nil => rfl
  | cons step steps ih =>
    rw [List.map_cons, List.foldl_cons, List.foldl_cons, ← ih]
    simp [SocketCall.apply]

/-- A descriptor has settings as long as it is held. -/
theorem isSome_foldl_apply (descriptor : Nat) {held held' : Finset Nat} {calls : List SocketCall}
    {s : Option Settings} (h : hold held (events calls) = some held')
    (hs : s.isSome = true ↔ descriptor ∈ held) :
    (calls.foldl (SocketCall.apply descriptor) s).isSome = true ↔ descriptor ∈ held' := by
  induction calls generalizing held s with
  | nil =>
    cases h
    exact hs
  | cons call calls ih =>
    cases call with
    | socket ai opened =>
      cases opened with
      | none => exact ih h hs
      | some opened =>
        obtain ⟨d, flags⟩ := opened
        obtain ⟨next, hnext, h⟩ := Option.bind_eq_some_iff.1 h
        simp only [Lib.Event.next, Option.ite_none_left_eq_some, Option.some.injEq] at hnext
        obtain ⟨-, rfl⟩ := hnext
        refine ih h ?_
        by_cases hd : d = descriptor
        · simp [SocketCall.apply, hd]
        · simp [SocketCall.apply, hd, hs, Ne.symm hd]
    | use d op ok =>
      obtain ⟨next, hnext, h⟩ := Option.bind_eq_some_iff.1 h
      simp only [Lib.Event.next, Option.ite_none_right_eq_some, Option.some.injEq] at hnext
      obtain ⟨-, rfl⟩ := hnext
      refine ih h ?_
      cases ok with
      | false => exact hs
      | true =>
        by_cases hd : d = descriptor
        · simpa [SocketCall.apply, hd] using hs
        · simpa [SocketCall.apply, hd] using hs
    | close d =>
      obtain ⟨next, hnext, h⟩ := Option.bind_eq_some_iff.1 h
      simp only [Lib.Event.next, Option.ite_none_right_eq_some, Option.some.injEq] at hnext
      obtain ⟨-, rfl⟩ := hnext
      refine ih h ?_
      by_cases hd : d = descriptor
      · simp [SocketCall.apply, hd]
      · simp [SocketCall.apply, hd, hs, Ne.symm hd]

/-- Where nothing is held at the end, all settings are gone. -/
theorem settings_append {calls : List SocketCall} (h : hold ∅ (events calls) = some ∅)
    (descriptor : Nat) (rest : List SocketCall) :
    settings descriptor (calls ++ rest) = settings descriptor rest := by
  have hnone : settings descriptor calls = none := by
    have hsome := isSome_foldl_apply descriptor (s := none) h (by simp)
    simpa [settings] using hsome
  rw [settings, List.foldl_append]
  exact congrArg (rest.foldl (SocketCall.apply descriptor)) hnone

/-! ## One address -/

section Address

variable {timeoutMs : Int} {ai : AddrInfo} {k : ConnectAnswers}

theorem failedWith_eq_none {whatArg : String} {answer : Option Nat} :
    failedWith whatArg answer = none ↔ answer = none := Option.map_eq_none_iff

theorem firstError_connectSteps (timeoutMs : Int) (ai : AddrInfo) {descriptor : Nat}
    (h : k.socket = .ok descriptor) :
    firstError (connectSteps timeoutMs ai k) = none ↔ k.Connects descriptor := by
  rw [firstError_eq_none]
  simp only [connectSteps, List.forall_mem_cons, failedWith_eq_none]
  constructor
  · intro ⟨hget, hset, hconnect, hpoll, herror, hrestore, _⟩
    refine ⟨h, hget, hset, ?_, ?_, ?_, ?_, hrestore⟩
    · split at hconnect
      · next hprogress => exact .inr hprogress
      · exact .inl (failedWith_eq_none.1 hconnect)
    · cases hp : k.poll with
      | ready => rfl
      | timeout => rw [hp] at hpoll; cases hpoll
      | failed errno => rw [hp] at hpoll; cases hpoll
    · cases he : k.getError with
      | none => rfl
      | some errno => rw [he] at herror; cases herror
    · cases he : k.getError with
      | none => simpa [he] using herror
      | some errno => rw [he] at herror; cases herror
  · intro hk
    refine ⟨hk.getFlags, hk.setNonBlock, ?_, ?_, ?_, hk.restoreFlags, by simp⟩
    · rcases hk.connect with hnone | hprogress
      · simp [hnone, failedWith]
      · simp [hprogress]
    · rw [hk.poll]
    · rw [hk.getError, hk.connectError]
      rfl

theorem firstError_timeoutSteps :
    firstError (timeoutSteps timeoutMs k) = none ↔
      k.receiveTimeout = none ∧ k.sendTimeout = none := by
  rw [firstError_eq_none]
  simp [timeoutSteps, failedWith_eq_none]

theorem lastError_of_connects {descriptor : Nat} (h : k.Connects descriptor) (timeoutMs : Int)
    (ai : AddrInfo) : k.lastError timeoutMs ai = none := by
  simp only [ConnectAnswers.lastError, h.socket]
  exact (firstError_connectSteps timeoutMs ai h.socket).2 h

theorem settings_connected (timeoutMs : Int) (ai : AddrInfo) (k : ConnectAnswers)
    (descriptor : Nat) (s : Option Settings) :
    (SocketCall.socket ai (some (descriptor, k.flags)) ::
      (connectSteps timeoutMs ai k ++ timeoutSteps timeoutMs k).map fun step =>
        SocketCall.use descriptor step.1 true).foldl (SocketCall.apply descriptor) s =
      some ⟨k.flags, some (timeval timeoutMs), some (timeval timeoutMs)⟩ := by
  rw [List.foldl_cons, SocketCall.apply, if_pos rfl, foldl_apply_uses]
  rfl

/-- The events of a pass that closes its descriptor. -/
theorem hold_closed {descriptor : Nat} {es : List (Lib.Event Nat)}
    (h : ∀ rest, hold {descriptor} (es ++ rest) = hold {descriptor} rest) :
    hold ∅ (.acquire descriptor :: es ++ [.release descriptor]) = some ∅ := by
  rw [List.cons_append, hold_acquire (Finset.notMem_empty descriptor), insert_empty_eq, h,
    hold_release (Finset.mem_singleton_self descriptor)]
  simp

/-- The events of the pass that keeps it. -/
theorem hold_kept {descriptor : Nat} {es : List (Lib.Event Nat)}
    (h : ∀ rest, hold {descriptor} (es ++ rest) = hold {descriptor} rest) :
    hold ∅ (.acquire descriptor :: es) = some {descriptor} := by
  rw [hold_acquire (Finset.notMem_empty descriptor), insert_empty_eq, ← List.append_nil es, h]
  rfl

/-- A pass leaves an error behind, throws what `set_timeout` throws, or connects. -/
theorem tryAddress_cases (timeoutMs : Int) (ai : AddrInfo) (k : ConnectAnswers) :
    ∃ calls, triedAddresses calls = [ai] ∧
      ((∃ e, tryAddress timeoutMs ai k = (calls, .failed e) ∧ k.lastError timeoutMs ai = some e ∧
        hold ∅ (events calls) = some ∅) ∨
      (∃ e descriptor, tryAddress timeoutMs ai k = (calls, .threw e) ∧ k.Connects descriptor ∧
        firstError (timeoutSteps timeoutMs k) = some e ∧ hold ∅ (events calls) = some ∅) ∨
      (∃ descriptor, tryAddress timeoutMs ai k = (calls, .connected descriptor) ∧
        k.Succeeds descriptor ∧ hold ∅ (events calls) = some {descriptor} ∧
        ∀ s, calls.foldl (SocketCall.apply descriptor) s =
          some ⟨k.flags, some (timeval timeoutMs), some (timeval timeoutMs)⟩)) := by
  unfold tryAddress
  cases hsocket : k.socket with
  | error errno =>
    exact ⟨_, rfl, .inl ⟨_, rfl, by simp only [ConnectAnswers.lastError, hsocket], rfl⟩⟩
  | ok descriptor =>
    have hconnect := hold_callsUntilError descriptor (connectSteps timeoutMs ai k)
    have htimeout := hold_callsUntilError descriptor (timeoutSteps timeoutMs k)
    have hboth : ∀ rest, hold {descriptor}
        (events (callsUntilError descriptor (connectSteps timeoutMs ai k)) ++
          events (callsUntilError descriptor (timeoutSteps timeoutMs k)) ++ rest) =
        hold {descriptor} rest := by
      intro rest
      rw [List.append_assoc, hconnect, htimeout]
    cases herror : firstError (connectSteps timeoutMs ai k) with
    | some e =>
      refine ⟨_, by simp, .inl ⟨e, rfl, ?_, ?_⟩⟩
      · simp only [ConnectAnswers.lastError, hsocket, herror]
      · rw [events_append, events_socket, events_close]
        exact hold_closed hconnect
    | none =>
      have hk := (firstError_connectSteps timeoutMs ai hsocket).1 herror
      cases htimeouts : firstError (timeoutSteps timeoutMs k) with
      | some e =>
        refine ⟨_, by simp, .inr (.inl ⟨e, descriptor, rfl, hk, rfl, ?_⟩)⟩
        rw [events_append, events_append, events_socket, events_close, List.cons_append]
        exact hold_closed hboth
      | none =>
        obtain ⟨hreceive, hsend⟩ := firstError_timeoutSteps.1 htimeouts
        refine ⟨_, by simp, .inr (.inr ⟨descriptor, rfl, ⟨hk, hreceive, hsend⟩, ?_, ?_⟩)⟩
        · rw [events_append, events_socket, List.cons_append]
          exact hold_kept hboth
        · intro s
          rw [callsUntilError_of_none herror, callsUntilError_of_none htimeouts, List.cons_append,
            ← List.map_append]
          exact settings_connected timeoutMs ai k descriptor s

end Address

/-! ## The loop -/

section Loop

variable {timeoutMs : Int} {lastError : SystemError}
  {addresses : List (AddrInfo × ConnectAnswers)} {calls : List SocketCall}

/-- A pass that fails is forgotten, but for its error. -/
theorem connectLoop_failed {ai : AddrInfo} {k : ConnectAnswers} {e : SystemError}
    (h : tryAddress timeoutMs ai k = (calls, .failed e)) :
    connectLoop timeoutMs lastError ((ai, k) :: addresses) =
      (calls ++ (connectLoop timeoutMs e addresses).1, (connectLoop timeoutMs e addresses).2) := by
  simp only [connectLoop, h]

theorem connectLoop_returned {descriptor : Nat}
    (h : connectLoop timeoutMs lastError addresses = (calls, .ok descriptor)) :
    Returned timeoutMs addresses calls descriptor := by
  induction addresses generalizing lastError calls with
  | nil => cases h
  | cons address addresses ih =>
    obtain ⟨ai, k⟩ := address
    obtain ⟨tried, hone, ⟨e, htry, herror, hheld⟩ | ⟨e, d, htry, -, -, -⟩ |
      ⟨d, htry, hk, hheld, hsettings⟩⟩ := tryAddress_cases timeoutMs ai k
    · rw [connectLoop_failed htry, Prod.mk.injEq] at h
      obtain ⟨rfl, hresult⟩ := h
      obtain ⟨⟨before, ai', k', after, rfl, hk, hearlier, htried, hsettings⟩, howned⟩ :=
        ih (Prod.ext rfl hresult)
      refine ⟨⟨(ai, k) :: before, ai', k', after, rfl, hk, ?_, ?_, ?_⟩, ?_⟩
      · intro earlier hmem d hd
        rcases List.mem_cons.1 hmem with rfl | hmem
        · rw [lastError_of_connects hd] at herror
          cases herror
        · exact hearlier earlier hmem d hd
      · rw [triedAddresses_append, hone, htried]
        rfl
      · rw [settings_append hheld, hsettings]
      · rw [events_append, hold_append hheld, howned]
    · simp only [connectLoop, htry, Prod.mk.injEq, reduceCtorEq, and_false] at h
    · simp only [connectLoop, htry, Prod.mk.injEq, Except.ok.injEq] at h
      obtain ⟨rfl, rfl⟩ := h
      exact ⟨⟨[], ai, k, addresses, rfl, hk, by simp, hone, hsettings none⟩, hheld⟩

theorem connectLoop_thrown {e : SystemError}
    (h : connectLoop timeoutMs lastError addresses = (calls, .error e)) :
    hold ∅ (events calls) = some ∅ ∧
      ((∃ before ai k after d, addresses = before ++ (ai, k) :: after ∧ k.Connects d ∧
        (k.receiveTimeout ≠ none ∨ k.sendTimeout ≠ none) ∧
        firstError (timeoutSteps timeoutMs k) = some e) ∨
      (triedAddresses calls = addresses.map Prod.fst ∧
        (addresses.getLast?.elim (some lastError)
          fun last => last.2.lastError timeoutMs last.1) = some e)) := by
  induction addresses generalizing lastError calls with
  | nil =>
    cases h
    exact ⟨rfl, .inr ⟨rfl, rfl⟩⟩
  | cons address addresses ih =>
    obtain ⟨ai, k⟩ := address
    obtain ⟨tried, hone, ⟨e', htry, herror, hheld⟩ | ⟨e', d, htry, hk, htimeouts, hheld⟩ |
      ⟨d, htry, -, -, -⟩⟩ := tryAddress_cases timeoutMs ai k
    · rw [connectLoop_failed htry, Prod.mk.injEq] at h
      obtain ⟨rfl, hresult⟩ := h
      obtain ⟨hclosed, hthrown⟩ := ih (Prod.ext rfl hresult)
      refine ⟨by rw [events_append, hold_append hheld, hclosed], ?_⟩
      rcases hthrown with ⟨before, ai', k', after, d, rfl, hthrown⟩ | ⟨htried, hlast⟩
      · exact .inl ⟨(ai, k) :: before, ai', k', after, d, rfl, hthrown⟩
      · refine .inr ⟨?_, ?_⟩
        · rw [triedAddresses_append, hone, htried]
          rfl
        · rw [List.getLast?_cons]
          cases hgetLast : addresses.getLast? with
          | none =>
            rw [hgetLast] at hlast
            exact herror.trans hlast
          | some last =>
            rw [hgetLast] at hlast
            exact hlast
    · simp only [connectLoop, htry, Prod.mk.injEq, Except.error.injEq] at h
      obtain ⟨rfl, rfl⟩ := h
      refine ⟨hheld, .inl ⟨[], ai, k, addresses, d, rfl, hk, ?_, htimeouts⟩⟩
      by_contra hnone
      rw [not_or, not_not, not_not] at hnone
      rw [firstError_timeoutSteps.2 hnone] at htimeouts
      cases htimeouts
    · simp only [connectLoop, htry, Prod.mk.injEq, reduceCtorEq, and_false] at h

end Loop

/-- For every list of addresses, and whatever the system calls answer. -/
theorem connectSocket_owned (c : HttpClient) (errno : Nat)
    (addresses : List (AddrInfo × ConnectAnswers)) :
    (∀ descriptor, (c.connectSocket errno (.ok addresses)).2 = .ok descriptor →
      Returned c.mTimeoutMs addresses (c.connectSocket errno (.ok addresses)).1 descriptor) ∧
    ∀ thrown, (c.connectSocket errno (.ok addresses)).2 = .error thrown →
      ∃ e, thrown = .system e ∧
        Thrown c.mTimeoutMs addresses (c.connectSocket errno (.ok addresses)).1 e := by
  cases hloop : connectLoop c.mTimeoutMs ⟨errno, ""⟩ addresses with
  | mk calls result =>
    simp only [HttpClient.connectSocket, hloop]
    cases result with
    | ok descriptor =>
      constructor
      · intro descriptor' h
        cases h
        exact connectLoop_returned hloop
      · intro thrown h
        cases h
    | error e =>
      constructor
      · intro descriptor h
        cases h
      · intro thrown h
        cases h
        obtain ⟨hheld, herror⟩ := connectLoop_thrown hloop
        refine ⟨e, rfl, hheld, ?_, ?_⟩
        · intro d
          simpa using count_of_hold hheld d
        · rcases herror with htimeout | ⟨htried, hlast⟩
          · exact .inl htimeout
          · refine .inr ⟨htried, ?_⟩
            intro last hmem
            rw [Option.mem_def] at hmem
            rw [hmem] at hlast
            exact hlast

/-! ## A second address -/

def ipv6Refused : AddrInfo × ConnectAnswers where
  fst := { aiFamily := 10, aiSocktype := 1, aiProtocol := 6, aiAddr := [1] }
  snd :=
    { socket := .ok 5, flags := 2, getFlags := none, setNonBlock := none, connect := some 111
      poll := .ready, getError := none, connectError := 0, restoreFlags := none
      receiveTimeout := none, sendTimeout := none }

def ipv4Accepted : AddrInfo × ConnectAnswers where
  fst := { aiFamily := 2, aiSocktype := 1, aiProtocol := 6, aiAddr := [2] }
  snd := { ipv6Refused.2 with connect := some EINPROGRESS }

theorem connectSocket_owned_second :
    let c : HttpClient := ⟨bytes "lidar", 80, 1500⟩
    let addresses := [ipv6Refused, ipv4Accepted]
    Returned 1500 addresses (c.connectSocket 0 (.ok addresses)).1 5 ∧
      ∃ e, HttpError.system ⟨111, "connect() failed"⟩ = .system e ∧
        Thrown 1500 [ipv6Refused] (c.connectSocket 0 (.ok [ipv6Refused])).1 e := by
  intro c addresses
  exact ⟨(connectSocket_owned c 0 addresses).1 5 rfl,
    (connectSocket_owned c 0 [ipv6Refused]).2 _ rfl⟩

end MechLidar
