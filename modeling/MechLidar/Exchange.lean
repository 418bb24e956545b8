import MechLidar.Connecting
import MechLidar.Sending
import MechLidar.Streaming
import MechLidar.Lib.Routine

/-!
# MechLidar.Exchange

`HttpClient::request` and `HttpClient::stream_get` (`http_client.cpp`) with all of their system
calls and with the writes to the streams of the caller, in their order. The answers of the system
calls are the input. A call that is not answered is one that the client still waits for.

* `HttpClient.exchange`: what the two have in common. They differ in their `Reader`.
* `Exchanged`: what holds of the calls at every moment
* `requests_exchanged`: it does, for both
* `requests_refine`: `HttpClient.request` and `HttpClient.streamGet` are what is left without the
  calls
* `streamGet_prompt`: no received byte of the body is kept back
-/

namespace MechLidar

open Lib

/-! ## The source -/

/-- The answers of the system calls of one request. -/
structure SystemAnswers where
  errno : Nat
  getaddrinfo : Except Bytes (List (AddrInfo × ConnectAnswers))
  send : List SendAnswer
  recv : List RecvAnswer

/-- A write to a stream of the caller. -/
inductive StreamWrite where
  | status (text : Bytes)
  | body (data : Bytes)
deriving DecidableEq, Repr

inductive ExchangeCall where
  | connect (call : SocketCall)
  | send (descriptor : Nat) (call : SendCall)
  | recv (descriptor : Nat) (answer : RecvAnswer)
  | write (w : StreamWrite)
  | close (descriptor : Nat)

/-- The variables of a receive loop: what is done with a chunk, and at the end. -/
structure Reader (σ : Type) where
  chunk : σ → Bytes → List StreamWrite × Except HttpError σ
  finish : σ → Except HttpError HttpResponse

/-- `raw_response.append`, and then `parse_response`. -/
def requestReader : Reader Bytes where
  chunk rawResponse buf := ([], .ok (rawResponse ++ buf))
  finish := parseResponse

/-- The variables of the loop of `stream_get`. -/
structure StreamVars where
  rawHeaders : Bytes := []
  headersComplete : Bool := false
  response : HttpResponse := {}

def streamReader (hasStatusStream : Bool) : Reader StreamVars where
  chunk v buf :=
    if v.headersComplete then ([.body buf], .ok v)
    else
      let rawHeaders := v.rawHeaders ++ buf
      match find sep rawHeaders with
      | none => ([], .ok { v with rawHeaders })
      | some bodyPos =>
        match parseHeaderBlock (rawHeaders.take bodyPos) with
        | .error e => ([], .error e)
        | .ok response =>
          let firstBody := rawHeaders.drop (bodyPos + sep.length)
          ((if hasStatusStream then [.status (statusText response)] else []) ++
            if firstBody ≠ [] then [.body firstBody] else [],
            .ok { rawHeaders, response, headersComplete := true })
  finish v :=
    if v.headersComplete then .ok v.response
    else .error (.runtimeError (bytes "Malformed HTTP response: no header/body split"))

section Calls

variable {σ : Type}

/-- The receive loop. -/
def receiveCalls (descriptor : Nat) (r : Reader σ) (s : σ) :
    List RecvAnswer → Routine ExchangeCall HttpError HttpResponse
  | [] => .wait
  | .failed errno :: answers => do
    .make [.recv descriptor (.failed errno)]
    if errno = EINTR then receiveCalls descriptor r s answers else .throw (recvError errno)
  | .received buf :: answers => do
    .make [.recv descriptor (.received buf)]
    if buf = [] then .ofExcept (r.finish s)
    else
      .make ((r.chunk s buf).1.map ExchangeCall.write)
      match (r.chunk s buf).2 with
      | .error e => .throw e
      | .ok s => receiveCalls descriptor r s answers

/-- `send_all` -/
def sendCalls (descriptor : Nat) (text : StdString) (answers : List SendAnswer) :
    Routine ExchangeCall HttpError Unit where
  calls := (sendLoop text 0 answers).1.map (.send descriptor)
  result := (sendLoop text 0 answers).2

/-- `connect_socket` -/
def HttpClient.connectCalls (c : HttpClient) (k : SystemAnswers) :
    Routine ExchangeCall HttpError Nat where
  calls := (c.connectSocket k.errno k.getaddrinfo).1.map .connect
  result := some (c.connectSocket k.errno k.getaddrinfo).2

/-- `socket_fd` closes the descriptor wherever the function is left. -/
def HttpClient.exchange (c : HttpClient) (text : StdString) (r : Reader σ) (s : σ)
    (k : SystemAnswers) : Routine ExchangeCall HttpError HttpResponse := do
  let sock ← c.connectCalls k
  (sendCalls sock text k.send >>= fun _ => receiveCalls sock r s k.recv).onExit [.close sock]

end Calls

def pathError : HttpError := .invalidArgument (bytes "HTTP path must start with '/'")

def HttpClient.requestCalls (c : HttpClient) (method path body : Bytes)
    (hsize : (requestText c method path body).length < 2 ^ 64) (k : SystemAnswers) :
    Routine ExchangeCall HttpError HttpResponse :=
  if badPath path then .throw pathError
  else c.exchange ⟨requestText c method path body, hsize⟩ requestReader [] k

def HttpClient.streamGetCalls (c : HttpClient) (path : Bytes) (hasStatusStream : Bool)
    (hsize : (streamText c path).length < 2 ^ 64) (k : SystemAnswers) :
    Routine ExchangeCall HttpError HttpResponse :=
  if badPath path then .throw pathError
  else c.exchange ⟨streamText c path, hsize⟩ (streamReader hasStatusStream) {} k

/-! ## What the calls do -/

namespace ExchangeCall

def handle : ExchangeCall → Option (Lib.Event Nat)
  | .connect call => call.event
  | .send descriptor _ => some (.use descriptor)
  | .recv descriptor _ => some (.use descriptor)
  | .write _ => none
  | .close descriptor => some (.release descriptor)

/-- What the kernel takes of the text. -/
def taken (text : Bytes) : ExchangeCall → Bytes
  | .send _ call => (text.drop call.offset.toNat).take call.answer.count
  | _ => []

def received : ExchangeCall → Bytes
  | .recv _ (.received buf) => buf
  | _ => []

def written : ExchangeCall → List StreamWrite
  | .write w => [w]
  | _ => []

end ExchangeCall

def handles (calls : List ExchangeCall) : List (Lib.Event Nat) :=
  calls.filterMap ExchangeCall.handle

def sentBytes (text : Bytes) (calls : List ExchangeCall) : Bytes :=
  calls.flatMap (ExchangeCall.taken text)

def receivedBytes (calls : List ExchangeCall) : Bytes := calls.flatMap ExchangeCall.received

def writes (calls : List ExchangeCall) : List StreamWrite := calls.flatMap ExchangeCall.written

/-- What holds in front of every call of `recv`. -/
def AtRecv (P : List ExchangeCall → Prop) (calls : List ExchangeCall) : Prop :=
  ∀ before descriptor answer after, calls = before ++ .recv descriptor answer :: after → P before

/-- Nothing is received in front of the whole request. -/
def RequestFirst (text : Bytes) : List ExchangeCall → Prop :=
  AtRecv fun before => sentBytes text before = text

/-- What holds at the end of a request, and while it waits. -/
structure Exchanged (text : Bytes) (result : Option (Except HttpError HttpResponse))
    (calls : List ExchangeCall) : Prop where
  /-- Every descriptor is closed once, and not used behind that. -/
  closed : ∀ r, result = some r → hold ∅ (handles calls) = some ∅
  /-- No other descriptor is open. -/
  waiting : result = none → ∃ descriptor, hold ∅ (handles calls) = some {descriptor}
  sent : sentBytes text calls <+: text
  requestFirst : RequestFirst text calls
  /-- There is a response only once the other side has closed the connection. -/
  answered : ∀ response, result = some (.ok response) → sentBytes text calls = text ∧
    ∃ before descriptor,
      calls = before ++ [.recv descriptor (.received []), .close descriptor]

section Append

variable (text : Bytes) (calls more : List ExchangeCall)

@[simp] theorem handles_append : handles (calls ++ more) = handles calls ++ handles more :=
  List.filterMap_append

@[simp] theorem sentBytes_append :
    sentBytes text (calls ++ more) = sentBytes text calls ++ sentBytes text more :=
  List.flatMap_append

@[simp] theorem receivedBytes_append :
    receivedBytes (calls ++ more) = receivedBytes calls ++ receivedBytes more :=
  List.flatMap_append

@[simp] theorem writes_append : writes (calls ++ more) = writes calls ++ writes more :=
  List.flatMap_append

@[simp] theorem writes_nil : writes [] = [] := rfl

@[simp] theorem writes_recv (descriptor : Nat) (answer : RecvAnswer) :
    writes (.recv descriptor answer :: calls) = writes calls := rfl

theorem handles_connect (connected : List SocketCall) :
    handles (connected.map .connect) = events connected := by
  rw [handles, List.filterMap_map]
  rfl

theorem sentBytes_connect (connected : List SocketCall) :
    sentBytes text (connected.map .connect) = [] := by
  simp [sentBytes, List.flatMap_map, ExchangeCall.taken]

theorem sentBytes_send (data : StdString) (descriptor : Nat) (sends : List SendCall) :
    sentBytes data.bytes (sends.map (.send descriptor)) = acceptedBytes data sends := by
  rw [sentBytes, List.flatMap_map]
  rfl

theorem handles_write (ws : List StreamWrite) : handles (ws.map .write) = [] := by
  simp [handles, List.filterMap_map, ExchangeCall.handle, Function.comp_def]

theorem sentBytes_write (ws : List StreamWrite) : sentBytes text (ws.map .write) = [] := by
  simp [sentBytes, List.flatMap_map, ExchangeCall.taken]

theorem receivedBytes_write (ws : List StreamWrite) : receivedBytes (ws.map .write) = [] := by
  simp [receivedBytes, List.flatMap_map, ExchangeCall.received]

theorem receivedBytes_connect (connected : List SocketCall) :
    receivedBytes (connected.map .connect) = [] := by
  simp [receivedBytes, List.flatMap_map, ExchangeCall.received]

theorem receivedBytes_send (descriptor : Nat) (sends : List SendCall) :
    receivedBytes (sends.map (.send descriptor)) = [] := by
  simp [receivedBytes, List.flatMap_map, ExchangeCall.received]

theorem writes_write (ws : List StreamWrite) : writes (ws.map .write) = ws := by
  simp [writes, List.flatMap_map, ExchangeCall.written]

theorem writes_connect (connected : List SocketCall) : writes (connected.map .connect) = [] := by
  simp [writes, List.flatMap_map, ExchangeCall.written]

theorem writes_send (descriptor : Nat) (sends : List SendCall) :
    writes (sends.map (.send descriptor)) = [] := by
  simp [writes, List.flatMap_map, ExchangeCall.written]

theorem hold_sends {descriptor : Nat} (h : hold ∅ (handles calls) = some {descriptor})
    (sends : List SendCall) :
    hold ∅ (handles (calls ++ sends.map (.send descriptor))) = some {descriptor} := by
  rw [handles_append, hold_append h]
  induction sends with
  | nil => rfl
  | cons call sends ih => exact (hold_use (Finset.mem_singleton_self descriptor) _).trans ih

end Append

/-! ## In front of `recv` -/

namespace AtRecv

variable {P : List ExchangeCall → Prop} {calls more : List ExchangeCall}

theorem nil : AtRecv P [] := by
  intro before descriptor answer after h
  simp at h

/-- Nothing is received in `more`. -/
theorem quiet (h : AtRecv P calls) (hmore : ∀ descriptor answer, .recv descriptor answer ∉ more) :
    AtRecv P (calls ++ more) := by
  intro before descriptor answer after hsplit
  rcases List.append_eq_append_iff.1 hsplit with ⟨rest, -, rfl⟩ | ⟨rest, rfl, hrest⟩
  · exact absurd (by simp) (hmore descriptor answer)
  · cases rest with
    | nil =>
      obtain rfl : _ = more := hrest
      exact absurd List.mem_cons_self (hmore descriptor answer)
    | cons call rest =>
      obtain ⟨rfl, rfl⟩ := List.cons.inj hrest
      exact h before descriptor answer rest rfl

theorem recv (h : AtRecv P calls) (hP : P calls) (descriptor : Nat) (answer : RecvAnswer) :
    AtRecv P (calls ++ [.recv descriptor answer]) := by
  intro before d a after hsplit
  rcases List.eq_nil_or_concat after with rfl | ⟨after, last, rfl⟩
  · obtain ⟨rfl, -⟩ := List.append_inj' hsplit rfl
    exact hP
  · have hinit : calls ++ [.recv descriptor answer] = (before ++ .recv d a :: after) ++ [last] := by
      simpa using hsplit
    obtain ⟨rfl, -⟩ := List.append_inj' hinit rfl
    exact h before d a after rfl

end AtRecv

/-! ## The three parts -/

section Parts

/-- Behind `connect_socket`. -/
structure Connected (text : Bytes) (result : Option (Except HttpError Nat))
    (calls : List ExchangeCall) : Prop where
  unsent : sentBytes text calls = []
  requestFirst : RequestFirst text calls
  opened : ∀ descriptor, result = some (.ok descriptor) →
    hold ∅ (handles calls) = some {descriptor}
  failed : ∀ e, result = some (.error e) → hold ∅ (handles calls) = some ∅
  ended : result ≠ none

/-- Between the first call of `send` and the `close`. -/
structure Sending (text : Bytes) (descriptor : Nat) (calls : List ExchangeCall) : Prop where
  owned : hold ∅ (handles calls) = some {descriptor}
  sent : sentBytes text calls <+: text
  requestFirst : RequestFirst text calls

theorem hold_connectSocket (c : HttpClient) (errno : Nat)
    (getaddrinfo : Except Bytes (List (AddrInfo × ConnectAnswers))) :
    (∀ descriptor, (c.connectSocket errno getaddrinfo).2 = .ok descriptor →
      hold ∅ (events (c.connectSocket errno getaddrinfo).1) = some {descriptor}) ∧
    ∀ e, (c.connectSocket errno getaddrinfo).2 = .error e →
      hold ∅ (events (c.connectSocket errno getaddrinfo).1) = some ∅ := by
  cases getaddrinfo with
  | error message => simp [HttpClient.connectSocket, events]
  | ok addresses =>
    cases hloop : connectLoop c.mTimeoutMs ⟨errno, ""⟩ addresses with
    | mk calls result =>
      cases result with
      | ok descriptor =>
        simp [HttpClient.connectSocket, hloop, Except.mapError, (connectLoop_returned hloop).owned]
      | error e =>
        simp [HttpClient.connectSocket, hloop, Except.mapError, (connectLoop_thrown hloop).1]

theorem connectCalls_connected (c : HttpClient) (text : Bytes) (k : SystemAnswers) :
    Routine.Triple (· = []) (c.connectCalls k) (Connected text) := by
  rintro _ rfl
  obtain ⟨hopened, hfailed⟩ := hold_connectSocket c k.errno k.getaddrinfo
  rw [List.nil_append]
  refine ⟨sentBytes_connect text _, AtRecv.nil.quiet (by simp), ?_, ?_,
    by simp [HttpClient.connectCalls]⟩
  · intro descriptor h
    rw [HttpClient.connectCalls, handles_connect]
    exact hopened descriptor (Option.some.inj h)
  · intro e h
    rw [HttpClient.connectCalls, handles_connect]
    exact hfailed e (Option.some.inj h)

theorem sendLoop_accepted (data : StdString) (answers : List SendAnswer)
    (hk : KernelAnswers (sendLoop data 0 answers).1) :
    acceptedBytes data (sendLoop data 0 answers).1 <+: data.bytes ∧
      ((sendLoop data 0 answers).2 = some (.ok ()) →
        acceptedBytes data (sendLoop data 0 answers).1 = data.bytes) := by
  obtain ⟨hcontiguous, -, hall⟩ := (sends_sendLoop data 0 answers).contiguous hk (Nat.zero_le _)
  rw [hcontiguous.acceptedBytes_eq data, UInt64.toNat_zero, List.drop_zero]
  simp only [UInt64.toNat_zero, Nat.zero_add] at hall
  exact ⟨List.take_prefix _ _, fun h => by rw [hall h, List.take_length]⟩

theorem sendCalls_sending (descriptor : Nat) (data : StdString) (answers : List SendAnswer)
    (hk : KernelAnswers (sendLoop data 0 answers).1) :
    Routine.Triple (Connected data.bytes (some (.ok descriptor)))
      (sendCalls descriptor data answers) fun result calls =>
        Sending data.bytes descriptor calls ∧
          (result = some (.ok ()) → sentBytes data.bytes calls = data.bytes) := by
  intro before hbefore
  obtain ⟨htaken, hall⟩ := sendLoop_accepted data answers hk
  have hsent : sentBytes data.bytes (before ++ (sendCalls descriptor data answers).calls) =
      acceptedBytes data (sendLoop data 0 answers).1 := by
    rw [sentBytes_append, hbefore.unsent, List.nil_append, sendCalls, sentBytes_send]
  refine ⟨⟨hold_sends before (hbefore.opened descriptor rfl) _, hsent ▸ htaken,
    hbefore.requestFirst.quiet (by simp [sendCalls])⟩, ?_⟩
  intro hresult
  rw [hsent, hall hresult]

/-- Behind a call of `recv`. -/
theorem Sending.recv {text : Bytes} {descriptor : Nat} {calls : List ExchangeCall}
    (h : Sending text descriptor calls) (hsent : sentBytes text calls = text)
    (answer : RecvAnswer) :
    Sending text descriptor (calls ++ [.recv descriptor answer]) ∧
      sentBytes text (calls ++ [.recv descriptor answer]) = text := by
  have hsent' : sentBytes text (calls ++ [.recv descriptor answer]) = text := by
    rw [sentBytes_append, hsent]
    simp [sentBytes, ExchangeCall.taken]
  refine ⟨⟨?_, by rw [hsent'], h.requestFirst.recv hsent descriptor answer⟩, hsent'⟩
  rw [handles_append, hold_append h.owned]
  exact hold_use (Finset.mem_singleton_self descriptor) []

theorem Sending.write {text : Bytes} {descriptor : Nat} {calls : List ExchangeCall}
    (h : Sending text descriptor calls) (ws : List StreamWrite) :
    Sending text descriptor (calls ++ ws.map .write) ∧
      sentBytes text (calls ++ ws.map .write) = sentBytes text calls := by
  have hsent : sentBytes text (calls ++ ws.map .write) = sentBytes text calls := by
    rw [sentBytes_append, sentBytes_write, List.append_nil]
  refine ⟨⟨?_, by rw [hsent]; exact h.sent, h.requestFirst.quiet (by simp)⟩, hsent⟩
  rw [handles_append, handles_write, List.append_nil]
  exact h.owned

variable {σ : Type}

/-- Every chunk, and then the end. -/
theorem receiveCalls_sending (text : Bytes) (descriptor : Nat) (r : Reader σ) (s : σ)
    (answers : List RecvAnswer) :
    Routine.Triple (fun calls => Sending text descriptor calls ∧ sentBytes text calls = text)
      (receiveCalls descriptor r s answers) fun result calls =>
        Sending text descriptor calls ∧ sentBytes text calls = text ∧
          ∀ response, result = some (.ok response) →
            ∃ before, calls = before ++ [.recv descriptor (.received [])] := by
  induction answers generalizing s with
  | nil => exact .wait fun calls h => ⟨h.1, h.2, by simp⟩
  | cons answer answers ih =>
    cases answer with
    | failed errno =>
      refine .make_bind ?_
      split
      · refine (ih s).conseq ?_ fun _ _ h => h
        rintro _ ⟨before, ⟨hsending, hsent⟩, rfl⟩
        exact hsending.recv hsent _
      · refine .throw ?_
        rintro _ ⟨before, ⟨hsending, hsent⟩, rfl⟩
        exact ⟨(hsending.recv hsent _).1, (hsending.recv hsent _).2, by simp⟩
    | received buf =>
      refine .make_bind ?_
      split
      · next hempty =>
        subst hempty
        refine .ofExcept ?_
        rintro _ ⟨before, ⟨hsending, hsent⟩, rfl⟩
        exact ⟨(hsending.recv hsent _).1, (hsending.recv hsent _).2, fun _ _ => ⟨before, rfl⟩⟩
      · refine .make_bind ?_
        cases hchunk : (r.chunk s buf).2 with
        | error e =>
          refine .throw ?_
          rintro _ ⟨_, ⟨before, ⟨hsending, hsent⟩, rfl⟩, rfl⟩
          obtain ⟨hreceived, hsent⟩ := hsending.recv hsent (.received buf)
          obtain ⟨hwritten, hsent'⟩ := hreceived.write (r.chunk s buf).1
          exact ⟨hwritten, hsent'.trans hsent, by simp⟩
        | ok s' =>
          refine (ih s').conseq ?_ fun _ _ h => h
          rintro _ ⟨_, ⟨before, ⟨hsending, hsent⟩, rfl⟩, rfl⟩
          obtain ⟨hreceived, hsent⟩ := hsending.recv hsent (.received buf)
          obtain ⟨hwritten, hsent'⟩ := hreceived.write (r.chunk s buf).1
          exact ⟨hwritten, hsent'.trans hsent⟩

end Parts

/-! ## Every request -/

section Requests

variable {σ : Type}

/-- Behind the `close`. -/
theorem Sending.closed {text : Bytes} {descriptor : Nat} {calls : List ExchangeCall}
    (h : Sending text descriptor calls) (result : Except HttpError HttpResponse)
    (hanswered : ∀ response, result = .ok response → sentBytes text calls = text ∧
      ∃ before, calls = before ++ [.recv descriptor (.received [])]) :
    Exchanged text (some result) (calls ++ [.close descriptor]) where
  closed := by
    intro _ _
    rw [handles_append, hold_append h.owned]
    simp [handles, ExchangeCall.handle, hold, Event.next]
  waiting := by simp
  sent := by simpa [sentBytes, ExchangeCall.taken] using h.sent
  requestFirst := h.requestFirst.quiet (by simp)
  answered := by
    intro response hresponse
    obtain ⟨hsent, before, rfl⟩ := hanswered response (Option.some.inj hresponse)
    exact ⟨by simpa [sentBytes, ExchangeCall.taken] using hsent, before, descriptor, by simp⟩

/-- The part that the destructor of `socket_fd` ends. -/
theorem connected_sending (sock : Nat) (text : StdString) (r : Reader σ) (s : σ)
    (k : SystemAnswers) (hk : KernelAnswers (sendLoop text 0 k.send).1) :
    Routine.Triple (Connected text.bytes (some (.ok sock)))
      (sendCalls sock text k.send >>= fun _ => receiveCalls sock r s k.recv) fun result calls =>
        Sending text.bytes sock calls ∧ ∀ response, result = some (.ok response) →
          sentBytes text.bytes calls = text.bytes ∧
            ∃ before, calls = before ++ [.recv sock (.received [])] := by
  refine .bind (sendCalls_sending sock text k.send hk) ?_ ?_ ?_
  · intro _
    refine (receiveCalls_sending text.bytes sock r s k.recv).conseq ?_ ?_
    · rintro calls ⟨hsending, hall⟩
      exact ⟨hsending, hall rfl⟩
    · rintro result calls ⟨hsending, hsent, hlast⟩
      exact ⟨hsending, fun response hresponse => ⟨hsent, hlast response hresponse⟩⟩
  · rintro e calls ⟨hsending, -⟩
    exact ⟨hsending, by simp⟩
  · rintro calls ⟨hsending, -⟩
    exact ⟨hsending, by simp⟩

theorem exchange_exchanged (c : HttpClient) (text : StdString) (r : Reader σ) (s : σ)
    (k : SystemAnswers) (hk : KernelAnswers (sendLoop text 0 k.send).1) :
    Routine.Triple (· = []) (c.exchange text r s k) (Exchanged text.bytes) := by
  refine .bind (connectCalls_connected c text.bytes k) ?_ ?_ ?_
  · intro sock
    refine .onExit (connected_sending sock text r s k hk) ?_ ?_
    · rintro calls ⟨hsending, -⟩
      exact ⟨by simp, fun _ => ⟨sock, hsending.owned⟩, hsending.sent, hsending.requestFirst,
        by simp⟩
    · rintro result calls ⟨hsending, hanswered⟩
      exact hsending.closed result fun response h => hanswered response (congrArg some h)
  · intro e calls h
    exact ⟨fun _ _ => h.failed e rfl, by simp, by simp [h.unsent], h.requestFirst, by simp⟩
  · intro calls h
    exact absurd rfl h.ended

/-- Whatever the system calls answer, `request` and `stream_get` close every descriptor once, use
none that is closed, receive nothing in front of the whole request, and have a response only behind
the end of the connection. -/
theorem requests_exchanged (c : HttpClient) (method path body : Bytes) (hasStatusStream : Bool)
    (k : SystemAnswers) :
    (∀ hsize, KernelAnswers (sendLoop ⟨requestText c method path body, hsize⟩ 0 k.send).1 →
      Exchanged (requestText c method path body) (c.requestCalls method path body hsize k).result
        (c.requestCalls method path body hsize k).calls) ∧
    ∀ hsize, KernelAnswers (sendLoop ⟨streamText c path, hsize⟩ 0 k.send).1 →
      Exchanged (streamText c path) (c.streamGetCalls path hasStatusStream hsize k).result
        (c.streamGetCalls path hasStatusStream hsize k).calls := by
  have hthrown : ∀ text, Exchanged text (some (.error pathError)) [] := fun text =>
    ⟨fun _ _ => rfl, by simp, List.nil_prefix, AtRecv.nil, by simp⟩
  constructor
  · intro hsize hk
    rw [HttpClient.requestCalls]
    split
    · exact hthrown _
    · exact exchange_exchanged c ⟨_, hsize⟩ requestReader [] k hk [] rfl
  · intro hsize hk
    rw [HttpClient.streamGetCalls]
    split
    · exact hthrown _
    · exact exchange_exchanged c ⟨_, hsize⟩ (streamReader hasStatusStream) {} k hk [] rfl

/-! ### One request -/

def plainClient : HttpClient := ⟨bytes "lidar", 80, 1500⟩

def plainResponse : HttpResponse := ⟨200, bytes "OK", bytes "HTTP/1.0 200 OK", []⟩

/-- The second address answers, and the kernel takes the whole request at once. -/
def plainAnswers : SystemAnswers where
  errno := 0
  getaddrinfo := .ok [ipv6Refused, ipv4Accepted]
  send := [.accepted 51]
  recv := [.received (bytes "HTTP/1.0 200 OK\r\n\r\nB"), .received []]

theorem plainText_size : (streamText plainClient (bytes "/z")).length < 2 ^ 64 := by decide

theorem plainText_taken : KernelAnswers
    (sendLoop ⟨streamText plainClient (bytes "/z"), plainText_size⟩ 0 plainAnswers.send).1 := by
  decide

theorem plainAnswers_result :
    (plainClient.streamGetCalls (bytes "/z") true plainText_size plainAnswers).result =
      some (.ok plainResponse) := rfl

theorem requests_exchanged_plain :
    Exchanged (streamText plainClient (bytes "/z")) (some (.ok plainResponse))
      (plainClient.streamGetCalls (bytes "/z") true plainText_size plainAnswers).calls := by
  rw [← plainAnswers_result]
  exact (requests_exchanged plainClient [] (bytes "/z") [] true plainAnswers).2 plainText_size
    plainText_taken

end Requests

/-! ## Without the calls -/

/-- What the other side does, as `HttpClient.request` sees it. -/
def SystemAnswers.peer (k : SystemAnswers) (c : HttpClient) : Peer where
  connect := (c.connectSocket k.errno k.getaddrinfo).2.map fun _ => ()
  send := k.send
  recv := k.recv

def bodies (ws : List StreamWrite) : List Bytes :=
  ws.filterMap fun
    | .body data => some data
    | .status _ => none

def statuses (ws : List StreamWrite) : List Bytes :=
  ws.filterMap fun
    | .status text => some text
    | .body _ => none

@[simp] theorem bodies_append (ws ws' : List StreamWrite) :
    bodies (ws ++ ws') = bodies ws ++ bodies ws' := List.filterMap_append

@[simp] theorem statuses_append (ws ws' : List StreamWrite) :
    statuses (ws ++ ws') = statuses ws ++ statuses ws' := List.filterMap_append

def StreamState.vars (s : StreamState) : StreamVars := ⟨s.rawHeaders, s.headersComplete, s.response⟩

section Refines

variable {σ : Type} {c : HttpClient} {text : StdString} {reader : Reader σ} {s : σ}
  {k : SystemAnswers} {descriptor : Nat} {r : Except HttpError HttpResponse}

/-- Between `send_all` and the `close` nothing is sent or connected. -/
theorem sentBytes_receive (text : Bytes) (descriptor : Nat) (reader : Reader σ) (s : σ)
    (answers : List RecvAnswer) :
    sentBytes text (receiveCalls descriptor reader s answers).calls = [] := by
  induction answers generalizing s with
  | nil => rfl
  | cons answer answers ih =>
    cases answer with
    | failed errno =>
      rw [receiveCalls]
      split
      · simpa [sentBytes, ExchangeCall.taken] using ih s
      · simp [sentBytes, ExchangeCall.taken, Routine.throw]
    | received buf =>
      rw [receiveCalls]
      split
      · simp [sentBytes, ExchangeCall.taken, Routine.ofExcept]
      · simp only [Routine.make_bind, sentBytes_append, sentBytes_write]
        cases (reader.chunk s buf).2 with
        | error e => simp [sentBytes, ExchangeCall.taken, Routine.throw]
        | ok s' => simp [sentBytes, ExchangeCall.taken, ← ih s']

/-- How a request ends, and what was sent and written then. -/
theorem exchange_ends (hk : KernelAnswers (sendLoop text 0 k.send).1)
    (h : (c.exchange text reader s k).result = some r) :
    (∃ e, (c.connectSocket k.errno k.getaddrinfo).2 = .error e ∧ r = .error e ∧
      sentBytes text.bytes (c.exchange text reader s k).calls = [] ∧
      writes (c.exchange text reader s k).calls = []) ∨
    ∃ descriptor, (c.connectSocket k.errno k.getaddrinfo).2 = .ok descriptor ∧
      ((∃ e, r = .error e ∧ sendAll text.bytes k.send =
          (sentBytes text.bytes (c.exchange text reader s k).calls, .error e) ∧
        writes (c.exchange text reader s k).calls = []) ∨
      (sendAll text.bytes k.send =
          (sentBytes text.bytes (c.exchange text reader s k).calls, .ok ()) ∧
        (receiveCalls descriptor reader s k.recv).result = some r ∧
        writes (c.exchange text reader s k).calls =
          writes (receiveCalls descriptor reader s k.recv).calls)) := by
  have hall := (sends_sendLoop text 0 k.send).sendAll_eq hk
  rw [UInt64.toNat_zero, List.drop_zero] at hall
  rw [HttpClient.exchange] at h ⊢
  cases hconnect : (c.connectSocket k.errno k.getaddrinfo).2 with
  | error e =>
    have hresult : (c.connectCalls k).result = some (.error e) := congrArg some hconnect
    rw [Routine.bind_error hresult] at h ⊢
    cases h
    exact .inl ⟨e, rfl, rfl, sentBytes_connect _ _, writes_connect _⟩
  | ok descriptor =>
    have hresult : (c.connectCalls k).result = some (.ok descriptor) := congrArg some hconnect
    rw [Routine.bind_ok hresult] at h ⊢
    rw [Routine.onExit_result] at h
    refine .inr ⟨descriptor, rfl, ?_⟩
    simp only [Routine.onExit_calls h, sentBytes_append, writes_append]
    have hconnected : sentBytes text.bytes (c.connectCalls k).calls = [] ∧
        writes (c.connectCalls k).calls = [] := ⟨sentBytes_connect _ _, writes_connect _⟩
    have hclosed : sentBytes text.bytes [.close descriptor] = [] ∧
        writes [.close descriptor] = [] := ⟨rfl, rfl⟩
    rw [hconnected.1, hconnected.2, hclosed.1, hclosed.2]
    rcases hsend : (sendLoop text 0 k.send).2 with _ | e | _
    · have hwait : (sendCalls descriptor text k.send).result = none := hsend
      rw [Routine.bind_wait hwait] at h
      cases h
    · have hthrow : (sendCalls descriptor text k.send).result = some (.error e) := hsend
      rw [Routine.bind_error hthrow] at h ⊢
      cases h
      refine .inl ⟨e, rfl, ?_, ?_⟩
      · simpa [hsend, sendCalls, sentBytes_send] using hall
      · simpa [sendCalls] using writes_send descriptor (sendLoop text 0 k.send).1
    · have hdone : (sendCalls descriptor text k.send).result = some (.ok ()) := hsend
      rw [Routine.bind_ok hdone] at h ⊢
      refine .inr ⟨?_, h, ?_⟩
      · rw [sentBytes_append, sentBytes_receive]
        simpa [hsend, sendCalls, sentBytes_send] using hall
      · rw [writes_append]
        simpa [sendCalls] using writes_send descriptor (sendLoop text 0 k.send).1

/-- The receive loop of `request`. -/
theorem receiveCalls_request {rawResponse : Bytes} {answers : List RecvAnswer}
    (h : (receiveCalls descriptor requestReader rawResponse answers).result = some r) :
    (receiveAll rawResponse answers >>= parseResponse) = r ∧
      writes (receiveCalls descriptor requestReader rawResponse answers).calls = [] := by
  induction answers generalizing rawResponse with
  | nil => cases h
  | cons answer answers ih =>
    cases answer with
    | failed errno =>
      rw [receiveCalls, Routine.make_bind] at h ⊢
      rw [receiveAll]
      split at h
      · next hinterrupted =>
        simp only [if_pos hinterrupted]
        simpa [writes, ExchangeCall.written] using ih h
      · next herror =>
        simp only [if_neg herror]
        exact ⟨Option.some.inj h, rfl⟩
    | received buf =>
      rw [receiveCalls, Routine.make_bind] at h ⊢
      rw [receiveAll]
      split at h
      · next hempty =>
        simp only [if_pos hempty]
        exact ⟨Option.some.inj h, rfl⟩
      · next hmore =>
        simp only [if_neg hmore]
        simpa [writes, ExchangeCall.written, requestReader] using ih h

/-- A chunk of `stream_get`. -/
theorem streamReader_chunk (hasStatusStream : Bool) (s : StreamState) (buf : Bytes) :
    (∃ e, streamChunk hasStatusStream s buf = .error e ∧
      (streamReader hasStatusStream).chunk s.vars buf = ([], .error e)) ∨
    ∃ s' ws, streamChunk hasStatusStream s buf = .ok s' ∧
      (streamReader hasStatusStream).chunk s.vars buf = (ws, .ok s'.vars) ∧
      s'.bodyStream = s.bodyStream ++ bodies ws ∧
      s'.statusStream = s.statusStream ++ statuses ws := by
  cases hcomplete : s.headersComplete with
  | true =>
    refine .inr ⟨{ s with bodyStream := s.bodyStream ++ [buf] }, [.body buf], ?_, ?_, rfl,
      by simp [statuses]⟩
    · simp [streamChunk, hcomplete]
    · simp [streamReader, StreamState.vars, hcomplete]
  | false =>
    cases hfind : find sep (s.rawHeaders ++ buf) with
    | none =>
      refine .inr ⟨{ s with rawHeaders := s.rawHeaders ++ buf }, [], ?_, ?_,
        by simp [bodies], by simp [statuses]⟩
      · simp [streamChunk, hcomplete, hfind]
      · simp [streamReader, StreamState.vars, hcomplete, hfind]
    | some bodyPos =>
      cases hparse : parseHeaderBlock ((s.rawHeaders ++ buf).take bodyPos) with
      | error e =>
        refine .inl ⟨e, ?_, ?_⟩
        · simp only [streamChunk, hcomplete, hfind, hparse, Bool.false_eq_true, if_false]
        · simp only [streamReader, StreamState.vars, hcomplete, hfind, hparse, Bool.false_eq_true,
            if_false]
      | ok response =>
        let firstBody := (s.rawHeaders ++ buf).drop (bodyPos + sep.length)
        let written := if hasStatusStream then [statusText response] else []
        let passed := if firstBody ≠ [] then [firstBody] else []
        refine .inr ⟨⟨s.rawHeaders ++ buf, true, response, s.bodyStream ++ passed,
          s.statusStream ++ written⟩, written.map .status ++ passed.map .body, ?_, ?_, ?_, ?_⟩
        · simp only [streamChunk, hcomplete, hfind, hparse, Bool.false_eq_true, if_false]
          rfl
        · simp only [streamReader, StreamState.vars, hcomplete, hfind, hparse, Bool.false_eq_true,
            if_false, written, passed, firstBody]
          split <;> split <;> rfl
        · simp [bodies, List.filterMap_map]
        · simp [statuses, List.filterMap_map]

/-- The receive loop of `stream_get`. -/
theorem receiveCalls_stream {hasStatusStream : Bool} {s : StreamState}
    {answers : List RecvAnswer}
    (h : (receiveCalls descriptor (streamReader hasStatusStream) s.vars answers).result = some r) :
    ∃ s', streamLoop hasStatusStream s answers = (s', r) ∧
      s'.bodyStream = s.bodyStream ++ bodies (writes
        (receiveCalls descriptor (streamReader hasStatusStream) s.vars answers).calls) ∧
      s'.statusStream = s.statusStream ++ statuses (writes
        (receiveCalls descriptor (streamReader hasStatusStream) s.vars answers).calls) := by
  induction answers generalizing s with
  | nil => cases h
  | cons answer answers ih =>
    cases answer with
    | failed errno =>
      rw [receiveCalls, Routine.make_bind] at h ⊢
      rw [streamLoop]
      split at h
      · next hinterrupted =>
        simp only [if_pos hinterrupted]
        simpa using ih h
      · next herror =>
        simp only [if_neg herror]
        cases h
        exact ⟨s, rfl, by simp [Routine.throw, bodies], by simp [Routine.throw, statuses]⟩
    | received buf =>
      rw [receiveCalls, Routine.make_bind] at h ⊢
      split at h
      · next hempty =>
        cases h
        simp only [if_pos hempty]
        refine ⟨s, ?_, by simp [Routine.ofExcept, bodies], by simp [Routine.ofExcept, statuses]⟩
        rw [streamLoop, if_pos hempty]
        rfl
      · next hmore =>
        simp only [if_neg hmore]
        rcases streamReader_chunk hasStatusStream s buf with ⟨e, hstream, hchunk⟩ |
          ⟨s₁, ws, hstream, hchunk, hbody, hstatus⟩
        · rw [hchunk] at h ⊢
          cases h
          exact ⟨s, streamLoop_throws hmore hstream,
            by simp [Routine.throw, bodies], by simp [Routine.throw, statuses]⟩
        · rw [hchunk] at h ⊢
          obtain ⟨s', hloop, hbody', hstatus'⟩ := ih h
          refine ⟨s', (streamLoop_ok hmore hstream).trans hloop, ?_, ?_⟩
          · simp [hbody', hbody, writes_write]
          · simp [hstatus', hstatus, writes_write]

/-- `HttpClient.request` is what is left of `request` without the calls. -/
theorem request_refines {method path body : Bytes}
    {hsize : (requestText c method path body).length < 2 ^ 64}
    (hk : KernelAnswers (sendLoop ⟨requestText c method path body, hsize⟩ 0 k.send).1)
    (h : (c.requestCalls method path body hsize k).result = some r) :
    c.request method path body (k.peer c) =
      (sentBytes (requestText c method path body)
        (c.requestCalls method path body hsize k).calls, r) := by
  rw [HttpClient.requestCalls] at h ⊢
  rw [HttpClient.request]
  split
  · next hpath =>
    rw [if_pos hpath] at h
    cases h
    rfl
  · next hpath =>
    rw [if_neg hpath] at h
    rcases exchange_ends hk h with ⟨e, hconnect, rfl, hsent, -⟩ |
      ⟨descriptor, hconnect, ⟨e, rfl, hsend, -⟩ | ⟨hsend, hreceive, -⟩⟩
    · simp only [SystemAnswers.peer, hconnect, Except.map, hsent]
    · simp only [SystemAnswers.peer, hconnect, Except.map]
      dsimp only at hsend
      rw [hsend]
    · simp only [SystemAnswers.peer, hconnect, Except.map]
      dsimp only at hsend
      rw [hsend]
      exact congrArg (Prod.mk _) (receiveCalls_request hreceive).1

/-- So is `HttpClient.streamGet` of `stream_get`, with the writes. -/
theorem streamGet_refines {path : Bytes} {hasStatusStream : Bool}
    {hsize : (streamText c path).length < 2 ^ 64}
    (hk : KernelAnswers (sendLoop ⟨streamText c path, hsize⟩ 0 k.send).1)
    (h : (c.streamGetCalls path hasStatusStream hsize k).result = some r) :
    ∃ s, c.streamGet path hasStatusStream (k.peer c) =
        (sentBytes (streamText c path) (c.streamGetCalls path hasStatusStream hsize k).calls, s,
          r) ∧
      s.bodyStream = bodies (writes (c.streamGetCalls path hasStatusStream hsize k).calls) ∧
      s.statusStream = statuses (writes (c.streamGetCalls path hasStatusStream hsize k).calls) := by
  rw [HttpClient.streamGetCalls] at h ⊢
  rw [HttpClient.streamGet]
  split
  · next hpath =>
    rw [if_pos hpath] at h
    cases h
    exact ⟨_, rfl, rfl, rfl⟩
  · next hpath =>
    rw [if_neg hpath] at h
    rcases exchange_ends hk h with ⟨e, hconnect, rfl, hsent, hwrites⟩ |
      ⟨descriptor, hconnect, ⟨e, rfl, hsend, hwrites⟩ | ⟨hsend, hreceive, hwrites⟩⟩
    · simp only [SystemAnswers.peer, hconnect, Except.map, hsent]
      exact ⟨_, rfl, by rw [hwrites]; rfl, by rw [hwrites]; rfl⟩
    · simp only [SystemAnswers.peer, hconnect, Except.map]
      dsimp only at hsend
      rw [hsend]
      exact ⟨_, rfl, by rw [hwrites]; rfl, by rw [hwrites]; rfl⟩
    · obtain ⟨s, hloop, hbody, hstatus⟩ := receiveCalls_stream (s := {}) hreceive
      simp only [SystemAnswers.peer, hconnect, Except.map]
      dsimp only at hsend
      rw [hsend, hwrites]
      exact ⟨s, congrArg (Prod.mk _) hloop, hbody, hstatus⟩

end Refines

/-- `HttpClient.request` and `HttpClient.streamGet` are `request` and `stream_get` without the
calls: where the calls lead to an end, what was sent, what was written and how the function ends is
the same. -/
theorem requests_refine (c : HttpClient) (k : SystemAnswers) :
    (∀ method path body hsize r,
      KernelAnswers (sendLoop ⟨requestText c method path body, hsize⟩ 0 k.send).1 →
      (c.requestCalls method path body hsize k).result = some r →
      c.request method path body (k.peer c) =
        (sentBytes (requestText c method path body)
          (c.requestCalls method path body hsize k).calls, r)) ∧
    ∀ path hasStatusStream hsize r,
      KernelAnswers (sendLoop ⟨streamText c path, hsize⟩ 0 k.send).1 →
      (c.streamGetCalls path hasStatusStream hsize k).result = some r →
      ∃ s, c.streamGet path hasStatusStream (k.peer c) =
          (sentBytes (streamText c path) (c.streamGetCalls path hasStatusStream hsize k).calls, s,
            r) ∧
        s.bodyStream = bodies (writes (c.streamGetCalls path hasStatusStream hsize k).calls) ∧
        s.statusStream =
          statuses (writes (c.streamGetCalls path hasStatusStream hsize k).calls) :=
  ⟨fun _ _ _ _ _ hk h => request_refines hk h, fun _ _ _ _ hk h => streamGet_refines hk h⟩

theorem requests_refine_plain :
    ∃ s, plainClient.streamGet (bytes "/z") true (plainAnswers.peer plainClient) =
        (sentBytes (streamText plainClient (bytes "/z"))
          (plainClient.streamGetCalls (bytes "/z") true plainText_size plainAnswers).calls, s,
          .ok plainResponse) ∧
      s.bodyStream = bodies (writes
        (plainClient.streamGetCalls (bytes "/z") true plainText_size plainAnswers).calls) ∧
      s.statusStream = statuses (writes
        (plainClient.streamGetCalls (bytes "/z") true plainText_size plainAnswers).calls) :=
  (requests_refine plainClient plainAnswers).2 (bytes "/z") true plainText_size _ plainText_taken
    plainAnswers_result

/-! ## The body without delay -/

/-- The status line is written once the header block is there, and behind it every byte of the body
that has been received. -/
def Streamed (hasStatusStream : Bool) (calls : List ExchangeCall) : Prop :=
  match find sep (receivedBytes calls) with
  | none => writes calls = []
  | some bodyPos => ∃ response, ∃ bs : List Bytes,
    parseHeaderBlock ((receivedBytes calls).take bodyPos) = .ok response ∧
    writes calls =
      (if hasStatusStream then [.status (statusText response)] else []) ++ bs.map .body ∧
    bs.flatten = (receivedBytes calls).drop (bodyPos + sep.length)

/-- The variables of the loop say whether the header block is there. -/
structure StreamsWith (hasStatusStream : Bool) (v : StreamVars) (calls : List ExchangeCall) :
    Prop where
  streamed : Streamed hasStatusStream calls
  complete : v.headersComplete = (find sep (receivedBytes calls)).isSome
  pending : v.headersComplete = false → v.rawHeaders = receivedBytes calls

section Prompt

variable {hasStatusStream : Bool} {v v' : StreamVars} {calls : List ExchangeCall}
  {ws : List StreamWrite} {buf : Bytes}

theorem StreamsWith.congr {calls' : List ExchangeCall}
    (h : StreamsWith hasStatusStream v calls)
    (hreceived : receivedBytes calls' = receivedBytes calls)
    (hwritten : writes calls' = writes calls) : StreamsWith hasStatusStream v calls' := by
  obtain ⟨hstreamed, hcomplete, hpending⟩ := h
  refine ⟨?_, by rw [hreceived]; exact hcomplete, by rw [hreceived]; exact hpending⟩
  rw [Streamed, hreceived, hwritten]
  exact hstreamed

/-- An interrupted call changes nothing. -/
theorem StreamsWith.again (h : StreamsWith hasStatusStream v calls) (descriptor errno : Nat) :
    StreamsWith hasStatusStream v (calls ++ [.recv descriptor (.failed errno)]) :=
  h.congr (by simp [receivedBytes, ExchangeCall.received]) (by simp)

theorem StreamsWith.chunk (h : StreamsWith hasStatusStream v calls) (descriptor : Nat)
    (hchunk : (streamReader hasStatusStream).chunk v buf = (ws, .ok v')) :
    StreamsWith hasStatusStream v'
      (calls ++ [.recv descriptor (.received buf)] ++ ws.map .write) := by
  obtain ⟨hstreamed, hcomplete, hpending⟩ := h
  have hreceived : receivedBytes (calls ++ [.recv descriptor (.received buf)] ++ ws.map .write) =
      receivedBytes calls ++ buf := by
    rw [receivedBytes_append, receivedBytes_write, receivedBytes_append]
    simp [receivedBytes, ExchangeCall.received]
  have hwrites : writes (calls ++ [.recv descriptor (.received buf)] ++ ws.map .write) =
      writes calls ++ ws := by
    rw [writes_append, writes_append, writes_write, writes_recv, writes_nil, List.append_nil]
  cases hv : v.headersComplete with
  | true =>
    simp only [streamReader, hv, if_true, Prod.mk.injEq, Except.ok.injEq] at hchunk
    obtain ⟨rfl, rfl⟩ := hchunk
    rw [hv, eq_comm, Option.isSome_iff_exists] at hcomplete
    obtain ⟨bodyPos, hfind⟩ := hcomplete
    have hplace := (find_eq_some_iff.1 hfind).1
    simp only [Streamed, hfind] at hstreamed
    obtain ⟨response, bs, hparse, hwritten, hbody⟩ := hstreamed
    have hfind' := find_append hfind buf
    refine ⟨?_, by rw [hreceived, hfind', hv]; rfl, by simp [hv]⟩
    simp only [Streamed, hreceived, hfind', hwrites]
    refine ⟨response, bs ++ [buf], ?_, by simp [hwritten], ?_⟩
    · rw [List.take_append_of_le_length hplace.1, hparse]
    · rw [List.flatten_append, hbody, List.drop_append_of_le_length hplace.length_le]
      simp
  | false =>
    have hraw := hpending hv
    have hnone : find sep (receivedBytes calls) = none := by
      rw [hv, eq_comm, Option.isSome_eq_false_iff, Option.isNone_iff_eq_none] at hcomplete
      exact hcomplete
    simp only [Streamed, hnone] at hstreamed
    simp only [streamReader, hv, hraw, Bool.false_eq_true, if_false] at hchunk
    cases hfind : find sep (receivedBytes calls ++ buf) with
    | none =>
      simp only [hfind, Prod.mk.injEq, Except.ok.injEq] at hchunk
      obtain ⟨rfl, rfl⟩ := hchunk
      refine ⟨?_, by rw [hreceived, hfind]; rfl, fun _ => hreceived.symm⟩
      simp only [Streamed, hreceived, hfind, hwrites, hstreamed, List.append_nil]
    | some bodyPos =>
      simp only [hfind] at hchunk
      cases hparse : parseHeaderBlock ((receivedBytes calls ++ buf).take bodyPos) with
      | error e => simp [hparse] at hchunk
      | ok response =>
        simp only [hparse, Prod.mk.injEq, Except.ok.injEq] at hchunk
        obtain ⟨rfl, rfl⟩ := hchunk
        refine ⟨?_, by rw [hreceived, hfind]; rfl, by simp⟩
        simp only [Streamed, hreceived, hfind, hwrites, hstreamed, List.nil_append]
        by_cases hbody : (receivedBytes calls ++ buf).drop (bodyPos + sep.length) = []
        · exact ⟨response, [], hparse, by simp [hbody], by simp [hbody]⟩
        · exact ⟨response, [_], hparse, by rw [if_pos hbody]; rfl, by simp⟩

/-- The receive loop of `stream_get`. -/
theorem receiveCalls_streams (descriptor : Nat) (hasStatusStream : Bool) (v : StreamVars)
    (answers : List RecvAnswer) :
    Routine.Triple
      (fun calls => AtRecv (Streamed hasStatusStream) calls ∧ StreamsWith hasStatusStream v calls)
      (receiveCalls descriptor (streamReader hasStatusStream) v answers)
      fun _ calls => AtRecv (Streamed hasStatusStream) calls := by
  induction answers generalizing v with
  | nil => exact .wait fun calls h => h.1
  | cons answer answers ih =>
    cases answer with
    | failed errno =>
      refine .make_bind ?_
      split
      · refine (ih v).conseq ?_ fun _ _ h => h
        rintro _ ⟨before, ⟨hat, hwith⟩, rfl⟩
        exact ⟨hat.recv hwith.streamed _ _, hwith.again _ _⟩
      · refine .throw ?_
        rintro _ ⟨before, ⟨hat, hwith⟩, rfl⟩
        exact hat.recv hwith.streamed _ _
    | received buf =>
      refine .make_bind ?_
      split
      · refine .ofExcept ?_
        rintro _ ⟨before, ⟨hat, hwith⟩, rfl⟩
        exact hat.recv hwith.streamed _ _
      · refine .make_bind ?_
        cases hchunk : (streamReader hasStatusStream).chunk v buf with
        | mk ws next =>
          cases next with
          | error e =>
            refine .throw ?_
            rintro _ ⟨_, ⟨before, ⟨hat, hwith⟩, rfl⟩, rfl⟩
            exact (hat.recv hwith.streamed _ _).quiet (by simp)
          | ok v' =>
            refine (ih v').conseq ?_ fun _ _ h => h
            rintro _ ⟨_, ⟨before, ⟨hat, hwith⟩, rfl⟩, rfl⟩
            exact ⟨(hat.recv hwith.streamed _ _).quiet (by simp), hwith.chunk descriptor hchunk⟩

end Prompt

/-- `stream_get` keeps nothing back: whenever it waits for more, or returns, every byte of the body
that has come in is written to the stream of the caller, in its order and behind the status line. -/
theorem streamGet_prompt (c : HttpClient) (path : Bytes) (hasStatusStream : Bool)
    (hsize : (streamText c path).length < 2 ^ 64) (k : SystemAnswers) :
    AtRecv (Streamed hasStatusStream) (c.streamGetCalls path hasStatusStream hsize k).calls := by
  rw [HttpClient.streamGetCalls]
  split
  · exact AtRecv.nil
  · let Ready := fun calls => AtRecv (Streamed hasStatusStream) calls ∧
      StreamsWith hasStatusStream {} calls
    have hconnect : Routine.Triple (· = []) (c.connectCalls k) fun _ => Ready := by
      rintro _ rfl
      have hstart : StreamsWith hasStatusStream {} [] := ⟨rfl, rfl, fun _ => rfl⟩
      exact ⟨AtRecv.nil.quiet (by simp [HttpClient.connectCalls]),
        hstart.congr (receivedBytes_connect _) (writes_connect _)⟩
    have hsend : ∀ sock, Routine.Triple Ready
        (sendCalls sock ⟨streamText c path, hsize⟩ k.send) fun _ => Ready := by
      rintro sock before ⟨hat, hwith⟩
      refine ⟨hat.quiet (by simp [sendCalls]), hwith.congr ?_ ?_⟩
      · rw [receivedBytes_append, sendCalls, receivedBytes_send, List.append_nil]
      · rw [writes_append, sendCalls, writes_send, List.append_nil]
    have hrest : ∀ sock, Routine.Triple Ready
        (sendCalls sock ⟨streamText c path, hsize⟩ k.send >>= fun _ =>
          receiveCalls sock (streamReader hasStatusStream) {} k.recv)
        fun _ => AtRecv (Streamed hasStatusStream) := fun sock =>
      .bind (hsend sock) (fun _ => receiveCalls_streams sock hasStatusStream {} k.recv)
        (fun _ _ h => h.1) (fun _ h => h.1)
    have hall : Routine.Triple (· = [])
        (c.exchange ⟨streamText c path, hsize⟩ (streamReader hasStatusStream) {} k)
        fun _ => AtRecv (Streamed hasStatusStream) := by
      refine .bind hconnect ?_ (fun _ _ h => h.1) (fun _ h => h.1)
      intro sock
      exact .onExit (hrest sock) (fun _ h => h) (fun _ _ h => h.quiet (by simp))
    exact hall [] rfl

theorem streamGet_prompt_plain :
    bodies (writes
      (plainClient.streamGetCalls (bytes "/z") true plainText_size plainAnswers).calls) =
        [bytes "B"] ∧
    AtRecv (Streamed true)
      (plainClient.streamGetCalls (bytes "/z") true plainText_size plainAnswers).calls :=
  ⟨rfl, streamGet_prompt plainClient (bytes "/z") true plainText_size plainAnswers⟩

end MechLidar
