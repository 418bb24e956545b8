import MechLidar.Lib.Find
import MechLidar.Lib.IStream
import MechLidar.Socket

/-!
# MechLidar.Http

`HttpClient` (`http_client.cpp`). What the other side does during one request is the input: how
`connect_socket` ends, and the answers of `send` and `recv`, where the end of the list of `recv`
answers is the end of the connection.

* `parseResponse`: `parse_response`, one parser for the whole response
* `HttpClient.request`: receives everything, then parses
* `HttpClient.streamGet`: parses as soon as the separator has arrived and passes the rest on
-/

namespace MechLidar

open Lib

/-- The bytes of an ASCII literal. -/
def bytes (s : String) : Bytes := s.toList.map fun c => c.toNat.toUInt8

def crlf : Bytes := bytes "\r\n"

def sep : Bytes := bytes "\r\n\r\n"

inductive HttpError where
  | invalidArgument (what : Bytes)
  | runtimeError (what : Bytes)
  | system (e : SystemError)
deriving DecidableEq, Repr

structure HttpResponse where
  statusCode : Int := 0
  reason : Bytes := []
  headers : Bytes := []
  body : Bytes := []
deriving DecidableEq, Repr

/-! ## Parsing a response -/

/-- `if (reason[0] == ' ') reason.erase(0, 1); if (reason.back() == '\r') reason.pop_back();` -/
def trimReason (reason : Bytes) : Bytes :=
  let reason := if reason.head? = some 32 then reason.tail else reason
  if reason.getLast? = some 13 then reason.dropLast else reason

def parseResponse (raw : Bytes) : Except HttpError HttpResponse :=
  match find sep raw with
  | none => .error (.runtimeError (bytes "Malformed HTTP response: no header/body split"))
  | some bodyPos =>
    let headers := raw.take bodyPos
    let body := raw.drop (bodyPos + sep.length)
    let (httpVersion, stream) := IStream.string ⟨headers, false, false⟩ []
    let (statusCode, stream) := stream.int 0
    let (reason, _) := stream.getline []
    if find (bytes "HTTP/") httpVersion ≠ some 0 ∨ statusCode ≤ 0 then
      .error (.runtimeError (bytes "Malformed HTTP status line"))
    else .ok { statusCode, reason := trimReason reason, headers, body }

example : parseResponse (bytes "HTTP/1.0 404 Not found\r\nX: y\r\n\r\nB") =
    .ok ⟨404, bytes "Not found", bytes "HTTP/1.0 404 Not found\r\nX: y", bytes "B"⟩ := by decide

def parseHeaderBlock (headers : Bytes) : Except HttpError HttpResponse :=
  parseResponse (headers ++ sep)

/-! ## The other side -/

inductive SendAnswer where
  | failed (errno : Nat)
  | accepted (n : Nat)
deriving DecidableEq, Repr

/-- `recv` fails, or returns the number of bytes of `buf`, which is zero at the end. -/
inductive RecvAnswer where
  | failed (errno : Nat)
  | received (buf : Bytes)
deriving DecidableEq, Repr

structure Peer where
  connect : Except HttpError Unit := .ok ()
  send : List SendAnswer := []
  recv : List RecvAnswer

/-- What was sent, and how the function ends. A kernel with no more answers takes everything. -/
def sendAll (data : Bytes) : List SendAnswer → Bytes × Except HttpError Unit
  | [] => (data, .ok ())
  | answer :: answers =>
    if data = [] then ([], .ok ())
    else
      match answer with
      | .failed errno =>
        if errno = EINTR then sendAll data answers
        else ([], .error (.system ⟨errno, "send() failed"⟩))
      | .accepted n =>
        if n = 0 then ([], .error (.runtimeError (bytes "send() returned zero bytes")))
        else
          let (sent, result) := sendAll (data.drop n) answers
          (data.take n ++ sent, result)

/-- What `recv` makes the caller throw, unless it was interrupted. -/
def recvError (errno : Nat) : HttpError :=
  if errno = EAGAIN then .runtimeError (bytes "HTTP response timeout")
  else .system ⟨errno, "recv() failed"⟩

/-! ## The client -/

structure HttpClient where
  mHost : Bytes
  mPort : Int
  mTimeoutMs : Int
deriving DecidableEq, Repr

def httpClient (host : Bytes) (port timeoutMs : Int) : Except HttpError HttpClient :=
  if host = [] then .error (.invalidArgument (bytes "HTTP host is empty"))
  else if port ≤ 0 ∨ 65535 < port then .error (.invalidArgument (bytes "HTTP port is out of range"))
  else if timeoutMs ≤ 0 then .error (.invalidArgument (bytes "HTTP timeout must be positive"))
  else .ok ⟨host, port, timeoutMs⟩

def badPath (path : Bytes) : Bool := path.head? ≠ some 47

def requestText (c : HttpClient) (method path body : Bytes) : Bytes :=
  method ++ bytes " " ++ path ++ bytes " HTTP/1.0\r\n" ++
  bytes "Host: " ++ c.mHost ++ bytes "\r\n" ++
  bytes "Connection: close\r\n" ++
  (if method = bytes "POST" then
    bytes "Content-Type: application/json\r\n" ++
    bytes "Content-Length: " ++ bytes (toString body.length) ++ bytes "\r\n"
  else []) ++
  bytes "\r\n" ++ body

def streamText (c : HttpClient) (path : Bytes) : Bytes :=
  bytes "GET " ++ path ++ bytes " HTTP/1.0\r\n" ++
  bytes "Host: " ++ c.mHost ++ bytes "\r\n" ++
  bytes "Connection: close\r\n" ++
  bytes "\r\n"

/-- `stream_get` sends what `get` sends. -/
theorem streamText_eq (c : HttpClient) (path : Bytes) :
    streamText c path = requestText c (bytes "GET") path [] := by
  have hget : bytes "GET " = bytes "GET" ++ bytes " " := by decide
  have hpost : bytes "GET" ≠ bytes "POST" := by decide
  rw [streamText, requestText, hget, if_neg hpost, List.append_nil, List.append_nil]

def receiveAll (rawResponse : Bytes) : List RecvAnswer → Except HttpError Bytes
  | [] => .ok rawResponse
  | .failed errno :: answers =>
    if errno = EINTR then receiveAll rawResponse answers else .error (recvError errno)
  | .received buf :: answers =>
    if buf = [] then .ok rawResponse else receiveAll (rawResponse ++ buf) answers

/-- The bytes sent, and the response or what is thrown. -/
def HttpClient.request (c : HttpClient) (method path body : Bytes) (peer : Peer) :
    Bytes × Except HttpError HttpResponse :=
  if badPath path then ([], .error (.invalidArgument (bytes "HTTP path must start with '/'")))
  else
    match peer.connect with
    | .error e => ([], .error e)
    | .ok () =>
      match sendAll (requestText c method path body) peer.send with
      | (sent, .error e) => (sent, .error e)
      | (sent, .ok ()) => (sent, receiveAll [] peer.recv >>= parseResponse)

def HttpClient.get (c : HttpClient) (path : Bytes) (peer : Peer) :
    Bytes × Except HttpError HttpResponse :=
  c.request (bytes "GET") path [] peer

def HttpClient.post (c : HttpClient) (path body : Bytes) (peer : Peer) :
    Bytes × Except HttpError HttpResponse :=
  c.request (bytes "POST") path body peer

/-! ## The streaming request -/

/-- The variables of the receive loop, and the writes to the two streams of the caller. -/
structure StreamState where
  rawHeaders : Bytes := []
  headersComplete : Bool := false
  response : HttpResponse := {}
  bodyStream : List Bytes := []
  statusStream : List Bytes := []
deriving DecidableEq, Repr

def statusText (response : HttpResponse) : Bytes :=
  bytes "HTTP " ++ bytes (toString response.statusCode) ++
  (if response.reason ≠ [] then bytes " " ++ response.reason else []) ++ bytes "\n"

/-- One received chunk. -/
def streamChunk (hasStatusStream : Bool) (s : StreamState) (buf : Bytes) :
    Except HttpError StreamState :=
  if s.headersComplete then .ok { s with bodyStream := s.bodyStream ++ [buf] }
  else
    let rawHeaders := s.rawHeaders ++ buf
    match find sep rawHeaders with
    | none => .ok { s with rawHeaders }
    | some bodyPos =>
      match parseHeaderBlock (rawHeaders.take bodyPos) with
      | .error e => .error e
      | .ok response =>
        let firstBody := rawHeaders.drop (bodyPos + sep.length)
        .ok { rawHeaders, response, headersComplete := true
              statusStream := s.statusStream ++
                if hasStatusStream then [statusText response] else []
              bodyStream := s.bodyStream ++ if firstBody ≠ [] then [firstBody] else [] }

/-- The loop of `stream_get` up to its end, or up to what is thrown. -/
def streamLoop (hasStatusStream : Bool) (s : StreamState) :
    List RecvAnswer → StreamState × Except HttpError HttpResponse
  | [] => streamEnd s
  | .failed errno :: answers =>
    if errno = EINTR then streamLoop hasStatusStream s answers else (s, .error (recvError errno))
  | .received buf :: answers =>
    if buf = [] then streamEnd s
    else
      match streamChunk hasStatusStream s buf with
      | .error e => (s, .error e)
      | .ok s => streamLoop hasStatusStream s answers
where
  streamEnd (s : StreamState) : StreamState × Except HttpError HttpResponse :=
    (s, if s.headersComplete then .ok s.response
        else .error (.runtimeError (bytes "Malformed HTTP response: no header/body split")))

/-- The bytes sent, the writes to the streams, and the response or what is thrown. -/
def HttpClient.streamGet (c : HttpClient) (path : Bytes) (hasStatusStream : Bool) (peer : Peer) :
    Bytes × StreamState × Except HttpError HttpResponse :=
  if badPath path then ([], {}, .error (.invalidArgument (bytes "HTTP path must start with '/'")))
  else
    match peer.connect with
    | .error e => ([], {}, .error e)
    | .ok () =>
      match sendAll (streamText c path) peer.send with
      | (sent, .error e) => (sent, {}, .error e)
      | (sent, .ok ()) => (sent, streamLoop hasStatusStream {} peer.recv)

end MechLidar
