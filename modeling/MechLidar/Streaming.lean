import MechLidar.Http

/-!
# MechLidar.Streaming

`stream_get` against `get`, for every way `recv` cuts what the server has sent.

* `Chunking`: the answers of `recv` for a byte string, in chunks, with interruptions in between
* `receiveAll_chunking`, `streamLoop_chunking`: what the two loops make of it. Both depend on the
  byte string alone; the invariant of `stream_get` is that the separator is not in `raw_headers`
  until the header block is parsed.
* `streamGet_agrees`: the two calls agree
-/

namespace MechLidar

open Lib

/-- The answers of `recv` to a server that sends `sent` and closes. -/
inductive Chunking : Bytes → List RecvAnswer → Prop where
  | closed : Chunking [] []
  | interrupted {sent answers} : Chunking sent answers →
      Chunking sent (.failed EINTR :: answers)
  | chunk {buf sent answers} : buf ≠ [] → buf.length ≤ 2048 → Chunking sent answers →
      Chunking (buf ++ sent) (.received buf :: answers)

/-- What the caller of `stream_get` sees, against what the caller of `get` sees. -/
def StreamAgrees (hasStatusStream : Bool) (s : StreamState) :
    Except HttpError HttpResponse → Except HttpError HttpResponse → Prop
  | .error e, .error e' => e = e' ∧ s.bodyStream = [] ∧ s.statusStream = []
  | .ok streamed, .ok got =>
    streamed.statusCode = got.statusCode ∧ streamed.reason = got.reason ∧
    streamed.headers = got.headers ∧ streamed.body = [] ∧ s.bodyStream.flatten = got.body ∧
    s.statusStream = if hasStatusStream then [statusText got] else []
  | _, _ => False

/-! ## The parser, cut at the separator -/

/-- The header block alone decides how a response is parsed. -/
theorem parseResponse_eq {raw : Bytes} {bodyPos : Nat} (h : find sep raw = some bodyPos) :
    parseResponse raw = (parseHeaderBlock (raw.take bodyPos)).map
      fun r => { r with body := raw.drop (bodyPos + sep.length) } := by
  have hcut := find_take_append h
  have hlen : (raw.take bodyPos).length = bodyPos := by
    rw [List.length_take, Nat.min_eq_left (find_eq_some_iff.1 h).1.1]
  have htake : (raw.take bodyPos ++ sep).take bodyPos = raw.take bodyPos := by
    rw [List.take_left' hlen]
  simp only [parseHeaderBlock, parseResponse, h, hcut, htake]
  split
  · rfl
  · rfl

theorem parseHeaderBlock_body {raw : Bytes} {bodyPos : Nat} (h : find sep raw = some bodyPos)
    {r : HttpResponse} (hr : parseHeaderBlock (raw.take bodyPos) = .ok r) : r.body = [] := by
  have hlen : (raw.take bodyPos).length = bodyPos := by
    rw [List.length_take, Nat.min_eq_left (find_eq_some_iff.1 h).1.1]
  have hdrop : (raw.take bodyPos ++ sep).drop (bodyPos + sep.length) = [] := by
    rw [← List.drop_drop, List.drop_left' hlen, List.drop_length]
  simp only [parseHeaderBlock, parseResponse, find_take_append h] at hr
  split at hr
  · cases hr
  · cases hr
    exact hdrop

/-! ## The two loops -/

theorem receiveAll_chunking {sent : Bytes} {answers : List RecvAnswer}
    (h : Chunking sent answers) (raw : Bytes) : receiveAll raw answers = .ok (raw ++ sent) := by
  induction h generalizing raw with
  | closed => simp [receiveAll]
  | interrupted _ ih => simp [receiveAll, ih]
  | chunk hne _ _ ih => simp [receiveAll, hne, ih]

theorem streamLoop_ok {hasStatusStream : Bool} {s s' : StreamState} {buf : Bytes}
    {answers : List RecvAnswer} (hne : buf ≠ []) (h : streamChunk hasStatusStream s buf = .ok s') :
    streamLoop hasStatusStream s (.received buf :: answers) =
      streamLoop hasStatusStream s' answers := by
  simp only [streamLoop, if_neg hne, h]

theorem streamLoop_throws {hasStatusStream : Bool} {s : StreamState} {buf : Bytes}
    {answers : List RecvAnswer} {e : HttpError} (hne : buf ≠ [])
    (h : streamChunk hasStatusStream s buf = .error e) :
    streamLoop hasStatusStream s (.received buf :: answers) = (s, .error e) := by
  simp only [streamLoop, if_neg hne, h]

/-- The state behind the chunk in which the header block ends. -/
def headersParsed (hasStatusStream : Bool) (rawHeaders firstBody : Bytes)
    (response : HttpResponse) : StreamState where
  rawHeaders := rawHeaders
  headersComplete := true
  response := response
  bodyStream := if firstBody ≠ [] then [firstBody] else []
  statusStream := if hasStatusStream then [statusText response] else []

theorem streamChunk_found (hasStatusStream : Bool) {s : StreamState} {buf : Bytes} {bodyPos : Nat}
    (hs : s.headersComplete = false) (hbody : s.bodyStream = []) (hstatus : s.statusStream = [])
    (hfind : find sep (s.rawHeaders ++ buf) = some bodyPos) :
    streamChunk hasStatusStream s buf =
      (parseHeaderBlock ((s.rawHeaders ++ buf).take bodyPos)).map
        (headersParsed hasStatusStream (s.rawHeaders ++ buf)
          ((s.rawHeaders ++ buf).drop (bodyPos + sep.length))) := by
  simp only [streamChunk, hs, hfind, hbody, hstatus, Bool.false_eq_true, if_false]
  cases parseHeaderBlock ((s.rawHeaders ++ buf).take bodyPos) with
  | error e => rfl
  | ok response => rfl

/-- Behind the header block everything is passed through. -/
theorem streamLoop_passes {sent : Bytes} {answers : List RecvAnswer} (h : Chunking sent answers)
    (hasStatusStream : Bool) {s : StreamState} (hs : s.headersComplete = true) :
    (streamLoop hasStatusStream s answers).2 = .ok s.response ∧
    (streamLoop hasStatusStream s answers).1.bodyStream.flatten = s.bodyStream.flatten ++ sent ∧
    (streamLoop hasStatusStream s answers).1.statusStream = s.statusStream := by
  induction h generalizing s with
  | closed => simp [streamLoop, streamLoop.streamEnd, hs]
  | interrupted _ ih => simpa [streamLoop] using ih hs
  | @chunk buf sent answers hne _ _ ih =>
    have hchunk : streamChunk hasStatusStream s buf =
        .ok { s with bodyStream := s.bodyStream ++ [buf] } := by
      rw [streamChunk, if_pos hs]
    rw [streamLoop_ok hne hchunk]
    obtain ⟨hresult, hwrites, hstatus⟩ := 
      ih (s := { s with bodyStream := s.bodyStream ++ [buf] }) hs
    exact ⟨hresult, by simpa using hwrites, hstatus⟩

theorem streamLoop_chunking {sent : Bytes} {answers : List RecvAnswer}
    (h : Chunking sent answers) {hasStatusStream : Bool} {s : StreamState}
    (hs : s.headersComplete = false) (hbody : s.bodyStream = []) (hstatus : s.statusStream = [])
    (hpending : find sep s.rawHeaders = none) :
    StreamAgrees hasStatusStream (streamLoop hasStatusStream s answers).1
      (streamLoop hasStatusStream s answers).2 (parseResponse (s.rawHeaders ++ sent)) := by
  induction h generalizing s with
  | closed =>
    simp [streamLoop, streamLoop.streamEnd, hs, parseResponse, hpending, StreamAgrees, hbody,
      hstatus]
  | interrupted _ ih => simpa [streamLoop] using ih hs hbody hstatus hpending
  | @chunk buf sent answers hne _ hrest ih =>
    rw [← List.append_assoc]
    cases hfind : find sep (s.rawHeaders ++ buf) with
    | none =>
      have hchunk : streamChunk hasStatusStream s buf =
          .ok { s with rawHeaders := s.rawHeaders ++ buf } := by
        simp [streamChunk, hs, hfind]
      rw [streamLoop_ok hne hchunk]
      exact ih hs hbody hstatus hfind
    | some bodyPos =>
      -- the separator ends in this chunk: it stays the first one, whatever follows
      have hplace := (find_eq_some_iff.1 hfind).1
      have hchunk := streamChunk_found hasStatusStream hs hbody hstatus hfind
      rw [parseResponse_eq (find_append hfind sent),
        List.take_append_of_le_length hplace.1, List.drop_append_of_le_length hplace.length_le]
      cases hparse : parseHeaderBlock ((s.rawHeaders ++ buf).take bodyPos) with
      | error e =>
        rw [hparse] at hchunk
        rw [streamLoop_throws hne hchunk]
        exact ⟨rfl, hbody, hstatus⟩
      | ok response =>
        rw [hparse] at hchunk
        rw [streamLoop_ok hne hchunk]
        obtain ⟨hresult, hwrites, hstatusText⟩ := streamLoop_passes hrest hasStatusStream
          (s := headersParsed hasStatusStream (s.rawHeaders ++ buf)
            ((s.rawHeaders ++ buf).drop (bodyPos + sep.length)) response) rfl
        rw [hresult]
        refine ⟨rfl, rfl, rfl, parseHeaderBlock_body hfind hparse, ?_, hstatusText⟩
        rw [hwrites]
        congr 1
        simp only [headersParsed]
        split <;> simp_all

/-- The two calls agree on what the server sends, whichever way `recv` cuts it for each of them,
and whatever becomes of the connection and of the request. -/
theorem streamGet_agrees (c : HttpClient) (path : Bytes) (hasStatusStream : Bool)
    {response : Bytes} {peer peer' : Peer} (hconnect : peer'.connect = peer.connect)
    (hsend : peer'.send = peer.send) (h : Chunking response peer.recv)
    (h' : Chunking response peer'.recv) :
    StreamAgrees hasStatusStream (c.streamGet path hasStatusStream peer').2.1
      (c.streamGet path hasStatusStream peer').2.2 (c.get path peer).2 := by
  simp only [HttpClient.streamGet, HttpClient.get, HttpClient.request, hconnect, hsend,
    streamText_eq]
  split
  · exact ⟨rfl, rfl, rfl⟩
  · split
    · exact ⟨rfl, rfl, rfl⟩
    · split
      · exact ⟨rfl, rfl, rfl⟩
      · rw [receiveAll_chunking h []]
        exact streamLoop_chunking h' rfl rfl rfl (by decide)

/-- A response whose separator is cut in two, with an interruption there, and whose body holds the
separator again. -/
def splitPeer : Peer where
  recv := [.received (bytes "HTTP/1.0 200 OK\r\n\r"), .failed EINTR,
    .received (bytes "\nA\r\n\r\nB")]

def wholePeer : Peer where
  recv := [.received (bytes "HTTP/1.0 200 OK\r\n\r\nA\r\n\r\nB")]

theorem wholePeer_chunking :
    Chunking (bytes "HTTP/1.0 200 OK\r\n\r\nA\r\n\r\nB" ++ []) wholePeer.recv :=
  .chunk (by decide) (by decide) .closed

theorem splitPeer_chunking :
    Chunking (bytes "HTTP/1.0 200 OK\r\n\r\nA\r\n\r\nB" ++ []) splitPeer.recv := by
  have hcut : bytes "HTTP/1.0 200 OK\r\n\r\nA\r\n\r\nB" ++ [] =
      bytes "HTTP/1.0 200 OK\r\n\r" ++ (bytes "\nA\r\n\r\nB" ++ []) := by decide
  rw [hcut]
  exact .chunk (by decide) (by decide) (.interrupted (.chunk (by decide) (by decide) .closed))

/-- Both calls return, and the stream has got the whole body, in the chunks it came in. -/
theorem streamGet_agrees_split :
    let c := HttpClient.mk (bytes "127.0.0.1") 80 1000
    let streamed := c.streamGet (bytes "/events") true splitPeer
    let got := (c.get (bytes "/events") wholePeer).2
    StreamAgrees true streamed.2.1 streamed.2.2 got ∧
      got = .ok ⟨200, bytes "OK", bytes "HTTP/1.0 200 OK", bytes "A\r\n\r\nB"⟩ ∧
      streamed.2.2 = .ok ⟨200, bytes "OK", bytes "HTTP/1.0 200 OK", []⟩ ∧
      streamed.2.1.bodyStream = [bytes "A\r\n\r\nB"] ∧
      streamed.2.1.statusStream = [bytes "HTTP 200 OK\n"] :=
  ⟨streamGet_agrees _ _ _ rfl rfl wholePeer_chunking splitPeer_chunking, by decide, by decide,
    by decide, by decide⟩

end MechLidar
