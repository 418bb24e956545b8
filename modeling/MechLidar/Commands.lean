import MechLidar.Requests
import MechLidar.Streaming

/-!
# MechLidar.Commands

What becomes of an HTTP command, whatever the connection, the kernel and the other side do: what is
printed, and the exit code.

* `Peer.answer`: the bytes that come back to a request
* `streamLoop_receives`: `stream_get` throws exactly if `get` does, also when `recv` fails
* `command_run`: the exit code and the output of every accepted command line
-/

namespace MechLidar

open Lib

/-! ## Receiving -/

/-- Behind the header block, for any answers of `recv`. -/
theorem streamLoop_body (hasStatusStream : Bool) {s : StreamState} (raw : Bytes)
    (answers : List RecvAnswer) (hs : s.headersComplete = true) :
    (∃ sent, receiveAll raw answers = .ok (raw ++ sent) ∧
      (streamLoop hasStatusStream s answers).2 = .ok s.response ∧
      (streamLoop hasStatusStream s answers).1.bodyStream.flatten =
        s.bodyStream.flatten ++ sent ∧
      (streamLoop hasStatusStream s answers).1.statusStream = s.statusStream) ∨
    ∃ e, receiveAll raw answers = .error e ∧
      (streamLoop hasStatusStream s answers).2 = .error e := by
  induction answers generalizing s raw with
  | nil => exact .inl ⟨[], by simp [receiveAll, streamLoop, streamLoop.streamEnd, hs]⟩
  | cons answer answers ih =>
    cases answer with
    | failed errno =>
      by_cases hintr : errno = EINTR
      · simpa [receiveAll, streamLoop, hintr] using ih raw hs
      · exact .inr ⟨recvError errno, by simp [receiveAll, streamLoop, hintr]⟩
    | received buf =>
      by_cases hend : buf = []
      · exact .inl ⟨[], by simp [receiveAll, streamLoop, streamLoop.streamEnd, hend, hs]⟩
      · have hchunk : streamChunk hasStatusStream s buf =
            .ok { s with bodyStream := s.bodyStream ++ [buf] } := by
          rw [streamChunk, if_pos hs]
        rw [streamLoop_ok hend hchunk]
        simp only [receiveAll, if_neg hend]
        rcases ih (s := { s with bodyStream := s.bodyStream ++ [buf] }) (raw ++ buf) hs with
          ⟨sent, hraw, hresult, hbody, hstatus⟩ | hthrows
        · exact .inl ⟨buf ++ sent, by simp [hraw], hresult, by simp [hbody], hstatus⟩
        · exact .inr hthrows

section Receives

variable {hasStatusStream : Bool} {s : StreamState} (hs : s.headersComplete = false)
  (hbody : s.bodyStream = []) (hstatus : s.statusStream = [])
include hs hbody hstatus

/-- The header block ends in `buf`. -/
theorem streamLoop_found {buf : Bytes} {bodyPos : Nat} (answers : List RecvAnswer)
    (hne : buf ≠ []) (hfind : find sep (s.rawHeaders ++ buf) = some bodyPos) :
    (∃ raw, receiveAll (s.rawHeaders ++ buf) answers = .ok raw ∧
      StreamAgrees hasStatusStream (streamLoop hasStatusStream s (.received buf :: answers)).1
        (streamLoop hasStatusStream s (.received buf :: answers)).2 (parseResponse raw)) ∨
    (∃ e, receiveAll (s.rawHeaders ++ buf) answers = .error e) ∧
      ∃ e, (streamLoop hasStatusStream s (.received buf :: answers)).2 = .error e := by
  have hplace := (find_eq_some_iff.1 hfind).1
  have hchunk := streamChunk_found hasStatusStream hs hbody hstatus hfind
  have hparsed : ∀ sent, parseResponse (s.rawHeaders ++ buf ++ sent) =
      (parseHeaderBlock ((s.rawHeaders ++ buf).take bodyPos)).map fun r =>
        { r with body := (s.rawHeaders ++ buf).drop (bodyPos + sep.length) ++ sent } := by
    intro sent
    rw [parseResponse_eq (find_append hfind sent), List.take_append_of_le_length hplace.1,
      List.drop_append_of_le_length hplace.length_le]
  cases hparse : parseHeaderBlock ((s.rawHeaders ++ buf).take bodyPos) with
  | error e =>
    rw [hparse] at hchunk
    rw [streamLoop_throws hne hchunk]
    rcases streamLoop_body hasStatusStream (s := { headersComplete := true })
      (s.rawHeaders ++ buf) answers rfl with ⟨sent, hraw, -⟩ | ⟨e', hthrows, -⟩
    · refine .inl ⟨_, hraw, ?_⟩
      rw [hparsed sent, hparse]
      exact ⟨rfl, hbody, hstatus⟩
    · exact .inr ⟨⟨e', hthrows⟩, e, rfl⟩
  | ok response =>
    rw [hparse] at hchunk
    rw [streamLoop_ok hne hchunk]
    rcases streamLoop_body hasStatusStream (s := headersParsed hasStatusStream (s.rawHeaders ++ buf)
      ((s.rawHeaders ++ buf).drop (bodyPos + sep.length)) response) (s.rawHeaders ++ buf)
      answers rfl with ⟨sent, hraw, hresult, hwrites, hstatusText⟩ | ⟨e, hthrows, hresult⟩
    · refine .inl ⟨_, hraw, ?_⟩
      rw [hparsed sent, hparse, hresult]
      refine ⟨rfl, rfl, rfl, parseHeaderBlock_body hfind hparse, ?_, hstatusText⟩
      rw [hwrites]
      congr 1
      simp only [headersParsed]
      split <;> simp_all
    · exact .inr ⟨⟨e, hthrows⟩, e, hresult⟩

/-- `stream_get` and `get` on any answers of `recv`: both throw, or they agree. -/
theorem streamLoop_receives (answers : List RecvAnswer) (hpending : find sep s.rawHeaders = none) :
    (∃ raw, receiveAll s.rawHeaders answers = .ok raw ∧
      StreamAgrees hasStatusStream (streamLoop hasStatusStream s answers).1
        (streamLoop hasStatusStream s answers).2 (parseResponse raw)) ∨
    (∃ e, receiveAll s.rawHeaders answers = .error e) ∧
      ∃ e, (streamLoop hasStatusStream s answers).2 = .error e := by
  have hclosed : ∀ {s : StreamState}, s.headersComplete = false → s.bodyStream = [] →
      s.statusStream = [] → find sep s.rawHeaders = none →
      StreamAgrees hasStatusStream (streamLoop hasStatusStream s []).1
        (streamLoop hasStatusStream s []).2 (parseResponse s.rawHeaders) := by
    intro s hs hbody hstatus hpending
    have hall : StreamAgrees hasStatusStream (streamLoop hasStatusStream s []).1
        (streamLoop hasStatusStream s []).2 (parseResponse (s.rawHeaders ++ [])) :=
      streamLoop_chunking .closed hs hbody hstatus hpending
    simpa using hall
  induction answers generalizing s with
  | nil => exact .inl ⟨s.rawHeaders, rfl, hclosed hs hbody hstatus hpending⟩
  | cons answer answers ih =>
    cases answer with
    | failed errno =>
      by_cases hintr : errno = EINTR
      · simpa [receiveAll, streamLoop, hintr] using ih hs hbody hstatus hpending
      · refine .inr ⟨⟨recvError errno, ?_⟩, recvError errno, ?_⟩
        · simp [receiveAll, hintr]
        · simp [streamLoop, hintr]
    | received buf =>
      by_cases hend : buf = []
      · exact .inl ⟨s.rawHeaders, by simp [receiveAll, hend],
          by simpa [streamLoop, hend] using hclosed hs hbody hstatus hpending⟩
      · simp only [receiveAll, if_neg hend]
        cases hfind : find sep (s.rawHeaders ++ buf) with
        | none =>
          have hchunk : streamChunk hasStatusStream s buf =
              .ok { s with rawHeaders := s.rawHeaders ++ buf } := by
            simp [streamChunk, hs, hfind]
          rw [streamLoop_ok hend hchunk]
          exact ih (s := { s with rawHeaders := s.rawHeaders ++ buf }) hs hbody hstatus hfind
        | some bodyPos => exact streamLoop_found hs hbody hstatus answers hend hfind

end Receives

/-! ## Requests -/

/-- The bytes that come back to a request. -/
def Peer.answer (peer : Peer) (text : Bytes) : Except HttpError Bytes :=
  match peer.connect with
  | .error e => .error e
  | .ok () =>
    match (sendAll text peer.send).2 with
    | .error e => .error e
    | .ok () => receiveAll [] peer.recv

section Client

variable (c : HttpClient) {path : Bytes} (hpath : badPath path = false) (peer : Peer)
include hpath

theorem request_answer (method body : Bytes) :
    (c.request method path body peer).2 =
      peer.answer (requestText c method path body) >>= parseResponse := by
  simp only [HttpClient.request, hpath, Bool.false_eq_true, if_false, Peer.answer]
  cases peer.connect with
  | error e => rfl
  | ok =>
    generalize sendAll (requestText c method path body) peer.send = sent
    obtain ⟨sent, result⟩ := sent
    cases result with
    | error e => rfl
    | ok => rfl

theorem streamGet_answer :
    (∃ raw, peer.answer (requestText c (bytes "GET") path []) = .ok raw ∧
      StreamAgrees true (c.streamGet path true peer).2.1 (c.streamGet path true peer).2.2
        (parseResponse raw)) ∨
    (∃ e, peer.answer (requestText c (bytes "GET") path []) = .error e) ∧
      ∃ e, (c.streamGet path true peer).2.2 = .error e := by
  simp only [HttpClient.streamGet, hpath, Bool.false_eq_true, if_false, Peer.answer, streamText_eq]
  cases peer.connect with
  | error e => exact .inr ⟨⟨e, rfl⟩, e, rfl⟩
  | ok =>
    generalize sendAll (requestText c (bytes "GET") path []) peer.send = sent
    obtain ⟨sent, result⟩ := sent
    cases result with
    | error e => exact .inr ⟨⟨e, rfl⟩, e, rfl⟩
    | ok => exact streamLoop_receives (s := {}) rfl rfl rfl peer.recv (by decide)

end Client

/-! ## Commands -/

/-- The request of the selected command. -/
def requestOf (o : CliOptions) : Bytes :=
  requestText ⟨o.httpHost, o.httpPort, o.httpTimeoutMs⟩ (requestMethod o) (requestTarget o)
    (requestBody o)

/-- The whole of this response arrives, and a download of it can be saved. -/
structure Completes (o : CliOptions) (file : OutputFile) (peer : Peer) (r : HttpResponse) :
    Prop where
  httpHost : o.httpHost ≠ []
  response : peer.answer (requestOf o) >>= parseResponse = .ok r
  saved : o.httpCommand = .download → responseOk r = true → file = .written

/-- What the user sees of a response. -/
def printed (o : CliOptions) (r : HttpResponse) : Bytes :=
  statusText r ++
    if o.httpCommand = .stream then r.body
    else if o.httpCommand = .download ∧ responseOk r then
      bytes "Saved " ++ bytes (toString r.body.length) ++ bytes " bytes to " ++ o.outputPath ++
        bytes "\n"
    else if r.body = [] ∨ r.body.getLast? = some 10 then r.body
    else r.body ++ bytes "\n"

/-- How a command ends. -/
def Ended (o : CliOptions) (file : OutputFile) (peer : Peer) (run : CommandRun) : Prop :=
  (∃ r, Completes o file peer r ∧ run.exitCode = .ok (exitCode r) ∧
    run.output.flatten = printed o r) ∨
  (∀ r, ¬ Completes o file peer r) ∧ ∃ e, run.exitCode = .error e

section Run

variable {o : CliOptions} {file : OutputFile} {peer : Peer}

theorem printResponseBody_flatten (body : Bytes) :
    (printResponseBody body).flatten =
      if body = [] ∨ body.getLast? = some 10 then body else body ++ bytes "\n" := by
  rw [printResponseBody]
  by_cases hempty : body = []
  · simp [hempty]
  · by_cases hline : body.getLast? = some 10
    · simp [hempty, hline]
    · simp [hempty, hline]

/-- A command that is not streamed. -/
theorem ended_printResponse (sent : Bytes) (hhost : o.httpHost ≠ [])
    (hstream : o.httpCommand ≠ .stream) :
    Ended o file peer
      (printResponse o file sent (peer.answer (requestOf o) >>= parseResponse)) := by
  cases hresponse : peer.answer (requestOf o) >>= parseResponse with
  | error e =>
    refine .inr ⟨fun r hr => ?_, e, rfl⟩
    cases hresponse.symm.trans hr.response
  | ok r =>
    rw [printResponse]
    by_cases hdownload : o.httpCommand = .download ∧ responseOk r = true
    · rw [if_pos hdownload]
      cases file with
      | written =>
        refine .inl ⟨r, ⟨hhost, hresponse, fun _ _ => rfl⟩, rfl, ?_⟩
        simp [printed, hdownload, writeBinaryFile]
      | notOpened =>
        refine .inr ⟨fun r' hr' => ?_, _, rfl⟩
        obtain rfl : r = r' := Except.ok.inj (hresponse.symm.trans hr'.response)
        cases hr'.saved hdownload.1 hdownload.2
      | notWritten =>
        refine .inr ⟨fun r' hr' => ?_, _, rfl⟩
        obtain rfl : r = r' := Except.ok.inj (hresponse.symm.trans hr'.response)
        cases hr'.saved hdownload.1 hdownload.2
    · rw [if_neg hdownload]
      refine .inl ⟨r, ⟨hhost, hresponse, fun hd hok => absurd ⟨hd, hok⟩ hdownload⟩, rfl, ?_⟩
      simp [printed, hstream, hdownload, printResponseBody_flatten]

theorem ended_stream (sent : Bytes) (hhost : o.httpHost ≠ []) (hstream : o.httpCommand = .stream)
    (hpath : badPath o.httpPath = false) :
    let (_, s, response) := HttpClient.streamGet ⟨o.httpHost, o.httpPort, o.httpTimeoutMs⟩
      o.httpPath true peer
    Ended o file peer ⟨sent, s.statusStream ++ s.bodyStream, response.map exitCode⟩ := by
  have hrequest : requestOf o = requestText ⟨o.httpHost, o.httpPort, o.httpTimeoutMs⟩
      (bytes "GET") o.httpPath [] := by
    simp [requestOf, requestMethod, requestTarget, requestBody, hstream]
  have hanswer := streamGet_answer ⟨o.httpHost, o.httpPort, o.httpTimeoutMs⟩ hpath peer
  rw [← hrequest] at hanswer
  generalize HttpClient.streamGet ⟨o.httpHost, o.httpPort, o.httpTimeoutMs⟩ o.httpPath true peer =
    run at hanswer
  obtain ⟨_, s, response⟩ := run
  dsimp only at hanswer ⊢
  rcases hanswer with ⟨raw, hraw, hagrees⟩ | ⟨⟨e, he⟩, e', rfl⟩
  · cases hparse : parseResponse raw with
    | error e =>
      cases response with
      | ok streamed => rw [hparse] at hagrees; exact hagrees.elim
      | error e' =>
        refine .inr ⟨fun r hr => ?_, e', rfl⟩
        have hresponse := hr.response
        rw [hraw] at hresponse
        cases hparse.symm.trans hresponse
    | ok r =>
      cases response with
      | error e' => rw [hparse] at hagrees; exact hagrees.elim
      | ok streamed =>
        rw [hparse] at hagrees
        obtain ⟨hcode, -, -, -, hbody, hstatus⟩ := hagrees
        refine .inl ⟨r, ⟨hhost, ?_, fun hdownload => ?_⟩, ?_, ?_⟩
        · rw [hraw]
          exact hparse
        · rw [hstream] at hdownload
          cases hdownload
        · simp [Except.map, exitCode, responseOk, hcode]
        · simp [hstatus, hbody, printed, hstream]
  · refine .inr ⟨fun r hr => ?_, e', rfl⟩
    have hresponse := hr.response
    rw [he] at hresponse
    cases hresponse

/-- The path is one that the client takes. -/
theorem Accepted.badPath_target (ho : Accepted o) (hc : hasHttpCommand o = true) :
    badPath (requestTarget o) = false := by
  by_cases hset : o.httpCommand = .setConfig
  · simp [requestTarget, hset, badPath, bytes]
  · have hnone : o.httpCommand ≠ .none := by simpa [hasHttpCommand] using hc
    have htarget : requestTarget o = o.httpPath := by
      cases hcommand : o.httpCommand with
      | setConfig => exact absurd hcommand hset
      | _ => simp [requestTarget, hcommand]
    rcases ho.path with h | h | h
    · exact absurd h hnone
    · exact absurd h hset
    · simp [htarget, badPath, h.1]

/-- The client that a command is sent with. -/
theorem Accepted.httpClient_ok (ho : Accepted o) (hhost : o.httpHost ≠ []) :
    httpClient o.httpHost o.httpPort o.httpTimeoutMs =
      .ok ⟨o.httpHost, o.httpPort, o.httpTimeoutMs⟩ := by
  have hlow := ho.port_pos
  have hhigh := ho.port_le
  have htimeout := ho.timeout_pos
  rw [httpClient, if_neg hhost, if_neg (by omega), if_neg (by omega)]

theorem ended_runHttpCommand (ho : Accepted o) (hc : hasHttpCommand o = true) :
    Ended o file peer (runHttpCommand o file peer) := by
  by_cases hhost : o.httpHost = []
  · refine .inr ⟨fun r hr => hr.httpHost hhost, ?_⟩
    simp [runHttpCommand, hc, httpClient, hhost]
  · have hpath := ho.badPath_target hc
    simp only [runHttpCommand, hc, Bool.not_true, Bool.false_eq_true, if_false,
      ho.httpClient_ok hhost]
    -- every command but a stream is one request
    have hbuffered : ∀ method body, o.httpCommand ≠ .stream → method = requestMethod o →
        body = requestBody o → Ended o file peer
          (printResponse o file (HttpClient.request ⟨o.httpHost, o.httpPort, o.httpTimeoutMs⟩
            method (requestTarget o) body peer).1
            (HttpClient.request ⟨o.httpHost, o.httpPort, o.httpTimeoutMs⟩ method
              (requestTarget o) body peer).2) := by
      rintro method body hstream rfl rfl
      rw [request_answer _ hpath]
      exact ended_printResponse _ hhost hstream
    cases hcommand : o.httpCommand with
    | none => simp [hasHttpCommand, hcommand] at hc
    | stream =>
      have htarget : requestTarget o = o.httpPath := by simp [requestTarget, hcommand]
      exact ended_stream _ hhost hcommand (htarget ▸ hpath)
    | _ =>
      simp only [requestTarget, requestMethod, requestBody, hcommand] at hbuffered
      exact hbuffered _ _ (by simp) rfl rfl

/-- The exit codes, told from the response. -/
theorem Ended.exit_iff {run : CommandRun} (h : Ended o file peer run) :
    (run.exitCode = .ok 0 ↔
      ∃ r, Completes o file peer r ∧ 200 ≤ r.statusCode ∧ r.statusCode < 300) ∧
    (run.exitCode = .ok 1 ↔
      ∃ r, Completes o file peer r ∧ ¬ (200 ≤ r.statusCode ∧ r.statusCode < 300)) ∧
    ((∃ e, run.exitCode = .error e) ↔ ∀ r, ¬ Completes o file peer r) ∧
    ∀ r, Completes o file peer r → run.output.flatten = printed o r := by
  have hsame : ∀ {r r'}, Completes o file peer r → Completes o file peer r' → r = r' :=
    fun hr hr' => Except.ok.inj (hr.response.symm.trans hr'.response)
  rcases h with ⟨r, hr, hexit, hprinted⟩ | ⟨hnone, e, hexit⟩
  · have hcode : exitCode r = if 200 ≤ r.statusCode ∧ r.statusCode < 300 then 0 else 1 := by
      simp [exitCode, responseOk]
    have hiff : ∀ P : HttpResponse → Prop, (∃ r, Completes o file peer r ∧ P r) ↔ P r := by
      intro P
      constructor
      · rintro ⟨r', hr', hP⟩
        exact hsame hr' hr ▸ hP
      · exact fun hP => ⟨r, hr, hP⟩
    rw [hexit, hcode, hiff, hiff]
    refine ⟨?_, ?_, ⟨nofun, fun hnone => absurd hr (hnone r)⟩,
      fun r' hr' => hsame hr hr' ▸ hprinted⟩
    · split <;> simp [*]
    · split <;> simp [*]
  · rw [hexit]
    refine ⟨⟨nofun, ?_⟩, ⟨nofun, ?_⟩, ⟨fun _ => hnone, fun _ => ⟨e, rfl⟩⟩, ?_⟩
    · rintro ⟨r, hr, -⟩
      exact absurd hr (hnone r)
    · rintro ⟨r, hr, -⟩
      exact absurd hr (hnone r)
    · exact fun r hr => absurd hr (hnone r)

/-- The exit code of an accepted command line is that of a response, whose status line and body are
printed, whatever way it arrives. Else an exception is thrown: if the connection, the request or the
reception fails, the response is not one, or a download cannot be saved. -/
theorem command_run {env : CliEnv} {arguments : List Bytes}
    (h : parseCli env arguments = .ok o) (hc : hasHttpCommand o = true) (file : OutputFile)
    (peer : Peer) :
    ((runHttpCommand o file peer).exitCode = .ok 0 ↔
      ∃ r, Completes o file peer r ∧ 200 ≤ r.statusCode ∧ r.statusCode < 300) ∧
    ((runHttpCommand o file peer).exitCode = .ok 1 ↔
      ∃ r, Completes o file peer r ∧ ¬ (200 ≤ r.statusCode ∧ r.statusCode < 300)) ∧
    ((∃ e, (runHttpCommand o file peer).exitCode = .error e) ↔ ∀ r, ¬ Completes o file peer r) ∧
    ∀ r, Completes o file peer r → (runHttpCommand o file peer).output.flatten = printed o r :=
  (ended_runHttpCommand (accepted_of_parseCli h) hc).exit_iff

end Run

/-- The answer comes in two parts. -/
def statusPeer : Peer where
  recv := [.received (bytes "HTTP/1.0 200 OK\r\n\r"), .received (bytes "\nclear")]

def statusOptions : CliOptions where
  httpCommand := .get
  httpPath := bytes "/status.json"

theorem statusPeer_completes (file : OutputFile) :
    Completes statusOptions file statusPeer
      ⟨200, bytes "OK", bytes "HTTP/1.0 200 OK", bytes "clear"⟩ where
  httpHost := by decide
  response := by decide
  saved := nofun

theorem command_run_status :
    (runHttpCommand statusOptions .notOpened statusPeer).exitCode = .ok 0 ∧
      (runHttpCommand statusOptions .notOpened statusPeer).output.flatten =
        bytes "HTTP 200 OK\nclear\n" := by
  have hparse : parseCli plainEnv [bytes "mech_driver", bytes "--get-status"] =
      .ok statusOptions := by decide
  obtain ⟨hzero, -, -, hprinted⟩ := command_run hparse rfl .notOpened statusPeer
  have hcompletes := statusPeer_completes .notOpened
  exact ⟨hzero.2 ⟨_, hcompletes, by decide, by decide⟩, (hprinted _ hcompletes).trans (by decide)⟩

end MechLidar
