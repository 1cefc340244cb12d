import ConsoleCalculator.Base.Machine
import ConsoleCalculator.Base.Separated

/-!
# Sessions: one connection of the TCP server

Model of `TcpJsonServer::Session` (`server/src/tcp-json-server.cpp`). A session is driven by the
completions of its two operations: `async_read_until` on the socket and `async_write` of a
response. It always has at most one of them outstanding.

* `segments` are the bytes of the client the socket has still to deliver, cut the way TCP
  delivers them. After the last one comes the end of the stream.
* `async_read_until` searches `buffer_` before it reads, and completes with the length up to and
  including the first newline (`bytesTransferred`). `on_read` then takes the request out of
  `buffer_` with `std::getline`, which looks for the newline on its own.
* The handler is any function that returns. Its answer to the `k`-th request may depend on `k`:
  on what it was asked before, and on what other sessions asked in the meantime.
* `requests` and `written` are not in the source: they record what was passed to the handler and
  what has been written to the socket.

Results:
* `answers_step`: what has been handled together with what is still to come stays the same.
* **`session_answers_lines`**: the responses are those to the lines of the stream, in order and up
  to the first one that is too long, however the stream is cut.
-/

namespace ConsoleCalculator

open Base

/-- The contents of a `std::string` or of a `streambuf`, byte by byte. -/
abbrev Bytes := List UInt8

/-- `'\n'`. -/
def newline : UInt8 := 10

/-- `'\r'`. -/
def carriageReturn : UInt8 := 13

/-- Which operation is outstanding. -/
inductive SessionPhase
  /-- `do_read`: `async_read_until` has not completed. -/
  | reading
  /-- `do_write`: `async_write` of the response has not completed. -/
  | writing (response : Bytes)
  /-- None: the session ended. -/
  | ended
  deriving DecidableEq, Repr

/-- A session with its socket. -/
structure Session where
  /-- `buffer_`. -/
  buffer : Bytes
  segments : List Bytes
  phase : SessionPhase
  requests : List Bytes
  written : List Bytes
  deriving DecidableEq, Repr

/-- What can happen to a session. -/
inductive SessionEvent
  /-- The socket delivers its next segment to the read. -/
  | receive
  /-- The read finds a newline in `buffer_` and completes. -/
  | readComplete
  /-- The read completes with `boost::asio::error::eof`. -/
  | readEof
  /-- The write completes. -/
  | writeComplete
  deriving DecidableEq, Repr

namespace Session

/-- `start()` on a connection that will deliver `segments`. -/
def start (segments : List Bytes) : Session :=
  ⟨[], segments, .reading, [], []⟩

/-- What `async_read_until` reports for `buffer`, if it completes without reading more. -/
def bytesTransferred (buffer : Bytes) : Option ℕ :=
  (buffer.idxOf? newline).map (· + 1)

/-- `std::getline`: the characters before the first newline, and what is left after it. -/
def getline (input : Bytes) : Bytes × Bytes :=
  (input.takeWhile (· != newline), (input.dropWhile (· != newline)).drop 1)

/-- `if (!request.empty() && request.back() == '\r') request.pop_back();` -/
def withoutCarriageReturn (request : Bytes) : Bytes :=
  if request.getLast? = some carriageReturn then request.dropLast else request

section

variable (handler : ℕ → Bytes → Bytes) (maxMessageSize : ℕ)

/-- The bytes written for the `k`-th request. -/
def response (k : ℕ) (request : Bytes) : Bytes :=
  handler k request ++ [newline]

/-- `on_read` without an error. -/
def onRead (bytesTransferred : ℕ) (s : Session) : Session :=
  if bytesTransferred > maxMessageSize then
    { s with phase := .ended }
  else
    let request := withoutCarriageReturn (getline s.buffer).1
    { s with
      buffer := (getline s.buffer).2
      phase := .writing (response handler s.requests.length request)
      requests := s.requests ++ [request] }

/-- What an event does, `none` if it cannot happen. -/
def step (s : Session) : SessionEvent → Option Session
  | .receive =>
    match s.phase, bytesTransferred s.buffer, s.segments with
    | .reading, none, segment :: rest =>
      some { s with buffer := s.buffer ++ segment, segments := rest }
    | _, _, _ => none
  | .readComplete =>
    match s.phase, bytesTransferred s.buffer with
    | .reading, some n => some (s.onRead handler maxMessageSize n)
    | _, _ => none
  | .readEof =>
    match s.phase, bytesTransferred s.buffer, s.segments with
    | .reading, none, [] => some { s with phase := .ended }
    | _, _, _ => none
  | .writeComplete =>
    match s.phase with
    | .writing r => some { s with phase := .reading, written := s.written ++ [r] }
    | _ => none

/-- The events of a list, one after the other. -/
def run (s : Session) (es : List SessionEvent) : Option Session :=
  runSteps (step handler maxMessageSize) s es

/-! ## What a stream is answered with -/

/-- The lines of a stream that are terminated by a newline. -/
def terminatedLines (stream : Bytes) : List Bytes :=
  (stream.splitOn newline).dropLast

/-- The requests in a stream: its lines up to the first one that is too long. -/
def requestsIn (stream : Bytes) : List Bytes :=
  ((terminatedLines stream).takeWhile fun line => line.length + 1 ≤ maxMessageSize).map
    withoutCarriageReturn

/-- The answers to the requests in a stream. -/
def responsesTo (stream : Bytes) : List Bytes :=
  (requestsIn maxMessageSize stream).mapIdx (response handler)

end

/-! ## Lines -/

theorem terminatedLines_unterminated {bs : Bytes} (h : newline ∉ bs) : terminatedLines bs = [] := by
  rw [terminatedLines, List.splitOn_eq_singleton h]
  rfl

/-- The first line of a stream is what stands before its first newline. -/
theorem terminatedLines_cons {line : Bytes} (h : newline ∉ line) (rest : Bytes) :
    terminatedLines (line ++ newline :: rest) = line :: terminatedLines rest := by
  rw [terminatedLines, splitOn_append_cons h,
    List.dropLast_cons_of_ne_nil (List.splitOn_ne_nil newline rest)]
  rfl

theorem bytesTransferred_eq_none {buffer : Bytes} :
    bytesTransferred buffer = none ↔ newline ∉ buffer := by
  simp [bytesTransferred]

theorem getline_line {line : Bytes} (h : newline ∉ line) (rest : Bytes) :
    getline (line ++ newline :: rest) = (line, rest) := by
  rw [getline, takeWhile_append_cons h, dropWhile_ne_append_cons h]
  rfl

theorem bytesTransferred_line {line : Bytes} (h : newline ∉ line) (rest : Bytes) :
    bytesTransferred (line ++ newline :: rest) = some (line.length + 1) := by
  rw [bytesTransferred, idxOf?_append_cons h]
  rfl

/-- The reported length and the extracted request are both those of the first line. -/
theorem bytesTransferred_eq_some {buffer : Bytes} {n : ℕ} (h : bytesTransferred buffer = some n) :
    ∃ line rest, newline ∉ line ∧ buffer = line ++ newline :: rest ∧ n = line.length + 1 ∧
      getline buffer = (line, rest) := by
  have hmem : newline ∈ buffer := by
    by_contra hnot
    simp [bytesTransferred_eq_none.mpr hnot] at h
  obtain ⟨line, rest, rfl, hline⟩ := List.eq_append_cons_of_mem hmem
  refine ⟨line, rest, hline, rfl, ?_, getline_line hline rest⟩
  exact (Option.some.inj ((bytesTransferred_line hline rest).symm.trans h)).symm

section

variable {handler : ℕ → Bytes → Bytes} {maxMessageSize : ℕ}

theorem requestsIn_unterminated {bs : Bytes} (h : newline ∉ bs) :
    requestsIn maxMessageSize bs = [] := by
  simp [requestsIn, terminatedLines_unterminated h]

theorem requestsIn_tooLong {line : Bytes} (h : newline ∉ line) (rest : Bytes)
    (hlong : line.length + 1 > maxMessageSize) :
    requestsIn maxMessageSize (line ++ newline :: rest) = [] := by
  have hnot : ¬ line.length + 1 ≤ maxMessageSize := Nat.not_le.mpr hlong
  simp only [requestsIn, terminatedLines_cons h, List.takeWhile_cons, decide_eq_true_eq, hnot,
    if_false, List.map_nil]

theorem requestsIn_cons {line : Bytes} (h : newline ∉ line) (rest : Bytes)
    (hfits : line.length + 1 ≤ maxMessageSize) :
    requestsIn maxMessageSize (line ++ newline :: rest) =
      withoutCarriageReturn line :: requestsIn maxMessageSize rest := by
  simp only [requestsIn, terminatedLines_cons h, List.takeWhile_cons, decide_eq_true_eq, hfits,
    if_true, List.map_cons]

/-! ## Steps -/

variable (handler maxMessageSize) in
/-- What an event does to a session, by the operation that completes. -/
inductive Step (s : Session) : SessionEvent → Session → Prop
  | received (segment : Bytes) (rest : List Bytes) (hphase : s.phase = .reading)
      (hnone : newline ∉ s.buffer) (hsegments : s.segments = segment :: rest) :
      Step s .receive { s with buffer := s.buffer ++ segment, segments := rest }
  | tooLong (line rest : Bytes) (hphase : s.phase = .reading) (hline : newline ∉ line)
      (hbuffer : s.buffer = line ++ newline :: rest) (hlong : line.length + 1 > maxMessageSize) :
      Step s .readComplete { s with phase := .ended }
  | handled (line rest : Bytes) (hphase : s.phase = .reading) (hline : newline ∉ line)
      (hbuffer : s.buffer = line ++ newline :: rest) (hfits : line.length + 1 ≤ maxMessageSize) :
      Step s .readComplete
        { s with
          buffer := rest
          phase := .writing (response handler s.requests.length (withoutCarriageReturn line))
          requests := s.requests ++ [withoutCarriageReturn line] }
  | eof (hphase : s.phase = .reading) (hnone : newline ∉ s.buffer) (hsegments : s.segments = []) :
      Step s .readEof { s with phase := .ended }
  | wrote (r : Bytes) (hphase : s.phase = .writing r) :
      Step s .writeComplete { s with phase := .reading, written := s.written ++ [r] }

theorem step_cases {s s' : Session} {e : SessionEvent}
    (h : step handler maxMessageSize s e = some s') : Step handler maxMessageSize s e s' := by
  cases e with
  | receive =>
    simp only [step] at h
    split at h
    · rename_i segment rest hphase hnone hsegments
      obtain rfl := Option.some.inj h
      exact .received segment rest hphase (bytesTransferred_eq_none.mp hnone) hsegments
    · cases h
  | readComplete =>
    simp only [step] at h
    split at h
    · rename_i n hphase hn
      obtain ⟨line, rest, hline, hbuffer, rfl, hget⟩ := bytesTransferred_eq_some hn
      obtain rfl := Option.some.inj h
      unfold onRead
      split
      · rename_i hlong
        exact .tooLong line rest hphase hline hbuffer hlong
      · rename_i hfits
        rw [hget]
        exact .handled line rest hphase hline hbuffer (Nat.not_lt.mp hfits)
    · cases h
  | readEof =>
    simp only [step] at h
    split at h
    · rename_i hphase hnone hsegments
      obtain rfl := Option.some.inj h
      exact .eof hphase (bytesTransferred_eq_none.mp hnone) hsegments
    · cases h
  | writeComplete =>
    simp only [step] at h
    split at h
    · rename_i r hphase
      obtain rfl := Option.some.inj h
      exact .wrote r hphase
    · cases h

/-- A session in which nothing can happen any more has ended. -/
theorem ended_of_quiescent {s : Session} (h : ∀ e, step handler maxMessageSize s e = none) :
    s.phase = .ended := by
  cases hphase : s.phase with
  | ended => rfl
  | writing r => simpa [step, hphase] using h .writeComplete
  | reading =>
    exfalso
    cases hn : bytesTransferred s.buffer with
    | some n => simpa [step, hphase, hn] using h .readComplete
    | none =>
      cases hseg : s.segments with
      | nil => simpa [step, hphase, hn, hseg] using h .readEof
      | cons segment rest => simpa [step, hphase, hn, hseg] using h .receive

/-! ## Progress -/

/-- How many events a phase still stands for. -/
def phaseEffort : SessionPhase → ℕ
  | .reading => 1
  | .writing _ => 2
  | .ended => 0

/-- A bound on the events still to come: a read and a write for each byte, one for each segment,
and the end of the stream. -/
def effort (s : Session) : ℕ :=
  2 * (s.buffer.length + s.segments.flatten.length) + s.segments.length + phaseEffort s.phase

theorem effort_step {s s' : Session} {e : SessionEvent}
    (h : step handler maxMessageSize s e = some s') : s'.effort < s.effort := by
  cases step_cases h with
  | received segment rest hphase _ hsegments =>
    simp [effort, hphase, hsegments, phaseEffort]
    omega
  | tooLong line rest hphase => simp [effort, hphase, phaseEffort]
  | handled line rest hphase _ hbuffer =>
    simp [effort, hphase, hbuffer, phaseEffort]
    omega
  | eof hphase => simp [effort, hphase, phaseEffort]
  | wrote r hphase => simp [effort, hphase, phaseEffort]

/-! ## Answers -/

/-- The requests still to be handled. -/
def remaining (maxMessageSize : ℕ) (s : Session) : List Bytes :=
  if s.phase = .ended then [] else requestsIn maxMessageSize (s.buffer ++ s.segments.flatten)

/-- The response that is being written. -/
def pending (s : Session) : List Bytes :=
  match s.phase with
  | .writing r => [r]
  | _ => []

/-- The session is on its way to handling `requests`, and has answered what it handled. -/
structure Answers (handler : ℕ → Bytes → Bytes) (maxMessageSize : ℕ) (requests : List Bytes)
    (s : Session) : Prop where
  handled : s.requests ++ s.remaining maxMessageSize = requests
  answered : s.written ++ s.pending = s.requests.mapIdx (response handler)

theorem answers_start (segments : List Bytes) :
    Answers handler maxMessageSize (requestsIn maxMessageSize segments.flatten) (start segments) :=
  ⟨by simp [start, remaining], by simp [start, pending]⟩

/-- A completion moves bytes from the socket to the buffer, one line from the buffer to the
handler, or a response to the socket. -/
theorem answers_step {requests : List Bytes} {s s' : Session} {e : SessionEvent}
    (hs : Answers handler maxMessageSize requests s)
    (h : step handler maxMessageSize s e = some s') :
    Answers handler maxMessageSize requests s' := by
  obtain ⟨hhandled, hanswered⟩ := hs
  cases step_cases h with
  | received segment rest hphase _ hsegments =>
    simp only [remaining, pending, hphase, hsegments] at hhandled hanswered
    exact ⟨by simpa [remaining, hphase] using hhandled, by simpa [pending, hphase] using hanswered⟩
  | tooLong line rest hphase hline hbuffer hlong =>
    -- the first line left is too long, so no request was left
    simp only [remaining, pending, hphase, hbuffer] at hhandled hanswered
    rw [List.append_assoc, List.cons_append, requestsIn_tooLong hline _ hlong] at hhandled
    exact ⟨by simpa [remaining] using hhandled, by simpa [pending] using hanswered⟩
  | handled line rest hphase hline hbuffer hfits =>
    simp only [remaining, pending, hphase, hbuffer] at hhandled hanswered
    rw [List.append_assoc, List.cons_append, requestsIn_cons hline _ hfits] at hhandled
    refine ⟨by simpa [remaining] using hhandled, ?_⟩
    simp only [List.append_nil] at hanswered
    simp [pending, hanswered, List.mapIdx_append]
  | eof hphase hnone hsegments =>
    simp only [remaining, pending, hphase, hsegments] at hhandled hanswered
    rw [List.flatten_nil, List.append_nil, requestsIn_unterminated hnone] at hhandled
    exact ⟨by simpa [remaining] using hhandled, by simpa [pending] using hanswered⟩
  | wrote r hphase =>
    simp only [remaining, pending, hphase] at hhandled hanswered
    exact ⟨by simpa [remaining] using hhandled, by simpa [pending] using hanswered⟩

theorem answers_run {requests : List Bytes} {s s' : Session} {es : List SessionEvent}
    (hs : Answers handler maxMessageSize requests s)
    (h : s.run handler maxMessageSize es = some s') : Answers handler maxMessageSize requests s' :=
  runSteps_invariant (fun _ _ _ hi hstep => answers_step hi hstep) es hs h

/-- At any time a part of the answers has been written. -/
theorem Answers.written_prefix {requests : List Bytes} {s : Session}
    (hs : Answers handler maxMessageSize requests s) :
    s.written <+: requests.mapIdx (response handler) := by
  rw [← hs.handled, List.mapIdx_append, ← hs.answered, List.append_assoc]
  exact List.prefix_append _ _

theorem Answers.of_ended {requests : List Bytes} {s : Session}
    (hs : Answers handler maxMessageSize requests s) (hended : s.phase = .ended) :
    s.requests = requests ∧ s.written = requests.mapIdx (response handler) := by
  obtain ⟨hhandled, hanswered⟩ := hs
  simp only [remaining, pending, hended, if_true, List.append_nil] at hhandled hanswered
  exact ⟨hhandled, hanswered.trans (by rw [hhandled])⟩

end

/-- **Framing does not depend on the segments.** A session that is sent `segments` passes the
requests in their concatenation to the handler, and writes the answers, in order and each once. It
writes nothing else on the way, cannot go on for ever, and gets to its end. -/
theorem session_answers_lines (handler : ℕ → Bytes → Bytes) (maxMessageSize : ℕ)
    (segments : List Bytes) :
    (∀ es s, (start segments).run handler maxMessageSize es = some s →
      es.length ≤ 2 * segments.flatten.length + segments.length + 1 ∧
      s.requests <+: requestsIn maxMessageSize segments.flatten ∧
      s.written <+: responsesTo handler maxMessageSize segments.flatten ∧
      ((∀ e, s.step handler maxMessageSize e = none) →
        s.requests = requestsIn maxMessageSize segments.flatten ∧
        s.written = responsesTo handler maxMessageSize segments.flatten)) ∧
    ∃ es s, (start segments).run handler maxMessageSize es = some s ∧
      ∀ e, s.step handler maxMessageSize e = none := by
  have hdown : ∀ (s : Session) (e : SessionEvent) (s' : Session), True → True →
      step handler maxMessageSize s e = some s' → s'.effort < s.effort :=
    fun _ _ _ _ _ hstep => effort_step hstep
  refine ⟨fun es s hrun => ?_, ?_⟩
  · have hs := answers_run (answers_start segments) hrun
    have hlength := runSteps_bounded (fun _ _ _ _ h _ => h) hdown es (fun _ _ => trivial) trivial
      hrun
    have hstart : (start segments).effort = 2 * segments.flatten.length + segments.length + 1 := by
      simp [effort, start, phaseEffort]
    refine ⟨by omega, ⟨_, hs.handled⟩, hs.written_prefix, fun hquiet => ?_⟩
    exact hs.of_ended (ended_of_quiescent hquiet)
  · obtain ⟨es, s, -, hrun, hquiet⟩ :=
      exists_quiescent (fun _ _ _ _ h _ => h) hdown (start segments) trivial
    exact ⟨es, s, hrun, fun e => hquiet e trivial⟩

/-- `"ab\r\n"`, `"\n"`, `"c\n"`, `"abcd\n"` and `"e\n"`, with cuts before the terminator, inside a
terminator and between requests. -/
def sampleSegments : List Bytes :=
  [[97, 98], [13], [10, 10, 99], [10, 97, 98], [99, 100, 10, 101, 10]]

/-- Numbers its answers. -/
def sampleHandler (k : ℕ) (request : Bytes) : Bytes :=
  UInt8.ofNat (48 + k) :: request

def sampleCompletions : List SessionEvent :=
  [.receive, .receive, .receive, .readComplete, .writeComplete, .readComplete, .writeComplete,
    .receive, .readComplete, .writeComplete, .receive, .readComplete]

/-- With a limit of 4 the first line still fits and the fourth one ends the session. -/
theorem session_answers_lines_sample :
    ∃ s, (start sampleSegments).run sampleHandler 4 sampleCompletions = some s ∧
      s.requests = [[97, 98], [], [99]] ∧
      s.written = [[48, 97, 98, 10], [49, 10], [50, 99, 10]] := by
  have hrun : (start sampleSegments).run sampleHandler 4 sampleCompletions =
      some ⟨[97, 98, 99, 100, 10, 101, 10], [], .ended, [[97, 98], [], [99]],
        [[48, 97, 98, 10], [49, 10], [50, 99, 10]]⟩ := by
    decide
  have hended := ((session_answers_lines sampleHandler 4 sampleSegments).1 _ _ hrun).2.2.2
  obtain ⟨hrequests, hwritten⟩ := hended fun e => by cases e <;> rfl
  exact ⟨_, hrun, hrequests.trans (by decide), hwritten.trans (by decide)⟩

end Session

end ConsoleCalculator
