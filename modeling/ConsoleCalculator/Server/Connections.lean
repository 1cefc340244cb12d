import ConsoleCalculator.Server.AtomicService
import ConsoleCalculator.Server.Containment

/-!
# Connections

The service with its clients: `ServiceApplication` and the sessions that `TcpJsonServer::do_accept`
has created (`server/src/tcp-json-server.cpp`). A completion of a session runs on a network thread
that is between two handlers, as long as the context is not stopped.

* `on_read` takes the request out of `buffer_` (`beginRead`), calls `RequestHandler::handle`, and
  starts the write of its response when that has returned (`endRead`). In between its thread is a
  network thread of the application that handles a request, other threads run other completions,
  and the session has no operation outstanding. The other completions touch their session only.
* A read or a write can complete with an error at any time (`ioError`); nothing happens to the
  session after that. The end of the stream is `SessionEvent.readEof`.
* `do_accept` creates a session while `running_` is set, which is until `server.stop()` is called.
* `stream`, `number`, `answered` and `picked` are not in the source: what the client sends, how many
  requests the service had picked up before this one, what `handle` returned for the requests of a
  connection, and how many requests have been picked up.

Results:
* `sound_step`, `sound_read`: a connection answers its lines in order, with what the handler
  returns.
* `step_cases`: what a step can do, with what must hold for it.
* **`projection`**: seen without its connections, the service is the one of `ServiceApplication`.
-/

namespace ConsoleCalculator

open Base RequestHandler ServiceApplication

/-! ## A connection -/

/-- `on_read` between `std::getline` and `do_write`. -/
structure Reader where
  thread : ℕ
  /-- What it has passed to the handler. -/
  request : Bytes
  number : ℕ
  deriving DecidableEq, Repr

/-- A session of the server. -/
structure Connection where
  stream : Bytes
  session : Session
  reader : Option Reader
  /-- An operation has completed with an error. -/
  failed : Bool
  answered : List (ℕ × String)
  deriving DecidableEq, Repr

namespace Connection

/-- `start()` on a socket that will deliver `segments`. -/
def start (segments : List Bytes) : Connection :=
  ⟨segments.flatten, .start segments, none, false, []⟩

/-- `on_read` up to the call of `handle`. -/
def beginRead (c : Connection) (thread number : ℕ) : Connection :=
  { c with
    session := { c.session with buffer := (Session.getline c.session.buffer).2 }
    reader := some
      ⟨thread, Session.withoutCarriageReturn (Session.getline c.session.buffer).1, number⟩ }

/-- `on_read` after the call, with the write it starts. -/
def endRead (c : Connection) (r : Reader) (text : String) : Connection :=
  { c with
    session := { c.session with
      phase := .writing (bytesOf text ++ [newline])
      requests := c.session.requests ++ [r.request] }
    reader := none
    answered := c.answered ++ [(r.number, text)] }

/-- What the handler answered, as a session sees it. -/
def replies (answered : List (ℕ × String)) (k : ℕ) (_ : Bytes) : Bytes :=
  match answered[k]? with
  | some (_, text) => bytesOf text
  | none => []

/-- The numbers of the requests of a connection. -/
def numbers (c : Connection) : List ℕ :=
  c.answered.map Prod.fst ++ (c.reader.map Reader.number).toList

/-- The session has answered the lines it has taken, each with what the handler returned. -/
structure Sound (maxMessageSize : ℕ) (c : Connection) : Prop where
  length : c.session.requests.length = c.answered.length
  answers : Session.Answers (replies c.answered) maxMessageSize
    (Session.requestsIn maxMessageSize c.stream) c.session

/-- It has, or will have when `on_read` is through, whatever the handler returns. -/
def Tracks (maxMessageSize : ℕ) (c : Connection) : Prop :=
  match c.reader with
  | none => c.Sound maxMessageSize
  | some r => c.session.phase = .reading ∧ ∀ text, (c.endRead r text).Sound maxMessageSize

section

variable {maxMessageSize : ℕ} {c : Connection}

theorem sound_start (segments : List Bytes) : (start segments).Sound maxMessageSize :=
  ⟨rfl, Session.answers_start segments⟩

/-- Answers that come later do not matter for the requests handled so far. -/
theorem Sound.later (h : c.Sound maxMessageSize) (more : List (ℕ × String)) :
    Session.Answers (replies (c.answered ++ more)) maxMessageSize
      (Session.requestsIn maxMessageSize c.stream) c.session := by
  refine ⟨h.answers.handled, h.answers.answered.trans (List.ext_getElem? fun j => ?_)⟩
  rw [List.getElem?_mapIdx, List.getElem?_mapIdx]
  cases hj : c.session.requests[j]? with
  | none => rfl
  | some request =>
    have hlt : j < c.answered.length := h.length ▸ (List.getElem?_eq_some_iff.mp hj).1
    simp only [Option.map_some, Session.response, replies, List.getElem?_append_left hlt]

/-- A completion other than that of a read of a line does not ask the handler. -/
theorem sound_step (h : c.Sound maxMessageSize) {e : SessionEvent} (he : e ≠ .readComplete)
    {handler : ℕ → Bytes → Bytes} {session : Session}
    (hstep : c.session.step handler maxMessageSize e = some session) :
    Sound maxMessageSize { c with session := session } := by
  have hsame : c.session.step (replies c.answered) maxMessageSize e = some session := by
    cases e with
    | readComplete => exact absurd rfl he
    | receive | readEof | writeComplete => exact hstep
  refine ⟨?_, Session.answers_step h.answers hsame⟩
  cases Session.step_cases hstep with
  | tooLong | handled => exact absurd rfl he
  | received | eof | wrote => exact h.length

theorem sound_tooLong (h : c.Sound maxMessageSize) {n : ℕ} (hphase : c.session.phase = .reading)
    (hn : Session.bytesTransferred c.session.buffer = some n) (hlong : n > maxMessageSize) :
    Sound maxMessageSize { c with session := { c.session with phase := .ended } } := by
  refine ⟨h.length, Session.answers_step (e := .readComplete) h.answers ?_⟩
  simp only [Session.step, hphase, hn, Session.onRead, if_pos hlong]

/-- `on_read` is the step of the session, in two halves. -/
theorem sound_read (h : c.Sound maxMessageSize) {n : ℕ} (hphase : c.session.phase = .reading)
    (hn : Session.bytesTransferred c.session.buffer = some n) (hfits : ¬ n > maxMessageSize)
    (thread number : ℕ) : (c.beginRead thread number).Tracks maxMessageSize := by
  refine ⟨hphase, fun text => ⟨by simp [endRead, beginRead, h.length], ?_⟩⟩
  refine Session.answers_step (e := .readComplete) (h.later [(number, text)]) ?_
  have hlast : (c.answered ++ [(number, text)])[c.session.requests.length]? =
      some (number, text) := by
    rw [h.length]
    simp
  show c.session.step (replies (c.answered ++ [(number, text)])) maxMessageSize .readComplete = _
  simp only [Session.step, hphase, hn, Session.onRead, if_neg hfits, Session.response, replies,
    hlast]
  rfl

theorem Tracks.idle (h : c.Tracks maxMessageSize) (hidle : c.reader = none) :
    c.Sound maxMessageSize := by
  unfold Tracks at h
  rwa [hidle] at h

theorem Tracks.reading (h : c.Tracks maxMessageSize) {r : Reader} (hr : c.reader = some r) :
    c.session.phase = .reading ∧ ∀ text, (c.endRead r text).Sound maxMessageSize := by
  unfold Tracks at h
  rwa [hr] at h

/-- The responses that the session has for its requests. -/
theorem Sound.responses (h : c.Sound maxMessageSize) :
    c.session.written ++ c.session.pending =
      c.answered.map fun a => bytesOf a.2 ++ [newline] := by
  rw [h.answers.answered]
  refine List.ext_getElem? fun j => ?_
  rw [List.getElem?_mapIdx, List.getElem?_map]
  cases hj : c.answered[j]? with
  | none =>
    have hnone : c.session.requests[j]? = none := by
      rw [List.getElem?_eq_none_iff] at hj ⊢
      rw [h.length]
      exact hj
    rw [hnone]
    rfl
  | some a =>
    have hlt : j < c.session.requests.length := h.length ▸ (List.getElem?_eq_some_iff.mp hj).1
    simp only [List.getElem?_eq_getElem hlt, Option.map_some, Session.response, replies, hj]

/-- A request that is being handled is the next line of the stream. -/
theorem Tracks.next_line (h : c.Tracks maxMessageSize) {r : Reader} (hr : c.reader = some r) :
    c.session.requests ++ [r.request] <+: Session.requestsIn maxMessageSize c.stream :=
  ⟨_, ((h.reading hr).2 "").answers.handled⟩

/-- Every request is a line of the stream, in order. -/
theorem Tracks.requests_prefix (h : c.Tracks maxMessageSize) :
    c.session.requests <+: Session.requestsIn maxMessageSize c.stream := by
  cases hr : c.reader with
  | none => exact ⟨_, (h.idle hr).answers.handled⟩
  | some r => exact (List.prefix_append _ _).trans (h.next_line hr)

/-- What has been written are the responses to the first of them. -/
theorem Tracks.written_prefix (h : c.Tracks maxMessageSize) :
    c.session.written <+: c.answered.map fun a => bytesOf a.2 ++ [newline] := by
  cases hr : c.reader with
  | none => exact ⟨_, (h.idle hr).responses⟩
  | some r =>
    have hall : c.session.written ++ [bytesOf "" ++ [newline]] =
        (c.answered ++ [(r.number, "")]).map fun a => bytesOf a.2 ++ [newline] :=
      ((h.reading hr).2 "").responses
    rw [List.map_append] at hall
    exact (List.append_inj' hall rfl).1 ▸ List.prefix_rfl

end

end Connection

/-! ## The service and its connections -/

namespace ServiceApplication

/-- Network thread `i` can run a completion. -/
def free (s : ServiceApplication) (i : ℕ) : Bool :=
  !s.aborted && !s.ioStopped &&
    match s.threads[i]? with
    | some .idle => true
    | _ => false

/-- `running_` of the server, once `do_accept` has been called. -/
def accepting (s : ServiceApplication) : Bool :=
  decide (s.main = .startingServer ∨ s.main = .waiting)

/-- What `handle` has returned on network thread `i`. -/
def returned (s : ServiceApplication) (i : ℕ) : Option String :=
  match s.threads[i]? with
  | some (.handling (.done (.value text))) => some text
  | _ => none

/-- The event is the call of `handle`, or its return, which are steps of a session. -/
def inSession : ApplicationEvent → Bool
  | .network _ (.request _ _) => true
  | .network _ .respond => true
  | _ => false

theorem free_iff {s : ServiceApplication} {i : ℕ} :
    s.free i = true ↔ s.aborted = false ∧ s.ioStopped = false ∧ s.threads[i]? = some .idle := by
  unfold free
  simp only [Bool.and_eq_true, Bool.not_eq_true', and_assoc]
  refine and_congr_right' (and_congr_right' ⟨fun h => ?_, fun h => by rw [h]⟩)
  split at h
  · assumption
  · cases h

theorem returned_iff {s : ServiceApplication} {i : ℕ} {text : String} :
    s.returned i = some text ↔ s.threads[i]? = some (.handling (.done (.value text))) := by
  unfold returned
  constructor
  · intro h
    split at h
    · obtain rfl := Option.some.inj h
      assumption
    · cases h
  · intro h
    rw [h]

end ServiceApplication

/-- The service with its connections. -/
structure ConnectedService where
  service : ServiceApplication
  connections : List Connection
  picked : ℕ

/-- What can happen. `i` is the network thread that runs the completion, `c` the connection. -/
inductive ConnectionEvent where
  /-- A step of a thread of the application, outside the sessions. -/
  | thread (e : ApplicationEvent)
  | accept (i : ℕ) (segments : List Bytes)
  | session (i c : ℕ) (e : SessionEvent)
  | readComplete (i c : ℕ) (millis : Elapsed)
  /-- `handle` returns. -/
  | respond (c : ℕ)
  | ioError (i c : ℕ)

namespace ConnectedService

/-- The process at the start of `run`. -/
def launch (history : OperationHistory) : ConnectedService := ⟨.launch history, [], 0⟩

/-- Connection `c`, if it has an operation outstanding whose completion thread `i` can run. -/
def outstanding (s : ConnectedService) (i c : ℕ) : Option Connection :=
  match s.connections[c]? with
  | some conn =>
    if s.service.free i ∧ conn.reader = none ∧ conn.failed = false then some conn else none
  | none => none

def put (s : ConnectedService) (c : ℕ) (conn : Connection) : ConnectedService :=
  { s with connections := s.connections.set c conn }

section Step

variable (M : CalculatorMath) (lib : Protocol) (workerThreads : Int32) (maxMessageSize : ℕ)

/-- `on_read` without an error, up to the call of `handle`. -/
def onRead (s : ConnectedService) (i c : ℕ) (conn : Connection) (millis : Elapsed)
    (bytesTransferred : ℕ) : Option ConnectedService :=
  if bytesTransferred > maxMessageSize then
    some (s.put c { conn with session := { conn.session with phase := .ended } })
  else
    let request := Session.withoutCarriageReturn (Session.getline conn.session.buffer).1
    (s.service.step M lib workerThreads (.network i (.request (textOf request) millis))).map
      fun service =>
        { s.put c (conn.beginRead i s.picked) with service := service, picked := s.picked + 1 }

/-- What an event does, `none` if it cannot happen. -/
def step (s : ConnectedService) : ConnectionEvent → Option ConnectedService
  | .thread e =>
    if inSession e then none
    else (s.service.step M lib workerThreads e).map fun service => { s with service := service }
  | .accept i segments =>
    if s.service.free i ∧ s.service.accepting then
      some { s with connections := s.connections ++ [.start segments] }
    else none
  | .session i c e => do
    let conn ← s.outstanding i c
    if e = .readComplete then none
    else
      let session ← conn.session.step (fun _ _ => []) maxMessageSize e
      some (s.put c { conn with session := session })
  | .readComplete i c millis => do
    let conn ← s.outstanding i c
    match conn.session.phase, Session.bytesTransferred conn.session.buffer with
    | .reading, some n => s.onRead M lib workerThreads maxMessageSize i c conn millis n
    | _, _ => none
  | .respond c => do
    let conn ← s.connections[c]?
    let r ← conn.reader
    let text ← s.service.returned r.thread
    let service ← s.service.step M lib workerThreads (.network r.thread .respond)
    some { s.put c (conn.endRead r text) with service := service }
  | .ioError i c => do
    let conn ← s.outstanding i c
    if conn.session.phase = .ended then none else some (s.put c { conn with failed := true })

/-- A run from `s`. -/
def run (s : ConnectedService) (es : List ConnectionEvent) : Option ConnectedService :=
  runSteps (step M lib workerThreads maxMessageSize) s es

/-- The steps, with what must hold for them: the inversion of `step`. -/
inductive Step (s : ConnectedService) : ConnectionEvent → ConnectedService → Prop
  | moved (e : ApplicationEvent) (service : ServiceApplication) (he : inSession e = false)
      (hservice : s.service.step M lib workerThreads e = some service) :
      Step s (.thread e) { s with service := service }
  | accepted (i : ℕ) (segments : List Bytes) (hfree : s.service.free i = true) :
      Step s (.accept i segments) { s with connections := s.connections ++ [.start segments] }
  | completed (i c : ℕ) (e : SessionEvent) (conn : Connection) (session : Session)
      (hconn : s.outstanding i c = some conn) (he : e ≠ .readComplete)
      (hsession : conn.session.step (fun _ _ => []) maxMessageSize e = some session) :
      Step s (.session i c e) (s.put c { conn with session := session })
  | tooLong (i c : ℕ) (millis : Elapsed) (conn : Connection) (n : ℕ)
      (hconn : s.outstanding i c = some conn) (hphase : conn.session.phase = .reading)
      (hn : Session.bytesTransferred conn.session.buffer = some n) (hlong : n > maxMessageSize) :
      Step s (.readComplete i c millis)
        (s.put c { conn with session := { conn.session with phase := .ended } })
  | read (i c : ℕ) (millis : Elapsed) (conn : Connection) (n : ℕ) (service : ServiceApplication)
      (hconn : s.outstanding i c = some conn) (hphase : conn.session.phase = .reading)
      (hn : Session.bytesTransferred conn.session.buffer = some n) (hfits : ¬ n > maxMessageSize)
      (hservice : s.service.step M lib workerThreads (.network i (.request (textOf
        (Session.withoutCarriageReturn (Session.getline conn.session.buffer).1)) millis)) =
          some service) :
      Step s (.readComplete i c millis)
        { s.put c (conn.beginRead i s.picked) with service := service, picked := s.picked + 1 }
  | responded (c : ℕ) (conn : Connection) (r : Reader) (text : String)
      (service : ServiceApplication) (hconn : s.connections[c]? = some conn)
      (hreader : conn.reader = some r) (htext : s.service.returned r.thread = some text)
      (hservice : s.service.step M lib workerThreads (.network r.thread .respond) =
        some service) :
      Step s (.respond c) { s.put c (conn.endRead r text) with service := service }
  | failed (i c : ℕ) (conn : Connection) (hconn : s.outstanding i c = some conn) :
      Step s (.ioError i c) (s.put c { conn with failed := true })

end Step

section Cases

variable {M : CalculatorMath} {lib : Protocol} {workerThreads : Int32} {maxMessageSize : ℕ}
  {s s' : ConnectedService} {e : ConnectionEvent}

theorem outstanding_eq_some {i c : ℕ} {conn : Connection} :
    s.outstanding i c = some conn ↔ s.connections[c]? = some conn ∧ s.service.free i = true ∧
      conn.reader = none ∧ conn.failed = false := by
  unfold outstanding
  cases s.connections[c]? with
  | none => simp
  | some conn' =>
    simp only [Option.ite_none_right_eq_some, Option.some.injEq]
    constructor
    · rintro ⟨h, rfl⟩
      exact ⟨rfl, h⟩
    · rintro ⟨rfl, h⟩
      exact ⟨h, rfl⟩

theorem step_cases (h : step M lib workerThreads maxMessageSize s e = some s') :
    Step M lib workerThreads maxMessageSize s e s' := by
  cases e with
  | thread e =>
    obtain ⟨he, h⟩ := Option.ite_none_left_eq_some.mp h
    obtain ⟨service, hservice, rfl⟩ := Option.map_eq_some_iff.mp h
    exact .moved e service (Bool.eq_false_iff.mpr he) hservice
  | accept i segments =>
    obtain ⟨⟨hfree, -⟩, h⟩ := Option.ite_none_right_eq_some.mp h
    obtain rfl := Option.some.inj h
    exact .accepted i segments hfree
  | session i c e =>
    obtain ⟨conn, hconn, h⟩ := Option.bind_eq_some_iff.mp h
    obtain ⟨he, h⟩ := Option.ite_none_left_eq_some.mp h
    obtain ⟨session, hsession, h⟩ := Option.bind_eq_some_iff.mp h
    obtain rfl := Option.some.inj h
    exact .completed i c e conn session hconn he hsession
  | readComplete i c millis =>
    obtain ⟨conn, hconn, h⟩ := Option.bind_eq_some_iff.mp h
    split at h
    · rename_i n hphase hn
      unfold onRead at h
      split at h
      · rename_i hlong
        obtain rfl := Option.some.inj h
        exact .tooLong i c millis conn n hconn hphase hn hlong
      · rename_i hfits
        obtain ⟨service, hservice, rfl⟩ := Option.map_eq_some_iff.mp h
        exact .read i c millis conn n service hconn hphase hn hfits hservice
    · cases h
  | respond c =>
    obtain ⟨conn, hconn, h⟩ := Option.bind_eq_some_iff.mp h
    obtain ⟨r, hreader, h⟩ := Option.bind_eq_some_iff.mp h
    obtain ⟨text, htext, h⟩ := Option.bind_eq_some_iff.mp h
    obtain ⟨service, hservice, h⟩ := Option.bind_eq_some_iff.mp h
    obtain rfl := Option.some.inj h
    exact .responded c conn r text service hconn hreader htext hservice
  | ioError i c =>
    obtain ⟨conn, hconn, h⟩ := Option.bind_eq_some_iff.mp h
    obtain ⟨-, h⟩ := Option.ite_none_left_eq_some.mp h
    obtain rfl := Option.some.inj h
    exact .failed i c conn hconn

end Cases

/-! ## Without the connections -/

/-- The step of the application that a step is. -/
def applicationEvent (maxMessageSize : ℕ) (s : ConnectedService) :
    ConnectionEvent → Option ApplicationEvent
  | .thread e => some e
  | .readComplete i c millis => do
    let conn ← s.outstanding i c
    let n ← Session.bytesTransferred conn.session.buffer
    if n > maxMessageSize then none
    else
      let request := Session.withoutCarriageReturn (Session.getline conn.session.buffer).1
      some (.network i (.request (textOf request) millis))
  | .respond c => do
    let conn ← s.connections[c]?
    let r ← conn.reader
    some (.network r.thread .respond)
  | _ => none

/-- The steps of the application in a run. -/
def applicationEvents (M : CalculatorMath) (lib : Protocol) (workerThreads : Int32)
    (maxMessageSize : ℕ) (s : ConnectedService) (es : List ConnectionEvent) :
    List ApplicationEvent :=
  trace (step M lib workerThreads maxMessageSize) (applicationEvent maxMessageSize) s es

section Projection

variable {M : CalculatorMath} {lib : Protocol} {workerThreads : Int32} {maxMessageSize : ℕ}
  {s s' : ConnectedService}

/-- Without its connections the service is the application, with requests that come in on them. -/
theorem projection : Simulation (step M lib workerThreads maxMessageSize)
    (ServiceApplication.step M lib workerThreads) (applicationEvent maxMessageSize)
    fun s u => s.service = u := by
  refine Simulation.of_step fun {s u e s'} hs hstep => ?_
  subst hs
  cases step_cases hstep with
  | moved e service he hservice => exact Or.inr ⟨e, service, rfl, hservice, rfl⟩
  | accepted | completed | failed => exact Or.inl ⟨rfl, rfl⟩
  | tooLong i c millis conn n hconn hphase hn hlong =>
    exact Or.inl ⟨by simp [applicationEvent, hconn, hn, hlong], rfl⟩
  | read i c millis conn n service hconn hphase hn hfits hservice =>
    exact Or.inr ⟨_, service, by simp [applicationEvent, hconn, hn, hfits], hservice, rfl⟩
  | responded c conn r text service hconn hreader htext hservice =>
    exact Or.inr ⟨_, service, by simp [applicationEvent, hconn, hreader], hservice, rfl⟩

/-- A run of the service is a run of the application. -/
theorem application_run {es : List ConnectionEvent}
    (hrun : s.run M lib workerThreads maxMessageSize es = some s') :
    s.service.run M lib workerThreads
      (applicationEvents M lib workerThreads maxMessageSize s es) = some s'.service := by
  obtain ⟨u, hu, rfl⟩ := projection.run es rfl hrun
  exact hu

end Projection

end ConnectedService

end ConsoleCalculator
