import Mathlib.Algebra.GroupWithZero.Nat
import ConsoleCalculator.Server.ConnectionRuns
import ConsoleCalculator.Server.ServiceAnswers
import ConsoleCalculator.Server.Startup

/-!
# What clients can rely on

From the bytes of a client to those it gets back, through all layers: the framing of its session,
the network threads, the storage worker, the cache and the table.

Results:
* **`clients_served`**: as long as no statement fails, what a client reads are responses to its
  lines, in order, each with the outcome that its request, if it has an operand, has without a
  storage.
* **`connections_drained`**: a client whose connection is not broken gets a response to each of its
  lines: the service cannot go on for ever without coming to it, and does not get stuck.
-/

namespace ConsoleCalculator

open Base RequestHandler ServiceApplication

namespace ConnectedService

/-! ## What is written is right -/

/-- The bytes are a response to the request of a line. -/
def AnswersLine (M : CalculatorMath) (lib : Protocol) (request bytes : Bytes) : Prop :=
  ∃ call text, call.json = textOf request ∧ bytes = bytesOf text ++ [newline] ∧
    Emitted lib (Owed M lib call) text

section Served

variable {M : CalculatorMath} {lib : Protocol} {workerThreads : Int32} {maxMessageSize : ℕ}
  {history : OperationHistory} {es : List ConnectionEvent} {s : ConnectedService}

/-- The statements of the application are those of the run. -/
theorem guarded_completed
    (hfaults : ∀ reply, .thread (.worker (.runJob reply)) ∈ es → reply = .completed)
    (hrun : (launch history).run M lib workerThreads maxMessageSize es = some s) :
    Guarded (ServiceApplication.step M lib workerThreads)
      (ServiceApplication.Replies fun reply _ _ => reply = .completed)
      (ServiceApplication.launch history)
      (applicationEvents M lib workerThreads maxMessageSize (launch history) es) := by
  have hguard : Guarded (step M lib workerThreads maxMessageSize)
      (fun _ e => ∀ reply, e = .thread (.worker (.runJob reply)) → reply = .completed)
      (launch history) es :=
    guarded_of_forall fun e he _ reply h => hfaults reply (h ▸ he)
  refine projection.guarded (fun {s u e s' a} _ hstep hlabel hG => ?_) es rfl hrun hguard
  unfold ServiceApplication.Replies
  split
  · rename_i reply
    have he : e = .thread (.worker (.runJob reply)) := by
      cases step_cases hstep with
      | moved e service he hservice => rw [Option.some.inj hlabel]
      | accepted | completed | failed => cases hlabel
      | tooLong i c millis conn n hconn hphase hn hlong =>
        simp [applicationEvent, hconn, hn, hlong] at hlabel
      | read i c millis conn n service hconn hphase hn hfits hservice =>
        simp [applicationEvent, hconn, hn, hfits] at hlabel
      | responded c conn r text service hconn hreader htext hservice =>
        simp [applicationEvent, hconn, hreader] at hlabel
    exact fun _ _ => hG reply he
  · trivial

end Served

/-- **What a client reads are answers to what it sent.** Let the table hold true records, and let
no statement fail. Then, in any run and for any number of clients, what has been written to a
connection are responses to the lines that its client has sent, one for each line and in their
order, up to a line that is too long. And the response to a line whose texts can be encoded, and
that is a request with an operand, has the status, the result and the id that the request has when
it is calculated without a storage. -/
theorem clients_served {M : CalculatorMath} (hM : M.Commutes) {lib : Protocol}
    {encodable : String → Prop} (hlib : lib.Accepts encodable) (workerThreads : Int32)
    (maxMessageSize : ℕ) {history : OperationHistory}
    (htrue : ∀ r ∈ history.rows, Truthful M r) {es : List ConnectionEvent}
    (hfaults : ∀ reply, .thread (.worker (.runJob reply)) ∈ es → reply = .completed)
    {s : ConnectedService}
    (hrun : (launch history).run M lib workerThreads maxMessageSize es = some s) :
    ∀ conn ∈ s.connections, ∀ (j : ℕ) (bytes : Bytes), conn.session.written[j]? = some bytes →
      ∃ request, (Session.requestsIn maxMessageSize conn.stream)[j]? = some request ∧
        (Legible lib encodable (textOf request) → AnswersLine M lib request bytes) := by
  intro conn hconn j bytes hj
  obtain ⟨w, hw, -, hs⟩ := served_of_run hrun
  have happ := application_run hrun
  obtain ⟨-, hanswers, -⟩ :=
    records_run (handle_owed hM hlib) htrue (guarded_completed hfaults hrun) happ
  have hattends := hs.each conn hconn
  -- the `j`-th thing written is the `j`-th answer
  obtain ⟨⟨k, text⟩, hk, rfl⟩ : ∃ a, conn.answered[j]? = some a ∧
      bytesOf a.2 ++ [newline] = bytes := by
    obtain ⟨rest, hrest⟩ := hattends.tracks.written_prefix
    have hmap := hrest ▸ Workers.getElem?_append_of_some hj rest
    rw [List.getElem?_map] at hmap
    exact Option.map_eq_some_iff.mp hmap
  obtain ⟨hmem, call, request, hcall, hrequest, hjson⟩ := hattends.answered j k text hk
  obtain ⟨rest, hrest⟩ := hattends.tracks.requests_prefix
  refine ⟨request, hrest ▸ Workers.getElem?_append_of_some hrequest rest, fun hlegible => ?_⟩
  have hanswered : Answered M lib workerThreads history _ k call text :=
    ⟨w, hw, served_taken happ hw ▸ hcall, hmem⟩
  exact ⟨call, text, hjson, rfl, (hanswers k call text hanswered).mono fun _ howed =>
    (howed (hjson ▸ hlegible)).1⟩

theorem clients_served_crossed :
    ∃ s, (launch .empty).run .checked sampleProtocol 2 100
        (twoClients ++ crossedRequests) = some s ∧
      s.connections.map (fun conn => conn.session.written) =
        [[bytesOf "a: 3\n", bytesOf "b from cache: 3\n"], [bytesOf "b: 3\n"]] ∧
      ∀ conn ∈ s.connections, ∀ (j : ℕ) (bytes : Bytes), conn.session.written[j]? = some bytes →
        ∃ request, (Session.requestsIn 100 conn.stream)[j]? = some request ∧
          AnswersLine .checked sampleProtocol request bytes := by
  have hend : ((launch .empty).run .checked sampleProtocol 2 100
      (twoClients ++ crossedRequests)).map
        (fun s => s.connections.map fun conn => conn.session.written) =
          some [[bytesOf "a: 3\n", bytesOf "b from cache: 3\n"], [bytesOf "b: 3\n"]] := by
    decide +kernel
  obtain ⟨s, hrun, hs⟩ := Option.map_eq_some_iff.mp hend
  have hfaults : ∀ reply, .thread (.worker (.runJob reply)) ∈ twoClients ++ crossedRequests →
      reply = .completed := by
    simp [twoClients, crossedRequests]
  refine ⟨s, hrun, hs, fun conn hconn j bytes hj => ?_⟩
  obtain ⟨request, hrequest, hanswers⟩ := clients_served CalculatorMath.checked_commutes
    sampleProtocol_accepts 2 100 (fun r hr => absurd hr List.not_mem_nil) hfaults hrun conn hconn j
    bytes hj
  exact ⟨request, hrequest, hanswers (legible_all _ _)⟩

/-! ## Every line is answered -/

/-- A step that needs no new connection, no error, no signal and no spurious wake-up, once the
service has been started. -/
def Forward : ConnectionEvent → Prop
  | .thread e => ServiceApplication.Forward e
  | .session _ _ _ | .readComplete _ _ _ | .respond _ => True
  | .accept _ _ | .ioError _ _ => False

/-- Such a step, or one of a start. -/
def Advance (e : ConnectionEvent) : Prop := Forward e ∨ ∃ start, Starts start ∧ e = .thread start

end ConnectedService

/-- A bound on the completions still to come, with the return of the handler. -/
def Connection.effort (c : Connection) : ℕ :=
  c.session.effort + (c.reader.map fun _ => 1).getD 0

namespace Connection

variable {conn : Connection} {i k : ℕ}

theorem effort_session {session : Session} (h : session.effort < conn.session.effort) :
    effort { conn with session := session } < conn.effort :=
  Nat.add_lt_add_right h _

/-- `on_read` takes at least the newline out of the buffer. -/
theorem effort_beginRead {n : ℕ} (hidle : conn.reader = none)
    (hn : Session.bytesTransferred conn.session.buffer = some n) :
    (conn.beginRead i k).effort < conn.effort := by
  obtain ⟨line, rest, -, hbuffer, -, hget⟩ := Session.bytesTransferred_eq_some hn
  have hlength : conn.session.buffer.length = line.length + (rest.length + 1) := by
    rw [hbuffer, List.length_append, List.length_cons]
  simp only [effort, beginRead, hidle, hget, Session.effort, hlength, Option.map_none,
    Option.map_some, Option.getD_none, Option.getD_some]
  omega

/-- The write takes the place of the handler. -/
theorem effort_endRead {r : Reader} (hr : conn.reader = some r)
    (hphase : conn.session.phase = .reading) (text : String) :
    (conn.endRead r text).effort = conn.effort := by
  simp only [effort, endRead, hr, Session.effort, hphase, Session.phaseEffort, Option.map_none,
    Option.map_some, Option.getD_none, Option.getD_some]

end Connection

namespace ConnectedService

/-- A bound on the steps still to come. A completion is worth 40: with it come the steps of one call
of the handler. -/
noncomputable def effort (s : ConnectedService) : ℕ :=
  40 * (s.connections.map Connection.effort).sum + s.service.effort

section Drained

variable {M : CalculatorMath} {lib : Protocol} {workerThreads : Int32} {maxMessageSize : ℕ}
  {s s' : ConnectedService} {c : ℕ} {conn : Connection}

theorem sum_effort_put (hc : s.connections[c]? = some conn) (conn' : Connection) :
    conn.effort + ((s.put c conn').connections.map Connection.effort).sum =
      conn'.effort + (s.connections.map Connection.effort).sum := by
  have hperm := Workers.flatMap_set_perm (fun conn => [Connection.effort conn]) conn' hc
  rw [← List.map_eq_flatMap, ← List.map_eq_flatMap] at hperm
  simpa only [List.sum_append, List.sum_singleton, ConnectedService.put] using hperm.sum_eq

/-- A connection moves on, on its own. -/
theorem effort_put (hc : s.connections[c]? = some conn) (conn' : Connection)
    (hdown : conn'.effort < conn.effort) : (s.put c conn').effort < s.effort := by
  have hsum := sum_effort_put hc conn'
  show 40 * ((s.put c conn').connections.map Connection.effort).sum + s.service.effort <
    40 * (s.connections.map Connection.effort).sum + s.service.effort
  omega

/-- A call of the handler is a bounded amount of work. -/
theorem effort_request {u u' : ServiceApplication} {i : ℕ} {json : String} {millis : Elapsed}
    (hstep : u.step M lib workerThreads (.network i (.request json millis)) = some u') :
    u'.effort ≤ u.effort + 31 := by
  cases (ServiceApplication.step_cases hstep).2 with
  | network _ _ _ hmove =>
    cases hmove with
    | requested _ _ hi hio =>
      have hsum := threadsEffort_set hi (.handling (handle M lib millis json))
      have hdepth := Prog.depth_le (handle_endsWithin M lib millis json)
      simp only [threadEffort] at hsum
      simp only [ServiceApplication.effort, moveThread, List.length_set]
      omega

/-- It has nothing to do with a start. -/
theorem startEffort_request {u u' : ServiceApplication} {i : ℕ} {json : String} {millis : Elapsed}
    (hstep : u.step M lib workerThreads (.network i (.request json millis)) = some u') :
    u'.startEffort workerThreads = u.startEffort workerThreads := by
  cases (ServiceApplication.step_cases hstep).2 with
  | network _ _ _ hmove =>
    cases hmove with
    | requested => simp [startEffort, moveThread]

/-- What holds in every state of the service and its connections. -/
def Kept (lib : Protocol) (maxMessageSize : ℕ) (s : ConnectedService) : Prop :=
  Reached lib s.service ∧
    ∃ w, (Orderly s.service ∧ Matches s.service w) ∧ Served maxMessageSize s w

theorem kept_launch (history : OperationHistory) :
    Kept lib maxMessageSize (launch history) :=
  ⟨reached_launch lib history, _, ⟨orderly_launch history, matches_launch history⟩,
    served_launch history⟩

theorem kept_step {e : ConnectionEvent} (h : Kept lib maxMessageSize s)
    (hstep : step M lib workerThreads maxMessageSize s e = some s') :
    Kept lib maxMessageSize s' := by
  obtain ⟨hreached, w, hR⟩ := h
  constructor
  · cases hevent : applicationEvent maxMessageSize s e with
    | none => exact (projection.idle rfl hstep hevent) ▸ hreached
    | some a =>
      obtain ⟨u, hu, rfl⟩ := projection.move rfl hstep hevent
      exact reached_step hreached hu
  · cases hlabel : label maxMessageSize s e with
    | none => exact ⟨w, connected.idle hR hstep hlabel⟩
    | some a =>
      obtain ⟨w', -, hR'⟩ := connected.move hR hstep hlabel
      exact ⟨w', hR'⟩

/-- A completion, or a step of a thread, brings the service closer to its rest. -/
theorem effort_forward {e : ConnectionEvent} (h : Kept lib maxMessageSize s) (he : Forward e)
    (hstep : step M lib workerThreads maxMessageSize s e = some s') : s'.effort < s.effort := by
  obtain ⟨hreached, w, -, hserved⟩ := h
  cases step_cases hstep with
  | accepted | failed => exact he.elim
  | moved e service hin hservice =>
    exact Nat.add_lt_add_left (ServiceApplication.effort_forward hreached he hservice) _
  | completed i c e conn session hconn hne hmove =>
    obtain ⟨hc, -⟩ := outstanding_eq_some.mp hconn
    exact effort_put hc _ (Connection.effort_session (Session.effort_step hmove))
  | tooLong i c millis conn n hconn hphase hn hlong =>
    obtain ⟨hc, -⟩ := outstanding_eq_some.mp hconn
    refine effort_put hc _ (Connection.effort_session ?_)
    simp [Session.effort, hphase, Session.phaseEffort]
  | read i c millis conn n service hconn hphase hn hfits hservice =>
    obtain ⟨hc, -, hidle, -⟩ := outstanding_eq_some.mp hconn
    have hsum := sum_effort_put hc (conn.beginRead i s.picked)
    have hdown := Connection.effort_beginRead (i := i) (k := s.picked) hidle hn
    have hup := effort_request hservice
    show 40 * ((s.put c (conn.beginRead i s.picked)).connections.map Connection.effort).sum +
      service.effort < 40 * (s.connections.map Connection.effort).sum + s.service.effort
    omega
  | responded c conn r text service hc hreader htext hservice =>
    have hphase := ((hserved.each conn (List.mem_of_getElem? hc)).tracks.reading hreader).1
    have hsum := sum_effort_put hc (conn.endRead r text)
    have hsame := Connection.effort_endRead hreader hphase text
    have hdown := ServiceApplication.effort_forward hreached
      (e := .network r.thread .respond) trivial hservice
    show 40 * ((s.put c (conn.endRead r text)).connections.map Connection.effort).sum +
      service.effort < 40 * (s.connections.map Connection.effort).sum + s.service.effort
    omega

theorem startEffort_forward {e : ConnectionEvent} (h : Kept lib maxMessageSize s) (he : Forward e)
    (hstep : step M lib workerThreads maxMessageSize s e = some s') :
    s'.service.startEffort workerThreads ≤ s.service.startEffort workerThreads := by
  cases step_cases hstep with
  | accepted | failed => exact he.elim
  | moved e service hin hservice =>
    exact ServiceApplication.startEffort_forward h.1 he hservice
  | completed | tooLong => exact Nat.le_refl _
  | read i c millis conn n service hconn hphase hn hfits hservice =>
    exact (startEffort_request hservice).le
  | responded c conn r text service hc hreader htext hservice =>
    exact ServiceApplication.startEffort_forward h.1 (e := .network r.thread .respond) trivial
      hservice

/-- So does a step of a start. -/
theorem effort_advance {e : ConnectionEvent} (h : Kept lib maxMessageSize s) (he : Advance e)
    (hstep : step M lib workerThreads maxMessageSize s e = some s') :
    s'.effort + s'.service.startEffort workerThreads <
      s.effort + s.service.startEffort workerThreads := by
  rcases he with he | ⟨start, hstart, rfl⟩
  · have hless := effort_forward h he hstep
    have hstart := startEffort_forward h he hstep
    omega
  · cases step_cases hstep with
    | moved _ service hin hservice =>
      have hless := ServiceApplication.effort_advance h.1 (Or.inr hstart) hservice
      simp only [effort]
      omega

/-- A thread that is free can run `on_read`. -/
theorem onRead_ne_none {i : ℕ} (hfree : s.service.free i = true) (c : ℕ) (conn : Connection)
    (millis : Elapsed) (n : ℕ) :
    s.onRead M lib workerThreads maxMessageSize i c conn millis n ≠ none := by
  obtain ⟨halive, hio, hi⟩ := free_iff.mp hfree
  unfold onRead
  split
  · simp
  · simp [ServiceApplication.step, halive, act, networkStep, hi, hio]

section Quiescent

variable {w : AtomicService} (hm : Matches s.service w) (hserved : Served maxMessageSize s w)
  (hquiet : ∀ e, Forward e → step M lib workerThreads maxMessageSize s e = none)

include hm hserved hquiet

/-- When nothing can happen, nothing can happen in the application: a handler that has returned has
a connection to write to. -/
theorem service_quiescent :
    ∀ e, ServiceApplication.Forward e → s.service.step M lib workerThreads e = none := by
  intro e he
  by_cases hin : inSession e = false
  · have hnone := hquiet (.thread e) he
    simp only [step, hin, Bool.false_eq_true, if_false] at hnone
    exact Option.map_eq_none_iff.mp hnone
  · refine Option.eq_none_iff_forall_ne_some.mpr fun u hu => ?_
    cases (ServiceApplication.step_cases hu).2 with
    | network i e u' hmove =>
      cases hmove with
      | requested => exact he
      | responded text hi =>
        obtain ⟨k, hk⟩ := hm.worker hi rfl
        obtain ⟨c, conn, r, hc, hr, rfl⟩ :=
          hserved.attended i k (Workers.number_eq_some.mpr ⟨_, hk⟩)
        have hnone := hquiet (.respond c) trivial
        simp [step, hc, hr, returned_iff.mpr hi, hu] at hnone
      | rejected | accepted | notified | received | aborted | left => exact hin rfl
    | signalsStarted | signalsFailed | caught | signalled | worked | storageStarting
    | storageStarted | storageFailed | storageStopping | storageStopped | threadCreated
    | serverStarted | serverFailed | woken | ioStopped | threadJoined | serverStopped
    | signalsStopping | signalsJoined => exact hin rfl

/-- Then no connection is in `on_read`. -/
theorem idle_of_quiescent (hreached : Reached lib s.service) (halive : s.service.aborted = false)
    {c : ℕ} {conn : Connection} (hc : s.connections[c]? = some conn) : conn.reader = none := by
  by_contra hreader
  obtain ⟨r, hr⟩ := Option.ne_none_iff_exists'.mp hreader
  obtain ⟨p, hp⟩ := Workers.number_eq_some.mp (hserved.busy hc hr)
  have hthreads := ServiceApplication.idle_of_quiescent hreached halive
    (service_quiescent hm hserved hquiet)
  have hworker := inProgress_of_idle hm hthreads
  have hmem : r.number ∈ w.inProgress :=
    List.mem_filterMap.mpr ⟨_, List.mem_of_getElem? hp, rfl⟩
  rw [hworker] at hmem
  exact absurd hmem List.not_mem_nil

/-- And a connection that is not broken has come to its end. -/
theorem ended_of_quiescent (hreached : Reached lib s.service) {i : ℕ}
    (hfree : s.service.free i = true) {c : ℕ} {conn : Connection}
    (hc : s.connections[c]? = some conn) (hfailed : conn.failed = false) :
    conn.session.phase = .ended := by
  have hidle := idle_of_quiescent hm hserved hquiet hreached (free_iff.mp hfree).1 hc
  have hconn : s.outstanding i c = some conn :=
    outstanding_eq_some.mpr ⟨hc, hfree, hidle, hfailed⟩
  have hsession : ∀ e, conn.session.step (fun _ _ => []) maxMessageSize e = none := by
    intro e
    by_cases he : e = .readComplete
    · subst he
      have hnone := hquiet (.readComplete i c ⟨0, 0⟩) trivial
      simp only [step, hconn, Option.bind_eq_bind, Option.bind_some] at hnone
      simp only [Session.step]
      split
      · rename_i n hphase hn
        simp only [hphase, hn] at hnone
        exact absurd hnone (onRead_ne_none hfree c conn ⟨0, 0⟩ n)
      · rfl
    · have hnone := hquiet (.session i c e) trivial
      simp only [step, hconn, Option.bind_eq_bind, Option.bind_some, he, if_false] at hnone
      cases hmove : conn.session.step (fun _ _ => []) maxMessageSize e with
      | none => rfl
      | some session =>
        rw [hmove] at hnone
        cases hnone
  exact Session.ended_of_quiescent hsession

end Quiescent

end Drained

/-- **Every line is answered.** From any state of the service, its threads and completions take at
most `effort` and `startEffort` steps, as long as no client connects, no connection breaks, no
signal is caught, `condition_` does not wake up spuriously and neither `signal_handler.start()` nor
`server.start()` fails. When none of them can go on, but for those of a start, and some network
thread is still serving, every client whose connection is not broken has got a response to each of
its lines, up to one that is too long. -/
theorem connections_drained (M : CalculatorMath) (lib : Protocol) (workerThreads : Int32)
    (maxMessageSize : ℕ) (history : OperationHistory) (es es' : List ConnectionEvent)
    (s s' : ConnectedService)
    (hrun : (launch history).run M lib workerThreads maxMessageSize es = some s)
    (hadvance : ∀ e ∈ es', Advance e)
    (hrun' : s.run M lib workerThreads maxMessageSize es' = some s') :
    es'.length ≤ s.effort + s.service.startEffort workerThreads ∧
      ((∀ e, Forward e → s'.step M lib workerThreads maxMessageSize e = none) →
        (∃ i, s'.service.free i = true) → ∀ conn ∈ s'.connections, conn.failed = false →
          conn.session.requests = Session.requestsIn maxMessageSize conn.stream ∧
          conn.session.written = conn.answered.map (fun a => bytesOf a.2 ++ [newline]) ∧
          conn.session.written.length = conn.session.requests.length) := by
  have hkept : Kept lib maxMessageSize s :=
    runSteps_invariant (fun _ _ _ hi hstep => kept_step hi hstep) es (kept_launch history) hrun
  have hlength := runSteps_bounded (C := Advance) (I := Kept lib maxMessageSize)
    (m := fun s => s.effort + s.service.startEffort workerThreads)
    (fun _ _ _ _ hi hstep => kept_step hi hstep)
    (fun _ _ _ he hi hstep => effort_advance hi he hstep) es' hadvance hkept hrun'
  refine ⟨by omega, fun hquiet ⟨i, hfree⟩ conn hconn hfailed => ?_⟩
  obtain ⟨hreached, w, ⟨-, hm⟩, hserved⟩ :=
    runSteps_invariant (fun _ _ _ hi hstep => kept_step hi hstep) es' hkept hrun'
  obtain ⟨c, hc⟩ := List.getElem?_of_mem hconn
  have hidle := idle_of_quiescent hm hserved hquiet hreached (free_iff.mp hfree).1 hc
  have hended := ended_of_quiescent hm hserved hquiet hreached hfree hc hfailed
  have hsound := (hserved.each conn hconn).tracks.idle hidle
  have hwritten := hsound.responses
  rw [Session.pending, hended, List.append_nil] at hwritten
  refine ⟨(hsound.answers.of_ended hended).1, hwritten, ?_⟩
  rw [hwritten, List.length_map, hsound.length]

/-- The service waits, and its clients are gone. -/
def resting (s : ConnectedService) : Bool :=
  s.service.resting &&
    s.connections.all fun conn => decide (conn.session.phase = .ended) && conn.reader.isNone

theorem quiescent_of_resting {M : CalculatorMath} {lib : Protocol} {workerThreads : Int32}
    {maxMessageSize : ℕ} {s : ConnectedService} (h : s.resting = true) :
    ∀ e, Forward e → s.step M lib workerThreads maxMessageSize e = none := by
  simp only [resting, Bool.and_eq_true, List.all_eq_true, decide_eq_true_eq,
    Option.isNone_iff_eq_none] at h
  obtain ⟨hservice, hends⟩ := h
  have hended : ∀ {i c : ℕ} {conn : Connection}, s.outstanding i c = some conn →
      conn.session.phase = .ended := fun hconn =>
    (hends _ (List.mem_of_getElem? (outstanding_eq_some.mp hconn).1)).1
  intro e he
  refine Option.eq_none_iff_forall_ne_some.mpr fun s' hstep => ?_
  cases step_cases hstep with
  | accepted | failed => exact he
  | moved e service hin hmove =>
    rw [ServiceApplication.quiescent_of_resting hservice e he] at hmove
    cases hmove
  | completed i c e conn session hconn hne hmove =>
    have hphase := hended hconn
    cases Session.step_cases hmove with
    | received _ _ hp | tooLong _ _ hp | handled _ _ hp | eof hp | wrote _ hp =>
      exact absurd (hphase.symm.trans hp) (by simp)
  | tooLong i c millis conn n hconn hp => exact absurd ((hended hconn).symm.trans hp) (by simp)
  | read i c millis conn n service hconn hp =>
    exact absurd ((hended hconn).symm.trans hp) (by simp)
  | responded c conn r text service hc hreader =>
    exact absurd ((hends conn (List.mem_of_getElem? hc)).2.symm.trans hreader) (by simp)

/-- Both clients have sent all they have to send. -/
def lastCompletions : List ConnectionEvent :=
  crossedRequests ++ [.session 0 0 .readEof, .session 0 1 .readEof, .thread (.worker .check)]

/-- The three lines of the two clients are answered, and the rest of the second one's stream is
not. -/
theorem connections_drained_crossed :
    ∃ s s', (launch .empty).run .checked sampleProtocol 2 100 twoClients = some s ∧
      s.run .checked sampleProtocol 2 100 lastCompletions = some s' ∧
      lastCompletions.length ≤ s.effort + s.service.startEffort 2 ∧
      s'.connections.map (fun conn => (conn.stream, conn.session.written.length)) =
        [(bytesOf "1+2\r\n2+1\n", 2), (bytesOf "2+1\n1", 1)] ∧
      ∀ conn ∈ s'.connections, conn.failed = false →
        conn.session.requests = Session.requestsIn 100 conn.stream := by
  have hend : (((launch .empty).run .checked sampleProtocol 2 100 twoClients).bind fun s =>
      s.run .checked sampleProtocol 2 100 lastCompletions).map
        (fun s => (s.resting, s.service.free 0,
          s.connections.map fun conn => (conn.stream, conn.session.written.length))) =
      some (true, true, [(bytesOf "1+2\r\n2+1\n", 2), (bytesOf "2+1\n1", 1)]) := by
    decide +kernel
  obtain ⟨s', hboth, hs⟩ := Option.map_eq_some_iff.mp hend
  obtain ⟨s, hrun, hrun'⟩ := Option.bind_eq_some_iff.mp hboth
  obtain ⟨hresting, hs⟩ := Prod.mk.inj hs
  obtain ⟨hfree, hwritten⟩ := Prod.mk.inj hs
  have hforward : ∀ e ∈ lastCompletions, Forward e := by
    simp [lastCompletions, crossedRequests, Forward, ServiceApplication.Forward]
  obtain ⟨hlength, hdone⟩ := connections_drained _ _ _ _ _ _ _ s s' hrun
    (fun e he => Or.inl (hforward e he)) hrun'
  exact ⟨s, s', hrun, hrun', hlength, hwritten, fun conn hconn hfailed =>
    (hdone (quiescent_of_resting hresting) ⟨0, hfree⟩ conn hconn hfailed).1⟩

end ConnectedService

end ConsoleCalculator
