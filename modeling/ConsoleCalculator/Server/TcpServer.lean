import ConsoleCalculator.Base.Machine

/-!
# Starting and stopping the TCP server

Model of `TcpJsonServer::start`, `stop` and `do_accept` (`server/src/tcp-json-server.cpp`), called
in any order on one server.

* `start` is a list of steps (`startSteps`), each of which may throw. What the operating system
  refuses is given by the call (`fails`); `open` on an acceptor that is open already fails on its
  own (`refuses`). An exception leaves the server as the steps before it made it: nothing in
  `start` is undone.
* `run()` on a stopped `io_context_` returns at once, and nothing in the source calls `restart()`.
  So only threads of a context that is not stopped execute handlers (`executing`).
* While `stop` is on its way from `running_ = false` to `io_context_.stop()` the threads may still
  execute handlers: `StopRace` says whether they got to a completed accept and to the posted
  `close`. What they did not get to stays in the queue of a stopped context for good.
* Left out: `bound_port_`, the sessions, and logging.

Results:
* `startKept_stopped`: no `start` after a `stop` of a running server does what it should, whatever
  the race in `stop`.
* **`starts_kept_iff`**: all calls of `start` do what they should exactly if the first one meets
  no failure and none follows a `stop` of the running server. `failed_start_stays_running` has the
  two ways to break this.
-/

namespace ConsoleCalculator

open Base

/-- The state of the socket behind `acceptor_`. -/
inductive AcceptorState
  | closed
  | opened
  | bound
  | listening
  deriving DecidableEq, Repr

/-- The steps of `start` after `running_.exchange(true)`. -/
inductive StartStep
  | makeAddress
  | openAcceptor
  | setReuseAddress
  | bind
  | listen
  | localEndpoint
  | doAccept
  /-- `workers_.emplace_back`: the thread with this index. -/
  | createThread (index : ℕ)
  deriving DecidableEq, Repr

/-- How a call of `start` ends. -/
inductive StartResult
  | returned
  | threw (step : StartStep)
  deriving DecidableEq, Repr

/-- What the threads still execute while `stop` runs. -/
structure StopRace where
  /-- A pending accept completes. -/
  acceptRan : Bool
  /-- The posted `acceptor_.close()`. -/
  closeRan : Bool
  deriving DecidableEq, Repr

/-- A `TcpJsonServer` with its `io_context_`. -/
structure TcpJsonServer where
  /-- `running_`. -/
  running : Bool
  /-- `acceptor_`. -/
  acceptor : AcceptorState
  /-- An `async_accept` is outstanding. -/
  acceptPending : Bool
  /-- `work_guard_` owns work. -/
  workGuard : Bool
  /-- `io_context_.stopped()`. -/
  stopped : Bool
  /-- The number of `workers_`. -/
  workers : ℕ
  deriving DecidableEq, Repr

/-- A call on the server, or an accept that completes between two calls. -/
inductive ServerEvent
  | start (fails : StartStep → Bool)
  | accept
  | stop (race : StopRace)

namespace TcpJsonServer

/-- The constructor. -/
def construct : TcpJsonServer :=
  ⟨false, .closed, false, true, false, 0⟩

/-- `std::max(1, config_.worker_threads())`. -/
def threadCount (workerThreads : Int32) : ℕ :=
  (max 1 workerThreads.toInt).toNat

/-- Some thread executes handlers. -/
def executing (s : TcpJsonServer) : Bool :=
  decide (0 < s.workers) && !s.stopped

/-- The handler of `async_accept`: `do_accept` again, unless the server is no longer running. -/
def onAccept (s : TcpJsonServer) : TcpJsonServer :=
  if s.running then { s with acceptPending := true } else { s with acceptPending := false }

/-! ## `start` -/

/-- The steps, in the order of the source. -/
def startSteps (workerThreads : Int32) : List StartStep :=
  [.makeAddress, .openAcceptor, .setReuseAddress, .bind, .listen, .localEndpoint, .doAccept] ++
    (List.range (threadCount workerThreads)).map .createThread

/-- Asio's own condition: an acceptor is opened once. -/
def refuses (s : TcpJsonServer) : StartStep → Bool
  | .openAcceptor => s.acceptor != .closed
  | _ => false

/-- What a step does if it does not throw. -/
def perform (s : TcpJsonServer) : StartStep → TcpJsonServer
  | .makeAddress | .setReuseAddress | .localEndpoint => s
  | .openAcceptor => { s with acceptor := .opened }
  | .bind => { s with acceptor := .bound }
  | .listen => { s with acceptor := .listening }
  | .doAccept => { s with acceptPending := true }
  | .createThread _ => { s with workers := s.workers + 1 }

/-- Steps one after the other, up to the first that throws. -/
def attempt (fails : StartStep → Bool) :
    List StartStep → TcpJsonServer → StartResult × TcpJsonServer
  | [], s => (.returned, s)
  | step :: rest, s =>
    if fails step || s.refuses step then (.threw step, s) else attempt fails rest (s.perform step)

/-- `start()`. -/
def start (workerThreads : Int32) (fails : StartStep → Bool) (s : TcpJsonServer) :
    StartResult × TcpJsonServer :=
  if s.running then (.returned, s)
  else attempt fails (startSteps workerThreads) { s with running := true }

/-! ## `stop` -/

/-- What the threads do between `running_ = false` and `io_context_.stop()`, if there are any. -/
def raced (race : StopRace) (s : TcpJsonServer) : TcpJsonServer :=
  if s.executing then
    let t := if race.acceptRan && s.acceptPending then s.onAccept else s
    -- closing cancels the accept
    if race.closeRan then { t with acceptor := .closed, acceptPending := false } else t
  else s

/-- `stop()`. -/
def stop (race : StopRace) (s : TcpJsonServer) : TcpJsonServer :=
  if s.running then
    { raced race { s with running := false } with
      workGuard := false
      stopped := true
      workers := 0 }
  else s

/-- What an event does, `none` if it cannot happen. -/
def step (workerThreads : Int32) (s : TcpJsonServer) : ServerEvent → Option TcpJsonServer
  | .start fails => some (s.start workerThreads fails).2
  | .accept => if s.executing && s.acceptPending then some s.onAccept else none
  | .stop race => some (s.stop race)

/-- The events of a list, one after the other. -/
def run (workerThreads : Int32) (s : TcpJsonServer) (es : List ServerEvent) :
    Option TcpJsonServer :=
  runSteps (step workerThreads) s es

/-! ## What `start` should do -/

/-- The server does what `running_` says. -/
structure Serving (s : TcpJsonServer) : Prop where
  running : s.running = true
  acceptor : s.acceptor = .listening
  accepting : s.acceptPending = true
  context : s.stopped = false
  threads : 0 < s.workers

/-- A `start` that returns leaves a server that serves; one that throws leaves a server whose next
`start` does not return at its first line. -/
def StartKept (workerThreads : Int32) (s : TcpJsonServer) : ServerEvent → Prop
  | .start fails =>
    match s.start workerThreads fails with
    | (.returned, s') => Serving s'
    | (.threw _, s') => s'.running = false
  | _ => True

/-- No step of `start` fails. -/
def Faultless (workerThreads : Int32) (fails : StartStep → Bool) : Prop :=
  ∀ step ∈ startSteps workerThreads, fails step = false

/-- The kinds of calls. -/
inductive CallKind
  | start
  | stop
  deriving DecidableEq, Repr

/-- The kind of the call an event is. -/
def kind : ServerEvent → Option CallKind
  | .start _ => some .start
  | .stop _ => some .stop
  | .accept => none

/-- The calls among the events. -/
def calls (es : List ServerEvent) : List CallKind :=
  es.filterMap kind

@[simp] theorem calls_start (fails : StartStep → Bool) (es : List ServerEvent) :
    calls (.start fails :: es) = .start :: calls es := rfl

@[simp] theorem calls_accept (es : List ServerEvent) : calls (.accept :: es) = calls es := rfl

@[simp] theorem calls_stop (race : StopRace) (es : List ServerEvent) :
    calls (.stop race :: es) = .stop :: calls es := rfl

/-- The failures met by the first call of `start`. -/
def firstStart : List ServerEvent → Option (StartStep → Bool)
  | [] => none
  | .start fails :: _ => some fails
  | _ :: es => firstStart es

/-! ## Attempts -/

section

variable {workerThreads : Int32} {fails : StartStep → Bool} {s s' : TcpJsonServer}

/-- No step touches `running_` or stops the context. -/
theorem attempt_frame (fails : StartStep → Bool) :
    ∀ (steps : List StartStep) (s : TcpJsonServer),
      (attempt fails steps s).2.running = s.running ∧ (attempt fails steps s).2.stopped = s.stopped
  | [], _ => ⟨rfl, rfl⟩
  | step :: rest, s => by
    simp only [attempt]
    split
    · exact ⟨rfl, rfl⟩
    · obtain ⟨hrunning, hstopped⟩ := attempt_frame fails rest (s.perform step)
      cases step <;> exact ⟨hrunning, hstopped⟩

theorem attempt_threw {step : StartStep} (hfails : fails step = true) :
    ∀ (steps : List StartStep) (s : TcpJsonServer), step ∈ steps →
      ∃ thrown, (attempt fails steps s).1 = .threw thrown
  | first :: rest, s, hmem => by
    simp only [attempt]
    split
    · exact ⟨first, rfl⟩
    · rename_i hnot
      rcases List.mem_cons.mp hmem with rfl | hmem
      · simp [hfails] at hnot
      · exact attempt_threw hfails rest _ hmem

theorem attempt_threads :
    ∀ (indices : List ℕ) (s : TcpJsonServer),
      (∀ index ∈ indices, fails (.createThread index) = false) →
      attempt fails (indices.map .createThread) s =
        (.returned, { s with workers := s.workers + indices.length })
  | [], _, _ => rfl
  | index :: rest, s, hfails => by
    have hfirst := hfails index List.mem_cons_self
    have hrest := fun i hi => hfails i (List.mem_cons_of_mem index hi)
    simp only [List.map_cons, attempt, hfirst, refuses, Bool.or_self, Bool.false_eq_true, if_false]
    rw [attempt_threads rest _ hrest]
    simp [perform, Nat.add_assoc, Nat.add_comm 1]

theorem threadCount_pos (workerThreads : Int32) : 0 < threadCount workerThreads := by
  unfold threadCount
  omega

/-- With no failure the first `start` does it all. -/
theorem start_construct (hfails : Faultless workerThreads fails) :
    construct.start workerThreads fails =
      (.returned, ⟨true, .listening, true, true, false, threadCount workerThreads⟩) := by
  have hstep : ∀ step ∈ [StartStep.makeAddress, .openAcceptor, .setReuseAddress, .bind, .listen,
      .localEndpoint, .doAccept], fails step = false := fun step hmem =>
    hfails step (List.mem_append_left _ hmem)
  have hthreads : ∀ index ∈ List.range (threadCount workerThreads),
      fails (.createThread index) = false := fun index hmem =>
    hfails _ (List.mem_append_right _ (List.mem_map_of_mem hmem))
  simp only [List.forall_mem_cons, List.not_mem_nil, false_implies, implies_true, and_true] at hstep
  obtain ⟨haddress, hopen, hoption, hbind, hlisten, hendpoint, haccept⟩ := hstep
  simp [start, startSteps, construct, attempt, refuses, perform, haddress, hopen, hoption, hbind,
    hlisten, hendpoint, haccept, attempt_threads _ _ hthreads]

/-- A `start` that gets past its first line leaves `running_` set, however it ends. -/
theorem start_frame (workerThreads : Int32) (fails : StartStep → Bool) (hs : s.running = false) :
    (s.start workerThreads fails).2.running = true ∧
      (s.start workerThreads fails).2.stopped = s.stopped := by
  have hnot : ¬ s.running = true := by simp [hs]
  unfold start
  rw [if_neg hnot]
  exact attempt_frame fails _ _

/-! ## One call of `start` -/

/-- An exception always leaves `running_` set, so what counts is that none is thrown. -/
theorem startKept_iff (hs : s.running = false) :
    StartKept workerThreads s (.start fails) ↔
      (s.start workerThreads fails).1 = .returned ∧ Serving (s.start workerThreads fails).2 := by
  have hrunning := (start_frame workerThreads fails hs).1
  simp only [StartKept]
  split
  · rename_i s' hstart
    simp [hstart]
  · rename_i step s' hstart
    simp only [hstart] at hrunning ⊢
    simp [hrunning]

theorem startKept_construct :
    StartKept workerThreads construct (.start fails) ↔ Faultless workerThreads fails := by
  rw [startKept_iff rfl]
  constructor
  · rintro ⟨hreturned, -⟩ step hmem
    by_contra hfails
    rw [Bool.not_eq_false] at hfails
    obtain ⟨first, hthrew⟩ :=
      attempt_threw hfails (startSteps workerThreads) { construct with running := true } hmem
    have hstart : construct.start workerThreads fails =
      attempt fails (startSteps workerThreads) { construct with running := true } := rfl
    rw [hstart, hthrew] at hreturned
    exact StartResult.noConfusion hreturned
  · intro hfails
    rw [start_construct hfails]
    exact ⟨rfl, ⟨rfl, rfl, rfl, rfl, threadCount_pos workerThreads⟩⟩

theorem startKept_serving (hs : Serving s) : StartKept workerThreads s (.start fails) := by
  simp only [StartKept, start, hs.running, if_true]
  exact hs

/-- A context that was stopped stays so: there is no `restart()`. -/
theorem startKept_stopped (hs : s.running = false) (hstopped : s.stopped = true) :
    ¬ StartKept workerThreads s (.start fails) := by
  rw [startKept_iff hs]
  rintro ⟨-, hserving⟩
  have hcontext := (start_frame workerThreads fails hs).2
  rw [hserving.context, hstopped] at hcontext
  exact Bool.noConfusion hcontext

/-! ## Sequences of calls -/

/-- After `stop` of a running server the context is stopped and `running_` is cleared, whatever the
threads did in the meantime. -/
theorem stop_serving (race : StopRace) (hs : s.running = true) :
    (s.stop race).running = false ∧ (s.stop race).stopped = true := by
  refine ⟨?_, by simp [stop, hs]⟩
  simp only [stop, hs, if_true, raced, onAccept]
  split
  · split <;> split <;> rfl
  · rfl

theorem stop_idle (race : StopRace) (hs : s.running = false) : s.stop race = s := by
  simp [stop, hs]

theorem onAccept_serving (hs : Serving s) : s.onAccept = s := by
  obtain ⟨hrunning, -, haccepting, -, -⟩ := hs
  cases s
  simp_all [onAccept]

/-- Once the context is stopped, any further `start` breaks its promise. -/
theorem kept_stopped : ∀ (es : List ServerEvent) {s s' : TcpJsonServer}, s.running = false →
    s.stopped = true → s.run workerThreads es = some s' →
    (Guarded (step workerThreads) (StartKept workerThreads) s es ↔
      ¬ [CallKind.start].Sublist (calls es))
  | [], _, _, _, _, _ => by simp [Guarded, calls]
  | .start fails :: es, s, _, hs, hstopped, _ => by
    have hnot : ¬ StartKept workerThreads s (.start fails) := startKept_stopped hs hstopped
    simp [Guarded, hnot]
  | .accept :: es, s, _, _, hstopped, hrun => by
    obtain ⟨t, ht, -⟩ := runSteps_cons hrun
    simp [step, executing, hstopped] at ht
  | .stop race :: es, s, _, hs, hstopped, hrun => by
    obtain ⟨t, ht, hrest⟩ := runSteps_cons hrun
    obtain rfl := (Option.some.inj ht).symm.trans (stop_idle race hs)
    have hrec := kept_stopped es hs hstopped hrest
    simpa [Guarded, StartKept, ht] using hrec

/-- While the server serves, what matters is that no `start` follows a `stop`. -/
theorem kept_serving : ∀ (es : List ServerEvent) {s s' : TcpJsonServer}, Serving s →
    s.run workerThreads es = some s' →
    (Guarded (step workerThreads) (StartKept workerThreads) s es ↔
      ¬ [CallKind.stop, .start].Sublist (calls es))
  | [], _, _, _, _ => by simp [Guarded, calls]
  | .start fails :: es, s, _, hs, hrun => by
    obtain ⟨t, ht, hrest⟩ := runSteps_cons hrun
    have hsame : (s.start workerThreads fails).2 = s := by simp [start, hs.running]
    obtain rfl := (Option.some.inj ht).symm.trans hsame
    have hrec := kept_serving es hs hrest
    have hkept : StartKept workerThreads t (.start fails) := startKept_serving hs
    simpa [Guarded, hkept, ht, List.cons_sublist_cons'] using hrec
  | .accept :: es, s, _, hs, hrun => by
    obtain ⟨t, ht, hrest⟩ := runSteps_cons hrun
    have hsame : t = s := by
      simp only [step] at ht
      split at ht
      · exact (Option.some.inj ht).symm.trans (onAccept_serving hs)
      · cases ht
    obtain rfl := hsame
    have hrec := kept_serving es hs hrest
    simpa [Guarded, StartKept, ht] using hrec
  | .stop race :: es, s, _, hs, hrun => by
    obtain ⟨t, ht, hrest⟩ := runSteps_cons hrun
    obtain ⟨hrunning, hstopped⟩ := stop_serving race hs.running
    obtain rfl := Option.some.inj ht
    have hrec := kept_stopped es hrunning hstopped hrest
    simpa [Guarded, StartKept, ht] using hrec

end

/-- **What `running_` is worth.** In a sequence of calls every `start` that returns leaves a server
that listens and serves, and every `start` that throws leaves one that can be started again, exactly
if no step of the first `start` fails and no `start` comes after a `stop` of the running server. -/
theorem starts_kept_iff (workerThreads : Int32) :
    ∀ (es : List ServerEvent) (s : TcpJsonServer), construct.run workerThreads es = some s →
      (Guarded (step workerThreads) (StartKept workerThreads) construct es ↔
        (∀ fails, firstStart es = some fails → Faultless workerThreads fails) ∧
        ¬ [CallKind.start, .stop, .start].Sublist (calls es))
  | [], _, _ => by simp [Guarded, calls, firstStart]
  | .start fails :: es, _, hrun => by
    obtain ⟨t, ht, hrest⟩ := runSteps_cons hrun
    have hkept : StartKept workerThreads construct (.start fails) ↔ _ := startKept_construct
    by_cases hfails : Faultless workerThreads fails
    · have hserving : Serving (construct.start workerThreads fails).2 :=
        ((startKept_iff rfl).mp (hkept.mpr hfails)).2
      obtain rfl := Option.some.inj ht
      have hrec := kept_serving es hserving hrest
      simpa [Guarded, hkept, hfails, ht, firstStart] using hrec
    · simp [Guarded, hkept, hfails, firstStart]
  | .accept :: es, _, hrun => by
    obtain ⟨t, ht, -⟩ := runSteps_cons hrun
    simp [step, executing, construct] at ht
  -- until the first `start`, nothing happens at all
  | .stop race :: es, _, hrun => by
    obtain ⟨t, ht, hrest⟩ := runSteps_cons hrun
    obtain rfl := (Option.some.inj ht).symm.trans (stop_idle race rfl)
    have hrec := starts_kept_iff workerThreads es _ hrest
    simpa [Guarded, StartKept, ht, firstStart, List.cons_sublist_cons'] using hrec

/-- One start, two connections and one stop, with calls that do nothing around them. -/
theorem starts_kept_orderly :
    Guarded (step 4) (StartKept 4) construct
      [.stop ⟨true, true⟩, .start fun _ => false, .accept, .start fun _ => true, .accept,
        .stop ⟨true, false⟩, .stop ⟨false, false⟩] := by
  refine (starts_kept_iff 4 _ _ rfl).mpr ⟨?_, by decide⟩
  intro fails hfirst step _
  exact (congrFun (Option.some.inj hfirst) step).symm

/-- The port is in use. -/
def bindFails : StartStep → Bool
  | .bind => true
  | _ => false

/-- A `start` that failed to bind makes the next one return without listening. After a `stop` in
which the posted `close` was not executed, `start` throws since the acceptor is still open, and the
one after it returns at once. If `close` was executed, `start` listens and returns, with threads
whose `run()` has returned. -/
theorem failed_start_stays_running :
    (¬ Guarded (step 4) (StartKept 4) construct [.start bindFails, .start fun _ => false] ∧
      let first := construct.start 4 bindFails
      first.1 = .threw .bind ∧ first.2.start 4 (fun _ => false) = (.returned, first.2) ∧
        first.2.acceptor = .opened ∧ first.2.workers = 0) ∧
    (∀ race, ¬ Guarded (step 4) (StartKept 4) construct
      [.start fun _ => false, .stop race, .start fun _ => false]) ∧
    (let second := ((construct.start 4 fun _ => false).2.stop ⟨false, false⟩).start 4 fun _ => false
     let third := second.2.start 4 fun _ => false
     second.1 = .threw .openAcceptor ∧ third.1 = .returned ∧ third.2.executing = false) ∧
    (let second := ((construct.start 4 fun _ => false).2.stop ⟨false, true⟩).start 4 fun _ => false
     second.1 = .returned ∧ second.2.acceptor = .listening ∧ second.2.executing = false) := by
  refine ⟨⟨fun h => ?_, by decide⟩, fun race h => ?_, by decide, by decide⟩
  · have hrunning : (construct.start 4 bindFails).2.running = false := h.1
    exact absurd hrunning (by decide)
  · have hrunning : (construct.start 4 fun _ => false).2.running = true := by decide
    obtain ⟨hcleared, hstopped⟩ := stop_serving race hrunning
    exact startKept_stopped hcleared hstopped ((h.2 _ rfl).2 _ rfl).1

end TcpJsonServer

end ConsoleCalculator
