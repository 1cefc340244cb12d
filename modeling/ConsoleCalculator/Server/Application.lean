import ConsoleCalculator.Server.TcpServer
import ConsoleCalculator.Server.WorkerRuns

/-!
# The service application

Model of `ServiceApplication::run` (`server/src/service-application.cpp`) with all its threads: the
main thread, the signal thread of `SignalHandler` (`server/src/signal-handler.cpp`), the network
threads of `TcpJsonServer` and the worker thread of `StorageWorker`. A step is what one of them does
between two points where another can interfere.

* The main thread starts the three components and waits; when it is woken it stops them in the order
  `server.stop()`, `storage->stop()`, `signal_handler.stop()`. An exception of one of the starts
  leaves `run` through the destructors, which call the same functions in the same order, as far as
  the components exist (`unwinding`). What the main thread does to the storage worker are the events
  `startClear`, …, `stopJoin` of `StorageWorker`.
* A network thread runs `io_context_.run()`. It picks up a request as long as the context is not
  stopped, runs `RequestHandler::handle` on it, and is then free again. It leaves once the context
  is stopped; in `server.stop()` it may already leave before that, for want of work. Connections,
  reads and writes do not touch the state below: which requests arrive on which thread, and when, is
  up to the environment.
* `find` and `save` of a handler go to the storage worker: `enqueue` (`submit`), which either throws
  or leaves a job, then `notify_one` (`notify`) and `future.get()` (`receive`).
* An exception that leaves `handle` leaves the thread's function, which ends the process, and so
  does undefined behaviour as far as this model goes (`abort`).
* The signal thread's `running_` is not a field: it is set while the thread is in `sigwait`, and
  `pthread_kill` from `stop` makes it leave.
* `responses` records what calls of `handle` returned.

Results:
* `step_cases`: what a step can do, with what must hold for it.
-/

namespace ConsoleCalculator

open Base RequestHandler

/-! ## The state -/

/-- Where the main thread is. -/
inductive MainPhase where
  | startingSignals
  | startingStorage
  | startingServer
  /-- In `condition.wait`. -/
  | waiting
  /-- In `server.stop()`, before `io_context_.stop()`. -/
  | stoppingServer
  /-- In the loop of `server.stop()` that joins `workers_`, at `index`. -/
  | joining (index : ℕ)
  | stoppingStorage
  | stoppingSignals
  | joiningSignals
  | ended
  deriving DecidableEq, Repr

/-- Where the signal thread is. -/
inductive SignalPhase where
  | absent
  /-- In `sigwait`. -/
  | waiting
  /-- In `callback_`, before `stopping = true`. -/
  | notifying
  | exited
  deriving DecidableEq, Repr

/-- Where a network thread is. -/
inductive NetworkPhase where
  /-- In `io_context_.run()`, between two handlers. -/
  | idle
  /-- In `RequestHandler::handle`, with this program left. -/
  | handling (program : HandlerM String)
  /-- In a call of the storage worker, with this program left for the answer. -/
  | calling (ticket : ℕ) (op : StorageOp) (rest : op.Ans → HandlerM String)
  | exited

/-- The service: its threads and the state they share. -/
structure ServiceApplication where
  main : MainPhase
  /-- An exception is leaving `run`. -/
  unwinding : Bool
  signal : SignalPhase
  /-- The local variable of `run`. -/
  stopping : Bool
  /-- `io_context_` of the server is stopped. -/
  ioStopped : Bool
  /-- `workers_` of the server. -/
  threads : List NetworkPhase
  storage : StorageWorker
  responses : List String
  /-- The process has ended without `run` returning. -/
  aborted : Bool

/-- The steps of a network thread. -/
inductive NetworkEvent where
  | request (json : String) (millis : Elapsed)
  | submit
  | notify
  | receive
  | respond
  | abort
  | exit
  deriving DecidableEq, Repr

/-- The steps of the threads. -/
inductive ApplicationEvent where
  /-- `signal_handler.start()` returns, or throws. -/
  | startSignals (ok : Bool)
  | signalCaught
  | signalNotify
  /-- A step of the storage worker's thread, or of its `start` or `stop`. -/
  | worker (e : WorkerEvent)
  | createThread
  | serverStarted
  | serverFails
  | wake
  | ioStop
  | join
  | joined
  | signalStop
  | signalJoin
  | network (i : ℕ) (e : NetworkEvent)

/-- An exception as the answer to an operation. -/
def StorageOp.failed (e : Exception) : (o : StorageOp) → o.Ans
  | .find _ _ _ => .error e
  | .save _ => .error e

/-- `pthread_kill` from `stop`, which has cleared `running_`: a thread in `sigwait` leaves. -/
def SignalPhase.killed : SignalPhase → SignalPhase
  | .waiting => .exited
  | phase => phase

/-- What the promise of a ticket holds. -/
def StorageWorker.promise (w : StorageWorker) (ticket : ℕ) (op : StorageOp) : Option op.Ans :=
  match w.finished.find? fun f => f.ticket = ticket with
  | some ⟨_, op', answer⟩ => if h : op' = op then some (h ▸ answer) else none
  | none => none

namespace ServiceApplication

/-- The process at the start of `run`, over a database that holds `history`. -/
def launch (history : OperationHistory) : ServiceApplication where
  main := .startingSignals
  unwinding := false
  signal := .absent
  stopping := false
  ioStopped := false
  threads := []
  storage := .construct history
  responses := []
  aborted := false

/-! ## Steps -/

/-- A thread of the network moves on. -/
def moveThread (s : ServiceApplication) (i : ℕ) (phase : NetworkPhase) : ServiceApplication :=
  { s with threads := s.threads.set i phase }

/-- `storage->start()` returns, or `init_future.get()` throws. -/
def storageStarted (s : ServiceApplication) : ServiceApplication :=
  match s.storage.worker with
  | some .failed => { s with main := .stoppingStorage, unwinding := true }
  | _ => { s with main := .startingServer }

/-- A step of the storage worker: those of its thread can happen at any time, those of `start` and
`stop` where the main thread calls them. -/
def workerStep (s : ServiceApplication) (e : WorkerEvent) : Option ServiceApplication :=
  match s.storage.step e with
  | none => none
  | some storage =>
    match e with
    | .initDone | .check | .spuriousWake | .runJob _ => some { s with storage := storage }
    | .startClear | .startThread _ =>
      if s.main = .startingStorage then some { s with storage := storage } else none
    | .startReturn =>
      if s.main = .startingStorage then some { s.storageStarted with storage := storage } else none
    | .stopFlag | .stopNotify =>
      if s.main = .stoppingStorage then some { s with storage := storage } else none
    | .stopJoin =>
      if s.main = .stoppingStorage then
        some { s with storage := storage, main := .stoppingSignals }
      else none
    | .submit _ | .notifyOne _ | .getFuture _ => none

section Step

variable (M : CalculatorMath) (lib : Protocol) (workerThreads : Int32)

/-- A step of network thread `i`. -/
def networkStep (s : ServiceApplication) (i : ℕ) (e : NetworkEvent) : Option ServiceApplication :=
  match e, s.threads[i]? with
  | .request json millis, some .idle =>
    if s.ioStopped then none else some (s.moveThread i (.handling (handle M lib millis json)))
  | .submit, some (.handling (.call op rest)) =>
    let phase := if s.storage.stopping then .handling (rest (op.failed storageWorkerIsStopping))
      else .calling s.storage.calls.length op rest
    some { s.moveThread i phase with storage := s.storage.enqueue op }
  | .notify, some (.calling ticket _ _) =>
    match s.storage.step (.notifyOne ticket) with
    | some storage => some { s with storage := storage }
    | none => none
  | .receive, some (.calling ticket op rest) =>
    match s.storage.step (.getFuture ticket), s.storage.promise ticket op with
    | some storage, some answer =>
      some { s.moveThread i (.handling (rest answer)) with storage := storage }
    | _, _ => none
  | .respond, some (.handling (.done (.value text))) =>
    some { s.moveThread i .idle with responses := s.responses ++ [text] }
  | .abort, some (.handling (.done (.thrown _))) => some { s with aborted := true }
  | .abort, some (.handling (.done .undefined)) => some { s with aborted := true }
  | .exit, some .idle =>
    if s.ioStopped ∨ s.main = .stoppingServer then some (s.moveThread i .exited) else none
  | _, _ => none

/-- A step of some thread of a process that has not been aborted. -/
def act (s : ServiceApplication) : ApplicationEvent → Option ServiceApplication
  | .startSignals ok =>
    if s.main = .startingSignals then
      if ok then some { s with main := .startingStorage, signal := .waiting }
      else some { s with main := .ended, unwinding := true }
    else none
  | .signalCaught =>
    if s.signal = .waiting then some { s with signal := .notifying } else none
  | .signalNotify =>
    if s.signal = .notifying then some { s with signal := .exited, stopping := true } else none
  | .worker e => s.workerStep e
  | .createThread =>
    if s.main = .startingServer ∧ s.threads.length < TcpJsonServer.threadCount workerThreads then
      some { s with threads := s.threads ++ [.idle] }
    else none
  | .serverStarted =>
    if s.main = .startingServer ∧ s.threads.length = TcpJsonServer.threadCount workerThreads then
      some { s with main := .waiting }
    else none
  | .serverFails =>
    if s.main = .startingServer then some { s with main := .stoppingServer, unwinding := true }
    else none
  | .wake =>
    if s.main = .waiting ∧ s.stopping then some { s with main := .stoppingServer } else none
  | .ioStop =>
    if s.main = .stoppingServer then some { s with main := .joining 0, ioStopped := true } else none
  | .join =>
    match s.main with
    | .joining index =>
      match s.threads[index]? with
      | some .exited => some { s with main := .joining (index + 1) }
      | _ => none
    | _ => none
  | .joined =>
    if s.main = .joining s.threads.length then some { s with main := .stoppingStorage } else none
  | .signalStop =>
    if s.main = .stoppingSignals then
      some { s with main := .joiningSignals, signal := s.signal.killed }
    else none
  | .signalJoin =>
    if s.main = .joiningSignals ∧ (s.signal = .exited ∨ s.signal = .absent) then
      some { s with main := .ended }
    else none
  | .network i e => networkStep M lib s i e

/-- A step of some thread, `none` if it cannot happen. -/
def step (s : ServiceApplication) (e : ApplicationEvent) : Option ServiceApplication :=
  if s.aborted then none else act M lib workerThreads s e

/-- A run from `s`. -/
def run (s : ServiceApplication) (es : List ApplicationEvent) : Option ServiceApplication :=
  runSteps (step M lib workerThreads) s es

end Step

/-! ## What a step can do -/

/-- The steps of the storage worker that belong to a call. -/
def CallStep : WorkerEvent → Prop
  | .submit _ | .notifyOne _ | .getFuture _ => True
  | _ => False

/-- The steps of the storage worker's own thread. -/
def OwnStep : WorkerEvent → Prop
  | .initDone | .check | .spuriousWake | .runJob _ => True
  | _ => False

section Inversion

variable (M : CalculatorMath) (lib : Protocol) (workerThreads : Int32)

/-- The steps of network thread `i`, with what must hold for them. -/
inductive NetworkMove (s : ServiceApplication) (i : ℕ) : NetworkEvent → ServiceApplication → Prop
  | requested (json : String) (millis : Elapsed) (hi : s.threads[i]? = some .idle)
      (hio : s.ioStopped = false) :
      NetworkMove s i (.request json millis)
        (s.moveThread i (.handling (handle M lib millis json)))
  | rejected (op : StorageOp) (rest : op.Ans → HandlerM String)
      (hi : s.threads[i]? = some (.handling (.call op rest))) (hs : s.storage.stopping = true) :
      NetworkMove s i .submit
        { s.moveThread i (.handling (rest (op.failed storageWorkerIsStopping))) with
          storage := s.storage.enqueue op }
  | accepted (op : StorageOp) (rest : op.Ans → HandlerM String)
      (hi : s.threads[i]? = some (.handling (.call op rest))) (hs : s.storage.stopping = false) :
      NetworkMove s i .submit
        { s.moveThread i (.calling s.storage.calls.length op rest) with
          storage := s.storage.enqueue op }
  | notified (ticket : ℕ) (op : StorageOp) (rest : op.Ans → HandlerM String)
      (storage : StorageWorker) (hi : s.threads[i]? = some (.calling ticket op rest))
      (hw : s.storage.step (.notifyOne ticket) = some storage) :
      NetworkMove s i .notify { s with storage := storage }
  | received (ticket : ℕ) (op : StorageOp) (rest : op.Ans → HandlerM String)
      (storage : StorageWorker) (answer : op.Ans)
      (hi : s.threads[i]? = some (.calling ticket op rest))
      (hw : s.storage.step (.getFuture ticket) = some storage)
      (ha : s.storage.promise ticket op = some answer) :
      NetworkMove s i .receive { s.moveThread i (.handling (rest answer)) with storage := storage }
  | responded (text : String) (hi : s.threads[i]? = some (.handling (.done (.value text)))) :
      NetworkMove s i .respond { s.moveThread i .idle with responses := s.responses ++ [text] }
  | aborted (outcome : Outcome Exception String)
      (hi : s.threads[i]? = some (.handling (.done outcome))) :
      NetworkMove s i .abort { s with aborted := true }
  | left (hi : s.threads[i]? = some .idle)
      (hl : s.ioStopped = true ∨ s.main = .stoppingServer) :
      NetworkMove s i .exit (s.moveThread i .exited)

/-- The steps, with what must hold for them: the inversion of `step`. -/
inductive Step (s : ServiceApplication) : ApplicationEvent → ServiceApplication → Prop
  | signalsStarted (hm : s.main = .startingSignals) :
      Step s (.startSignals true) { s with main := .startingStorage, signal := .waiting }
  | signalsFailed (hm : s.main = .startingSignals) :
      Step s (.startSignals false) { s with main := .ended, unwinding := true }
  | caught (hs : s.signal = .waiting) : Step s .signalCaught { s with signal := .notifying }
  | signalled (hs : s.signal = .notifying) :
      Step s .signalNotify { s with signal := .exited, stopping := true }
  | worked (e : WorkerEvent) (storage : StorageWorker) (he : OwnStep e)
      (hw : s.storage.step e = some storage) : Step s (.worker e) { s with storage := storage }
  | storageStarting (e : WorkerEvent) (storage : StorageWorker)
      (he : e = .startClear ∨ ∃ replies, e = .startThread replies)
      (hw : s.storage.step e = some storage) (hm : s.main = .startingStorage) :
      Step s (.worker e) { s with storage := storage }
  | storageStarted (storage : StorageWorker) (hw : s.storage.step .startReturn = some storage)
      (hm : s.main = .startingStorage) (hf : s.storage.worker ≠ some .failed) :
      Step s (.worker .startReturn) { s with storage := storage, main := .startingServer }
  | storageFailed (storage : StorageWorker) (hw : s.storage.step .startReturn = some storage)
      (hm : s.main = .startingStorage) (hf : s.storage.worker = some .failed) :
      Step s (.worker .startReturn)
        { s with storage := storage, main := .stoppingStorage, unwinding := true }
  | storageStopping (e : WorkerEvent) (storage : StorageWorker)
      (he : e = .stopFlag ∨ e = .stopNotify) (hw : s.storage.step e = some storage)
      (hm : s.main = .stoppingStorage) : Step s (.worker e) { s with storage := storage }
  | storageStopped (storage : StorageWorker) (hw : s.storage.step .stopJoin = some storage)
      (hm : s.main = .stoppingStorage) :
      Step s (.worker .stopJoin) { s with storage := storage, main := .stoppingSignals }
  | threadCreated (hm : s.main = .startingServer)
      (hn : s.threads.length < TcpJsonServer.threadCount workerThreads) :
      Step s .createThread { s with threads := s.threads ++ [.idle] }
  | serverStarted (hm : s.main = .startingServer)
      (hn : s.threads.length = TcpJsonServer.threadCount workerThreads) :
      Step s .serverStarted { s with main := .waiting }
  | serverFailed (hm : s.main = .startingServer) :
      Step s .serverFails { s with main := .stoppingServer, unwinding := true }
  | woken (hm : s.main = .waiting) (hs : s.stopping = true) :
      Step s .wake { s with main := .stoppingServer }
  | ioStopped (hm : s.main = .stoppingServer) :
      Step s .ioStop { s with main := .joining 0, ioStopped := true }
  | threadJoined (index : ℕ) (hm : s.main = .joining index)
      (hi : s.threads[index]? = some .exited) : Step s .join { s with main := .joining (index + 1) }
  | serverStopped (hm : s.main = .joining s.threads.length) :
      Step s .joined { s with main := .stoppingStorage }
  | signalsStopping (hm : s.main = .stoppingSignals) :
      Step s .signalStop { s with main := .joiningSignals, signal := s.signal.killed }
  | signalsJoined (hm : s.main = .joiningSignals) (hs : s.signal = .exited ∨ s.signal = .absent) :
      Step s .signalJoin { s with main := .ended }
  | network (i : ℕ) (e : NetworkEvent) (s' : ServiceApplication)
      (h : NetworkMove M lib s i e s') : Step s (.network i e) s'

end Inversion

section Cases

variable {M : CalculatorMath} {lib : Protocol} {workerThreads : Int32}
  {s s' : ServiceApplication}

/-- A guarded step that happened. -/
theorem of_guard {p : Prop} [Decidable p] (h : (if p then some s else none) = some s') :
    p ∧ s = s' := by
  obtain ⟨hp, h⟩ := Option.ite_none_right_eq_some.mp h
  exact ⟨hp, Option.some.inj h⟩

theorem networkStep_cases {i : ℕ} {e : NetworkEvent}
    (h : networkStep M lib s i e = some s') : NetworkMove M lib s i e s' := by
  unfold networkStep at h
  split at h
  · rename_i json millis hi
    split at h
    · cases h
    · rename_i hio
      obtain rfl := Option.some.inj h
      exact .requested json millis hi (Bool.eq_false_iff.mpr hio)
  · rename_i op rest hi
    obtain rfl := Option.some.inj h
    cases hs : s.storage.stopping with
    | true => exact .rejected op rest hi hs
    | false => exact .accepted op rest hi hs
  · rename_i ticket op rest hi
    split at h
    · rename_i storage hw
      obtain rfl := Option.some.inj h
      exact .notified ticket op rest storage hi hw
    · cases h
  · rename_i ticket op rest hi
    split at h
    · rename_i storage answer hw ha
      obtain rfl := Option.some.inj h
      exact .received ticket op rest storage answer hi hw ha
    · cases h
  · rename_i text hi
    obtain rfl := Option.some.inj h
    exact .responded text hi
  · rename_i err hi
    obtain rfl := Option.some.inj h
    exact .aborted _ hi
  · rename_i hi
    obtain rfl := Option.some.inj h
    exact .aborted _ hi
  · rename_i hi
    obtain ⟨hl, rfl⟩ := of_guard h
    exact .left hi hl
  · cases h

theorem workerStep_cases {e : WorkerEvent} (h : s.workerStep e = some s') :
    Step M lib workerThreads s (.worker e) s' := by
  unfold workerStep at h
  split at h
  · cases h
  · rename_i storage hw
    cases e with
    | initDone =>
      obtain rfl := Option.some.inj h
      exact .worked _ storage trivial hw
    | check =>
      obtain rfl := Option.some.inj h
      exact .worked _ storage trivial hw
    | spuriousWake =>
      obtain rfl := Option.some.inj h
      exact .worked _ storage trivial hw
    | runJob reply =>
      obtain rfl := Option.some.inj h
      exact .worked _ storage trivial hw
    | startClear =>
      obtain ⟨hm, rfl⟩ := of_guard h
      exact .storageStarting _ storage (Or.inl rfl) hw hm
    | startThread replies =>
      obtain ⟨hm, rfl⟩ := of_guard h
      exact .storageStarting _ storage (Or.inr ⟨replies, rfl⟩) hw hm
    | startReturn =>
      obtain ⟨hm, rfl⟩ := of_guard h
      unfold storageStarted
      split
      · rename_i hf; exact .storageFailed storage hw hm hf
      · rename_i hf; exact .storageStarted storage hw hm hf
    | stopFlag =>
      obtain ⟨hm, rfl⟩ := of_guard h
      exact .storageStopping _ storage (Or.inl rfl) hw hm
    | stopNotify =>
      obtain ⟨hm, rfl⟩ := of_guard h
      exact .storageStopping _ storage (Or.inr rfl) hw hm
    | stopJoin =>
      obtain ⟨hm, rfl⟩ := of_guard h
      exact .storageStopped storage hw hm
    | submit op => cases h
    | notifyOne ticket => cases h
    | getFuture ticket => cases h

theorem step_cases {e : ApplicationEvent} (h : step M lib workerThreads s e = some s') :
    s.aborted = false ∧ Step M lib workerThreads s e s' := by
  unfold step at h
  split at h
  · cases h
  · rename_i ha
    refine ⟨Bool.eq_false_iff.mpr ha, ?_⟩
    cases e with
    | startSignals blocked =>
      obtain ⟨hm, h⟩ := Option.ite_none_right_eq_some.mp h
      cases blocked with
      | true => obtain rfl := Option.some.inj h; exact .signalsStarted hm
      | false => obtain rfl := Option.some.inj h; exact .signalsFailed hm
    | signalCaught =>
      obtain ⟨hs, rfl⟩ := of_guard h
      exact .caught hs
    | signalNotify =>
      obtain ⟨hs, rfl⟩ := of_guard h
      exact .signalled hs
    | worker e => exact workerStep_cases h
    | createThread =>
      obtain ⟨⟨hm, hn⟩, rfl⟩ := of_guard h
      exact .threadCreated hm hn
    | serverStarted =>
      obtain ⟨⟨hm, hn⟩, rfl⟩ := of_guard h
      exact .serverStarted hm hn
    | serverFails =>
      obtain ⟨hm, rfl⟩ := of_guard h
      exact .serverFailed hm
    | wake =>
      obtain ⟨⟨hm, hs⟩, rfl⟩ := of_guard h
      exact .woken hm hs
    | ioStop =>
      obtain ⟨hm, rfl⟩ := of_guard h
      exact .ioStopped hm
    | join =>
      simp only [act] at h
      split at h
      · rename_i index hm
        split at h
        · rename_i hi
          obtain rfl := Option.some.inj h
          exact .threadJoined index hm hi
        · cases h
      · cases h
    | joined =>
      obtain ⟨hm, rfl⟩ := of_guard h
      exact .serverStopped hm
    | signalStop =>
      obtain ⟨hm, rfl⟩ := of_guard h
      exact .signalsStopping hm
    | signalJoin =>
      obtain ⟨⟨hm, hs⟩, rfl⟩ := of_guard h
      exact .signalsJoined hm hs
    | network i e => exact .network i e s' (networkStep_cases h)

end Cases

end ServiceApplication

end ConsoleCalculator
