import ConsoleCalculator.Base.Machine
import ConsoleCalculator.Server.Transparency

/-!
# The storage worker

Model of `StorageWorker` (`server/src/storage-worker.cpp`): a queue of jobs guarded by a mutex and
a condition variable, one worker thread that owns the `StorageService`, and any number of clients
that submit a job and wait for its future. A step is what one thread does between two points where
another can interfere:

* A client's `find` or `save` is `enqueue` up to the release of the lock (`submit`), then
  `notify_one` (`notifyOne`), then `future.get()` (`getFuture`), which can happen once the job's
  promise is set. Every call has a ticket, its number.
* The worker thread initializes (`initDone`), then alternates between the critical section at the
  top of its loop (`check`: wait, leave the loop, or take the first job) and the job itself, which
  it runs outside the lock (`runJob`). A waiting thread is woken by a notification, or spuriously.
* `start` and `stop` are called by one thread, one after the other: `startClear`, `startThread`,
  `startReturn`, and `stopFlag`, `stopNotify`, `stopJoin`. Assigning to a `std::thread` that is
  still joinable ends the process, so `startThread` is not possible then; nor is `stopJoin` while
  the thread runs.

What PostgreSQL reports is the environment's choice: `InitReplies` when a thread is created,
a `StatementReply` for each job. The lists `accepted` and `finished` record which jobs were
accepted and which promises were set, in order.

Results:
* `step_cases`: what a step can do, with what must hold for it.
* **`consistent_step`**: no step loses, repeats or reorders a job, mixes up replies, leaves a
  waiting worker unnotified, or lets the thread leave its loop while a job is queued.
-/

namespace ConsoleCalculator

open Base RequestHandler

/-! ## The state -/

/-- An operation with its answer, as a promise holds it. -/
abbrev StorageReply : Type := Σ o : StorageOp, o.Ans

/-- A job of the queue: the call it belongs to and what it does. -/
structure Job where
  ticket : ℕ
  op : StorageOp
  deriving DecidableEq, Repr

/-- A job whose promise is set. -/
structure Finished where
  ticket : ℕ
  reply : StorageReply

/-- The job that was finished. -/
def Finished.job (f : Finished) : Job := ⟨f.ticket, f.reply.1⟩

/-- Where a call of `find` or `save` is. -/
inductive CallPhase where
  | notifying
  | awaiting
  | returned (reply : StorageReply)
  | threw

/-- A call: what it submitted, and where it is. -/
structure StorageCall where
  op : StorageOp
  phase : CallPhase

/-- What the initialization of a worker thread meets: a connection error, or the replies to its
two statements. -/
structure InitReplies where
  connection : Option String := none
  schema : StatementReply := .completed
  history : StatementReply := .completed

/-- Where the worker thread is. -/
inductive WorkerPhase where
  | initializing (replies : InitReplies)
  | checking
  | waiting
  | running (job : Job)
  | exited
  | failed

/-- Where the thread that calls `start` and `stop` is. -/
inductive ControlPhase where
  | idle
  | startCleared
  | startAwaiting
  | stopFlagged
  | stopJoining
  deriving DecidableEq, Repr

/-- `StorageWorker`. `worker` is `none` when `worker_` is not joinable. `storage` is the service on
the worker thread's stack; its table is the database, which outlives the thread. -/
structure StorageWorker where
  jobs : List Job := []
  stopping : Bool := false
  worker : Option WorkerPhase := none
  control : ControlPhase := .idle
  storage : StorageService
  calls : List StorageCall := []
  accepted : List Job := []
  finished : List Finished := []

/-- The steps of the threads. -/
inductive WorkerEvent where
  | submit (op : StorageOp)
  | notifyOne (ticket : ℕ)
  | getFuture (ticket : ℕ)
  | startClear
  | startThread (replies : InitReplies)
  | initDone
  | startReturn
  | check
  | spuriousWake
  | runJob (reply : StatementReply)
  | stopFlag
  | stopNotify
  | stopJoin

/-- The exception `enqueue` throws when the worker is stopping. -/
def storageWorkerIsStopping : Exception := .foreign (.std "storage worker is stopping")

/-- `thread_main` up to `init_promise.set_value()`. -/
def InitReplies.attempt (replies : InitReplies) (history : OperationHistory) :
    Except Exception StorageService :=
  match replies.connection with
  | some lastError => .error (.ofCode .errorStorage ("PostgreSQL connection failed: " ++ lastError))
  | none => StorageService.initializeStorage replies.schema replies.history (.fresh history)

/-- A notification: a waiting thread goes back to its check. -/
def WorkerPhase.notified : WorkerPhase → WorkerPhase
  | .waiting => .checking
  | phase => phase

namespace StorageWorker

/-- `StorageWorker::StorageWorker`, over a database that holds `history`. -/
def construct (history : OperationHistory) : StorageWorker := { storage := .fresh history }

/-- `enqueue` up to the release of the lock. -/
def enqueue (w : StorageWorker) (op : StorageOp) : StorageWorker :=
  if w.stopping then { w with calls := w.calls ++ [⟨op, .threw⟩] }
  else
    { w with
      jobs := w.jobs ++ [⟨w.calls.length, op⟩]
      calls := w.calls ++ [⟨op, .notifying⟩]
      accepted := w.accepted ++ [⟨w.calls.length, op⟩] }

/-- The critical section of `thread_main`'s loop. -/
def checkQueue (w : StorageWorker) : StorageWorker :=
  match w.jobs with
  | [] =>
    if w.stopping then { w with worker := some .exited } else { w with worker := some .waiting }
  | job :: rest => { w with worker := some (.running job), jobs := rest }

/-- The job, run outside the lock: its promise is set to what the storage returns or throws. -/
def runJob (w : StorageWorker) (reply : StatementReply) (job : Job) : StorageWorker :=
  let answered := StorageService.exec reply w.storage job.op
  { w with
    worker := some .checking
    storage := answered.1
    finished := w.finished ++ [⟨job.ticket, ⟨job.op, answered.2⟩⟩] }

/-- One step of one thread. -/
def step (w : StorageWorker) : WorkerEvent → Option StorageWorker
  | .submit op => some (w.enqueue op)
  | .notifyOne ticket =>
    match w.calls[ticket]? with
    | some ⟨op, .notifying⟩ =>
      some { w with
        calls := w.calls.set ticket ⟨op, .awaiting⟩
        worker := w.worker.map .notified }
    | _ => none
  | .getFuture ticket =>
    match w.calls[ticket]?, w.finished.find? fun f => f.ticket = ticket with
    | some ⟨op, .awaiting⟩, some f =>
      some { w with calls := w.calls.set ticket ⟨op, .returned f.reply⟩ }
    | _, _ => none
  | .startClear =>
    if w.control = .idle then some { w with stopping := false, control := .startCleared } else none
  | .startThread replies =>
    match w.control, w.worker with
    | .startCleared, none =>
      some { w with worker := some (.initializing replies), control := .startAwaiting }
    | _, _ => none
  | .initDone =>
    match w.worker with
    | some (.initializing replies) =>
      match replies.attempt w.storage.postgresRepository with
      | .ok storage => some { w with worker := some .checking, storage := storage }
      | .error _ => some { w with worker := some .failed }
    | _ => none
  | .startReturn =>
    match w.control, w.worker with
    | .startAwaiting, some (.initializing _) => none
    | .startAwaiting, _ => some { w with control := .idle }
    | _, _ => none
  | .check =>
    match w.worker with
    | some .checking => some w.checkQueue
    | _ => none
  | .spuriousWake =>
    match w.worker with
    | some .waiting => some { w with worker := some .checking }
    | _ => none
  | .runJob reply =>
    match w.worker with
    | some (.running job) => some (w.runJob reply job)
    | _ => none
  | .stopFlag =>
    if w.control = .idle then some { w with stopping := true, control := .stopFlagged } else none
  | .stopNotify =>
    if w.control = .stopFlagged then
      some { w with worker := w.worker.map .notified, control := .stopJoining }
    else none
  | .stopJoin =>
    match w.control, w.worker with
    | .stopJoining, none => some { w with control := .idle }
    | .stopJoining, some .exited => some { w with worker := none, control := .idle }
    | .stopJoining, some .failed => some { w with worker := none, control := .idle }
    | _, _ => none

/-- A run from `w`. -/
def run (w : StorageWorker) (es : List WorkerEvent) : Option StorageWorker := runSteps step w es

/-! ## What a step can do -/

/-- The steps, with what must hold for them: the inversion of `step`. -/
inductive Step (w : StorageWorker) : WorkerEvent → StorageWorker → Prop
  | rejected (op : StorageOp) (hs : w.stopping = true) :
      Step w (.submit op) { w with calls := w.calls ++ [⟨op, .threw⟩] }
  | accepted (op : StorageOp) (hs : w.stopping = false) :
      Step w (.submit op)
        { w with
          jobs := w.jobs ++ [⟨w.calls.length, op⟩]
          calls := w.calls ++ [⟨op, .notifying⟩]
          accepted := w.accepted ++ [⟨w.calls.length, op⟩] }
  | notified (ticket : ℕ) (op : StorageOp) (hc : w.calls[ticket]? = some ⟨op, .notifying⟩) :
      Step w (.notifyOne ticket)
        { w with calls := w.calls.set ticket ⟨op, .awaiting⟩, worker := w.worker.map .notified }
  | received (ticket : ℕ) (op : StorageOp) (f : Finished)
      (hc : w.calls[ticket]? = some ⟨op, .awaiting⟩) (hf : f ∈ w.finished)
      (ht : f.ticket = ticket) :
      Step w (.getFuture ticket) { w with calls := w.calls.set ticket ⟨op, .returned f.reply⟩ }
  | cleared (hc : w.control = .idle) :
      Step w .startClear { w with stopping := false, control := .startCleared }
  | started (replies : InitReplies) (hc : w.control = .startCleared) (hw : w.worker = none) :
      Step w (.startThread replies)
        { w with worker := some (.initializing replies), control := .startAwaiting }
  | initialized (replies : InitReplies) (storage : StorageService)
      (hw : w.worker = some (.initializing replies))
      (ha : replies.attempt w.storage.postgresRepository = .ok storage) :
      Step w .initDone { w with worker := some .checking, storage := storage }
  | initFailed (replies : InitReplies) (e : Exception)
      (hw : w.worker = some (.initializing replies))
      (ha : replies.attempt w.storage.postgresRepository = .error e) :
      Step w .initDone { w with worker := some .failed }
  | startReturned (hc : w.control = .startAwaiting)
      (hw : ∀ replies, w.worker ≠ some (.initializing replies)) :
      Step w .startReturn { w with control := .idle }
  | waited (hw : w.worker = some .checking) (hj : w.jobs = []) (hs : w.stopping = false) :
      Step w .check { w with worker := some .waiting }
  | left (hw : w.worker = some .checking) (hj : w.jobs = []) (hs : w.stopping = true) :
      Step w .check { w with worker := some .exited }
  | took (job : Job) (rest : List Job) (hw : w.worker = some .checking)
      (hj : w.jobs = job :: rest) :
      Step w .check { w with worker := some (.running job), jobs := rest }
  | woke (hw : w.worker = some .waiting) :
      Step w .spuriousWake { w with worker := some .checking }
  | ran (reply : StatementReply) (job : Job) (hw : w.worker = some (.running job)) :
      Step w (.runJob reply) (w.runJob reply job)
  | flagged (hc : w.control = .idle) :
      Step w .stopFlag { w with stopping := true, control := .stopFlagged }
  | stopNotified (hc : w.control = .stopFlagged) :
      Step w .stopNotify { w with worker := w.worker.map .notified, control := .stopJoining }
  | joined (hc : w.control = .stopJoining)
      (hw : w.worker = none ∨ w.worker = some .exited ∨ w.worker = some .failed) :
      Step w .stopJoin { w with worker := none, control := .idle }

theorem step_cases {w w' : StorageWorker} {e : WorkerEvent} (h : w.step e = some w') :
    Step w e w' := by
  cases e with
  | submit op =>
    obtain rfl := Option.some.inj h
    unfold enqueue
    split
    · rename_i hs; exact .rejected op hs
    · rename_i hs; exact .accepted op (Bool.eq_false_iff.mpr hs)
  | notifyOne ticket =>
    simp only [step] at h
    split at h
    · rename_i op hc
      obtain rfl := Option.some.inj h
      exact .notified ticket op hc
    · exact absurd h (by simp)
  | getFuture ticket =>
    simp only [step] at h
    split at h
    · rename_i op f hc hf
      obtain rfl := Option.some.inj h
      exact .received ticket op f hc (List.mem_of_find?_eq_some hf)
        (by simpa using List.find?_some hf)
    · exact absurd h (by simp)
  | startClear =>
    simp only [step] at h
    split at h
    · rename_i hc; obtain rfl := Option.some.inj h; exact .cleared hc
    · exact absurd h (by simp)
  | startThread replies =>
    simp only [step] at h
    split at h
    · rename_i hc hw; obtain rfl := Option.some.inj h; exact .started replies hc hw
    · exact absurd h (by simp)
  | initDone =>
    simp only [step] at h
    split at h
    · rename_i replies hw
      split at h
      · rename_i storage ha
        obtain rfl := Option.some.inj h
        exact .initialized replies storage hw ha
      · rename_i e ha; obtain rfl := Option.some.inj h; exact .initFailed replies e hw ha
    · exact absurd h (by simp)
  | startReturn =>
    simp only [step] at h
    split at h
    · exact absurd h (by simp)
    · rename_i hc hw; obtain rfl := Option.some.inj h; exact .startReturned hc hw
    · exact absurd h (by simp)
  | check =>
    simp only [step] at h
    split at h
    · rename_i hw
      obtain rfl := Option.some.inj h
      unfold checkQueue
      split
      · rename_i hj
        split
        · rename_i hs; exact .left hw hj hs
        · rename_i hs; exact .waited hw hj (Bool.eq_false_iff.mpr hs)
      · rename_i job rest hj; exact .took job rest hw hj
    · exact absurd h (by simp)
  | spuriousWake =>
    simp only [step] at h
    split at h
    · rename_i hw; obtain rfl := Option.some.inj h; exact .woke hw
    · exact absurd h (by simp)
  | runJob reply =>
    simp only [step] at h
    split at h
    · rename_i job hw; obtain rfl := Option.some.inj h; exact .ran reply job hw
    · exact absurd h (by simp)
  | stopFlag =>
    simp only [step] at h
    split at h
    · rename_i hc; obtain rfl := Option.some.inj h; exact .flagged hc
    · exact absurd h (by simp)
  | stopNotify =>
    simp only [step] at h
    split at h
    · rename_i hc; obtain rfl := Option.some.inj h; exact .stopNotified hc
    · exact absurd h (by simp)
  | stopJoin =>
    have hjoin : ∀ hw : w.worker = none ∨ w.worker = some .exited ∨ w.worker = some .failed,
        w.control = .stopJoining → Step w .stopJoin { w with worker := none, control := .idle } :=
      fun hw hc => .joined hc hw
    simp only [step] at h
    split at h
    · rename_i hc hw
      obtain rfl := Option.some.inj h
      have := hjoin (Or.inl hw) hc
      rwa [← hw] at this
    · rename_i hc hw; obtain rfl := Option.some.inj h; exact hjoin (Or.inr (Or.inl hw)) hc
    · rename_i hc hw; obtain rfl := Option.some.inj h; exact hjoin (Or.inr (Or.inr hw)) hc
    · exact absurd h (by simp)

/-! ## What every reachable state satisfies -/

/-- The job the worker thread is running. -/
def current (w : StorageWorker) : List Job :=
  match w.worker with
  | some (.running job) => [job]
  | _ => []

/-- The accounts of the queue, the tickets of the calls, and how the flags go with the phases. -/
structure Consistent (w : StorageWorker) : Prop where
  /-- No job is lost, repeated or overtaken. -/
  accounted : w.accepted = w.finished.map Finished.job ++ w.current ++ w.jobs
  /-- Tickets are distinct. -/
  distinct : (w.accepted.map Job.ticket).Nodup
  /-- An accepted job is one its call submitted. -/
  submitted : ∀ job ∈ w.accepted, ∃ phase, w.calls[job.ticket]? = some ⟨job.op, phase⟩
  /-- A reply a call returned is the one its promise was set to. -/
  replied : ∀ (ticket : ℕ) (op : StorageOp) (reply : StorageReply),
    w.calls[ticket]? = some ⟨op, .returned reply⟩ → ⟨ticket, reply⟩ ∈ w.finished
  /-- `stopping_` is set only from within `stop`, or after it when no thread is left. -/
  flag : w.stopping = true →
    (w.worker = none ∧ w.control = .idle) ∨ w.control = .stopFlagged ∨ w.control = .stopJoining
  /-- A waiting thread that has something to do is about to be notified. -/
  awake : w.worker = some .waiting →
    (w.jobs = [] ∨ ∃ (ticket : ℕ) (op : StorageOp), w.calls[ticket]? = some ⟨op, .notifying⟩) ∧
      (w.stopping = true → w.control = .stopFlagged)
  /-- A thread leaves its loop for good: stopped, and with nothing queued. -/
  drained : w.worker = some .exited → w.stopping = true ∧ w.jobs = []

theorem consistent_construct (history : OperationHistory) : Consistent (construct history) where
  accounted := rfl
  distinct := List.nodup_nil
  submitted _ h := absurd h List.not_mem_nil
  replied ticket _ _ h := absurd h (by simp [construct])
  flag h := absurd h (by simp [construct])
  awake h := absurd h (by simp [construct])
  drained h := absurd h (by simp [construct])

/-- A phase that is not changed by a notification into waiting. -/
theorem notified_ne_waiting (p : WorkerPhase) : p.notified ≠ .waiting := by
  cases p <;> simp [WorkerPhase.notified]

theorem map_notified_eq {worker : Option WorkerPhase} {p : WorkerPhase}
    (h : worker.map .notified = some p) (hp : p ≠ .checking) : worker = some p := by
  obtain ⟨q, rfl, hq⟩ := Option.map_eq_some_iff.mp h
  cases q <;> first | exact congrArg some hq | exact absurd hq.symm hp

theorem current_notified (w : StorageWorker) (calls : List StorageCall) (control : ControlPhase) :
    current { w with calls := calls, control := control, worker := w.worker.map .notified } =
      w.current := by
  unfold current
  cases hw : w.worker with
  | none => rfl
  | some p => cases p <;> rfl

section Calls

variable {α : Type} {l : List α} {a a' : α} {calls : List StorageCall} {ticket t : ℕ}

theorem getElem?_concat_iff :
    (l ++ [a'])[t]? = some a ↔ l[t]? = some a ∨ (t = l.length ∧ a = a') := by
  rw [List.getElem?_append]
  split
  · rename_i ht
    exact ⟨Or.inl, fun h => h.elim id fun e => absurd e.1 (by omega)⟩
  · rename_i ht
    have hnone : l[t]? = none := List.getElem?_eq_none (by omega)
    rw [hnone, List.getElem?_singleton]
    split
    · rename_i h0
      constructor
      · intro h
        exact Or.inr ⟨by omega, (Option.some.inj h).symm⟩
      · rintro (h | ⟨-, rfl⟩)
        · exact absurd h (by simp)
        · rfl
    · rename_i h0
      constructor
      · intro h; exact absurd h (by simp)
      · rintro (h | ⟨h, -⟩)
        · exact absurd h (by simp)
        · omega

theorem getElem?_set_cases (h : (l.set ticket a')[t]? = some a) :
    (t = ticket ∧ a = a') ∨ l[t]? = some a := by
  rw [List.getElem?_set] at h
  split at h
  · rename_i heq
    split at h
    · exact Or.inl ⟨heq.symm, (Option.some.inj h).symm⟩
    · exact absurd h (by simp)
  · exact Or.inr h

/-- Moving a call on to another phase keeps what each call submitted. -/
theorem submitted_set {op op' : StorageOp} {p p' phase : CallPhase}
    (hc : calls[ticket]? = some ⟨op, p⟩) (h : calls[t]? = some ⟨op', p'⟩) :
    ∃ q, (calls.set ticket ⟨op, phase⟩)[t]? = some ⟨op', q⟩ := by
  by_cases ht : ticket = t
  · subst ht
    rw [hc] at h
    obtain ⟨rfl, -⟩ := StorageCall.mk.inj (Option.some.inj h)
    exact ⟨phase, List.getElem?_set_self (List.getElem?_eq_some_iff.mp hc).1⟩
  · exact ⟨p', by rw [List.getElem?_set_ne ht]; exact h⟩

end Calls

/-- A new call has no reply yet. -/
theorem replied_concat {w : StorageWorker} (h : Consistent w) {op op' : StorageOp}
    {phase : CallPhase} {reply : StorageReply} {ticket : ℕ} (hphase : phase ≠ .returned reply)
    (hc : (w.calls ++ [⟨op, phase⟩])[ticket]? = some ⟨op', .returned reply⟩) :
    ⟨ticket, reply⟩ ∈ w.finished := by
  rcases getElem?_concat_iff.mp hc with hc | ⟨-, hc⟩
  · exact h.replied ticket op' reply hc
  · exact absurd (StorageCall.mk.inj hc).2.symm hphase

theorem consistent_rejected {w : StorageWorker} (h : Consistent w) (op : StorageOp) :
    Consistent { w with calls := w.calls ++ [⟨op, .threw⟩] } where
  accounted := h.accounted
  distinct := h.distinct
  submitted job hj := (h.submitted job hj).imp fun _ hc => getElem?_concat_iff.mpr (Or.inl hc)
  replied _ _ _ hc := replied_concat h (by simp) hc
  flag := h.flag
  awake hw := by
    refine ⟨(h.awake hw).1.imp_right ?_, (h.awake hw).2⟩
    rintro ⟨t, op', hc⟩
    exact ⟨t, op', getElem?_concat_iff.mpr (Or.inl hc)⟩
  drained := h.drained

theorem consistent_accepted {w : StorageWorker} (h : Consistent w) (op : StorageOp)
    (hs : w.stopping = false) :
    Consistent
      { w with
        jobs := w.jobs ++ [⟨w.calls.length, op⟩]
        calls := w.calls ++ [⟨op, .notifying⟩]
        accepted := w.accepted ++ [⟨w.calls.length, op⟩] } where
  accounted := by
    show w.accepted ++ _ = w.finished.map Finished.job ++ w.current ++ (w.jobs ++ _)
    rw [h.accounted, List.append_assoc _ w.jobs]
  distinct := by
    rw [List.map_append]
    refine List.Nodup.append h.distinct (List.nodup_singleton _) (List.disjoint_singleton.mpr ?_)
    intro hm
    obtain ⟨job, hj, ht⟩ := List.mem_map.mp hm
    obtain ⟨phase, hc⟩ := h.submitted job hj
    have hlt : job.ticket < w.calls.length := (List.getElem?_eq_some_iff.mp hc).1
    exact absurd (show job.ticket = w.calls.length from ht) (by omega)
  submitted job hj := by
    rcases List.mem_append.mp hj with hj | hj
    · exact (h.submitted job hj).imp fun _ hc => getElem?_concat_iff.mpr (Or.inl hc)
    · obtain rfl := List.mem_singleton.mp hj
      exact ⟨.notifying, getElem?_concat_iff.mpr (Or.inr ⟨rfl, rfl⟩)⟩
  replied _ _ _ hc := replied_concat h (by simp) hc
  flag hst := absurd (hs.symm.trans hst) (by simp)
  awake _ := ⟨Or.inr ⟨w.calls.length, op, getElem?_concat_iff.mpr (Or.inr ⟨rfl, rfl⟩)⟩,
    fun hst => absurd (hs.symm.trans hst) (by simp)⟩
  drained hw := absurd (hs.symm.trans (h.drained hw).1) (by simp)

/-- A notification, by a call or by `stop`. -/
theorem consistent_notified {w : StorageWorker} (h : Consistent w) {calls : List StorageCall}
    {control : ControlPhase}
    (hsub : ∀ job ∈ w.accepted, ∃ phase, calls[job.ticket]? = some ⟨job.op, phase⟩)
    (hrep : ∀ (ticket : ℕ) (op : StorageOp) (reply : StorageReply),
      calls[ticket]? = some ⟨op, .returned reply⟩ → ⟨ticket, reply⟩ ∈ w.finished)
    (hflag : w.stopping = true →
      (w.worker = none ∧ control = .idle) ∨ control = .stopFlagged ∨ control = .stopJoining) :
    Consistent
      { w with calls := calls, control := control, worker := w.worker.map .notified } where
  accounted := by
    rw [current_notified]
    exact h.accounted
  distinct := h.distinct
  submitted := hsub
  replied := hrep
  flag hst := (hflag hst).imp_left fun e => ⟨by simp [e.1], e.2⟩
  awake hw := by
    obtain ⟨p, -, hp⟩ := Option.map_eq_some_iff.mp hw
    exact absurd hp (notified_ne_waiting p)
  drained hw := h.drained (map_notified_eq hw (by simp))

/-- A call gets its reply. -/
theorem consistent_received {w : StorageWorker} (h : Consistent w) {ticket : ℕ} {op : StorageOp}
    {f : Finished} (hc : w.calls[ticket]? = some ⟨op, .awaiting⟩) (hf : f ∈ w.finished)
    (ht : f.ticket = ticket) :
    Consistent { w with calls := w.calls.set ticket ⟨op, .returned f.reply⟩ } where
  accounted := h.accounted
  distinct := h.distinct
  submitted job hj := by
    obtain ⟨phase, hp⟩ := h.submitted job hj
    exact submitted_set hc hp
  replied t op' reply hr := by
    rcases getElem?_set_cases hr with ⟨rfl, he⟩ | hr
    · obtain ⟨-, he⟩ := StorageCall.mk.inj he
      obtain rfl := CallPhase.returned.inj he
      rw [← ht]
      exact hf
    · exact h.replied t op' reply hr
  flag := h.flag
  awake hw := by
    refine ⟨(h.awake hw).1.imp_right ?_, (h.awake hw).2⟩
    rintro ⟨t, op', hn⟩
    -- the call that is about to notify is not the one that receives
    have hne : ticket ≠ t := by
      rintro rfl
      rw [hc] at hn
      exact absurd (StorageCall.mk.inj (Option.some.inj hn)).2 (by simp)
    exact ⟨t, op', by rw [List.getElem?_set_ne hne]; exact hn⟩
  drained := h.drained

/-- A move of the worker thread, or of the one that starts and stops it, from a phase in which
no job is run to another one. -/
theorem consistent_moved {w : StorageWorker} (h : Consistent w) {worker : Option WorkerPhase}
    {control : ControlPhase} {storage : StorageService} (hcur : w.current = [])
    (hcur' : ∀ job, worker ≠ some (.running job))
    (hflag : w.stopping = true →
      (worker = none ∧ control = .idle) ∨ control = .stopFlagged ∨ control = .stopJoining)
    (hwait : worker = some .waiting → w.jobs = [] ∧ w.stopping = false)
    (hexit : worker = some .exited → w.stopping = true ∧ w.jobs = []) :
    Consistent { w with worker := worker, control := control, storage := storage } :=
  { h with
    accounted := by
      have hnone : current { w with worker := worker, control := control, storage := storage } =
          [] := by
        unfold current
        split
        · rename_i job hj; exact absurd hj (hcur' job)
        · rfl
      rw [hnone, h.accounted, hcur]
    flag := hflag
    awake := fun hw => ⟨Or.inl (hwait hw).1, fun hs =>
      absurd ((hwait hw).2.symm.trans hs) (by simp)⟩
    drained := hexit }

/-- The flag stays right when a thread that exists moves on to another phase. -/
theorem flag_of_thread {w : StorageWorker} (h : Consistent w) {p : WorkerPhase}
    (hw : w.worker = some p) {worker : Option WorkerPhase} (hs : w.stopping = true) :
    (worker = none ∧ w.control = .idle) ∨ w.control = .stopFlagged ∨ w.control = .stopJoining :=
  (h.flag hs).imp_left fun e => absurd (e.1.symm.trans hw) (by simp)

/-- The flag is not set while `start` runs. -/
theorem not_stopping_of_start {w : StorageWorker} (h : Consistent w)
    (hc : w.control = .startCleared ∨ w.control = .startAwaiting) : w.stopping ≠ true := by
  intro hs
  rcases hc with hc | hc <;> rcases h.flag hs with ⟨-, hf⟩ | hf | hf <;>
    exact absurd (hc.symm.trans hf) (by simp)

/-- **Every step keeps the accounts.** -/
theorem consistent_step {w w' : StorageWorker} {e : WorkerEvent} (h : Consistent w)
    (hstep : w.step e = some w') : Consistent w' := by
  cases step_cases hstep with
  | rejected op hs => exact consistent_rejected h op
  | accepted op hs => exact consistent_accepted h op hs
  | notified ticket op hc =>
    refine consistent_notified h (fun job hj => ?_) (fun t op' reply hr => ?_) h.flag
    · obtain ⟨phase, hp⟩ := h.submitted job hj
      exact submitted_set hc hp
    · rcases getElem?_set_cases hr with ⟨-, he⟩ | hr
      · exact absurd (StorageCall.mk.inj he).2 (by simp)
      · exact h.replied t op' reply hr
  | received ticket op f hc hf ht => exact consistent_received h hc hf ht
  | cleared hc =>
    exact
      { h with
        flag := fun hs => absurd hs (by simp)
        awake := fun hw => ⟨(h.awake hw).1, fun hs => absurd hs (by simp)⟩
        drained := fun hw => by
          rcases h.flag (h.drained hw).1 with ⟨hn, -⟩ | hf | hf
          · exact absurd (hn.symm.trans hw) (by simp)
          · exact absurd (hc.symm.trans hf) (by simp)
          · exact absurd (hc.symm.trans hf) (by simp) }
  | started replies hc hw =>
    exact consistent_moved h (by simp [current, hw]) (by simp)
      (fun hs => absurd hs (not_stopping_of_start h (Or.inl hc))) (by simp) (by simp)
  | initialized replies storage hw ha =>
    exact consistent_moved h (by simp [current, hw]) (by simp) (flag_of_thread h hw) (by simp)
      (by simp)
  | initFailed replies e hw ha =>
    exact consistent_moved h (by simp [current, hw]) (by simp) (flag_of_thread h hw) (by simp)
      (by simp)
  | startReturned hc hw =>
    have hrunning := not_stopping_of_start h (Or.inr hc)
    exact
      { h with
        flag := fun hs => absurd hs hrunning
        awake := fun hw' => ⟨(h.awake hw').1, fun hs => absurd hs hrunning⟩ }
  | waited hw hj hs =>
    exact consistent_moved h (by simp [current, hw]) (by simp) (flag_of_thread h hw)
      (fun _ => ⟨hj, hs⟩) (by simp)
  | left hw hj hs =>
    exact consistent_moved h (by simp [current, hw]) (by simp) (flag_of_thread h hw) (by simp)
      fun _ => ⟨hs, hj⟩
  | took job rest hw hj =>
    have hcur : w.current = [] := by simp [current, hw]
    exact
      { h with
        accounted := by rw [h.accounted, hcur, hj]; simp [current]
        flag := flag_of_thread h hw
        awake := fun hw' => absurd hw' (by simp)
        drained := fun hw' => absurd hw' (by simp) }
  | woke hw =>
    exact consistent_moved h (by simp [current, hw]) (by simp) (flag_of_thread h hw) (by simp)
      (by simp)
  | ran reply job hw =>
    have hcur : w.current = [job] := by simp [current, hw]
    exact
      { accounted := by
          show w.accepted = (w.finished ++ [_]).map Finished.job ++ [] ++ w.jobs
          rw [h.accounted, hcur, List.map_append]
          simp [Finished.job]
        distinct := h.distinct
        submitted := h.submitted
        replied := fun t op' r hr => List.mem_append_left _ (h.replied t op' r hr)
        flag := flag_of_thread h hw
        awake := fun hw' => absurd hw' (by simp [StorageWorker.runJob])
        drained := fun hw' => absurd hw' (by simp [StorageWorker.runJob]) }
  | flagged hc =>
    exact
      { h with
        flag := fun _ => Or.inr (Or.inl rfl)
        awake := fun hw => ⟨(h.awake hw).1, fun _ => rfl⟩
        drained := fun hw => ⟨rfl, (h.drained hw).2⟩ }
  | stopNotified hc =>
    exact consistent_notified h h.submitted h.replied fun _ => Or.inr (Or.inr rfl)
  | joined hc hw =>
    have hcur : w.current = [] := by rcases hw with hw | hw | hw <;> simp [current, hw]
    exact consistent_moved h hcur (by simp) (fun _ => Or.inl ⟨rfl, rfl⟩) (by simp) (by simp)

theorem consistent_run {w w' : StorageWorker} (h : Consistent w) {es : List WorkerEvent}
    (hrun : w.run es = some w') : Consistent w' :=
  runSteps_invariant (fun _ _ _ => consistent_step) es h hrun

end StorageWorker

end ConsoleCalculator
