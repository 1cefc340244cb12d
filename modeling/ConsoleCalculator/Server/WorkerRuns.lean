import ConsoleCalculator.Base.Simulation
import ConsoleCalculator.Server.StorageWorker

/-!
# Runs of the storage worker

What the steps of `StorageWorker` (`server/src/storage-worker.cpp`) add up to.

Results:
* `internal_run`: no wake-up is lost. The worker's own steps and the notifications that are due
  cannot go on for ever, and once none of them is possible every accepted job has been run.
* **`sequential_run`**: whatever is interleaved, the service and the promises are those of a service
  used by one thread that is given the accepted jobs one after the other.
* `replays_run`: with no failing statement the replies are those of `InMemoryOperationStorage`,
  given the operations one at a time in the order of acceptance.
* **`worker_linearizable`**: accepted jobs are run once each and in the order of acceptance, each
  caller gets the reply to its own job, nothing is accepted while `stopping_` is set, and a worker
  that left its loop left no job behind.
* **`attended_iff`**: queued jobs always have a worker that will take them exactly if every
  accepted call was made while there was one. A call before `start`, or after a failed
  initialization, is accepted all the same (`unattended_jobs`).
-/

namespace ConsoleCalculator

open Base RequestHandler

namespace StorageWorker

/-! ## Stopping -/

/-- Until the next `start`, a stopping worker stays so and accepts nothing. -/
theorem stopping_step {w w' : StorageWorker} {e : WorkerEvent} (hs : w.stopping = true)
    (he : e ≠ .startClear) (hstep : w.step e = some w') :
    w'.stopping = true ∧ w'.accepted = w.accepted := by
  cases step_cases hstep with
  | accepted op hs' => exact absurd (hs'.symm.trans hs) (by simp)
  | cleared hc => exact absurd rfl he
  | flagged hc => exact ⟨rfl, rfl⟩
  | rejected | notified | received | started | initialized | initFailed | startReturned | waited
  | left | took | woke | ran | stopNotified | joined => exact ⟨hs, rfl⟩

theorem stopping_run {w w' : StorageWorker} {es : List WorkerEvent} (hs : w.stopping = true)
    (hes : .startClear ∉ es) (hrun : w.run es = some w') :
    w'.stopping = true ∧ w'.accepted = w.accepted := by
  refine runSteps_keeps (C := fun e => e ≠ .startClear)
    (I := fun v => v.stopping = true ∧ v.accepted = w.accepted) (fun v e v' he hv hstep => ?_) es
    (fun e he h => hes (h ▸ he)) ⟨hs, rfl⟩ hrun
  obtain ⟨hst, hacc⟩ := stopping_step hv.1 he hstep
  exact ⟨hst, hacc.trans hv.2⟩

/-! ## Progress -/

/-- A step of the worker's loop, or a notification that is due: what happens without a new
call. -/
def Internal : WorkerEvent → Prop
  | .notifyOne _ => True
  | .check => True
  | .runJob _ => True
  | .stopNotify => True
  | _ => False

/-- The thread got past its initialization. -/
def Entered (w : StorageWorker) : Prop :=
  w.worker = some .checking ∨ w.worker = some .waiting ∨ (∃ job, w.worker = some (.running job)) ∨
    w.worker = some .exited

/-- Whether a call still has to notify the worker. -/
def notifies (c : StorageCall) : Bool :=
  match c.phase with
  | .notifying => true
  | _ => false

/-- How far the phase is from waiting. -/
def phaseEffort : Option WorkerPhase → ℕ
  | some .checking => 1
  | some (.running _) => 2
  | _ => 0

/-- The notification `stop` still has to make. -/
def controlEffort : ControlPhase → ℕ
  | .stopFlagged => 3
  | _ => 0

/-- A bound on the internal steps still to come. -/
def effort (w : StorageWorker) : ℕ :=
  3 * w.jobs.length + 3 * w.calls.countP notifies + controlEffort w.control +
    phaseEffort w.worker

theorem phaseEffort_notified (worker : Option WorkerPhase) :
    phaseEffort (worker.map .notified) ≤ phaseEffort worker + 1 := by
  cases worker with
  | none => simp [phaseEffort]
  | some p => cases p <;> simp [phaseEffort, WorkerPhase.notified]

theorem countP_notified {calls : List StorageCall} {ticket : ℕ} {op : StorageOp}
    (hc : calls[ticket]? = some ⟨op, .notifying⟩) :
    (calls.set ticket ⟨op, .awaiting⟩).countP notifies + 1 = calls.countP notifies := by
  obtain ⟨hlt, he⟩ := List.getElem?_eq_some_iff.mp hc
  have hpos : 0 < calls.countP notifies :=
    List.countP_pos_iff.mpr ⟨_, List.mem_of_getElem? hc, rfl⟩
  have hfrom : notifies ⟨op, .notifying⟩ = true := rfl
  have hto : notifies ⟨op, .awaiting⟩ = false := rfl
  rw [List.countP_set hlt, he, hfrom, hto]
  simp only [if_true, Bool.false_eq_true, if_false]
  omega

/-- **Internal steps cannot go on for ever.** -/
theorem effort_step {w w' : StorageWorker} {e : WorkerEvent} (hi : Internal e)
    (hstep : w.step e = some w') : w'.effort < w.effort := by
  cases step_cases hstep with
  | notified ticket op hc =>
    have hn := countP_notified hc
    have hp := phaseEffort_notified w.worker
    simp only [effort]
    omega
  | waited hw hj hs => simp [effort, hw, phaseEffort]
  | left hw hj hs => simp [effort, hw, phaseEffort]
  | took job rest hw hj =>
    simp only [effort, hw, hj, phaseEffort, List.length_cons]
    omega
  | ran reply job hw =>
    simp only [effort, hw, phaseEffort, StorageWorker.runJob]
    omega
  | stopNotified hc =>
    have hp := phaseEffort_notified w.worker
    simp only [effort, hc, controlEffort]
    omega
  | rejected | accepted | received | cleared | started | initialized | initFailed | startReturned
  | woke | flagged | joined => exact hi.elim

/-- A notification leaves the thread where it is, or wakes it. -/
theorem entered_notified {w w' : StorageWorker} (hw : w.Entered)
    (h : w'.worker = w.worker.map .notified) : w'.Entered := by
  rcases hw with hw | hw | ⟨job, hw⟩ | hw <;> rw [hw] at h
  · exact Or.inl h
  · exact Or.inl h
  · exact Or.inr (Or.inr (Or.inl ⟨job, h⟩))
  · exact Or.inr (Or.inr (Or.inr h))

theorem entered_step {w w' : StorageWorker} {e : WorkerEvent} (hi : Internal e)
    (hw : w.Entered) (hstep : w.step e = some w') : w'.Entered := by
  cases step_cases hstep with
  | notified ticket op hc => exact entered_notified hw rfl
  | stopNotified hc => exact entered_notified hw rfl
  | waited => exact Or.inr (Or.inl rfl)
  | left => exact Or.inr (Or.inr (Or.inr rfl))
  | took job rest hw hj => exact Or.inr (Or.inr (Or.inl ⟨job, rfl⟩))
  | ran reply job hw => exact Or.inl rfl
  | rejected | accepted | received | cleared | started | initialized | initFailed | startReturned
  | woke | flagged | joined => exact hi.elim

/-- **No wake-up is lost**: when no internal step is possible, every accepted job has been run. -/
theorem finished_of_quiescent {w : StorageWorker} (h : Consistent w) (hw : w.Entered)
    (hq : ∀ e, Internal e → w.step e = none) : w.accepted = w.finished.map Finished.job := by
  have hidle : ∀ hj : w.jobs = [], w.current = [] → w.accepted = w.finished.map Finished.job := by
    intro hj hc
    rw [h.accounted, hj, hc, List.append_nil, List.append_nil]
  rcases hw with hw | hw | ⟨job, hw⟩ | hw
  · exact absurd (hq .check trivial) (by simp [step, hw])
  · refine hidle ((h.awake hw).1.resolve_right ?_) (by simp [current, hw])
    rintro ⟨ticket, op, hc⟩
    exact absurd (hq (.notifyOne ticket) trivial) (by simp [step, hc])
  · exact absurd (hq (.runJob .completed) trivial) (by simp [step, hw])
  · exact hidle (h.drained hw).2 (by simp [current, hw])

/-- The internal steps from a state: at most `effort` many, and when none is left every accepted
job has been run. -/
theorem internal_run {w : StorageWorker} (h : Consistent w) (hw : w.Entered) :
    ∀ es w', (∀ e ∈ es, Internal e) → w.run es = some w' →
      es.length ≤ w.effort ∧
      ((∀ e, Internal e → w'.step e = none) → w'.accepted = w'.finished.map Finished.job) := by
  intro es w' hes hrun
  have hbound := runSteps_bounded (C := Internal) (m := effort) (fun _ _ _ => entered_step)
    (fun _ _ _ hi _ => effort_step hi) es hes hw hrun
  have hentered : w'.Entered :=
    runSteps_keeps (C := Internal) (fun _ _ _ => entered_step) es hes hw hrun
  exact ⟨by omega, finished_of_quiescent (consistent_run h hrun) hentered⟩

/-! ## Initialization -/

/-- The initialization meets no failure. -/
def Succeeds (replies : InitReplies) : Prop :=
  replies.connection = none ∧ replies.schema = .completed ∧ replies.history = .completed

theorem attempt_cases (replies : InitReplies) (history : OperationHistory) :
    (Succeeds replies ∧ replies.attempt history = .ok (.loaded history)) ∨
      (¬ Succeeds replies ∧ ∃ e, replies.attempt history = .error e) := by
  unfold InitReplies.attempt Succeeds
  cases replies.connection with
  | some lastError => exact Or.inr ⟨fun h => absurd h.1 (by simp), _, rfl⟩
  | none =>
    rcases StorageService.initializeStorage_cases replies.schema replies.history history with
      ⟨hs, hl, hok⟩ | ⟨hne, e, herr⟩
    · exact Or.inl ⟨⟨rfl, hs, hl⟩, hok⟩
    · exact Or.inr ⟨fun h => hne h.2, e, herr⟩

end StorageWorker

/-! ## One piece of work after the other -/

/-- What can be asked of a storage service: to initialize over its table, or to carry out an
operation, of whose statement PostgreSQL reports `reply`. -/
inductive StorageWork where
  | load
  | operation (op : StorageOp) (reply : StatementReply)

/-- A storage service that is used by one thread, and what it has replied. -/
structure SequentialStorage where
  service : StorageService
  replies : List StorageReply

/-- One piece of work. -/
def SequentialStorage.carryOut (s : SequentialStorage) : StorageWork → SequentialStorage
  | .load => { s with service := .loaded s.service.postgresRepository }
  | .operation op reply =>
    let answered := StorageService.exec reply s.service op
    { service := answered.1, replies := s.replies ++ [⟨op, answered.2⟩] }

/-- Work on a database that holds `history`. -/
def SequentialStorage.run (history : OperationHistory) (works : List StorageWork) :
    SequentialStorage :=
  works.foldl carryOut ⟨.fresh history, []⟩

/-- What PostgreSQL reports of a statement. -/
def StorageWork.statement : StorageWork → Option StatementReply
  | .load => none
  | .operation _ reply => some reply

def StorageWork.op : StorageWork → Option StorageOp
  | .load => none
  | .operation op _ => some op

/-- What a piece of work adds to the replies is the reply to its operation. -/
theorem SequentialStorage.replies_foldl : ∀ (works : List StorageWork) (s : SequentialStorage),
    (works.foldl carryOut s).replies.map Sigma.fst =
      s.replies.map Sigma.fst ++ works.filterMap StorageWork.op
  | [], _ => (List.append_nil _).symm
  | .load :: works, s => replies_foldl works (s.carryOut .load)
  | .operation op reply :: works, s => by
    rw [List.foldl_cons, replies_foldl works, List.filterMap_cons]
    simp [carryOut, StorageWork.op]

theorem SequentialStorage.replies_run (history : OperationHistory) (works : List StorageWork) :
    (run history works).replies.map Sigma.fst = works.filterMap StorageWork.op :=
  replies_foldl works _

/-- What PostgreSQL reports of a job. -/
def WorkerEvent.statement : WorkerEvent → Option StatementReply
  | .runJob reply => some reply
  | _ => none

namespace StorageWorker

/-- The work that a step of the worker's thread is. -/
def work (w : StorageWorker) : WorkerEvent → Option StorageWork
  | .initDone =>
    match w.worker with
    | some (.initializing replies) =>
      match replies.attempt w.storage.postgresRepository with
      | .ok _ => some .load
      | .error _ => none
    | _ => none
  | .runJob reply =>
    match w.worker with
    | some (.running job) => some (.operation job.op reply)
    | _ => none
  | _ => none

/-- The work of a run, in order. -/
def works (history : OperationHistory) (es : List WorkerEvent) : List StorageWork :=
  trace step work (construct history) es

/-- What the promises hold, and the service they were set from. -/
def sequential (w : StorageWorker) : SequentialStorage := ⟨w.storage, w.finished.map Finished.reply⟩

/-- **The worker is a service used by one thread**: only its initialization and its jobs touch the
service and the promises, and they do what the service does. -/
theorem sequential_simulation :
    Simulation step (fun s a => some (SequentialStorage.carryOut s a)) work
      fun w s => w.sequential = s := by
  refine .of_step fun {w s e w'} hR hstep => ?_
  subst hR
  cases step_cases hstep with
  | initialized replies storage hw ha =>
    refine Or.inr ⟨.load, _, by simp [work, hw, ha], rfl, ?_⟩
    rcases attempt_cases replies w.storage.postgresRepository with ⟨-, hok⟩ | ⟨-, e, herror⟩
    · rw [ha] at hok
      rw [Except.ok.inj hok]
      rfl
    · rw [ha] at herror
      cases herror
  | initFailed replies e hw ha => exact Or.inl ⟨by simp [work, hw, ha], rfl⟩
  | ran reply job hw =>
    refine Or.inr ⟨.operation job.op reply, _, by simp [work, hw], rfl, ?_⟩
    simp [sequential, SequentialStorage.carryOut, runJob]
  | rejected | accepted | notified | received | cleared | started | startReturned | waited | left
  | took | woke | flagged | stopNotified | joined => exact Or.inl ⟨rfl, rfl⟩

theorem sequential_run {history : OperationHistory} {es : List WorkerEvent} {w : StorageWorker}
    (hrun : (construct history).run es = some w) :
    SequentialStorage.run history (works history es) = w.sequential := by
  obtain ⟨s, hs, rfl⟩ := sequential_simulation.run es rfl hrun
  rw [runSteps_total] at hs
  exact Option.some.inj hs

/-- The statements of the work are those of the run. -/
theorem works_statement {history : OperationHistory} {es : List WorkerEvent} {w : StorageWorker}
    (hrun : (construct history).run es = some w) :
    (works history es).filterMap StorageWork.statement = es.filterMap WorkerEvent.statement := by
  refine filterMap_trace (fun w e w' hstep => ?_) es hrun
  cases step_cases hstep with
  | initialized replies storage hw ha =>
    simp [work, hw, ha, StorageWork.statement, WorkerEvent.statement]
  | initFailed replies e hw ha => simp [work, hw, ha, WorkerEvent.statement]
  | ran reply job hw => simp [work, hw, StorageWork.statement, WorkerEvent.statement]
  | rejected | accepted | notified | received | cleared | started | startReturned | waited | left
  | took | woke | flagged | stopNotified | joined => rfl

/-- Its operations are those of the finished jobs. -/
theorem works_op {history : OperationHistory} {es : List WorkerEvent} {w : StorageWorker}
    (hrun : (construct history).run es = some w) :
    (works history es).filterMap StorageWork.op =
      (w.finished.map Finished.job).map Job.op := by
  rw [← SequentialStorage.replies_run history, sequential_run hrun, sequential, List.map_map,
    List.map_map]
  rfl

end StorageWorker

/-! ## Replays -/

namespace InMemoryOperationStorage

/-- The replies to operations given one at a time. -/
def replay : InMemoryOperationStorage → List StorageOp → List StorageReply
  | _, [] => []
  | s, o :: os => ⟨o, (s.exec o).2⟩ :: replay (s.exec o).1 os

/-- The storage after operations given one at a time. -/
def after (s : InMemoryOperationStorage) (os : List StorageOp) : InMemoryOperationStorage :=
  os.foldl (fun s o => (s.exec o).1) s

theorem replay_append : ∀ (os os' : List StorageOp) (s : InMemoryOperationStorage),
    s.replay (os ++ os') = s.replay os ++ (s.after os).replay os'
  | [], _, _ => rfl
  | o :: os, os', s => by
    show _ :: replay (s.exec o).1 (os ++ os') = _
    rw [replay_append os os']
    rfl

theorem after_append (os os' : List StorageOp) (s : InMemoryOperationStorage) :
    s.after (os ++ os') = (s.after os).after os' := List.foldl_append

end InMemoryOperationStorage

namespace StorageWorker

/-- The operations of the finished jobs. -/
def finishedOps (w : StorageWorker) : List StorageOp := w.finished.map fun f => f.reply.1

/-- The promises hold what the in-memory storage replies to the same operations, and the cache is
the map it then holds. -/
structure Replays (w : StorageWorker) : Prop where
  replies : w.finished.map Finished.reply = InMemoryOperationStorage.replay ⟨∅⟩ w.finishedOps
  cache : w.storage.cacheRepository.cache =
    (InMemoryOperationStorage.after ⟨∅⟩ w.finishedOps).records

/-- The service and the in-memory storage answer alike when they hold the same map. -/
theorem exec_agrees {s : StorageService} {m : InMemoryOperationStorage}
    (h : s.cacheRepository.cache = m.records) (o : StorageOp) :
    (StorageService.exec .completed s o).2 = (m.exec o).2 ∧
      (StorageService.exec .completed s o).1.cacheRepository.cache = (m.exec o).1.records := by
  cases o with
  | find a b name =>
    refine ⟨?_, h⟩
    show (OperationKey.make a b name).map (fun k => s.cacheRepository.cache.lookup k) =
      (OperationKey.make a b name).map fun k => m.records.lookup k
    rw [h]
  | save r =>
    refine ⟨StorageService.save_result .completed s r, ?_⟩
    show KeyedMap.put OperationRecord.cacheKey s.cacheRepository.cache r =
      KeyedMap.put OperationRecord.cacheKey m.records r
    rw [h]

/-- The thread is past its initialization, and no other one is about to be created. -/
structure Settled (w : StorageWorker) : Prop where
  initialized : ∀ replies, w.worker ≠ some (.initializing replies)
  noStart : w.worker = none → w.control ≠ .startCleared

theorem settled_of_entered {w : StorageWorker} (h : w.Entered) : Settled w := by
  constructor
  · intro replies hw
    rcases h with h | h | ⟨job, h⟩ | h <;> exact absurd (hw.symm.trans h) (by simp)
  · intro hw
    rcases h with h | h | ⟨job, h⟩ | h <;> exact absurd (hw.symm.trans h) (by simp)

/-- Events of one worker thread's life: no further `start`, and no failing statement. -/
def FaultFree (e : WorkerEvent) : Prop :=
  e ≠ .startClear ∧ ∀ reply, e = .runJob reply → reply = .completed

theorem settled_step {w w' : StorageWorker} {e : WorkerEvent} (he : FaultFree e)
    (h : Settled w) (hstep : w.step e = some w') : Settled w' := by
  have hmap : ∀ {p : WorkerPhase}, w.worker.map .notified = some p → p ≠ .checking →
      w.worker = some p := map_notified_eq
  cases step_cases hstep with
  | cleared hc => exact absurd rfl he.1
  | started replies hc hw => exact absurd hc (h.noStart hw)
  | initialized replies storage hw ha => exact absurd hw (h.initialized replies)
  | initFailed replies e hw ha => exact absurd hw (h.initialized replies)
  | notified ticket op hc =>
    exact ⟨fun replies hw => h.initialized replies (hmap hw (by simp)), fun hw =>
      h.noStart (Option.map_eq_none_iff.mp hw)⟩
  | stopNotified hc =>
    exact ⟨fun replies hw => h.initialized replies (hmap hw (by simp)), fun _ => by simp⟩
  | startReturned hc hw => exact ⟨h.initialized, fun _ => by simp⟩
  | flagged hc => exact ⟨h.initialized, fun _ => by simp⟩
  | rejected | accepted | received => exact ⟨h.initialized, h.noStart⟩
  | waited | left | took | woke | ran =>
    exact ⟨fun _ hw => absurd hw (by simp [StorageWorker.runJob]),
      fun hw => absurd hw (by simp [StorageWorker.runJob])⟩
  | joined hc hw => exact ⟨fun _ hw => absurd hw (by simp), fun _ => by simp⟩

theorem replays_ran {w : StorageWorker} (h : Replays w) (job : Job) :
    Replays (w.runJob .completed job) := by
  obtain ⟨hans, hcache⟩ := exec_agrees h.cache job.op
  have hops : (w.runJob .completed job).finishedOps = w.finishedOps ++ [job.op] := by
    simp [finishedOps, StorageWorker.runJob]
  constructor
  · rw [hops, InMemoryOperationStorage.replay_append, ← h.replies]
    show (w.finished ++ [_]).map Finished.reply = _
    rw [List.map_append]
    refine congrArg (w.finished.map Finished.reply ++ ·) ?_
    show [(⟨job.op, (StorageService.exec .completed w.storage job.op).2⟩ : StorageReply)] =
      [⟨job.op, _⟩]
    rw [hans]
  · rw [hops, InMemoryOperationStorage.after_append]
    exact hcache

theorem replays_step {w w' : StorageWorker} {e : WorkerEvent} (he : FaultFree e)
    (h : Settled w ∧ Replays w) (hstep : w.step e = some w') : Settled w' ∧ Replays w' := by
  refine ⟨settled_step he h.1 hstep, ?_⟩
  cases step_cases hstep with
  | initialized replies storage hw ha => exact absurd hw (h.1.initialized replies)
  | ran reply job hw =>
    obtain rfl := he.2 reply rfl
    exact replays_ran h.2 job
  | rejected | accepted | notified | received | cleared | started | initFailed | startReturned
  | waited | left | took | woke | flagged | stopNotified | joined =>
    exact ⟨h.2.replies, h.2.cache⟩

/-- As long as no job has been run, nothing has been stored. -/
theorem untouched_step {w w' : StorageWorker} {e : WorkerEvent}
    (h : w.finished = [] → w.storage = .fresh .empty) (hstep : w.step e = some w') :
    w'.finished = [] → w'.storage = .fresh .empty := by
  cases step_cases hstep with
  | initialized replies storage hw ha =>
    intro hf
    rw [h hf] at ha
    rcases attempt_cases replies (StorageService.fresh .empty).postgresRepository with
      ⟨-, hok⟩ | ⟨-, e, herr⟩
    · rw [hok] at ha
      exact (Except.ok.inj ha).symm
    · rw [herr] at ha
      exact absurd ha (by simp)
  | ran reply job hw =>
    intro hf
    exact absurd hf (by simp [StorageWorker.runJob])
  | rejected | accepted | notified | received | cleared | started | initFailed | startReturned
  | waited | left | took | woke | flagged | stopNotified | joined => exact h

/-- **The replies are those of the in-memory storage**, as far as jobs have been run: from the
moment a worker enters its loop over an empty table, and as long as no statement fails. -/
theorem replays_run {es es' : List WorkerEvent} {w w' : StorageWorker}
    (hreach : (construct .empty).run es = some w) (hentered : w.Entered) (hnone : w.finished = [])
    (hfree : ∀ e ∈ es', FaultFree e) (hrun : w.run es' = some w') :
    w'.finished.map Finished.reply <+:
      InMemoryOperationStorage.replay ⟨∅⟩ (w'.accepted.map Job.op) := by
  have hstorage : w.storage = .fresh .empty :=
    runSteps_invariant (I := fun v => v.finished = [] → v.storage = .fresh .empty)
      (fun _ _ _ => untouched_step) es (fun _ => rfl) hreach hnone
  have hstart : Replays w := ⟨by simp [hnone, finishedOps, InMemoryOperationStorage.replay],
    by rw [hstorage]; simp [finishedOps, hnone]; rfl⟩
  have hreplays := (runSteps_keeps (C := FaultFree) (I := fun v => Settled v ∧ Replays v)
    (fun _ _ _ => replays_step) es' hfree ⟨settled_of_entered hentered, hstart⟩ hrun).2
  have hcons := consistent_run (consistent_run (consistent_construct .empty) hreach) hrun
  have hops : w'.accepted.map Job.op = w'.finishedOps ++ (w'.current ++ w'.jobs).map Job.op := by
    rw [hcons.accounted, List.append_assoc, List.map_append, List.map_map]
    rfl
  rw [hops, InMemoryOperationStorage.replay_append, ← hreplays.replies]
  exact List.prefix_append _ _

/-! ## The worker is a linearizable storage -/

/-- A reply a call returned is the reply to what it submitted. -/
theorem own_reply {w : StorageWorker} (h : Consistent w) {ticket : ℕ} {op : StorageOp}
    {reply : StorageReply} (hc : w.calls[ticket]? = some ⟨op, .returned reply⟩) :
    reply.1 = op ∧ ⟨ticket, reply⟩ ∈ w.finished := by
  have hf := h.replied ticket op reply hc
  have hj : (⟨ticket, reply.1⟩ : Job) ∈ w.accepted := by
    rw [h.accounted]
    exact List.mem_append_left _ (List.mem_append_left _ (List.mem_map_of_mem hf))
  obtain ⟨phase, hp⟩ := h.submitted _ hj
  rw [show w.calls[(⟨ticket, reply.1⟩ : Job).ticket]? = w.calls[ticket]? from rfl, hc] at hp
  exact ⟨(StorageCall.mk.inj (Option.some.inj hp)).1.symm, hf⟩

/-- A promise is set once. -/
theorem find?_finished {w : StorageWorker} (h : Consistent w) {f : Finished}
    (hf : f ∈ w.finished) : w.finished.find? (fun g => g.ticket = f.ticket) = some f := by
  have hdistinct : (w.finished.map Finished.ticket).Nodup := by
    have hsub : (w.finished.map Finished.ticket).Sublist (w.accepted.map Job.ticket) := by
      rw [h.accounted, List.append_assoc, List.map_append, List.map_map]
      exact List.sublist_append_left _ _
    exact h.distinct.sublist hsub
  cases hg : w.finished.find? fun g => g.ticket = f.ticket with
  | none => exact absurd (List.find?_eq_none.mp hg f hf) (by simp)
  | some g =>
    have ht : g.ticket = f.ticket := by simpa using List.find?_some hg
    rw [List.inj_on_of_nodup_map hdistinct (List.mem_of_find?_eq_some hg) hf ht]

/-- A finished job's caller can take its reply. -/
theorem getFuture_finished {w : StorageWorker} (h : Consistent w) {f : Finished}
    (hf : f ∈ w.finished) {op : StorageOp} (hc : w.calls[f.ticket]? = some ⟨op, .awaiting⟩) :
    w.step (.getFuture f.ticket) =
      some { w with calls := w.calls.set f.ticket ⟨op, .returned f.reply⟩ } := by
  simp only [step, hc, find?_finished h hf]

/-- **The storage worker is a linearizable storage.** In every state that any interleaving of its
clients, of `start` and `stop` and of its thread can reach:

* the accepted jobs are the finished ones, the one being run and the queued ones, in this order,
  and no ticket occurs twice among them;
* the jobs are carried out by the service one after the other: its state and the replies are those
  of a service used by one thread, given the initializations of the run and, in the order of
  acceptance, the jobs that have been finished, each with what PostgreSQL reports of its statement;
* a call that has returned has the reply its own job was answered with, and a call that waits for
  a finished job can take it;
* once `stopping_` is set nothing is accepted, and calls throw, until the next `start`;
* a thread that left its loop left the queue empty, and every accepted job finished;
* a thread in its loop, the notifications due and nothing else finish every accepted job within
  `effort` steps;
* and if the table was empty when the thread entered its loop, and no statement fails, the replies
  are those of the in-memory storage in the order of acceptance. -/
theorem worker_linearizable {history : OperationHistory} {es : List WorkerEvent}
    {w : StorageWorker} (hreach : (construct history).run es = some w) :
    (w.accepted = w.finished.map Finished.job ++ w.current ++ w.jobs ∧
      (w.accepted.map Job.ticket).Nodup) ∧
    (SequentialStorage.run history (works history es) =
        ⟨w.storage, w.finished.map Finished.reply⟩ ∧
      (works history es).filterMap StorageWork.op = (w.finished.map Finished.job).map Job.op ∧
      (works history es).filterMap StorageWork.statement = es.filterMap WorkerEvent.statement) ∧
    (∀ (ticket : ℕ) (op : StorageOp) (reply : StorageReply),
      w.calls[ticket]? = some ⟨op, .returned reply⟩ →
        reply.1 = op ∧ ⟨ticket, reply⟩ ∈ w.finished) ∧
    (∀ f ∈ w.finished, ∀ op, w.calls[f.ticket]? = some ⟨op, .awaiting⟩ →
      w.step (.getFuture f.ticket) =
        some { w with calls := w.calls.set f.ticket ⟨op, .returned f.reply⟩ }) ∧
    (w.stopping = true →
      (∀ op, w.step (.submit op) = some { w with calls := w.calls ++ [⟨op, .threw⟩] }) ∧
      ∀ es' w', .startClear ∉ es' → w.run es' = some w' →
        w'.stopping = true ∧ w'.accepted = w.accepted) ∧
    (w.worker = some .exited → w.jobs = [] ∧ w.accepted = w.finished.map Finished.job) ∧
    (w.Entered → ∀ es' w', (∀ e ∈ es', Internal e) → w.run es' = some w' →
      es'.length ≤ w.effort ∧
      ((∀ e, Internal e → w'.step e = none) → w'.accepted = w'.finished.map Finished.job)) ∧
    (history = .empty → w.Entered → w.finished = [] → ∀ es' w', (∀ e ∈ es', FaultFree e) →
      w.run es' = some w' →
      w'.finished.map Finished.reply <+:
        InMemoryOperationStorage.replay ⟨∅⟩ (w'.accepted.map Job.op)) := by
  have h := consistent_run (consistent_construct history) hreach
  refine ⟨⟨h.accounted, h.distinct⟩,
    ⟨sequential_run hreach, works_op hreach, works_statement hreach⟩,
    fun ticket op reply => own_reply h,
    fun f hf op hc => getFuture_finished h hf hc, fun hs => ⟨fun op => ?_, ?_⟩, fun hw => ?_,
    fun hw => internal_run h hw, ?_⟩
  · simp [step, enqueue, hs]
  · exact fun es' w' hes hrun => stopping_run hs hes hrun
  · have hj := (h.drained hw).2
    refine ⟨hj, ?_⟩
    rw [h.accounted, hj]
    simp [current, hw]
  · rintro rfl hentered hnone es' w' hfree hrun
    exact replays_run hreach hentered hnone hfree hrun

/-- A life of the worker: a call before the start, whose insert fails, one while it runs, and a stop
that waits for both and turns a third away. -/
def sampleLife : List WorkerEvent :=
  [.submit (.save onePlusTwo), .startClear, .startThread {}, .notifyOne 0, .initDone, .startReturn,
    .check, .submit (.find 2 (some 1) "add"), .stopFlag, .runJob (.disconnected ""), .notifyOne 1,
    .check, .submit (.find 1 (some 2) "add"), .runJob .completed, .getFuture 0, .getFuture 1,
    .check, .stopNotify, .stopJoin]

/-- Both accepted jobs are finished: the first call gets the exception of its insert, the second one
the record, which is in the cache all the same. That is what the service replies to the two. -/
theorem worker_linearizable_sample :
    ∃ w, (construct .empty).run sampleLife = some w ∧
      w.calls.map StorageCall.phase =
        [.returned ⟨.save onePlusTwo,
            .error (.ofCode .errorStorage "PostgreSQL connection failed: ")⟩,
          .returned ⟨.find 2 (some 1) "add", .ok (some onePlusTwo)⟩, .threw] ∧
      (SequentialStorage.run .empty [.load, .operation (.save onePlusTwo) (.disconnected ""),
        .operation (.find 2 (some 1) "add") .completed]).replies =
          w.finished.map Finished.reply := by
  have hphases : ((construct .empty).run sampleLife).map (fun w => w.calls.map StorageCall.phase) =
      some [.returned ⟨.save onePlusTwo,
          .error (.ofCode .errorStorage "PostgreSQL connection failed: ")⟩,
        .returned ⟨.find 2 (some 1) "add", .ok (some onePlusTwo)⟩, .threw] := rfl
  obtain ⟨w, hw, hphases⟩ := Option.map_eq_some_iff.mp hphases
  obtain ⟨-, ⟨hsequential, -⟩, -⟩ := worker_linearizable hw
  exact ⟨w, hw, hphases, congrArg SequentialStorage.replies hsequential⟩

/-! ## Jobs without a worker -/

/-- A thread is there that has not failed and will take from the queue: it initializes and will
succeed, or it is in its loop. -/
def Live (w : StorageWorker) : Prop :=
  match w.worker with
  | some (.initializing replies) => Succeeds replies
  | some .checking => True
  | some .waiting => True
  | some (.running _) => True
  | _ => False

/-- Queued jobs have a worker. -/
def Attended (w : StorageWorker) : Prop := w.jobs ≠ [] → Live w

/-- An accepted call is made while there is a worker. -/
def MadeLive (w : StorageWorker) (e : WorkerEvent) : Prop :=
  ∀ op, e = .submit op → w.stopping = false → Live w

theorem madeLive_of_ne {w : StorageWorker} {e : WorkerEvent} (he : ∀ op, e ≠ .submit op) :
    MadeLive w e := fun op hop => absurd hop (he op)

theorem jobs_nil_of_not_live {w : StorageWorker} (h : Attended w) (hl : ¬ Live w) :
    w.jobs = [] := by
  by_contra hj
  exact hl (h hj)

/-- A notification does not end a life. -/
theorem live_notified {w : StorageWorker} (hl : Live w) {calls : List StorageCall}
    {control : ControlPhase} :
    Live { w with calls := calls, control := control, worker := w.worker.map .notified } := by
  unfold Live at hl ⊢
  cases hw : w.worker with
  | none => rw [hw] at hl; exact hl
  | some p =>
    rw [hw] at hl
    cases p <;> exact hl

/-- One step: the queue stays attended exactly if the step is no accepted call, or is made while
there is a worker. -/
theorem attended_step_iff {w w' : StorageWorker} {e : WorkerEvent} (h : Attended w)
    (hstep : w.step e = some w') : Attended w' ↔ MadeLive w e := by
  have hother : (∀ op, e ≠ .submit op) → Attended w' → (Attended w' ↔ MadeLive w e) :=
    fun he ha => ⟨fun _ => madeLive_of_ne he, fun _ => ha⟩
  cases step_cases hstep with
  | rejected op hs =>
    exact ⟨fun _ op' _ hs' => absurd (hs'.symm.trans hs) (by simp), fun _ => h⟩
  | accepted op hs =>
    constructor
    · intro ha op' _ _
      exact ha (by simp)
    · intro hm _
      exact hm op rfl hs
  | notified ticket op hc => exact hother (by simp) fun hj => live_notified (h hj)
  | stopNotified hc => exact hother (by simp) fun hj => live_notified (h hj)
  | received | cleared | startReturned | flagged => exact hother (by simp) h
  | started replies hc hw =>
    have hj := jobs_nil_of_not_live h (by simp [Live, hw])
    exact hother (by simp) fun hne => absurd hj hne
  | initFailed replies e hw ha =>
    have hj : w.jobs = [] := by
      refine jobs_nil_of_not_live h ?_
      rcases attempt_cases replies w.storage.postgresRepository with ⟨-, hok⟩ | ⟨hne, -⟩
      · rw [hok] at ha; exact absurd ha (by simp)
      · simpa [Live, hw] using hne
    exact hother (by simp) fun hne => absurd hj hne
  | left hw hj hs => exact hother (by simp) fun hne => absurd hj hne
  | joined hc hw =>
    have hj := jobs_nil_of_not_live h (by rcases hw with hw | hw | hw <;> simp [Live, hw])
    exact hother (by simp) fun hne => absurd hj hne
  | initialized | waited | took | woke | ran => exact hother (by simp) fun _ => trivial

/-- **When queued jobs have a worker.** In all states of a run the queue is empty or a thread is
there that will take from it, exactly if every accepted call of the run was made while such a
thread was there. -/
theorem attended_iff {history : OperationHistory} {es : List WorkerEvent}
    (hrun : ((construct history).run es).isSome = true) :
    Along step Attended (construct history) es ↔ Guarded step MadeLive (construct history) es :=
  along_iff_guarded (I := fun _ => True) (fun _ _ _ _ _ => trivial)
    (fun _ _ _ _ h hstep => attended_step_iff h hstep) es trivial
    (fun hj => absurd rfl hj) hrun

/-- A start, a call and a stop. -/
def orderlyLife : List WorkerEvent :=
  [.startClear, .startThread {}, .initDone, .startReturn, .submit (.find 1 (some 2) "add"),
    .stopFlag, .check, .runJob .completed, .check, .stopNotify, .stopJoin]

/-- Its queue is attended throughout. -/
theorem attended_orderly :
    ((construct .empty).run orderlyLife).isSome = true ∧
      Along step Attended (construct .empty) orderlyLife := by
  refine ⟨rfl, (attended_iff rfl).mpr ?_⟩
  refine guarded_cons rfl (madeLive_of_ne (by simp)) (guarded_cons rfl (madeLive_of_ne (by simp))
    (guarded_cons rfl (madeLive_of_ne (by simp)) (guarded_cons rfl (madeLive_of_ne (by simp)) ?_)))
  -- the one call is made while the thread is in its loop
  refine guarded_cons rfl (fun _ _ _ => trivial) ?_
  refine guarded_of_forall fun e he w => madeLive_of_ne ?_
  rintro op rfl
  simp at he

/-- **Jobs can be left without a worker**: a call before `start`, and a call after a `start` whose
initialization failed, are accepted, and nothing is there to take them. -/
theorem unattended_jobs :
    (∃ w, (construct .empty).run [.submit (.find 1 (some 2) "add")] = some w ∧
      w.stopping = false ∧ w.jobs = [⟨0, .find 1 (some 2) "add"⟩] ∧ ¬ Live w) ∧
    ∃ w, (construct .empty).run
        [.startClear, .startThread { connection := some "refused" }, .initDone, .startReturn,
          .submit (.find 1 (some 2) "add")] = some w ∧
      w.control = .idle ∧ w.worker = some .failed ∧
      w.jobs = [⟨0, .find 1 (some 2) "add"⟩] ∧ ¬ Live w :=
  ⟨⟨_, rfl, rfl, rfl, fun h => h⟩, ⟨_, rfl, rfl, rfl, rfl, fun h => h⟩⟩

end StorageWorker

end ConsoleCalculator
