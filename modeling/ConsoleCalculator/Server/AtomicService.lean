import ConsoleCalculator.Base.Simulation
import ConsoleCalculator.Base.Workers
import ConsoleCalculator.Server.Shutdown

/-!
# The service as its clients see it

`AtomicService` is what the threads of `ServiceApplication::run` add up to: network threads, each of
which runs `RequestHandler::handle` for one request at a time on a `StorageService` whose `find` and
`save` are atomic. There is no queue, no worker thread, no future and no start or stop of
components in it, and a request keeps its number from the moment a thread picks it up.

The model of the application refines it. What the application's thread has left (`left`) is its own
program, or, while it is in a call of the storage worker, the program after the answer once the
promise is set: an operation takes effect when the worker thread runs its job, wherever the calling
thread is (`label`).

Results:
* **`simulation`**: every step of the application is one step of the atomic service or does not
  show. `runJob` is the one step in which an operation happens.
* **`served_of_run`**: every run of the application is a run of the atomic service, with the same
  storage, the same responses in the same order, and the requests in the order of the events.
* **`application_refines`**: so every request has a number of its own, and is in the hands of one
  thread or answered, once.
-/

namespace ConsoleCalculator

open Base RequestHandler

/-! ## The atomic service -/

/-- The service: its storage, what each network thread is doing, the requests picked up and the
responses given. -/
abbrev AtomicService : Type :=
  Workers StorageService StorageOp StorageOp.Ans HandleCall (Outcome Exception String)

abbrev AtomicEvent : Type := WorkEvent HandleCall StatementReply Unit

namespace AtomicService

/-- What a network thread runs for a request. -/
def program (M : CalculatorMath) (lib : Protocol) (c : HandleCall) : HandlerM String :=
  handle M lib c.millis c.json

/-- `StorageService::initialize` completes. -/
def load (_ : Unit) (s : StorageService) : StorageService := .loaded s.postgresRepository

def step (M : CalculatorMath) (lib : Protocol) (w : AtomicService) (e : AtomicEvent) :
    Option AtomicService :=
  Workers.step (program M lib) StorageService.exec load w e

/-- A run over a database that holds `history`, from before `initialize`. -/
def run (M : CalculatorMath) (lib : Protocol) (history : OperationHistory)
    (es : List AtomicEvent) : Option AtomicService :=
  runSteps (step M lib) (Workers.start (.fresh history)) es

end AtomicService

/-! ## What the application's threads have left -/

/-- The program a network thread has left, once it has taken the answer that is there for it. -/
def NetworkPhase.left (w : StorageWorker) : NetworkPhase → Option (HandlerM String)
  | .idle => none
  | .exited => none
  | .handling p => some p
  | .calling ticket op rest =>
    match w.promise ticket op with
    | some answer => some (rest answer)
    | none => some (.call op rest)

/-- The thread waits for the promise of this ticket. -/
def NetworkPhase.waitsFor (ticket : ℕ) : NetworkPhase → Bool
  | .calling ticket' _ _ => decide (ticket' = ticket)
  | _ => false

namespace ServiceApplication

/-- The network thread that waits for a job. -/
def callerOf (threads : List NetworkPhase) (ticket : ℕ) : ℕ :=
  threads.findIdx (NetworkPhase.waitsFor ticket)

/-- The step of the atomic service that a step of the application is. -/
def label (s : ServiceApplication) : ApplicationEvent → Option AtomicEvent
  | .worker .initDone =>
    match s.storage.worker with
    | some (.initializing replies) =>
      match replies.attempt s.storage.storage.postgresRepository with
      | .ok _ => some (.event ())
      | .error _ => none
    | _ => none
  | .worker (.runJob reply) =>
    match s.storage.worker with
    | some (.running job) => some (.issue (callerOf s.threads job.ticket) reply)
    | _ => none
  | .createThread => some .hire
  | .network i (.request json millis) => some (.take i ⟨json, millis⟩)
  | .network i .respond => some (.finish i)
  | _ => none

/-- The two services hold the same storage, the threads have the same programs left, and the same
responses have been given. -/
structure Matches (s : ServiceApplication) (w : AtomicService) : Prop where
  shared : w.shared = s.storage.storage
  workers : w.workers.map (Option.map Prod.snd) = s.threads.map (NetworkPhase.left s.storage)
  answered : w.answered.map Prod.snd = s.responses.map .value

section Matches

variable {s s' : ServiceApplication} {w : AtomicService} {i : ℕ} {t t' : NetworkPhase}

/-- A thread that is busy is a worker with the same program. -/
theorem Matches.worker (h : Matches s w) (hi : s.threads[i]? = some t) {p : HandlerM String}
    (hp : t.left s.storage = some p) : ∃ k, w.workers[i]? = some (some (k, p)) := by
  have hget := congrArg (·[i]?) h.workers
  simp only [List.getElem?_map, hi, Option.map_some, hp] at hget
  obtain ⟨x, hx, hxp⟩ := Option.map_eq_some_iff.mp hget
  obtain ⟨⟨k, p'⟩, rfl, rfl⟩ := Option.map_eq_some_iff.mp hxp
  exact ⟨k, hx⟩

/-- A thread that is not is a free one. -/
theorem Matches.free (h : Matches s w) (hi : s.threads[i]? = some t)
    (hp : t.left s.storage = none) : w.workers[i]? = some none := by
  have hget := congrArg (·[i]?) h.workers
  simp only [List.getElem?_map, hi, Option.map_some, hp] at hget
  obtain ⟨x, hx, hxp⟩ := Option.map_eq_some_iff.mp hget
  rw [Option.map_eq_none_iff.mp hxp] at hx
  exact hx

theorem left_congr {v v' : StorageWorker} (h : v'.finished = v.finished) :
    NetworkPhase.left v' = NetworkPhase.left v := by
  funext t
  cases t <;> simp only [NetworkPhase.left, StorageWorker.promise, h]

/-- A step that touches neither the storage nor the promises, nor what the threads have left. -/
theorem Matches.frame (h : Matches s w) (hstorage : s'.storage.storage = s.storage.storage)
    (hfinished : s'.storage.finished = s.storage.finished)
    (hleft : s'.threads.map (NetworkPhase.left s.storage) =
      s.threads.map (NetworkPhase.left s.storage))
    (hresponses : s'.responses = s.responses) : Matches s' w where
  shared := h.shared.trans hstorage.symm
  workers := by rw [left_congr hfinished, hleft, h.workers]
  answered := by rw [hresponses, h.answered]

/-- A thread moves on without getting on with its program. -/
theorem map_left_set {v : StorageWorker} {threads : List NetworkPhase} (hi : threads[i]? = some t)
    (hleft : t'.left v = t.left v) :
    (threads.set i t').map (NetworkPhase.left v) = threads.map (NetworkPhase.left v) := by
  refine List.ext_getElem? fun j => ?_
  rw [List.getElem?_map, List.getElem?_map, List.getElem?_set]
  split
  · rename_i hij
    subst hij
    rw [hi, if_pos (List.getElem?_eq_some_iff.mp hi).1, Option.map_some, Option.map_some, hleft]
  · rfl

end Matches

/-! ## The storage worker -/

section Worker

variable {v v' : StorageWorker} {e : WorkerEvent}

/-- Only a job that is run sets a promise. -/
theorem finished_frame (he : ∀ reply, e ≠ .runJob reply) (hstep : v.step e = some v') :
    v'.finished = v.finished := by
  cases StorageWorker.step_cases hstep with
  | ran reply job hw => exact absurd rfl (he reply)
  | rejected | accepted | notified | received | cleared | started | initialized | initFailed
  | startReturned | waited | left | took | woke | flagged | stopNotified | joined => rfl

/-- Only that, and the initialization, touch the storage. -/
theorem storage_frame (he : ∀ reply, e ≠ .runJob reply) (hinit : e ≠ .initDone)
    (hstep : v.step e = some v') : v'.storage = v.storage := by
  cases StorageWorker.step_cases hstep with
  | ran reply job hw => exact absurd rfl (he reply)
  | initialized | initFailed => exact absurd rfl hinit
  | rejected | accepted | notified | received | cleared | started | startReturned | waited | left
  | took | woke | flagged | stopNotified | joined => rfl

/-- A job that is not finished has no promise set. -/
theorem promise_none {ticket : ℕ} (h : ∀ f ∈ v.finished, f.ticket ≠ ticket) (op : StorageOp) :
    v.promise ticket op = none := by
  have hnone : v.finished.find? (fun f => f.ticket = ticket) = none :=
    List.find?_eq_none.mpr fun f hf => by simpa using h f hf
  simp only [StorageWorker.promise, hnone]

/-- Every finished job was accepted, so a new ticket is not among them. -/
theorem finished_ticket_lt (h : v.Consistent) : ∀ f ∈ v.finished, f.ticket < v.calls.length := by
  intro f hf
  have hmem : f.job ∈ v.accepted := by
    rw [h.accounted]
    exact List.mem_append_left _ (List.mem_append_left _ (List.mem_map_of_mem hf))
  obtain ⟨phase, hc⟩ := h.submitted _ hmem
  exact (List.getElem?_eq_some_iff.mp hc).1

/-- The job being run is not finished. -/
theorem running_unfinished (h : v.Consistent) {job : Job} (hw : v.worker = some (.running job)) :
    ∀ f ∈ v.finished, f.ticket ≠ job.ticket := by
  intro f hf ht
  have hcurrent : v.current = [job] := by simp [StorageWorker.current, hw]
  have hd := h.distinct
  rw [h.accounted, hcurrent, List.append_assoc, List.map_append, List.map_map] at hd
  have hf' : f.ticket ∈ v.finished.map (Job.ticket ∘ Finished.job) :=
    List.mem_map.mpr ⟨f, hf, rfl⟩
  exact List.disjoint_of_nodup_append hd hf' (by simp [ht])

/-- Running a job sets its promise and no other. -/
theorem promise_runJob (reply : StatementReply) {job : Job} (ticket : ℕ) (op : StorageOp)
    (hjob : ∀ f ∈ v.finished, f.ticket ≠ job.ticket) :
    (ticket ≠ job.ticket → (v.runJob reply job).promise ticket op = v.promise ticket op) ∧
      (v.runJob reply job).promise job.ticket job.op =
        some (StorageService.exec reply v.storage job.op).2 := by
  constructor
  · intro hne
    have hlast : ([⟨job.ticket, ⟨job.op, (StorageService.exec reply v.storage job.op).2⟩⟩] :
        List Finished).find? (fun f => f.ticket = ticket) = none := by
      simp [Ne.symm hne]
    simp only [StorageWorker.promise, StorageWorker.runJob, List.find?_append, hlast,
      Option.or_none]
  · have hnone : v.finished.find? (fun f => f.ticket = job.ticket) = none :=
      List.find?_eq_none.mpr fun f hf => by simpa using hjob f hf
    simp [StorageWorker.promise, StorageWorker.runJob, List.find?_append, hnone]

end Worker

section Caller

variable {s : ServiceApplication}

/-- The job being run is one a network thread waits for. -/
theorem running_caller (h : Orderly s) {job : Job}
    (hw : s.storage.worker = some (.running job)) :
    ∃ rest, s.threads[callerOf s.threads job.ticket]? =
      some (.calling job.ticket job.op rest) := by
  have hmem : job ∈ s.storage.accepted := by
    have hcurrent : s.storage.current = [job] := by simp [StorageWorker.current, hw]
    rw [h.consistent.accounted, hcurrent]
    simp
  obtain ⟨phase, hc⟩ := h.consistent.submitted job hmem
  obtain ⟨reply, rfl⟩ | ⟨i, rest, hi⟩ := h.coupled.attended job.ticket job.op phase hc
  · exact absurd rfl (running_unfinished h.consistent hw _ (h.consistent.replied _ _ _ hc))
  · have hlt := (List.getElem?_eq_some_iff.mp hi).1
    have hget := (List.getElem?_eq_some_iff.mp hi).2
    -- the first thread that waits for the job is the only one
    have hfirst : callerOf s.threads job.ticket = i := by
      refine (List.findIdx_eq hlt).mpr ⟨by simp [hget, NetworkPhase.waitsFor], fun j hj => ?_⟩
      cases ht : s.threads[j] with
      | idle | exited | handling => rfl
      | calling ticket op' rest' =>
        refine decide_eq_false fun he => ?_
        have hj' : s.threads[j]? = some (.calling ticket op' rest') := by
          rw [List.getElem?_eq_getElem (by omega), ht]
        subst he
        exact absurd (h.coupled.alone j i _ _ _ rest' rest hj' hi) (by omega)
    exact ⟨rest, by rw [hfirst]; exact hi⟩

end Caller

/-! ## The refinement -/

section Refinement

variable {M : CalculatorMath} {lib : Protocol} {workerThreads : Int32}
  {s s' : ServiceApplication} {w : AtomicService} {i : ℕ}

/-- A job is run: the one step of the storage worker that is a step of the atomic service. -/
theorem matches_ran (ho : Orderly s) (h : Matches s w) {job : Job} (reply : StatementReply)
    (hw : s.storage.worker = some (.running job)) :
    ∃ w', AtomicService.step M lib w (.issue (callerOf s.threads job.ticket) reply) = some w' ∧
      Matches { s with storage := s.storage.runJob reply job } w' := by
  obtain ⟨rest, hi⟩ := running_caller ho hw
  have hunfinished := running_unfinished ho.consistent hw
  have hleft : (NetworkPhase.calling job.ticket job.op rest).left s.storage =
      some (.call job.op rest) := by
    simp only [NetworkPhase.left, promise_none hunfinished]
  obtain ⟨k, hk⟩ := h.worker hi hleft
  have hstep : AtomicService.step M lib w (.issue (callerOf s.threads job.ticket) reply) =
      some { w with
        shared := (StorageService.exec reply w.shared job.op).1
        workers := w.workers.set (callerOf s.threads job.ticket)
          (some (k, rest (StorageService.exec reply w.shared job.op).2)) } := by
    simp only [AtomicService.step, Workers.step, hk]
  refine ⟨_, hstep, ?_, ?_, h.answered⟩
  · show (StorageService.exec reply w.shared job.op).1 = _
    rw [h.shared]
    rfl
  · refine List.ext_getElem? fun j => ?_
    have hj := congrArg (·[j]?) h.workers
    simp only [List.getElem?_map] at hj
    simp only [List.getElem?_map, List.getElem?_set]
    split
    · rename_i hij
      subst hij
      rw [if_pos (List.getElem?_eq_some_iff.mp hk).1, hi, h.shared]
      simp only [Option.map_some, NetworkPhase.left,
        (promise_runJob reply job.ticket job.op hunfinished).2]
    · rename_i hij
      rw [hj]
      cases ht : s.threads[j]? with
      | none => rfl
      | some t =>
        cases t with
        | idle | exited | handling => rfl
        | calling ticket op' rest' =>
          have hne : ticket ≠ job.ticket := by
            rintro rfl
            exact hij (ho.coupled.alone _ j _ _ _ rest rest' hi ht)
          simp only [Option.map_some, NetworkPhase.left,
            (promise_runJob reply ticket op' hunfinished).1 hne]

/-- A network thread moves: it takes a request, gives its response, or none of it shows. -/
theorem matches_network (ho : Orderly s) (h : Matches s w) {e : NetworkEvent}
    (hmove : NetworkMove M lib s i e s') :
    (label s (.network i e) = none ∧ Matches s' w) ∨
      ∃ a w', label s (.network i e) = some a ∧ AtomicService.step M lib w a = some w' ∧
        Matches s' w' := by
  cases hmove with
  | requested json millis hi hio =>
    have hfree := h.free hi rfl
    have hstep : AtomicService.step M lib w (.take i ⟨json, millis⟩) =
        some { w with
          workers := w.workers.set i (some (w.taken.length, handle M lib millis json))
          taken := w.taken ++ [⟨json, millis⟩] } := by
      simp only [AtomicService.step, Workers.step, hfree, AtomicService.program]
    refine Or.inr ⟨_, _, rfl, hstep, h.shared, ?_, h.answered⟩
    simp only [moveThread, List.map_set, h.workers]
    rfl
  | rejected op rest hi hs =>
    have hw := available_of_thread ho.staged hi (by simp)
    exact absurd (hs.symm.trans hw.running) (by simp)
  | accepted op rest hi hs =>
    have hnone := promise_none (fun f hf => (finished_ticket_lt ho.consistent f hf).ne) op
    have henqueue : s.storage.step (.submit op) = some (s.storage.enqueue op) := rfl
    refine Or.inl ⟨rfl, h.frame (storage_frame (by simp) (by simp) henqueue)
      (finished_frame (by simp) henqueue) (map_left_set hi ?_) rfl⟩
    simp only [NetworkPhase.left, hnone]
  | notified ticket op rest storage hi hw =>
    exact Or.inl ⟨rfl, h.frame (storage_frame (by simp) (by simp) hw)
      (finished_frame (by simp) hw) rfl rfl⟩
  | received ticket op rest storage answer hi hw ha =>
    refine Or.inl ⟨rfl, h.frame (storage_frame (by simp) (by simp) hw)
      (finished_frame (by simp) hw) (map_left_set hi ?_) rfl⟩
    simp only [NetworkPhase.left, ha]
  | responded text hi =>
    obtain ⟨k, hk⟩ := h.worker hi rfl
    have hstep : AtomicService.step M lib w (.finish i) =
        some { w with
          workers := w.workers.set i none
          answered := w.answered ++ [(k, .value text)] } := by
      simp only [AtomicService.step, Workers.step, hk]
    refine Or.inr ⟨_, _, rfl, hstep, h.shared, ?_, ?_⟩
    · simp only [moveThread, List.map_set, h.workers]
      rfl
    · simp only [List.map_append, h.answered, List.map_cons, List.map_nil]
  | aborted outcome hi => exact Or.inl ⟨rfl, h.frame rfl rfl rfl rfl⟩
  | left hi hl => exact Or.inl ⟨rfl, h.frame rfl rfl (map_left_set hi rfl) rfl⟩

/-- A step of the storage worker's thread. -/
theorem matches_worked (ho : Orderly s) (h : Matches s w) {e : WorkerEvent}
    {storage : StorageWorker} (he : OwnStep e) (hw : s.storage.step e = some storage) :
    (label s (.worker e) = none ∧ Matches { s with storage := storage } w) ∨
      ∃ a w', label s (.worker e) = some a ∧ AtomicService.step M lib w a = some w' ∧
        Matches { s with storage := storage } w' := by
  cases StorageWorker.step_cases hw with
  | initialized replies loaded hinit ha =>
    have hloaded : loaded = .loaded s.storage.storage.postgresRepository := by
      rcases StorageWorker.attempt_cases replies s.storage.storage.postgresRepository with
        ⟨-, hok⟩ | ⟨-, e, herror⟩
      · exact Except.ok.inj (ha.symm.trans hok)
      · rw [ha] at herror
        cases herror
    refine Or.inr ⟨.event (), _, by simp only [label, hinit, ha], rfl, ?_, h.workers, h.answered⟩
    show StorageService.loaded w.shared.postgresRepository = loaded
    rw [hloaded, h.shared]
  | initFailed replies e hinit ha =>
    exact Or.inl ⟨by simp only [label, hinit, ha], h.frame rfl rfl rfl rfl⟩
  | ran reply job hrun =>
    obtain ⟨w', hw', hm⟩ := matches_ran ho h reply hrun
    exact Or.inr ⟨_, w', by simp only [label, hrun], hw', hm⟩
  | waited | left | took | woke => exact Or.inl ⟨rfl, h.frame rfl rfl rfl rfl⟩
  | rejected | accepted | notified | received | cleared | started | startReturned | flagged
  | stopNotified | joined => exact he.elim

/-- **Each step of the application is at most one step of the atomic service.** -/
theorem simulation : Simulation (step M lib workerThreads) (AtomicService.step M lib) label
    fun s w => Orderly s ∧ Matches s w := by
  refine Simulation.of_step fun {s w e s'} ⟨ho, h⟩ hstep => ?_
  have ho' := orderly_step ho hstep
  suffices hmatch : (label s e = none ∧ Matches s' w) ∨
      ∃ a w', label s e = some a ∧ AtomicService.step M lib w a = some w' ∧ Matches s' w' by
    rcases hmatch with ⟨hnone, hm⟩ | ⟨a, w', ha, hw', hm⟩
    · exact Or.inl ⟨hnone, ho', hm⟩
    · exact Or.inr ⟨a, w', ha, hw', ho', hm⟩
  cases (step_cases hstep).2 with
  | worked e storage he hw => exact matches_worked ho h he hw
  | network i e s' hmove => exact matches_network ho h hmove
  | threadCreated hm hn =>
    refine Or.inr ⟨.hire, _, rfl, rfl, h.shared, ?_, h.answered⟩
    simp only [List.map_append, h.workers]
    rfl
  | storageStarting e storage he hw hm =>
    rcases he with rfl | ⟨replies, rfl⟩ <;>
      exact Or.inl ⟨rfl, h.frame (storage_frame (by simp) (by simp) hw)
        (finished_frame (by simp) hw) rfl rfl⟩
  | storageStopping e storage he hw hm =>
    rcases he with rfl | rfl <;>
      exact Or.inl ⟨rfl, h.frame (storage_frame (by simp) (by simp) hw)
        (finished_frame (by simp) hw) rfl rfl⟩
  | storageStarted storage hw | storageFailed storage hw | storageStopped storage hw =>
    exact Or.inl ⟨rfl, h.frame (storage_frame (by simp) (by simp) hw)
      (finished_frame (by simp) hw) rfl rfl⟩
  | signalsStarted | signalsFailed | caught | signalled | serverStarted | serverFailed | woken
  | ioStopped | threadJoined | serverStopped | signalsStopping | signalsJoined =>
    exact Or.inl ⟨rfl, h.frame rfl rfl rfl rfl⟩

theorem matches_launch (history : OperationHistory) :
    Matches (launch history) (Workers.start (.fresh history)) :=
  ⟨rfl, rfl, rfl⟩

/-- The request that an event of the application picks up. -/
def requestOf : ApplicationEvent → Option HandleCall
  | .network _ (.request json millis) => some ⟨json, millis⟩
  | _ => none

/-- The events of the atomic service that a run of the application stands for. -/
def served (M : CalculatorMath) (lib : Protocol) (workerThreads : Int32)
    (history : OperationHistory) (es : List ApplicationEvent) : List AtomicEvent :=
  trace (step M lib workerThreads) label (launch history) es

/-- Requests show as they are picked up, and nothing else does as a request. -/
theorem served_requests {history : OperationHistory} {es : List ApplicationEvent}
    (hrun : run M lib workerThreads (launch history) es = some s) :
    (served M lib workerThreads history es).filterMap WorkEvent.call =
      es.filterMap requestOf := by
  refine filterMap_trace (fun s e s' hstep => ?_) es hrun
  cases e with
  | worker e =>
    cases e <;> simp only [label, requestOf] <;>
      first
      | rfl
      | (repeat' split) <;> rfl
  | network i e => cases e <;> rfl
  | startSignals | signalCaught | signalNotify | createThread | serverStarted | serverFails | wake
  | ioStop | join | joined | signalStop | signalJoin => rfl

/-- **Every run of the application is a run of the atomic service.** -/
theorem served_of_run {history : OperationHistory} {es : List ApplicationEvent}
    (hrun : run M lib workerThreads (launch history) es = some s) :
    ∃ w, AtomicService.run M lib history (served M lib workerThreads history es) = some w ∧
      Matches s w := by
  obtain ⟨w, hw, -, hm⟩ :=
    simulation.run es ⟨orderly_launch history, matches_launch history⟩ hrun
  exact ⟨w, hw, hm⟩

/-- Request number `k` of the run is the call `c`, and it has been answered with `text`. -/
def Answered (M : CalculatorMath) (lib : Protocol) (workerThreads : Int32)
    (history : OperationHistory) (es : List ApplicationEvent) (k : ℕ) (c : HandleCall)
    (text : String) : Prop :=
  ∃ w, AtomicService.run M lib history (served M lib workerThreads history es) = some w ∧
    (es.filterMap requestOf)[k]? = some c ∧ (k, .value text) ∈ w.answered

theorem Answered.mem {history : OperationHistory} {es : List ApplicationEvent} {k : ℕ}
    {c : HandleCall} {text : String} (h : Answered M lib workerThreads history es k c text) :
    c ∈ es.filterMap requestOf := by
  obtain ⟨-, -, hc, -⟩ := h
  exact List.mem_of_getElem? hc

/-- The requests of the atomic service are those of the run. -/
theorem served_taken {history : OperationHistory} {es : List ApplicationEvent}
    (hrun : run M lib workerThreads (launch history) es = some s)
    (hw : AtomicService.run M lib history (served M lib workerThreads history es) = some w) :
    w.taken = es.filterMap requestOf := by
  rw [← served_requests hrun]
  exact Workers.taken_run hw

theorem run_append {u : ServiceApplication} {es es' : List ApplicationEvent}
    (hrun : u.run M lib workerThreads es = some s)
    (hrun' : s.run M lib workerThreads es' = some s') :
    u.run M lib workerThreads (es ++ es') = some s' := by
  rw [run, runSteps_append, show runSteps _ _ es = some s from hrun]
  exact hrun'

/-- When none of the threads can go on, no request is being worked on. -/
theorem idle_of_quiescent (h : Reached lib s) (halive : s.aborted = false)
    (hquiet : ∀ e, Forward e → step M lib workerThreads s e = none) :
    ∀ t ∈ s.threads, t = .idle ∨ t = .exited := by
  have hq : ∀ e, Forward e → act M lib workerThreads s e = none := by
    intro e he
    have hnone := hquiet e he
    rwa [step, if_neg (by simp [halive])] at hnone
  intro t ht
  obtain ⟨i, hi⟩ := List.getElem?_of_mem ht
  cases t with
  | idle => exact Or.inl rfl
  | exited => exact Or.inr rfl
  | calling ticket op rest =>
    exact (no_caller h hq (available_of_thread h.orderly.staged hi (by simp)) hi).elim
  | handling p =>
    cases p with
    | call op rest =>
      exact absurd (hq (.network i .submit) trivial) (by simp [act, networkStep, hi])
    | done outcome =>
      cases outcome with
      | value text =>
        exact absurd (hq (.network i .respond) trivial) (by simp [act, networkStep, hi])
      | thrown e => exact absurd (hq (.network i .abort) trivial) (by simp [act, networkStep, hi])
      | undefined => exact absurd (hq (.network i .abort) trivial) (by simp [act, networkStep, hi])

/-- Threads that are free have no request in their hands. -/
theorem inProgress_of_idle (hm : Matches s w) (h : ∀ t ∈ s.threads, t = .idle ∨ t = .exited) :
    w.inProgress = [] := by
  have hfree : ∀ x ∈ w.workers, x = none := by
    intro x hx
    have hmem : x.map Prod.snd ∈ s.threads.map (NetworkPhase.left s.storage) :=
      hm.workers ▸ List.mem_map_of_mem hx
    obtain ⟨t, ht, hleft⟩ := List.mem_map.mp hmem
    refine Option.map_eq_none_iff.mp (hleft.symm.trans ?_)
    rcases h t ht with rfl | rfl <;> rfl
  refine List.filterMap_eq_nil_iff.mpr fun x hx => ?_
  rw [hfree x hx]
  rfl

end Refinement

/-- **The service is what its clients think it is.** Whatever the threads do, and in whatever order,
the run is one of the atomic service: each operation of the storage happens at one moment between
its `enqueue` and the return of its future, the storage and the responses are the same, and requests
are numbered in the order they were picked up. Every request is in the hands of one thread or has
been answered, and neither twice. -/
theorem application_refines (M : CalculatorMath) (lib : Protocol) (workerThreads : Int32)
    (history : OperationHistory) (es : List ApplicationEvent) (s : ServiceApplication)
    (hrun : (launch history).run M lib workerThreads es = some s) :
    ∃ w, AtomicService.run M lib history (served M lib workerThreads history es) = some w ∧
      Matches s w ∧ w.taken = es.filterMap requestOf ∧ w.Accounted := by
  obtain ⟨w, hw, hm⟩ := served_of_run hrun
  exact ⟨w, hw, hm, served_taken hrun hw, Workers.accounted_run (Workers.accounted_start _) hw⟩

/-- The request in flight at the shutdown is request number 0, and it has been answered. -/
theorem application_refines_in_flight :
    ∃ s w, (launch .empty).run .checked sampleProtocol 1 requestInFlight = some s ∧
      AtomicService.run .checked sampleProtocol .empty
        (served .checked sampleProtocol 1 .empty requestInFlight) = some w ∧
      w.taken = [⟨"1+2", ⟨0, 0⟩⟩] ∧ w.answered.map Prod.snd = [.value "a: 3"] := by
  have hend : ((launch .empty).run .checked sampleProtocol 1 requestInFlight).map
      (fun s => s.responses) = some ["a: 3"] := by
    decide +kernel
  obtain ⟨s, hrun, hs⟩ := Option.map_eq_some_iff.mp hend
  obtain ⟨w, hw, hm, htaken, -⟩ := application_refines _ _ _ _ _ s hrun
  refine ⟨s, w, hrun, hw, htaken, ?_⟩
  rw [hm.answered, hs]
  rfl

/-- What has been answered can be computed. -/
theorem answered_of_map {M : CalculatorMath} {lib : Protocol} {workerThreads : Int32}
    {history : OperationHistory} {es : List ApplicationEvent}
    {l : List (ℕ × Outcome Exception String)}
    (h : (AtomicService.run M lib history (served M lib workerThreads history es)).map
      (fun w => w.answered) = some l) {k : ℕ} {c : HandleCall} {text : String}
    (hc : (es.filterMap requestOf)[k]? = some c) (hk : (k, .value text) ∈ l) :
    Answered M lib workerThreads history es k c text := by
  obtain ⟨w, hw, rfl⟩ := Option.map_eq_some_iff.mp h
  exact ⟨w, hw, hc, hk⟩

theorem answered_in_flight :
    Answered .checked sampleProtocol 1 .empty requestInFlight 0 ⟨"1+2", ⟨0, 0⟩⟩ "a: 3" :=
  answered_of_map (l := [(0, .value "a: 3")]) (by decide +kernel) rfl (by simp)

/-- A start of the service, and a request that a thread has picked up. -/
def oneRequest : List ApplicationEvent :=
  [.startSignals true, .worker .startClear, .worker (.startThread {}), .worker .initDone,
    .worker .startReturn, .createThread, .serverStarted, .network 0 (.request "1+2" ⟨0, 0⟩)]

/-- What there is to do then. -/
def oneResponse : List ApplicationEvent :=
  [.network 0 .submit, .network 0 .notify, .worker .check, .worker (.runJob .completed),
    .network 0 .receive, .network 0 .submit, .worker .check, .network 0 .notify,
    .worker (.runJob .completed), .network 0 .receive, .network 0 .respond, .worker .check]

end ServiceApplication

end ConsoleCalculator
