import ConsoleCalculator.Server.ApplicationRuns
import ConsoleCalculator.Server.InternalErrors

/-!
# Shutting the service down

What the order of the stops in `ServiceApplication::run` gives for requests in flight.

Results:
* `proper_step`: no call of `handle` on a network thread meets an exception of `enqueue`, so its
  response `INTERNAL_ERROR`, if it gives one, is not about that.
* `effort_forward`, `ended_of_quiescent`: the shutdown cannot go on for ever, and does not get
  stuck.
* **`graceful_shutdown`**: no call of the storage is turned away, every job has been run when
  `storage->stop()` returns, and the shutdown gets to its end.
-/

namespace ConsoleCalculator

open Base RequestHandler

/-- The program a network thread has left, with the operation it waits for. -/
def NetworkPhase.program : NetworkPhase → Option (HandlerM String)
  | .handling p => some p
  | .calling _ op rest => some (.call op rest)
  | .idle => none
  | .exited => none

namespace ServiceApplication

/-! ## The programs of the threads -/

/-- What is known of the program of a network thread. -/
structure Sound (lib : Protocol) (p : HandlerM String) : Prop where
  explained : PlainSat (Emitted lib (Explained lib)) (fun _ => True) p
  bounded : ∃ n, p.EndsWithin n

/-- The threads run sound programs, over a storage whose answers are plain. -/
structure Proper (lib : Protocol) (threads : List NetworkPhase) (finished : List Finished)
    (responses : List String) : Prop where
  programs : ∀ t ∈ threads, ∀ p, t.program = some p → Sound lib p
  answers : ∀ f ∈ finished, f.reply.1.Plain f.reply.2
  responses : ∀ text ∈ responses, Emitted lib (Explained lib) text

section Proper

variable {lib : Protocol} {threads : List NetworkPhase} {finished : List Finished}
  {responses : List String}

theorem sound_handle (M : CalculatorMath) (lib : Protocol) (millis : Elapsed) (json : String) :
    Sound lib (handle M lib millis json) :=
  ⟨handle_explained M lib millis json, 3, handle_endsWithin M lib millis json⟩

/-- A plain answer is all a sound program needs. -/
theorem Sound.answer {op : StorageOp} {rest : op.Ans → HandlerM String}
    (h : Sound lib (.call op rest)) {a : op.Ans} (ha : op.Plain a) : Sound lib (rest a) := by
  constructor
  · -- the other operations are answered in any way
    have hsat := h.explained (Function.update (StorageOp.failed storageWorkerIsStopping) op a) ()
    simp only [Function.update_self] at hsat
    exact (hsat ha trivial).2
  · obtain ⟨n, hn⟩ := h.bounded
    cases n with
    | zero => exact hn.elim
    | succ n => exact ⟨n, hn a⟩

theorem proper_set (h : Proper lib threads finished responses) (i : ℕ) {t' : NetworkPhase}
    (ht' : ∀ p, t'.program = some p → Sound lib p) :
    Proper lib (threads.set i t') finished responses := by
  refine ⟨fun t ht p hp => ?_, h.answers, h.responses⟩
  rcases List.mem_or_eq_of_mem_set ht with ht | rfl
  · exact h.programs t ht p hp
  · exact ht' p hp

/-- Only a job that is run adds an answer, and it is the service's. -/
theorem answers_step {w w' : StorageWorker} {e : WorkerEvent} (hstep : w.step e = some w')
    (h : ∀ f ∈ w.finished, f.reply.1.Plain f.reply.2) :
    ∀ f ∈ w'.finished, f.reply.1.Plain f.reply.2 := by
  cases StorageWorker.step_cases hstep with
  | ran reply job hw =>
    intro f hf
    rcases List.mem_append.mp hf with hf | hf
    · exact h f hf
    · obtain rfl := List.mem_singleton.mp hf
      exact exec_plain reply w.storage job.op
  | rejected | accepted | notified | received | cleared | started | initialized | initFailed
  | startReturned | waited | left | took | woke | flagged | stopNotified | joined => exact h

theorem promise_mem {w : StorageWorker} {ticket : ℕ} {op : StorageOp} {answer : op.Ans}
    (h : w.promise ticket op = some answer) : ⟨ticket, op, answer⟩ ∈ w.finished := by
  unfold StorageWorker.promise at h
  split at h
  · rename_i ticket' op' answer' hf
    split at h
    · rename_i hop
      subst hop
      obtain rfl := Option.some.inj h
      have ht : ticket' = ticket := by simpa using List.find?_some hf
      exact ht ▸ List.mem_of_find?_eq_some hf
    · cases h
  · cases h

end Proper

section Steps

variable {M : CalculatorMath} {lib : Protocol} {workerThreads : Int32}
  {s s' : ServiceApplication}

theorem proper_network {i : ℕ} {e : NetworkEvent} (ho : Orderly s)
    (h : Proper lib s.threads s.storage.finished s.responses)
    (hmove : NetworkMove M lib s i e s') :
    Proper lib s'.threads s'.storage.finished s'.responses := by
  cases hmove with
  | requested json millis hi hio =>
    refine proper_set h i fun p hp => ?_
    obtain rfl := Option.some.inj hp
    exact sound_handle M lib millis json
  | rejected op rest hi hs =>
    have hw := available_of_thread ho.staged hi (by simp)
    exact absurd (hs.symm.trans hw.running) (by simp)
  | accepted op rest hi hs =>
    have hfin : (s.storage.enqueue op).finished = s.storage.finished := by
      simp [StorageWorker.enqueue, hs]
    show Proper lib _ (s.storage.enqueue op).finished _
    rw [hfin]
    exact proper_set h i fun p hp => h.programs _ (List.mem_of_getElem? hi) p hp
  | notified ticket op rest storage hi hw =>
    exact ⟨h.programs, answers_step hw h.answers, h.responses⟩
  | received ticket op rest storage answer hi hw ha =>
    have hcall := h.programs _ (List.mem_of_getElem? hi) _ rfl
    have hplain : op.Plain answer := h.answers _ (promise_mem ha)
    have hset : Proper lib (s.threads.set i (.handling (rest answer))) s.storage.finished
        s.responses := by
      refine proper_set h i fun p hp => ?_
      obtain rfl := Option.some.inj hp
      exact hcall.answer hplain
    exact ⟨hset.programs, answers_step hw h.answers, hset.responses⟩
  | responded text hi =>
    have hdone := (h.programs _ (List.mem_of_getElem? hi) _ rfl).explained
    have hset : Proper lib (s.threads.set i .idle) s.storage.finished s.responses :=
      proper_set h i (by simp [NetworkPhase.program])
    refine ⟨hset.programs, h.answers, fun text' ht => ?_⟩
    rcases List.mem_append.mp ht with ht | ht
    · exact h.responses text' ht
    · obtain rfl := List.mem_singleton.mp ht
      exact hdone
  | aborted outcome hi => exact h
  | left hi hl => exact proper_set h i (by simp [NetworkPhase.program])

theorem proper_step {e : ApplicationEvent} (ho : Orderly s)
    (h : Proper lib s.threads s.storage.finished s.responses)
    (hstep : step M lib workerThreads s e = some s') :
    Proper lib s'.threads s'.storage.finished s'.responses := by
  cases (step_cases hstep).2 with
  | worked _ _ _ hw | storageStarting _ _ _ hw | storageStarted _ hw | storageFailed _ hw
  | storageStopping _ _ _ hw | storageStopped _ hw =>
    exact ⟨h.programs, answers_step hw h.answers, h.responses⟩
  | threadCreated hm hn =>
    refine ⟨fun t ht p hp => ?_, h.answers, h.responses⟩
    rcases List.mem_append.mp ht with ht | ht
    · exact h.programs t ht p hp
    · obtain rfl := List.mem_singleton.mp ht
      cases hp
  | network i e s' hmove => exact proper_network ho h hmove
  | signalsStarted | signalsFailed | caught | signalled | serverStarted | serverFailed | woken
  | ioStopped | threadJoined | serverStopped | signalsStopping | signalsJoined => exact h

/-! ## The signal thread -/

/-- The signal thread leaves after it has set `stopping`, or because `signal_handler.stop()` made
it. -/
structure Signals (s : ServiceApplication) : Prop where
  told : s.signal = .exited → s.stopping = true ∨ s.main = .joiningSignals ∨ s.main = .ended
  joinable : s.main = .joiningSignals → s.signal ≠ .waiting

/-- The main thread moves on between two phases in which the signal thread is left alone. -/
theorem Signals.of_main (h : Signals s) (hfrom : s.main ≠ .joiningSignals ∧ s.main ≠ .ended)
    (hsignal : s'.signal = s.signal) (hstopping : s'.stopping = s.stopping)
    (hto : s'.main ≠ .joiningSignals) : Signals s' := by
  refine ⟨fun hs => ?_, fun hm => absurd hm hto⟩
  rcases h.told (hsignal ▸ hs) with hstop | hm | hm
  · exact Or.inl (hstopping.trans hstop)
  · exact absurd hm hfrom.1
  · exact absurd hm hfrom.2

theorem signals_step {e : ApplicationEvent} (h : Signals s)
    (hstep : step M lib workerThreads s e = some s') : Signals s' := by
  cases (step_cases hstep).2 with
  | signalsStarted hm => exact ⟨by simp, by simp⟩
  | signalsFailed hm => exact ⟨fun _ => Or.inr (Or.inr rfl), by simp⟩
  | caught hs => exact ⟨by simp, by simp⟩
  | signalled hs => exact ⟨fun _ => Or.inl rfl, by simp⟩
  | worked | storageStarting | storageStopping | threadCreated => exact ⟨h.told, h.joinable⟩
  | storageStarted _ _ hm | storageFailed _ _ hm | storageStopped _ _ hm | serverStarted hm
  | serverFailed hm | woken hm | ioStopped hm | threadJoined _ hm | serverStopped hm =>
    exact h.of_main (by simp [hm]) rfl rfl (by simp)
  | signalsStopping hm =>
    refine ⟨fun _ => Or.inr (Or.inl rfl), fun _ => ?_⟩
    show s.signal.killed ≠ .waiting
    cases s.signal <;> simp [SignalPhase.killed]
  | signalsJoined hm hs => exact ⟨fun _ => Or.inr (Or.inr rfl), by simp⟩
  | network i e s' hmove =>
    cases hmove with
    | requested | rejected | accepted | notified | received | responded | aborted | left =>
      exact ⟨h.told, h.joinable⟩

/-! ## Reachable states -/

/-- What holds in every state of the service. -/
structure Reached (lib : Protocol) (s : ServiceApplication) : Prop where
  orderly : Orderly s
  proper : Proper lib s.threads s.storage.finished s.responses
  signals : Signals s

theorem reached_launch (lib : Protocol) (history : OperationHistory) :
    Reached lib (launch history) :=
  ⟨orderly_launch history, ⟨by simp [launch], by simp [launch, StorageWorker.construct],
    by simp [launch]⟩, by simp [launch], by simp [launch]⟩

theorem reached_step {e : ApplicationEvent} (h : Reached lib s)
    (hstep : step M lib workerThreads s e = some s') : Reached lib s' :=
  ⟨orderly_step h.orderly hstep, proper_step h.orderly h.proper hstep, signals_step h.signals hstep⟩

theorem reached_run {es : List ApplicationEvent} (h : Reached lib s)
    (hrun : s.run M lib workerThreads es = some s') : Reached lib s' :=
  runSteps_invariant (fun _ _ _ hi hstep => reached_step hi hstep) es h hrun

end Steps

/-! ## The shutdown makes progress -/

/-- A step that needs no request, no signal and no spurious wake-up, once the service has been
started. -/
def Forward : ApplicationEvent → Prop
  | .worker .check | .worker (.runJob _) | .worker .stopFlag | .worker .stopNotify
  | .worker .stopJoin => True
  | .network _ (.request _ _) => False
  | .network _ _ => True
  | .signalNotify | .wake | .ioStop | .join | .joined | .signalStop | .signalJoin => True
  | _ => False

/-- How far a network thread is from its end. A call of the storage is worth 10: with it come the
steps of the storage worker for one job and one notification. -/
noncomputable def threadEffort : NetworkPhase → ℕ
  | .idle => 1
  | .handling p => 10 * p.depth + 2
  | .calling _ op rest => 10 * (Prog.call op rest : HandlerM String).depth - 5
  | .exited => 0

noncomputable def threadsEffort : List NetworkPhase → ℕ
  | [] => 0
  | t :: rest => threadEffort t + threadsEffort rest

/-- How far the main thread is from its end; `control` is where it is in `storage->stop()`. -/
def mainEffort (threads : ℕ) (control : ControlPhase) : MainPhase → ℕ
  | .stoppingServer => threads + 19
  | .joining index => threads - index + 18
  | .stoppingStorage =>
    match control with
    | .stopFlagged => 12
    | .stopJoining => 11
    | _ => 17
  | .stoppingSignals => 6
  | .joiningSignals => 5
  | .ended => 4
  | _ => threads + 20

/-- The step the signal thread still has to make. -/
def signalEffort : SignalPhase → ℕ
  | .notifying => 1
  | _ => 0

/-- The step that ends the process. -/
def abortEffort : Bool → ℕ
  | true => 0
  | false => 1

/-- A bound on the steps still to come. -/
noncomputable def effort (s : ServiceApplication) : ℕ :=
  s.storage.effort + threadsEffort s.threads +
    mainEffort s.threads.length s.storage.control s.main + signalEffort s.signal +
    abortEffort s.aborted

section Effort

variable {w w' : StorageWorker} {threads : List NetworkPhase} {i : ℕ} {t : NetworkPhase}

theorem effort_enqueue (hs : w.stopping = false) (op : StorageOp) :
    (w.enqueue op).effort = w.effort + 6 := by
  simp [StorageWorker.enqueue, hs, StorageWorker.effort, StorageWorker.notifies]
  omega

theorem effort_received {ticket : ℕ} (h : w.step (.getFuture ticket) = some w') :
    w'.effort = w.effort ∧ w'.control = w.control := by
  cases StorageWorker.step_cases h with
  | received _ op f hc hf ht =>
    obtain ⟨hlt, hget⟩ := List.getElem?_eq_some_iff.mp hc
    have hfrom : StorageWorker.notifies ⟨op, .awaiting⟩ = false := rfl
    have hto : StorageWorker.notifies ⟨op, .returned f.reply⟩ = false := rfl
    refine ⟨?_, rfl⟩
    simp [StorageWorker.effort, List.countP_set hlt, hget, hfrom, hto]

theorem threadsEffort_set (hi : threads[i]? = some t) (t' : NetworkPhase) :
    threadsEffort (threads.set i t') + threadEffort t =
      threadsEffort threads + threadEffort t' := by
  induction threads generalizing i with
  | nil => simp at hi
  | cons first rest ih =>
    cases i with
    | zero =>
      obtain rfl := Option.some.inj hi
      simp only [List.set_cons_zero, threadsEffort]
      omega
    | succ i =>
      have hrest := ih (i := i) hi
      simp only [List.set_cons_succ, threadsEffort]
      omega

end Effort

section Progress

variable {M : CalculatorMath} {lib : Protocol} {workerThreads : Int32}
  {s s' : ServiceApplication}

/-- A network thread gets on with its request, or leaves. -/
theorem effort_network {i : ℕ} {e : NetworkEvent} (h : Reached lib s)
    (he : Forward (.network i e)) (halive : s.aborted = false)
    (hmove : NetworkMove M lib s i e s') : s'.effort < s.effort := by
  cases hmove with
  | requested json millis hi hio => exact he.elim
  | rejected op rest hi hs =>
    have hw := available_of_thread h.orderly.staged hi (by simp)
    exact absurd (hs.symm.trans hw.running) (by simp)
  | accepted op rest hi hs =>
    have hsum := threadsEffort_set hi (.calling s.storage.calls.length op rest)
    have hbounded := (h.proper.programs _ (List.mem_of_getElem? hi) _ rfl).bounded
    have hdepth := Prog.depth_call hbounded (op.failed storageWorkerIsStopping)
    have henqueue := effort_enqueue hs op
    have hcontrol : (s.storage.enqueue op).control = s.storage.control := by
      simp [StorageWorker.enqueue, hs]
    simp only [effort, moveThread, List.length_set, henqueue, hcontrol]
    simp only [threadEffort] at hsum
    omega
  | notified ticket op rest storage hi hw =>
    have hdown := StorageWorker.effort_step (e := .notifyOne ticket) trivial hw
    have hcontrol : storage.control = s.storage.control := by
      cases StorageWorker.step_cases hw with
      | notified => rfl
    simp only [effort, hcontrol]
    omega
  | received ticket op rest storage answer hi hw ha =>
    have hsum := threadsEffort_set hi (.handling (rest answer))
    have hbounded := (h.proper.programs _ (List.mem_of_getElem? hi) _ rfl).bounded
    have hdepth := Prog.depth_call hbounded answer
    obtain ⟨hsame, hcontrol⟩ := effort_received hw
    simp only [effort, moveThread, List.length_set, hsame, hcontrol]
    simp only [threadEffort] at hsum
    omega
  | responded text hi =>
    have hsum := threadsEffort_set hi .idle
    simp only [effort, moveThread, List.length_set]
    simp only [threadEffort] at hsum
    omega
  | aborted outcome hi => simp [effort, halive, abortEffort]
  | left hi hl =>
    have hsum := threadsEffort_set hi .exited
    simp only [effort, moveThread, List.length_set]
    simp only [threadEffort] at hsum
    omega

/-- **The shutdown cannot go on for ever.** -/
theorem effort_forward {e : ApplicationEvent} (h : Reached lib s) (he : Forward e)
    (hstep : step M lib workerThreads s e = some s') : s'.effort < s.effort := by
  obtain ⟨halive, hcases⟩ := step_cases hstep
  cases hcases with
  | signalsStarted | signalsFailed | caught | threadCreated | serverStarted | serverFailed =>
    exact he.elim
  | storageStarted | storageFailed => exact he.elim
  | storageStarting e storage he' => rcases he' with rfl | ⟨replies, rfl⟩ <;> exact he.elim
  | signalled hs => simp [effort, hs, signalEffort]
  | worked e storage hown hw =>
    have hinternal : StorageWorker.Internal e := by
      cases e <;> trivial
    have hdown := StorageWorker.effort_step hinternal hw
    have hcontrol := (own_frame hown hw).1.2
    simp only [effort, hcontrol]
    omega
  | storageStopping e storage he' hw hm =>
    cases StorageWorker.step_cases hw with
    | flagged hc =>
      simp only [effort, hm, mainEffort, hc, StorageWorker.effort, StorageWorker.controlEffort]
      omega
    | stopNotified hc =>
      have hdown := StorageWorker.effort_step (e := .stopNotify) trivial hw
      simp only [effort, hm, mainEffort, hc]
      omega
    | rejected | accepted | notified | received | cleared | started | initialized | initFailed
    | startReturned | waited | left | took | woke | ran | joined => simp at he'
  | storageStopped storage hw hm =>
    cases StorageWorker.step_cases hw with
    | joined hc hw' =>
      simp only [effort, hm, mainEffort, hc, StorageWorker.effort, StorageWorker.controlEffort,
        StorageWorker.phaseEffort]
      omega
  | woken hm hs => simp [effort, hm, mainEffort]
  | ioStopped hm => simp [effort, hm, mainEffort]
  | threadJoined index hm hi =>
    have hlt : index < s.threads.length := (List.getElem?_eq_some_iff.mp hi).1
    simp only [effort, hm, mainEffort]
    omega
  | serverStopped hm =>
    simp only [effort, hm, mainEffort]
    split <;> omega
  | signalsStopping hm =>
    have hsignal : signalEffort s.signal.killed ≤ signalEffort s.signal := by
      cases s.signal <;> simp [SignalPhase.killed, signalEffort]
    simp only [effort, hm, mainEffort]
    omega
  | signalsJoined hm hs => simp [effort, hm, mainEffort]
  | network i e s' hmove => exact effort_network h he halive hmove

/-- The main thread is on its way from `condition.wait` to the end, or about to be woken. -/
def ShuttingDown : MainPhase → SignalPhase → Prop
  | .startingSignals, _ => False
  | .startingStorage, _ => False
  | .startingServer, _ => False
  | .waiting, signal => signal = .notifying ∨ signal = .exited
  | _, _ => True

theorem shuttingDown_step {e : ApplicationEvent} (h : ShuttingDown s.main s.signal)
    (he : Forward e) (hstep : step M lib workerThreads s e = some s') :
    ShuttingDown s'.main s'.signal := by
  cases (step_cases hstep).2 with
  | signalsStarted | signalsFailed | caught | threadCreated | serverStarted | serverFailed
  | storageStarted | storageFailed => exact he.elim
  | storageStarting e storage he' => rcases he' with rfl | ⟨replies, rfl⟩ <;> exact he.elim
  | signalled hs =>
    show ShuttingDown s.main .exited
    cases hm : s.main with
    | waiting => exact Or.inr rfl
    | startingSignals | startingStorage | startingServer => rw [hm] at h; exact h
    | stoppingServer | joining | stoppingStorage | stoppingSignals | joiningSignals | ended =>
      trivial
  | worked | storageStopping => exact h
  | storageStopped | woken | ioStopped | threadJoined | serverStopped | signalsStopping
  | signalsJoined => trivial
  | network i e s' hmove =>
    cases hmove with
    | requested | rejected | accepted | notified | received | responded | aborted | left => exact h

section Quiescent

variable (h : Reached lib s) (hq : ∀ e, Forward e → act M lib workerThreads s e = none)

include h hq

/-- When nothing can happen, the storage worker has nothing to do. -/
theorem worker_quiescent (hav : Available s.storage) :
    ∀ e, StorageWorker.Internal e → s.storage.step e = none := by
  intro e he
  by_contra hne
  obtain ⟨storage, hw⟩ := Option.ne_none_iff_exists'.mp hne
  cases e with
  | check => exact absurd (hq (.worker .check) trivial) (by simp [act, workerStep, hw])
  | runJob reply =>
    exact absurd (hq (.worker (.runJob reply)) trivial) (by simp [act, workerStep, hw])
  | stopNotify => simp [StorageWorker.step, hav.idle] at hw
  | notifyOne ticket =>
    cases StorageWorker.step_cases hw with
    | notified _ op hc =>
      obtain ⟨reply, hr⟩ | ⟨j, rest, hj⟩ := h.orderly.coupled.attended ticket op _ hc
      · cases hr
      · exact absurd (hq (.network j .notify) trivial) (by simp [act, networkStep, hj, hw])
  | submit | getFuture | startClear | startThread | initDone | startReturn | spuriousWake | stopFlag
  | stopJoin => exact he

/-- When nothing can happen, no thread waits for the storage. -/
theorem no_caller (hav : Available s.storage) {i ticket : ℕ} {op : StorageOp}
    {rest : op.Ans → HandlerM String} (hi : s.threads[i]? = some (.calling ticket op rest)) :
    False := by
  have hquiet := worker_quiescent h hq hav
  have hdone := StorageWorker.finished_of_quiescent h.orderly.consistent hav.entered hquiet
  obtain ⟨hcall, hmem⟩ := h.orderly.coupled.caller i ticket op rest hi
  rw [hdone] at hmem
  obtain ⟨f, hf, hjob⟩ := List.mem_map.mp hmem
  obtain ⟨rfl, rfl⟩ := Job.mk.inj hjob
  rcases hcall with hc | hc
  · exact absurd (hquiet (.notifyOne f.ticket) trivial) (by simp [StorageWorker.step, hc])
  · have hstep := StorageWorker.getFuture_finished h.orderly.consistent hf hc
    have hpromise : s.storage.promise f.ticket f.reply.1 = some f.reply.2 := by
      simp [StorageWorker.promise, StorageWorker.find?_finished h.orderly.consistent hf]
    exact absurd (hq (.network i .receive) trivial)
      (by simp [act, networkStep, hi, hstep, hpromise])

/-- The join loop does not get stuck. -/
theorem not_joining {index : ℕ} : s.main ≠ .joining index := by
  intro hm
  have hstaged := h.orderly.staged
  rw [hm] at hstaged
  obtain ⟨hav, hio, hall⟩ := hstaged
  cases hi : s.threads[index]? with
  | none =>
    have hle : s.threads.length ≤ index := List.getElem?_eq_none_iff.mp hi
    have heq : index = s.threads.length := by
      by_contra hne
      have hlast := hall s.threads.length (by omega)
      simp at hlast
    exact absurd (hq .joined trivial) (by simp [act, hm, heq])
  | some t =>
    cases t with
    | exited => exact absurd (hq .join trivial) (by simp [act, hm, hi])
    | idle => exact absurd (hq (.network index .exit) trivial) (by simp [act, networkStep, hi, hio])
    | calling ticket op rest => exact no_caller h hq hav hi
    | handling p =>
      cases p with
      | call op rest =>
        exact absurd (hq (.network index .submit) trivial) (by simp [act, networkStep, hi])
      | done outcome =>
        cases outcome with
        | value text =>
          exact absurd (hq (.network index .respond) trivial) (by simp [act, networkStep, hi])
        | thrown e =>
          exact absurd (hq (.network index .abort) trivial) (by simp [act, networkStep, hi])
        | undefined =>
          exact absurd (hq (.network index .abort) trivial) (by simp [act, networkStep, hi])

/-- `storage->stop()` does not get stuck. -/
theorem not_stoppingStorage : s.main ≠ .stoppingStorage := by
  intro hm
  have hstaged := h.orderly.staged
  rw [hm] at hstaged
  obtain ⟨-, hthread, hcontrol⟩ := hstaged
  rcases hcontrol with ⟨hc, -⟩ | ⟨hc | hc, hstopping⟩
  · exact absurd (hq (.worker .stopFlag) trivial)
      (by simp [act, workerStep, StorageWorker.step, hc, hm])
  · exact absurd (hq (.worker .stopNotify) trivial)
      (by simp [act, workerStep, StorageWorker.step, hc, hm])
  · rcases hthread with (hw | hw | ⟨job, hw⟩ | hw) | ⟨hw, -⟩
    · exact absurd (hq (.worker .check) trivial) (by simp [act, workerStep, StorageWorker.step, hw])
    · -- a waiting thread would have been notified
      have hflagged := (h.orderly.consistent.awake hw).2 hstopping
      exact absurd (hc.symm.trans hflagged) (by simp)
    · exact absurd (hq (.worker (.runJob .completed)) trivial)
        (by simp [act, workerStep, StorageWorker.step, hw])
    · exact absurd (hq (.worker .stopJoin) trivial)
        (by simp [act, workerStep, StorageWorker.step, hc, hw, hm])
    · exact absurd (hq (.worker .stopJoin) trivial)
        (by simp [act, workerStep, StorageWorker.step, hc, hw, hm])

end Quiescent

/-- **The shutdown does not get stuck**: when none of its steps is possible, `run` has returned, or
the process was aborted. -/
theorem ended_of_quiescent (h : Reached lib s) (hdown : ShuttingDown s.main s.signal)
    (hquiet : ∀ e, Forward e → step M lib workerThreads s e = none) :
    s.main = .ended ∨ s.aborted = true := by
  by_cases haborted : s.aborted = true
  · exact Or.inr haborted
  have hq : ∀ e, Forward e → act M lib workerThreads s e = none := by
    intro e he
    have hnone := hquiet e he
    rwa [step, if_neg haborted] at hnone
  have hsignal : s.signal ≠ .notifying := fun hs =>
    absurd (hq .signalNotify trivial) (by simp [act, hs])
  refine Or.inl ?_
  cases hm : s.main with
  | startingSignals | startingStorage | startingServer =>
    rw [hm] at hdown
    exact hdown.elim
  | waiting =>
    rw [hm] at hdown
    have hstopping : s.stopping = true := by
      rcases h.signals.told (hdown.resolve_left hsignal) with hs | hs | hs
      · exact hs
      · exact absurd (hm.symm.trans hs) (by simp)
      · exact absurd (hm.symm.trans hs) (by simp)
    exact absurd (hq .wake trivial) (by simp [act, hm, hstopping])
  | stoppingServer => exact absurd (hq .ioStop trivial) (by simp [act, hm])
  | joining index => exact absurd hm (not_joining h hq)
  | stoppingStorage => exact absurd hm (not_stoppingStorage h hq)
  | stoppingSignals => exact absurd (hq .signalStop trivial) (by simp [act, hm])
  | joiningSignals =>
    cases hs : s.signal with
    | absent => exact absurd (hq .signalJoin trivial) (by simp [act, hm, hs])
    | waiting => exact absurd hs (h.signals.joinable hm)
    | notifying => exact absurd hs hsignal
    | exited => exact absurd (hq .signalJoin trivial) (by simp [act, hm, hs])
  | ended => rfl

end Progress

/-! ## Shutdown is graceful -/

/-- `storage->stop()` has returned. -/
def StorageStopped : MainPhase → Prop
  | .stoppingSignals | .joiningSignals | .ended => True
  | _ => False

/-- The response that `enqueue` would lead to when it throws. -/
def IsStoppingError (response : CalculationResponse) : Prop :=
  response.statusCode = .internalError ∧
    ∃ info, response.errorInfo = some info ∧ info.message = "storage worker is stopping"

section Graceful

variable {lib : Protocol} {s : ServiceApplication}

/-- A call is never turned away, and gets the answer to its own job. -/
theorem call_phase (h : Orderly s) {ticket : ℕ} {op : StorageOp} {phase : CallPhase}
    (hc : s.storage.calls[ticket]? = some ⟨op, phase⟩) :
    phase = .notifying ∨ phase = .awaiting ∨ ∃ reply, phase = .returned reply := by
  obtain hr | ⟨i, rest, hi⟩ := h.coupled.attended ticket op phase hc
  · exact Or.inr (Or.inr hr)
  · rcases (h.coupled.caller i ticket op rest hi).1 with hc' | hc'
    · exact Or.inl (StorageCall.mk.inj (Option.some.inj (hc.symm.trans hc'))).2
    · exact Or.inr (Or.inl (StorageCall.mk.inj (Option.some.inj (hc.symm.trans hc'))).2)

theorem staged_stopped (h : Orderly s) (hm : StorageStopped s.main) :
    AllExited s.threads ∧ Closed s.storage := by
  have hstaged := h.staged
  cases hmain : s.main with
  | stoppingSignals | joiningSignals | ended =>
    rw [hmain] at hstaged
    exact hstaged
  | startingSignals | startingStorage | startingServer | waiting | stoppingServer | joining
  | stoppingStorage =>
    rw [hmain] at hm
    exact hm.elim

/-- With every network thread gone, every call has its answer. -/
theorem answered_of_exited (h : Orderly s) (hall : AllExited s.threads) {ticket : ℕ}
    {op : StorageOp} {phase : CallPhase} (hc : s.storage.calls[ticket]? = some ⟨op, phase⟩) :
    ∃ reply, phase = .returned reply ∧ reply.1 = op ∧ ⟨ticket, reply⟩ ∈ s.storage.finished := by
  obtain ⟨reply, rfl⟩ | ⟨i, rest, hi⟩ := h.coupled.attended ticket op phase hc
  · exact ⟨reply, rfl, StorageWorker.own_reply h.consistent hc⟩
  · cases hall _ (List.mem_of_getElem? hi)

theorem stoppingError_explained {text : String} (h : Emitted lib (Explained lib) text) :
    ∃ response, lib.serializeResponse response = .ok text ∧
      (IsStoppingError response →
        ∃ e, lib.Throws e ∧ e.what = some "storage worker is stopping") := by
  obtain ⟨response, timing, hexplained, hs⟩ := h
  refine ⟨_, hs, ?_⟩
  rintro ⟨hstatus, info, hinfo, hmessage⟩
  obtain ⟨info', hinfo', hmessage' | ⟨e, hthrows, hwhat⟩⟩ := hexplained hstatus
  · obtain rfl := Option.some.inj (hinfo.symm.trans hinfo')
    exact absurd (hmessage.symm.trans hmessage') (by decide)
  · obtain rfl := Option.some.inj (hinfo.symm.trans hinfo')
    exact ⟨e, hthrows, hwhat.trans (congrArg some hmessage)⟩

end Graceful

/-- **Shutdown never fails a request in flight.** In every state that any interleaving of requests,
of the storage worker and of the start and shutdown of the service leads to:

* no call of `enqueue` has thrown, and none finds `stopping_` set;
* no call of `handle` has answered `INTERNAL_ERROR` with the message of that exception, unless it
  is the codec that threw one with the same text;
* the jobs that have been run were answered as by a storage service used by one thread, given the
  jobs one after the other, each with what PostgreSQL reports of its statement;
* once `storage->stop()` has returned, every accepted job has been run, and every call that was ever
  made has returned the answer to its job;
* and once the main thread is on its way to the end, the steps of the shutdown, of the requests in
  flight and of the storage worker lead there, in at most `effort` many steps. -/
theorem graceful_shutdown (M : CalculatorMath) (lib : Protocol) (workerThreads : Int32)
    (history : OperationHistory) (es : List ApplicationEvent) (s : ServiceApplication)
    (hrun : (launch history).run M lib workerThreads es = some s) :
    ((∀ (ticket : ℕ) (op : StorageOp), s.storage.calls[ticket]? ≠ some ⟨op, .threw⟩) ∧
      ∀ i s', s.step M lib workerThreads (.network i .submit) = some s' →
        s.storage.stopping = false) ∧
    (∀ text ∈ s.responses, ∃ response, lib.serializeResponse response = .ok text ∧
      (IsStoppingError response →
        ∃ e, lib.Throws e ∧ e.what = some "storage worker is stopping")) ∧
    (∃ works : List StorageWork,
      works.filterMap StorageWork.op = (s.storage.finished.map Finished.job).map Job.op ∧
      works.filterMap StorageWork.statement = es.filterMap statement ∧
      SequentialStorage.run history works =
        ⟨s.storage.storage, s.storage.finished.map Finished.reply⟩) ∧
    (StorageStopped s.main →
      s.storage.accepted = s.storage.finished.map Finished.job ∧
      ∀ (ticket : ℕ) (op : StorageOp) (phase : CallPhase),
        s.storage.calls[ticket]? = some ⟨op, phase⟩ →
          ∃ reply, phase = .returned reply ∧ reply.1 = op ∧ ⟨ticket, reply⟩ ∈ s.storage.finished) ∧
    (ShuttingDown s.main s.signal → ∀ es' s', (∀ e ∈ es', Forward e) →
      s.run M lib workerThreads es' = some s' →
      es'.length ≤ s.effort ∧
      ((∀ e, Forward e → s'.step M lib workerThreads e = none) →
        s'.main = .ended ∨ s'.aborted = true)) := by
  have h := reached_run (reached_launch lib history) hrun
  refine ⟨⟨fun ticket op hc => ?_, fun i s' hstep => ?_⟩, fun text ht => ?_, ?_, fun hm => ?_,
    fun hdown es' s' hes hrun' => ?_⟩
  · rcases call_phase h.orderly hc with hp | hp | ⟨reply, hp⟩ <;> cases hp
  · cases (step_cases hstep).2 with
    | network _ _ _ hmove =>
      cases hmove with
      | rejected op rest hi hs => exact (available_of_thread h.orderly.staged hi (by simp)).running
      | accepted op rest hi hs => exact hs
  · exact stoppingError_explained (h.proper.responses text ht)
  · have hworker := workerEvents_run hrun
    exact ⟨StorageWorker.works history (workerEvents M lib workerThreads history es),
      StorageWorker.works_op hworker,
      (StorageWorker.works_statement hworker).trans (workerEvents_statement hrun),
      StorageWorker.sequential_run hworker⟩
  · obtain ⟨hall, hclosed⟩ := staged_stopped h.orderly hm
    exact ⟨hclosed.executed, fun ticket op phase hc => answered_of_exited h.orderly hall hc⟩
  · have hlength := runSteps_bounded (C := Forward) (I := Reached lib)
      (fun _ _ _ _ hi hstep => reached_step hi hstep)
      (fun _ _ _ he hi hstep => effort_forward hi he hstep) es' hes h hrun'
    have hdown' : ShuttingDown s'.main s'.signal :=
      runSteps_keeps (C := Forward) (I := fun u => ShuttingDown u.main u.signal)
        (fun _ _ _ he hi hstep => shuttingDown_step hi he hstep) es' hes hdown hrun'
    exact ⟨by omega, ended_of_quiescent (reached_run h hrun') hdown'⟩

/-- A request that is between its `find` and its `save` when the context is stopped. -/
def requestInFlight : List ApplicationEvent :=
  [.startSignals true, .worker .startClear, .worker (.startThread {}), .worker .initDone,
    .worker .startReturn, .createThread, .serverStarted,
    .network 0 (.request "1+2" ⟨0, 0⟩), .network 0 .submit, .network 0 .notify,
    .signalCaught, .signalNotify, .wake, .worker .check, .worker (.runJob .completed),
    .network 0 .receive, .ioStop, .network 0 .submit, .network 0 .notify, .worker .check,
    .worker (.runJob .completed), .network 0 .receive, .network 0 .respond, .network 0 .exit,
    .join, .joined, .worker .stopFlag, .worker .stopNotify, .worker .check, .worker .stopJoin,
    .signalStop, .signalJoin]

/-- It is answered, and both its jobs have been run when the service has stopped. -/
theorem graceful_shutdown_in_flight :
    ∃ s, (launch .empty).run .checked sampleProtocol 1 requestInFlight = some s ∧
      s.main = .ended ∧ s.responses = ["a: 3"] ∧
      (∀ (ticket : ℕ) (op : StorageOp), s.storage.calls[ticket]? ≠ some ⟨op, .threw⟩) ∧
      s.storage.accepted = s.storage.finished.map Finished.job := by
  have hend : ((launch .empty).run .checked sampleProtocol 1 requestInFlight).map
      (fun s => (s.main, s.responses)) = some (.ended, ["a: 3"]) := by
    decide +kernel
  obtain ⟨s, hrun, hs⟩ := Option.map_eq_some_iff.mp hend
  obtain ⟨hmain, hresponses⟩ := Prod.mk.inj hs
  obtain ⟨⟨hcalls, -⟩, -, -, hstopped, -⟩ :=
    graceful_shutdown .checked sampleProtocol 1 .empty requestInFlight s hrun
  refine ⟨s, hrun, hmain, hresponses, hcalls, (hstopped ?_).1⟩
  rw [hmain]
  trivial

end ServiceApplication

end ConsoleCalculator
