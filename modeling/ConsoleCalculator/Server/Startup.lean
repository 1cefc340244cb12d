import ConsoleCalculator.Server.AtomicService

/-!
# Starting the service

`ServiceApplication::run` up to `condition.wait`: `signal_handler.start()`, `storage->start()` and
`server.start()`, each of which waits for other threads or creates them. With the shutdown that
makes the whole life of the service.

* `Advance`: a step of a start, of a shutdown or of a request in flight. What the environment may do
  or not is left out: requests, signals, spurious wake-ups and the exceptions of
  `signal_handler.start()` and `server.start()`. The database may fail.
* `startEffort` is what the steps of the start still need beyond `effort`.

Results:
* `crewed_step`: how many network threads there are, and why the service stops.
* `effort_advance`, `settled_of_quiescent`: a start cannot go on for ever, and does not get stuck.
* **`requests_answered`**: left alone, the service answers every request it has picked up.
* **`service_settles`**: left alone, the service gets to wait for requests with all its threads, or
  to its end.
-/

namespace ConsoleCalculator

open Base RequestHandler TcpJsonServer

namespace ServiceApplication

/-! ## What a run has at each stage -/

/-- Before the main thread has left `condition.wait`. -/
def Up : MainPhase → Prop
  | .startingSignals | .startingStorage | .startingServer | .waiting => True
  | _ => False

/-- The threads of the service, and why it stops. -/
structure Crewed (workerThreads : Int32) (s : ServiceApplication) : Prop where
  crew : s.threads.length ≤ threadCount workerThreads
  full : s.main = .waiting ∨ (¬ Up s.main ∧ s.unwinding = false) →
    s.threads.length = threadCount workerThreads
  present : Up s.main → s.ioStopped = false ∧ ∀ t ∈ s.threads, t ≠ .exited
  listening : s.main ≠ .startingSignals ∧ s.main ≠ .ended → s.signal ≠ .absent
  reason : ¬ Up s.main → s.unwinding = true ∨ s.stopping = true

section Crewed

variable {M : CalculatorMath} {lib : Protocol} {workerThreads : Int32}
  {s s' : ServiceApplication}

theorem crewed_launch (workerThreads : Int32) (history : OperationHistory) :
    Crewed workerThreads (launch history) :=
  ⟨Nat.zero_le _, by simp [launch, Up], fun _ => ⟨rfl, by simp [launch]⟩, fun h => absurd rfl h.1,
    fun h => absurd trivial h⟩

/-- What a network thread leaves alone. -/
theorem network_frame {i : ℕ} {e : NetworkEvent} (h : NetworkMove M lib s i e s') :
    s'.main = s.main ∧ s'.threads.length = s.threads.length ∧ s'.ioStopped = s.ioStopped ∧
      s'.signal = s.signal ∧ s'.unwinding = s.unwinding ∧ s'.stopping = s.stopping := by
  cases h with
  | requested | rejected | accepted | notified | received | responded | aborted | left =>
    simp [moveThread]

/-- The main thread goes on to stop things. -/
theorem Crewed.down (h : Crewed workerThreads s)
    (hm : s.main ≠ .startingSignals ∧ s.main ≠ .ended) {main : MainPhase} (hdown : ¬ Up main)
    {ioStopped unwinding : Bool} {storage : StorageWorker}
    (hreason : unwinding = true ∨ s.stopping = true)
    (hfull : unwinding = false → s.main = .waiting ∨ (¬ Up s.main ∧ s.unwinding = false)) :
    Crewed workerThreads
      { s with
        main := main, ioStopped := ioStopped, unwinding := unwinding, storage := storage } where
  crew := h.crew
  full hw := by
    rcases hw with hw | hw
    · obtain rfl : main = .waiting := hw
      exact absurd trivial hdown
    · exact h.full (hfull hw.2)
  present hup := absurd hup hdown
  listening _ := h.listening hm
  reason _ := hreason

/-- A network thread leaves only when the service goes down. -/
theorem crewed_network {i : ℕ} {e : NetworkEvent} (h : Crewed workerThreads s)
    (hmove : NetworkMove M lib s i e s') : Crewed workerThreads s' := by
  obtain ⟨hmain, hlength, hio, hsignal, hunwinding, hstopping⟩ := network_frame hmove
  refine ⟨hlength ▸ h.crew, ?_, fun hup => ?_, ?_, ?_⟩
  · rw [hmain, hlength, hunwinding]
    exact h.full
  · rw [hmain] at hup
    obtain ⟨hrunning, hpresent⟩ := h.present hup
    refine ⟨hio.trans hrunning, fun t ht => ?_⟩
    cases hmove with
    | notified | aborted => exact hpresent t ht
    | left hi hl =>
      rcases hl with hl | hl
      · simp [hrunning] at hl
      · rw [hl] at hup
        exact hup.elim
    | requested | rejected | accepted | received | responded =>
      rcases List.mem_or_eq_of_mem_set ht with ht | rfl
      · exact hpresent t ht
      · simp
  · rw [hmain, hsignal]
    exact h.listening
  · rw [hmain, hunwinding, hstopping]
    exact h.reason

theorem crewed_step {e : ApplicationEvent} (h : Crewed workerThreads s)
    (hstep : step M lib workerThreads s e = some s') : Crewed workerThreads s' := by
  cases (step_cases hstep).2 with
  | signalsStarted hm =>
    exact ⟨h.crew, by simp [Up], fun _ => h.present (hm ▸ trivial), by simp,
      fun hn => absurd trivial hn⟩
  | signalsFailed hm =>
    exact ⟨h.crew, by simp, fun hup => hup.elim, by simp, fun _ => Or.inl rfl⟩
  | caught hs => exact ⟨h.crew, h.full, h.present, by simp, h.reason⟩
  | signalled hs => exact ⟨h.crew, h.full, h.present, by simp, fun _ => Or.inr rfl⟩
  | worked | storageStarting | storageStopping =>
    exact ⟨h.crew, h.full, h.present, h.listening, h.reason⟩
  | storageStarted storage hw hm =>
    exact ⟨h.crew, by simp [Up], fun _ => h.present (hm ▸ trivial),
      fun _ => h.listening (by simp [hm]), fun hn => absurd trivial hn⟩
  | storageFailed storage hw hm => exact h.down (by simp [hm]) id (Or.inl rfl) (by simp)
  | threadCreated hm hn =>
    obtain ⟨hio, hpresent⟩ := h.present (hm ▸ trivial)
    refine ⟨by simpa using Nat.succ_le_of_lt hn, by simp [hm, Up],
      fun _ => ⟨hio, fun t ht => ?_⟩, h.listening, h.reason⟩
    rcases List.mem_append.mp ht with ht | ht
    · exact hpresent t ht
    · rw [List.mem_singleton.mp ht]
      simp
  | serverStarted hm hn =>
    exact ⟨h.crew, fun _ => hn, fun _ => h.present (hm ▸ trivial),
      fun _ => h.listening (by simp [hm]), fun hn => absurd trivial hn⟩
  | serverFailed hm => exact h.down (by simp [hm]) id (Or.inl rfl) (by simp)
  | woken hm hs => exact h.down (by simp [hm]) id (Or.inr hs) fun _ => Or.inl hm
  | storageStopped _ _ hm | ioStopped hm | threadJoined _ hm | serverStopped hm
  | signalsJoined hm =>
    exact h.down (by simp [hm]) id (h.reason (by simp [hm, Up])) fun hu =>
      Or.inr ⟨by simp [hm, Up], hu⟩
  | signalsStopping hm =>
    have hlistening := h.listening (by simp [hm])
    refine ⟨h.crew, fun hw => h.full (Or.inr ⟨by simp [hm, Up], ?_⟩), fun hup => hup.elim,
      fun _ => ?_, fun _ => h.reason (by simp [hm, Up])⟩
    · exact (hw.resolve_left (by simp)).2
    · show s.signal.killed ≠ .absent
      cases hs : s.signal with
      | absent => exact absurd hs hlistening
      | waiting | notifying | exited => simp [SignalPhase.killed]
  | network i e s' hmove => exact crewed_network h hmove

end Crewed

/-! ## Progress of a start -/

/-- A step of a start that works, as far as it is up to this process. -/
def Starts : ApplicationEvent → Prop
  | .startSignals true | .worker .startClear | .worker (.startThread _) | .worker .initDone
  | .worker .startReturn | .createThread | .serverStarted => True
  | _ => False

/-- A step of a start, of a shutdown or of a request. -/
def Advance (e : ApplicationEvent) : Prop := Forward e ∨ Starts e

/-- The initialization of the storage worker's thread, and the check that follows. -/
def initEffort : Option WorkerPhase → ℕ
  | some (.initializing _) => 2
  | _ => 0

/-- What `storage->start()` still needs. -/
def bootEffort (w : StorageWorker) : ℕ :=
  match w.control with
  | .idle => 4
  | .startCleared => 3
  | _ => initEffort w.worker

/-- What a start needs beyond `effort`: a thread that is created comes with two steps. -/
def startEffort (workerThreads : Int32) (s : ServiceApplication) : ℕ :=
  match s.main with
  | .startingSignals => 3 * threadCount workerThreads + 7
  | .startingStorage => 3 * threadCount workerThreads + 2 + bootEffort s.storage
  | .startingServer => 3 * (threadCount workerThreads - s.threads.length) + 1
  | _ => 0

section Progress

variable {M : CalculatorMath} {lib : Protocol} {workerThreads : Int32}
  {s s' : ServiceApplication}

/-- After a step of its own the thread is not in its initialization. -/
theorem initEffort_own {w w' : StorageWorker} {e : WorkerEvent} (he : OwnStep e)
    (hstep : w.step e = some w') : initEffort w'.worker = 0 := by
  cases StorageWorker.step_cases hstep with
  | initialized | initFailed | waited | left | took | woke | ran => rfl
  | rejected | accepted | notified | received | cleared | started | startReturned | flagged
  | stopNotified | joined => exact he.elim

theorem bootEffort_own {w w' : StorageWorker} {e : WorkerEvent} (he : OwnStep e)
    (hstep : w.step e = some w') : bootEffort w' ≤ bootEffort w := by
  have hcontrol := (own_frame he hstep).1.2
  have hinit := initEffort_own he hstep
  unfold bootEffort
  rw [hcontrol, hinit]
  cases w.control <;> simp

/-- The other steps leave the start alone. -/
theorem startEffort_forward {e : ApplicationEvent} (h : Reached lib s) (he : Forward e)
    (hstep : step M lib workerThreads s e = some s') :
    s'.startEffort workerThreads ≤ s.startEffort workerThreads := by
  cases (step_cases hstep).2 with
  | signalsStarted | signalsFailed | caught | threadCreated | serverStarted | serverFailed
  | storageStarted | storageFailed => exact he.elim
  | storageStarting e storage he' => rcases he' with rfl | ⟨replies, rfl⟩ <;> exact he.elim
  | signalled => exact Nat.le_refl _
  | worked e storage hown hw =>
    unfold startEffort
    have hboot := bootEffort_own hown hw
    cases s.main with
    | startingStorage =>
      simp only
      omega
    | startingSignals | startingServer | waiting | stoppingServer | joining | stoppingStorage
    | stoppingSignals | joiningSignals | ended => exact Nat.le_refl _
  | storageStopping e storage he' hw hm => simp [startEffort, hm]
  | storageStopped | woken | ioStopped | threadJoined | serverStopped | signalsStopping
  | signalsJoined => exact Nat.zero_le _
  | network i e s' hmove =>
    obtain ⟨hmain, hlength, -⟩ := network_frame hmove
    have hthread : s.threads ≠ [] := by
      intro hnil
      cases hmove with
      | requested _ _ hi | rejected _ _ hi | accepted _ _ hi | notified _ _ _ _ hi
      | received _ _ _ _ _ hi | responded _ hi | aborted _ hi | left hi => simp [hnil] at hi
    have hstaged := h.orderly.staged
    unfold startEffort
    rw [hmain, hlength]
    cases hm : s.main with
    | startingStorage =>
      rw [hm] at hstaged
      exact absurd hstaged.1 hthread
    | startingSignals | startingServer | waiting | stoppingServer | joining | stoppingStorage
    | stoppingSignals | joiningSignals | ended => exact Nat.le_refl _

theorem threadsEffort_append (threads : List NetworkPhase) (t : NetworkPhase) :
    threadsEffort (threads ++ [t]) = threadsEffort threads + threadEffort t := by
  induction threads with
  | nil => simp [threadsEffort]
  | cons first rest ih =>
    simp only [List.cons_append, threadsEffort, ih]
    omega

/-- **Start and shutdown cannot go on for ever.** -/
theorem effort_advance {e : ApplicationEvent} (h : Reached lib s) (he : Advance e)
    (hstep : step M lib workerThreads s e = some s') :
    s'.effort + s'.startEffort workerThreads < s.effort + s.startEffort workerThreads := by
  rcases he with he | he
  · have hless := effort_forward h he hstep
    have hstart := startEffort_forward h he hstep
    omega
  have hstaged := h.orderly.staged
  cases (step_cases hstep).2 with
  | signalsFailed | caught | signalled | serverFailed | woken | ioStopped | threadJoined
  | serverStopped | signalsStopping | signalsJoined | storageStopped | network => exact he.elim
  | storageStopping e storage he' => rcases he' with rfl | rfl <;> exact he.elim
  | signalsStarted hm =>
    rw [hm] at hstaged
    obtain ⟨-, history, hfresh⟩ := hstaged
    have hsignal : signalEffort .waiting = 0 := rfl
    have hboot : bootEffort s.storage = 4 := by
      rw [hfresh]
      rfl
    simp only [effort, startEffort, hm, mainEffort, hsignal, hboot]
    omega
  | worked e storage hown hw =>
    cases StorageWorker.step_cases hw with
    | initialized replies _ hinit =>
      obtain ⟨hm, hc⟩ := booting_of_initializing hstaged hinit
      simp only [effort, startEffort, hm, mainEffort, StorageWorker.effort,
        StorageWorker.phaseEffort, hinit, hc, bootEffort, initEffort]
      omega
    | initFailed replies _ hinit =>
      obtain ⟨hm, hc⟩ := booting_of_initializing hstaged hinit
      simp only [effort, startEffort, hm, mainEffort, StorageWorker.effort,
        StorageWorker.phaseEffort, hinit, hc, bootEffort, initEffort]
      omega
    | waited | left | took | woke | ran => exact he.elim
    | rejected | accepted | notified | received | cleared | started | startReturned | flagged
    | stopNotified | joined => exact hown.elim
  | storageStarting e storage he' hw hm =>
    cases StorageWorker.step_cases hw with
    | cleared hc =>
      simp only [effort, startEffort, hm, mainEffort, StorageWorker.effort,
        StorageWorker.controlEffort, hc, bootEffort]
      omega
    | started replies hc hnone =>
      simp only [effort, startEffort, hm, mainEffort, StorageWorker.effort,
        StorageWorker.controlEffort, hc, hnone, bootEffort, initEffort, StorageWorker.phaseEffort]
      omega
    | rejected | accepted | notified | received | initialized | initFailed | startReturned | waited
    | left | took | woke | ran | flagged | stopNotified | joined => simp at he'
  | storageStarted storage hw hm hf =>
    cases StorageWorker.step_cases hw with
    | startReturned hc hinit =>
      simp only [effort, startEffort, hm, mainEffort, StorageWorker.effort,
        StorageWorker.controlEffort, hc]
      omega
  | storageFailed storage hw hm hf =>
    cases StorageWorker.step_cases hw with
    | startReturned hc hinit =>
      simp only [effort, startEffort, hm, mainEffort, StorageWorker.effort,
        StorageWorker.controlEffort, hc]
      omega
  | threadCreated hm hn =>
    have hcreated := threadsEffort_append s.threads .idle
    have hidle : threadEffort .idle = 1 := rfl
    simp only [effort, startEffort, hm, mainEffort, List.length_append, List.length_singleton,
      hcreated, hidle]
    omega
  | serverStarted hm hn =>
    simp [effort, startEffort, hm, mainEffort]

/-- So many of their steps there can be. -/
theorem length_advance {es : List ApplicationEvent} (h : Reached lib s)
    (hadvance : ∀ e ∈ es, Advance e) (hrun : s.run M lib workerThreads es = some s') :
    es.length ≤ s.effort + s.startEffort workerThreads := by
  have hbound := runSteps_bounded (C := Advance) (I := Reached lib)
    (m := fun s => s.effort + s.startEffort workerThreads)
    (fun _ _ _ _ hi hstep => reached_step hi hstep)
    (fun _ _ _ he hi hstep => effort_advance hi he hstep) es hadvance h hrun
  omega

/-- None of them picks up a request. -/
theorem requestOf_advance {e : ApplicationEvent} (he : Advance e) : requestOf e = none := by
  cases e with
  | network i e =>
    cases e with
    | request json millis => exact he.elim False.elim False.elim
    | submit | notify | receive | respond | abort | exit => rfl
  | startSignals | signalCaught | signalNotify | worker | createThread | serverStarted
  | serverFails | wake | ioStop | join | joined | signalStop | signalJoin => rfl

end Progress

/-! ## Requests -/

/-- **Every request is answered.** From any state the service can be in, its own steps, those of a
start, of requests in flight and of a shutdown, are at most `effort` and `startEffort` many. Not
among them are new requests, signals, spurious wake-ups and failures of `signal_handler.start()` and
`server.start()`. When no step is left but those of a start, each request that was ever picked up
has been answered, once, unless the process was aborted. -/
theorem requests_answered (M : CalculatorMath) (lib : Protocol) (workerThreads : Int32)
    (history : OperationHistory) (es es' : List ApplicationEvent) (s s' : ServiceApplication)
    (hrun : (launch history).run M lib workerThreads es = some s)
    (hadvance : ∀ e ∈ es', Advance e) (hrun' : s.run M lib workerThreads es' = some s') :
    es'.length ≤ s.effort + s.startEffort workerThreads ∧
      ((∀ e, Forward e → s'.step M lib workerThreads e = none) → s'.aborted = false →
        ∃ w, AtomicService.run M lib history
            (served M lib workerThreads history (es ++ es')) = some w ∧
          Matches s' w ∧ w.taken = es.filterMap requestOf ∧
          (w.answered.map Prod.fst).Perm (List.range w.taken.length)) := by
  have h := reached_run (reached_launch lib history) hrun
  refine ⟨length_advance h hadvance hrun', fun hquiet halive => ?_⟩
  have hall := run_append hrun hrun'
  obtain ⟨w, hw, hm⟩ := served_of_run hall
  have haccounted := Workers.accounted_run (Workers.accounted_start _) hw
  have hidle := inProgress_of_idle hm (idle_of_quiescent (reached_run h hrun') halive hquiet)
  have hnone : es'.filterMap requestOf = [] :=
    List.filterMap_eq_nil_iff.mpr fun e he => requestOf_advance (hadvance e he)
  refine ⟨w, hw, hm, ?_, ?_⟩
  · rw [served_taken hall hw, List.filterMap_append, hnone, List.append_nil]
  · unfold Workers.Accounted at haccounted
    rwa [hidle, List.nil_append] at haccounted

/-- The service waits for requests and signals. -/
def resting (s : ServiceApplication) : Bool :=
  decide (s.main = .waiting) && !s.stopping && decide (s.signal = .waiting) && !s.ioStopped &&
    s.threads.all (fun | .idle => true | _ => false) &&
    match s.storage.worker with
    | some .waiting => true
    | _ => false

/-- Then none of its threads has anything to do. -/
theorem quiescent_of_resting {M : CalculatorMath} {lib : Protocol} {workerThreads : Int32}
    {s : ServiceApplication} (h : s.resting = true) :
    ∀ e, Forward e → s.step M lib workerThreads e = none := by
  simp only [resting, Bool.and_eq_true, decide_eq_true_eq, Bool.not_eq_true', List.all_eq_true] at h
  obtain ⟨⟨⟨⟨⟨hmain, hstopping⟩, hsignal⟩, hio⟩, hthreads⟩, hworker⟩ := h
  have hwaiting : s.storage.worker = some .waiting := by
    split at hworker
    · assumption
    · cases hworker
  intro e he
  refine Option.eq_none_iff_forall_ne_some.mpr fun s' hstep => ?_
  cases (step_cases hstep).2 with
  | signalsStarted | signalsFailed | caught | threadCreated | serverStarted | serverFailed
  | storageStarted | storageFailed => exact he
  | storageStarting e storage he' => rcases he' with rfl | ⟨replies, rfl⟩ <;> exact he
  | signalled hs => exact absurd (hsignal.symm.trans hs) (by simp)
  | woken hm hs => exact absurd (hstopping.symm.trans hs) (by simp)
  | storageStopping _ _ _ _ hm | storageStopped _ _ hm | ioStopped hm | threadJoined _ hm
  | serverStopped hm | signalsStopping hm | signalsJoined hm =>
    exact absurd (hmain.symm.trans hm) (by simp)
  | worked e storage hown hw =>
    cases e with
    | check | runJob => simp [StorageWorker.step, hwaiting] at hw
    | initDone | spuriousWake => exact he
    | submit | notifyOne | getFuture | startClear | startThread | startReturn | stopFlag
    | stopNotify | stopJoin => exact hown
  | network i e s' hmove =>
    cases hmove with
    | requested => exact he
    | rejected _ _ hi | accepted _ _ hi | notified _ _ _ _ hi | received _ _ _ _ _ hi
    | responded _ hi | aborted _ hi => exact absurd (hthreads _ (List.mem_of_getElem? hi)) (by simp)
    | left hi hl => rcases hl with hl | hl <;> simp_all

/-- The request is answered after these steps, and nothing is left to do. -/
theorem requests_answered_one :
    ∃ s s' w, (launch .empty).run .checked sampleProtocol 1 oneRequest = some s ∧
      s.run .checked sampleProtocol 1 oneResponse = some s' ∧
      oneResponse.length ≤ s.effort + s.startEffort 1 ∧
      AtomicService.run .checked sampleProtocol .empty
        (served .checked sampleProtocol 1 .empty (oneRequest ++ oneResponse)) = some w ∧
      s'.responses = ["a: 3"] ∧ (w.answered.map Prod.fst).Perm [0] := by
  have hend : (((launch .empty).run .checked sampleProtocol 1 oneRequest).bind fun s =>
      s.run .checked sampleProtocol 1 oneResponse).map
        (fun s => (s.resting, s.aborted, s.responses)) = some (true, false, ["a: 3"]) := by
    decide +kernel
  obtain ⟨s', hboth, hs⟩ := Option.map_eq_some_iff.mp hend
  obtain ⟨s, hrun, hrun'⟩ := Option.bind_eq_some_iff.mp hboth
  obtain ⟨hresting, hs⟩ := Prod.mk.inj hs
  obtain ⟨halive, hresponses⟩ := Prod.mk.inj hs
  have hadvance : ∀ e ∈ oneResponse, Advance e := by
    simp [oneResponse, Advance, Forward]
  obtain ⟨hlength, hdone⟩ := requests_answered _ _ _ _ _ _ s s' hrun hadvance hrun'
  obtain ⟨w, hw, -, htaken, hperm⟩ := hdone (quiescent_of_resting hresting) halive
  refine ⟨s, s', w, hrun, hrun', hlength, hw, hresponses, ?_⟩
  rwa [htaken] at hperm

/-! ## Where it ends -/

/-- The service waits for requests and signals, and nothing is left to do. -/
structure Ready (workerThreads : Int32) (s : ServiceApplication) : Prop where
  waiting : s.main = .waiting
  threads : s.threads = List.replicate (threadCount workerThreads) .idle
  running : s.ioStopped = false ∧ s.stopping = false
  signal : s.signal = .waiting
  worker : s.storage.worker = some .waiting
  executed : s.storage.accepted = s.storage.finished.map Finished.job

section Quiescent

variable {M : CalculatorMath} {lib : Protocol} {workerThreads : Int32} {s : ServiceApplication}
  (h : Reached lib s) (hcrew : Crewed workerThreads s) (halive : s.aborted = false)
  (hquiet : ∀ e, Advance e → step M lib workerThreads s e = none)

include halive hquiet

theorem act_quiescent (e : ApplicationEvent) (he : Advance e) :
    act M lib workerThreads s e = none := by
  have hnone := hquiet e he
  rwa [step, if_neg (by simp [halive])] at hnone

include h in
/-- `storage->start()` does not get stuck. -/
theorem not_startingStorage : s.main ≠ .startingStorage := by
  intro hm
  have hq := act_quiescent halive hquiet
  have hstaged := h.orderly.staged
  rw [hm] at hstaged
  rcases hstaged.2.thread with ⟨hnone, hc | hc⟩ | ⟨hsome, hc⟩
  · exact absurd (hq (.worker .startClear) (Or.inr trivial))
      (by simp [act, workerStep, StorageWorker.step, hc, hm])
  · exact absurd (hq (.worker (.startThread {})) (Or.inr trivial))
      (by simp [act, workerStep, StorageWorker.step, hc, hnone, hm])
  · obtain ⟨phase, hw⟩ := Option.ne_none_iff_exists'.mp hsome
    cases phase with
    | initializing replies =>
      cases ha : replies.attempt s.storage.storage.postgresRepository with
      | ok storage =>
        exact absurd (hq (.worker .initDone) (Or.inr trivial))
          (by simp [act, workerStep, StorageWorker.step, hw, ha])
      | error e =>
        exact absurd (hq (.worker .initDone) (Or.inr trivial))
          (by simp [act, workerStep, StorageWorker.step, hw, ha])
    | checking | waiting | running | exited | failed =>
      exact absurd (hq (.worker .startReturn) (Or.inr trivial))
        (by simp [act, workerStep, StorageWorker.step, hc, hw, hm])

include hcrew in
/-- Nor does `server.start()`. -/
theorem not_startingServer : s.main ≠ .startingServer := by
  intro hm
  have hq := act_quiescent halive hquiet
  rcases Nat.lt_or_eq_of_le hcrew.crew with hn | hn
  · exact absurd (hq .createThread (Or.inr trivial)) (by simp [act, hm, hn])
  · exact absurd (hq .serverStarted (Or.inr trivial)) (by simp [act, hm, hn])

include h hcrew

/-- A service that waits, and that nothing has told to stop, is ready. -/
theorem ready_of_waiting (hm : s.main = .waiting) (hsignal : s.signal = .waiting) :
    Ready workerThreads s := by
  have hforward : ∀ e, Forward e → step M lib workerThreads s e = none := fun e he =>
    hquiet e (Or.inl he)
  have hq : ∀ e, Forward e → act M lib workerThreads s e = none := fun e he =>
    act_quiescent halive hquiet e (Or.inl he)
  have hav : Available s.storage := by
    have hstaged := h.orderly.staged
    rwa [hm] at hstaged
  obtain ⟨hio, hpresent⟩ := hcrew.present (hm ▸ trivial)
  have hidle : ∀ t ∈ s.threads, t = .idle := fun t ht =>
    (idle_of_quiescent h halive hforward t ht).resolve_right (hpresent t ht)
  have hworker := worker_quiescent h hq hav
  refine ⟨hm, ?_, ⟨hio, ?_⟩, hsignal, ?_, ?_⟩
  · rw [← hcrew.full (Or.inl hm)]
    exact List.eq_replicate_of_mem hidle
  · exact Bool.eq_false_iff.mpr fun hs => absurd (hq .wake trivial) (by simp [act, hm, hs])
  · rcases hav.entered with hw | hw | ⟨job, hw⟩ | hw
    · exact absurd (hworker .check trivial) (by simp [StorageWorker.step, hw])
    · exact hw
    · exact absurd (hworker (.runJob .completed) trivial) (by simp [StorageWorker.step, hw])
    · have hstopping := (h.orderly.consistent.drained hw).1
      exact absurd (hav.running.symm.trans hstopping) (by simp)
  · exact StorageWorker.finished_of_quiescent h.orderly.consistent hav.entered hworker

/-- **Start and shutdown do not get stuck**: when none of their steps is possible the service is
ready, or `run` has returned. -/
theorem settled_of_quiescent : Ready workerThreads s ∨ s.main = .ended := by
  have hended : ShuttingDown s.main s.signal → s.main = .ended := fun hdown =>
    (ended_of_quiescent h hdown fun e he => hquiet e (Or.inl he)).resolve_right (by simp [halive])
  cases hm : s.main with
  | startingSignals =>
    exact absurd (act_quiescent halive hquiet (.startSignals true) (Or.inr trivial))
      (by simp [act, hm])
  | startingStorage => exact absurd hm (not_startingStorage h halive hquiet)
  | startingServer => exact absurd hm (not_startingServer hcrew halive hquiet)
  | waiting =>
    rw [hm] at hended
    cases hs : s.signal with
    | absent => exact absurd hs (hcrew.listening (by simp [hm]))
    | waiting => exact Or.inl (ready_of_waiting h hcrew halive hquiet hm hs)
    | notifying => exact absurd (hended (Or.inl hs)) (by simp)
    | exited => exact absurd (hended (Or.inr hs)) (by simp)
  | stoppingServer | joining | stoppingStorage | stoppingSignals | joiningSignals =>
    rw [hm] at hended
    exact absurd (hended trivial) (by simp)
  | ended => exact Or.inr rfl

end Quiescent

/-- **The service settles.** From any state it can be in, its own steps, those of a start, of
requests in flight and of a shutdown, are at most `effort` and `startEffort` many. When none of them
is left, and the process was not aborted, the service is ready, with `max(1, worker_threads)`
threads that wait for requests and every accepted job run, or `run` has returned; and it returns
only if it was told to stop or if an exception left it. -/
theorem service_settles (M : CalculatorMath) (lib : Protocol) (workerThreads : Int32)
    (history : OperationHistory) (es es' : List ApplicationEvent) (s s' : ServiceApplication)
    (hrun : (launch history).run M lib workerThreads es = some s)
    (hadvance : ∀ e ∈ es', Advance e) (hrun' : s.run M lib workerThreads es' = some s') :
    es'.length ≤ s.effort + s.startEffort workerThreads ∧
      ((∀ e, Advance e → s'.step M lib workerThreads e = none) → s'.aborted = false →
        Ready workerThreads s' ∨
          (s'.main = .ended ∧ (s'.unwinding = true ∨ s'.stopping = true))) := by
  have h := reached_run (reached_launch lib history) hrun
  refine ⟨length_advance h hadvance hrun', fun hquiet halive => ?_⟩
  have hcrew : Crewed workerThreads s' :=
    runSteps_invariant (fun _ _ _ hi hstep => crewed_step hi hstep) _
      (crewed_launch workerThreads history) (run_append hrun hrun')
  refine (settled_of_quiescent (reached_run h hrun') hcrew halive hquiet).imp_right fun hm => ?_
  exact ⟨hm, hcrew.reason (by simp [hm, Up])⟩

/-- A resting service has nothing to start either. -/
theorem advance_of_resting {M : CalculatorMath} {lib : Protocol} {workerThreads : Int32}
    {s : ServiceApplication} (h : s.resting = true) :
    ∀ e, Advance e → s.step M lib workerThreads e = none := by
  rintro e (he | he)
  · exact quiescent_of_resting h e he
  simp only [resting, Bool.and_eq_true, decide_eq_true_eq] at h
  obtain ⟨⟨⟨⟨⟨hmain, -⟩, -⟩, -⟩, -⟩, hworker⟩ := h
  refine Option.eq_none_iff_forall_ne_some.mpr fun s' hstep => ?_
  cases (step_cases hstep).2 with
  | signalsStarted hm | storageStarting _ _ _ _ hm | storageStarted _ _ hm | storageFailed _ _ hm
  | threadCreated hm | serverStarted hm => exact absurd (hmain.symm.trans hm) (by simp)
  | worked e storage hown hw =>
    cases StorageWorker.step_cases hw with
    | initialized _ _ hinit | initFailed _ _ hinit => simp [hinit] at hworker
    | waited | left | took | woke | ran => exact he
    | rejected | accepted | notified | received | cleared | started | startReturned | flagged
    | stopNotified | joined => exact hown
  | storageStopping e storage he' => rcases he' with rfl | rfl <;> exact he
  | signalsFailed | caught | signalled | serverFailed | woken | ioStopped | threadJoined
  | serverStopped | signalsStopping | signalsJoined | storageStopped | network => exact he

/-- A start with two network threads. -/
def startTwoThreads : List ApplicationEvent :=
  [.startSignals true, .worker .startClear, .worker (.startThread {}), .worker .initDone,
    .worker .startReturn, .createThread, .worker .check, .createThread, .serverStarted]

theorem service_settles_twoThreads :
    ∃ s, (launch .empty).run .checked sampleProtocol 2 startTwoThreads = some s ∧ Ready 2 s ∧
      startTwoThreads.length ≤ (launch .empty).effort + (launch .empty).startEffort 2 := by
  have hend : ((launch .empty).run .checked sampleProtocol 2 startTwoThreads).map
      (fun s => (s.main, s.resting, s.aborted)) = some (.waiting, true, false) := by
    decide +kernel
  obtain ⟨s, hrun, hs⟩ := Option.map_eq_some_iff.mp hend
  obtain ⟨hmain, hrest⟩ := Prod.mk.inj hs
  obtain ⟨hresting, halive⟩ := Prod.mk.inj hrest
  obtain ⟨hlength, hsettled⟩ := service_settles .checked sampleProtocol 2 .empty []
    startTwoThreads _ s rfl (by simp [startTwoThreads, Advance, Forward, Starts]) hrun
  refine ⟨s, hrun, (hsettled (advance_of_resting hresting) halive).resolve_right ?_, hlength⟩
  simp [hmain]

end ServiceApplication

end ConsoleCalculator
