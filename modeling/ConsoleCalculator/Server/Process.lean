import ConsoleCalculator.Server.SignalHandler
import ConsoleCalculator.Server.Startup

/-!
# The process

`ServiceApplication::run` with the signal handler as it is (`SignalHandler`), where `Application`
has the phase of its thread only. The two move together: what the main thread does in
`signal_handler.start()` and `stop()` are steps of the handler's owner, and the callback of the
handler sets `stopping`.

* `phase`: what `SignalPhase` says of a handler. A thread that has not decided to call back is
  waiting as long as `running_` is set, and as good as gone once `stop` has cleared it.
* `main` (`server/main.cpp`) returns 1 if an exception leaves `run`, and what `run` returns
  otherwise (`exitCode`).

Results:
* `linked_step`: the phase of the application is that of the handler, in every state.
* **`exit_accounted`**: the process exits with 0 only if it was sent a signal, and exits in either
  way only after every request was answered and every thread joined.
* **`signal_ends_service`**: a signal that is sent to the process, whenever that is, ends it.
-/

namespace ConsoleCalculator

open Base RequestHandler ServiceApplication

/-- What the application has of a handler. -/
def SignalHandler.phase (h : SignalHandler) : SignalPhase :=
  match h.thread with
  | none => .absent
  | some .exited => .exited
  | some (.claimed _) => .notifying
  | some .calling => .notifying
  | some _ => if h.running then .waiting else .exited

/-- The step of the application that a step of the handler is. -/
def SignalHandler.applicationEvent (h : SignalHandler) : SignalEvent → Option ApplicationEvent
  | .block ok => if ok then none else some (.startSignals false)
  | .create ok => some (.startSignals ok)
  | .recheck => if h.running then some .signalCaught else none
  | .callbackReturns => some .signalNotify
  | .stopExchange => some .signalStop
  | .join => some .signalJoin
  | _ => none

structure ServiceProcess where
  application : ServiceApplication
  handler : SignalHandler

inductive ProcessEvent where
  /-- A step of a thread that is not one of the signal handler. -/
  | thread (e : ApplicationEvent)
  | signal (e : SignalEvent)

namespace ServiceProcess

/-- The process at the start of `run`. -/
def launch (history : OperationHistory) : ServiceProcess := ⟨.launch history, .construct⟩

/-- The event is one of the signal handler. -/
def ofHandler : ApplicationEvent → Bool
  | .startSignals _ | .signalCaught | .signalNotify | .signalStop | .signalJoin => true
  | _ => false

section Step

variable (M : CalculatorMath) (lib : Protocol) (workerThreads : Int32)

/-- What an event does, `none` if it cannot happen. -/
def step (p : ServiceProcess) : ProcessEvent → Option ServiceProcess
  | .thread e =>
    if ofHandler e then none
    else (p.application.step M lib workerThreads e).map fun s => { p with application := s }
  | .signal e =>
    if p.application.aborted ∨ (e = .startExchange ∧ p.application.main ≠ .startingSignals) then
      none
    else do
      let handler ← p.handler.step e
      match p.handler.applicationEvent e with
      | none => some { p with handler := handler }
      | some a =>
        let application ← p.application.step M lib workerThreads a
        some ⟨application, handler⟩

/-- A run from `p`. -/
def run (p : ServiceProcess) (es : List ProcessEvent) : Option ServiceProcess :=
  runSteps (step M lib workerThreads) p es

/-- The steps, with what must hold for them: the inversion of `step`. -/
inductive Step (p : ServiceProcess) : ProcessEvent → ServiceProcess → Prop
  | moved (e : ApplicationEvent) (s : ServiceApplication) (he : ofHandler e = false)
      (hs : p.application.step M lib workerThreads e = some s) :
      Step p (.thread e) { p with application := s }
  | silent (e : SignalEvent) (h : SignalHandler)
      (hstart : e = .startExchange → p.application.main = .startingSignals)
      (hh : p.handler.step e = some h) (he : p.handler.applicationEvent e = none) :
      Step p (.signal e) { p with handler := h }
  | together (e : SignalEvent) (a : ApplicationEvent) (s : ServiceApplication) (h : SignalHandler)
      (hh : p.handler.step e = some h) (he : p.handler.applicationEvent e = some a)
      (hs : p.application.step M lib workerThreads a = some s) : Step p (.signal e) ⟨s, h⟩

end Step

section Cases

variable {M : CalculatorMath} {lib : Protocol} {workerThreads : Int32} {p p' : ServiceProcess}
  {e : ProcessEvent}

theorem step_cases (hstep : step M lib workerThreads p e = some p') :
    Step M lib workerThreads p e p' := by
  cases e with
  | thread e =>
    obtain ⟨he, hstep⟩ := Option.ite_none_left_eq_some.mp hstep
    obtain ⟨s, hs, rfl⟩ := Option.map_eq_some_iff.mp hstep
    exact .moved e s (Bool.eq_false_iff.mpr he) hs
  | signal e =>
    obtain ⟨hnot, hstep⟩ := Option.ite_none_left_eq_some.mp hstep
    obtain ⟨h, hh, hstep⟩ := Option.bind_eq_some_iff.mp hstep
    split at hstep
    · rename_i he
      obtain rfl := Option.some.inj hstep
      refine .silent e h (fun hstart => ?_) hh he
      by_contra hmain
      exact hnot (Or.inr ⟨hstart, hmain⟩)
    · rename_i a he
      obtain ⟨s, hs, hstep⟩ := Option.bind_eq_some_iff.mp hstep
      obtain rfl := Option.some.inj hstep
      exact .together e a s h hh he hs

end Cases

/-! ## The application and the handler -/

/-- The step of the application that a step is. -/
def applicationEvent (p : ServiceProcess) : ProcessEvent → Option ApplicationEvent
  | .thread e => some e
  | .signal e => p.handler.applicationEvent e

/-- The step of the handler that a step is. -/
def signalEvent : ProcessEvent → Option SignalEvent
  | .thread _ => none
  | .signal e => some e

section Projections

variable {M : CalculatorMath} {lib : Protocol} {workerThreads : Int32}

/-- A run of the process is one of the application. -/
theorem application_simulation : Simulation (step M lib workerThreads)
    (ServiceApplication.step M lib workerThreads) applicationEvent
    fun p s => p.application = s := by
  refine Simulation.of_step fun {p s e p'} hs hstep => ?_
  subst hs
  cases step_cases hstep with
  | moved e s he hs => exact Or.inr ⟨e, s, rfl, hs, rfl⟩
  | silent e h hstart hh he => exact Or.inl ⟨he, rfl⟩
  | together e a s h hh he hs => exact Or.inr ⟨a, s, he, hs, rfl⟩

/-- And one of the handler. -/
theorem handler_simulation : Simulation (step M lib workerThreads) SignalHandler.step
    (fun _ => signalEvent) fun p h => p.handler = h := by
  refine Simulation.of_step fun {p h e p'} hh hstep => ?_
  subst hh
  cases step_cases hstep with
  | moved e s he hs => exact Or.inl ⟨rfl, rfl⟩
  | silent e h hstart hh he => exact Or.inr ⟨e, h, rfl, hh, rfl⟩
  | together e a s h hh he hs => exact Or.inr ⟨e, h, rfl, hh, rfl⟩

end Projections

/-! ## The two together -/

/-- Where the owner of the handler is when the main thread is in a phase. -/
def OwnerAt : MainPhase → SignalHandler → Prop
  | .startingSignals, h => h.thread = none ∧
    ((h.owner = .idle ∧ h.running = false ∧ h.blocked = false) ∨
      (h.owner = .starting ∧ h.blocked = false) ∨ h.owner = .creating)
  | .joiningSignals, h => h.thread ≠ none ∧ ((∃ b, h.owner = .stopping b) ∨ h.owner = .joining)
  | .ended, h => h.thread = none ∧ h.owner = .idle
  | _, h => h.thread ≠ none ∧ h.owner = .idle

/-- What holds between the application and its signal handler. -/
structure Linked (p : ServiceProcess) : Prop where
  tidy : p.handler.Tidy
  alive : p.handler.terminated = false
  owner : OwnerAt p.application.main p.handler
  phase : p.application.main ≠ .ended → p.application.signal = p.handler.phase
  silent : p.application.main = .ended → p.application.signal ≠ .notifying
  called : p.handler.thread = some .calling ∨ p.application.stopping = true →
    p.handler.callbacks ≠ []

section Linked

variable {M : CalculatorMath} {lib : Protocol} {workerThreads : Int32} {p p' : ServiceProcess}

theorem linked_launch (history : OperationHistory) : Linked (launch history) where
  tidy := SignalHandler.tidy_construct
  alive := rfl
  owner := ⟨rfl, Or.inl ⟨rfl, rfl, rfl⟩⟩
  phase _ := rfl
  silent := by simp [launch, ServiceApplication.launch]
  called := by simp [launch, ServiceApplication.launch, SignalHandler.construct]

/-- The signal thread exists, and the main thread is elsewhere. -/
def Elsewhere : MainPhase → Prop
  | .startingSignals | .joiningSignals | .ended => False
  | _ => True

theorem ownerAt_elsewhere {main : MainPhase} (h : Elsewhere main) (handler : SignalHandler) :
    OwnerAt main handler ↔ handler.thread ≠ none ∧ handler.owner = .idle := by
  cases main with
  | startingSignals | joiningSignals | ended => exact h.elim
  | startingStorage | startingServer | waiting | stoppingServer | joining | stoppingStorage
  | stoppingSignals => exact Iff.rfl

/-- What the other threads leave alone. -/
theorem moved_frame {s s' : ServiceApplication} {e : ApplicationEvent} (he : ofHandler e = false)
    (hstep : s.step M lib workerThreads e = some s') :
    s'.signal = s.signal ∧ s'.stopping = s.stopping ∧
      (s'.main = s.main ∨ (Elsewhere s.main ∧ Elsewhere s'.main)) := by
  cases (ServiceApplication.step_cases hstep).2 with
  | signalsStarted | signalsFailed | caught | signalled | signalsStopping | signalsJoined =>
    simp [ofHandler] at he
  | worked | storageStarting | storageStopping | threadCreated => exact ⟨rfl, rfl, Or.inl rfl⟩
  | storageStarted _ _ hm | storageFailed _ _ hm | storageStopped _ _ hm | serverStarted hm
  | serverFailed hm | woken hm | ioStopped hm | threadJoined _ hm | serverStopped hm =>
    exact ⟨rfl, rfl, Or.inr ⟨hm ▸ trivial, trivial⟩⟩
  | network i e s' hmove =>
    obtain ⟨hmain, -, -, hsignal, -, hstopping⟩ := network_frame hmove
    exact ⟨hsignal, hstopping, Or.inl hmain⟩

theorem Linked.moved (h : Linked p) {s : ServiceApplication} {e : ApplicationEvent}
    (he : ofHandler e = false) (hstep : p.application.step M lib workerThreads e = some s) :
    Linked { p with application := s } := by
  obtain ⟨hsignal, hstopping, hmain⟩ := moved_frame he hstep
  refine ⟨h.tidy, h.alive, ?_, fun hne => hsignal.trans (h.phase ?_), fun hend => ?_, ?_⟩
  · rcases hmain with hmain | ⟨hfrom, hto⟩
    · exact hmain ▸ h.owner
    · exact (ownerAt_elsewhere hto _).mpr ((ownerAt_elsewhere hfrom _).mp h.owner)
  · rcases hmain with hmain | ⟨hfrom, -⟩
    · exact hmain ▸ hne
    · rintro hend
      rw [hend] at hfrom
      exact hfrom
  · rcases hmain with hmain | ⟨-, hto⟩
    · rw [hsignal]
      exact h.silent (hmain.symm.trans hend)
    · have hend : s.main = .ended := hend
      rw [hend] at hto
      exact hto.elim
  · rw [hstopping]
    exact h.called

/-- The main thread is in `signal_handler.start()` when the owner is. -/
theorem Linked.starting (h : Linked p)
    (ho : p.handler.owner = .starting ∨ p.handler.owner = .creating) :
    p.application.main = .startingSignals ∧ p.handler.thread = none := by
  have howner := h.owner
  cases hm : p.application.main with
  | startingSignals =>
    rw [hm] at howner
    exact ⟨rfl, howner.1⟩
  | joiningSignals =>
    rw [hm] at howner
    rcases howner.2 with ⟨b, hb⟩ | hb <;> simp [hb] at ho
  | startingStorage | startingServer | waiting | stoppingServer | joining | stoppingStorage
  | stoppingSignals | ended =>
    rw [hm] at howner
    simp [howner.2] at ho

/-- And in `signal_handler.stop()`. -/
theorem Linked.stopping (h : Linked p)
    (ho : (∃ b, p.handler.owner = .stopping b) ∨ p.handler.owner = .joining) :
    p.application.main = .joiningSignals ∧ p.handler.thread ≠ none := by
  have howner := h.owner
  cases hm : p.application.main with
  | startingSignals =>
    rw [hm] at howner
    rcases howner.2 with ⟨hb, -⟩ | ⟨hb, -⟩ | hb <;> simp [hb] at ho
  | joiningSignals =>
    rw [hm] at howner
    exact ⟨rfl, howner.1⟩
  | startingStorage | startingServer | waiting | stoppingServer | joining | stoppingStorage
  | stoppingSignals | ended =>
    rw [hm] at howner
    simp [howner.2] at ho

/-- The signal thread exists until the main thread has joined it. -/
theorem Linked.not_ended (h : Linked p) (hthread : p.handler.thread ≠ none) :
    p.application.main ≠ .ended := by
  intro hm
  have howner := h.owner
  rw [hm] at howner
  exact hthread howner.1

/-- The signal thread moves. -/
theorem OwnerAt.thread {main : MainPhase} {h h' : SignalHandler} (hat : OwnerAt main h)
    (hthread : h.thread ≠ none) (hthread' : h'.thread ≠ none) (howner : h'.owner = h.owner) :
    OwnerAt main h' := by
  cases main with
  | startingSignals | ended => exact absurd hat.1 hthread
  | joiningSignals | startingStorage | startingServer | waiting | stoppingServer | joining
  | stoppingStorage | stoppingSignals => exact ⟨hthread', howner ▸ hat.2⟩

/-- The signal thread moves, and nobody sees it. -/
theorem Linked.thread (h : Linked p) {handler : SignalHandler} (ht : handler.Tidy)
    (halive : handler.terminated = false) (hthread : p.handler.thread ≠ none)
    (hthread' : handler.thread ≠ none) (howner : handler.owner = p.handler.owner)
    (hphase : handler.phase = p.handler.phase)
    (hcalled : handler.thread = some .calling ∨ p.application.stopping = true →
      handler.callbacks ≠ []) : Linked { p with handler := handler } :=
  ⟨ht, halive, OwnerAt.thread h.owner hthread hthread' howner,
    fun hm => (h.phase hm).trans hphase.symm, h.silent, hcalled⟩

/-- The owner moves within `start` or `stop`. -/
theorem Linked.owner_moved (h : Linked p) {handler : SignalHandler} (ht : handler.Tidy)
    (halive : handler.terminated = false) (howner : OwnerAt p.application.main handler)
    (hthread : handler.thread = p.handler.thread) (hphase : handler.phase = p.handler.phase)
    (hcallbacks : handler.callbacks = p.handler.callbacks) :
    Linked { p with handler := handler } where
  tidy := ht
  alive := halive
  owner := howner
  phase hm := (h.phase hm).trans hphase.symm
  silent := h.silent
  called := by
    show handler.thread = _ ∨ _ → handler.callbacks ≠ []
    rw [hthread, hcallbacks]
    exact h.called

/-- A step of the handler that the application does not see. -/
theorem Linked.handler_moved (h : Linked p) {e : SignalEvent} {handler : SignalHandler}
    (hstart : e = .startExchange → p.application.main = .startingSignals)
    (hstep : p.handler.step e = some handler) (he : p.handler.applicationEvent e = none) :
    Linked { p with handler := handler } := by
  have ht := SignalHandler.tidy_step h.tidy hstep
  have hcallbacks : p.application.stopping = true → p.handler.callbacks ≠ [] := fun hs =>
    h.called (Or.inr hs)
  cases (SignalHandler.step_cases hstep).2 with
  | alreadyRunning ho hr => exact h
  | startBegun ho hr =>
    have hm := hstart rfl
    have howner := h.owner
    rw [hm] at howner
    have hblocked : p.handler.blocked = false := by
      rcases howner.2 with ⟨-, -, hb⟩ | ⟨ho', -⟩ | ho'
      · exact hb
      · simp [ho] at ho'
      · simp [ho] at ho'
    refine h.owner_moved ht h.alive ?_ rfl (by simp [SignalHandler.phase, howner.1]) rfl
    rw [hm]
    exact ⟨howner.1, Or.inr (Or.inl ⟨rfl, hblocked⟩)⟩
  | maskSet ho =>
    obtain ⟨hm, hnone⟩ := h.starting (Or.inl ho)
    refine h.owner_moved ht h.alive ?_ rfl rfl rfl
    rw [hm]
    exact ⟨hnone, Or.inr (Or.inr rfl)⟩
  | killed wasRunning ho =>
    obtain ⟨hm, hsome⟩ := h.stopping (Or.inl ⟨wasRunning, ho⟩)
    refine h.owner_moved ht h.alive ?_ rfl rfl rfl
    rw [hm]
    exact ⟨hsome, Or.inr rfl⟩
  | sent signal hb =>
    refine h.owner_moved ht h.alive ?_ rfl rfl rfl
    have howner := h.owner
    cases hm : p.application.main with
    | startingSignals | startingStorage | startingServer | waiting | stoppingServer | joining
    | stoppingStorage | stoppingSignals | joiningSignals | ended =>
      rw [hm] at howner
      exact howner
  | goneOn hthread hr | left hthread hr | dropped _ _ hthread hr =>
    exact h.thread ht h.alive (by simp [hthread]) (by simp) rfl
      (by simp [SignalHandler.phase, hthread, hr]) (by simpa using hcallbacks)
  | took _ hthread | tookKill hthread | retried hthread =>
    exact h.thread ht h.alive (by simp [hthread]) (by simp) rfl
      (by simp [SignalHandler.phase, hthread]) (by simpa using hcallbacks)
  | cleared signal hthread =>
    exact h.thread ht h.alive (by simp [hthread]) (by simp) rfl
      (by simp [SignalHandler.phase, hthread]) (by simp)
  | claimed signal own hthread hr => simp [SignalHandler.applicationEvent, hr] at he
  | maskFailed | created | terminated | createFailed | stopBegun | nothingToJoin | joined
  | returned => simp [SignalHandler.applicationEvent] at he

/-- `running_` is cleared: a thread that has not decided is as good as gone. -/
theorem phase_stopped (h : SignalHandler) (owner : OwnerPhase) :
    ({ h with running := false, owner := owner } : SignalHandler).phase = h.phase.killed := by
  cases hthread : h.thread with
  | none => simp [SignalHandler.phase, hthread, SignalPhase.killed]
  | some t =>
    cases t with
    | checking | waiting | woken =>
      cases hr : h.running <;> simp [SignalHandler.phase, hthread, hr, SignalPhase.killed]
    | claimed | calling | exited => simp [SignalHandler.phase, hthread, SignalPhase.killed]

/-- `signal_handler.start()` throws, and `run` with it. -/
theorem Linked.startFailed (h : Linked p) {handler : SignalHandler} {s : ServiceApplication}
    (ht : handler.Tidy) (halive : handler.terminated = false) (howner : handler.owner = .idle)
    (hthread : p.handler.thread = none) (hthread' : handler.thread = none)
    (hcallbacks : handler.callbacks = p.handler.callbacks)
    (hs : p.application.step M lib workerThreads (.startSignals false) = some s) :
    Linked ⟨s, handler⟩ := by
  cases (ServiceApplication.step_cases hs).2 with
  | signalsFailed hm =>
    refine ⟨ht, halive, ⟨hthread', howner⟩, fun hne => absurd rfl hne, fun _ => ?_, ?_⟩
    · simp [h.phase (by simp [hm]), SignalHandler.phase, hthread]
    · rw [hthread', hcallbacks]
      exact fun hcalled => h.called (hcalled.imp_left nofun)

/-- A step of both. -/
theorem Linked.both_moved (h : Linked p) {e : SignalEvent} {a : ApplicationEvent}
    {s : ServiceApplication} {handler : SignalHandler} (hstep : p.handler.step e = some handler)
    (he : p.handler.applicationEvent e = some a)
    (hs : p.application.step M lib workerThreads a = some s) : Linked ⟨s, handler⟩ := by
  have ht := SignalHandler.tidy_step h.tidy hstep
  have happ := (ServiceApplication.step_cases hs).2
  cases (SignalHandler.step_cases hstep).2 with
  | maskFailed ho =>
    obtain rfl : .startSignals false = a := Option.some.inj he
    have hnone := (h.starting (Or.inl ho)).2
    exact h.startFailed ht h.alive rfl hnone hnone rfl hs
  | created ho hnone =>
    obtain rfl : .startSignals true = a := Option.some.inj he
    have hr := (h.tidy.starting (Or.inr ho)).1
    cases happ with
    | signalsStarted hm =>
      exact ⟨ht, h.alive, ⟨by simp, rfl⟩, fun _ => by simp [SignalHandler.phase, hr], by simp,
        by simpa using fun hstopping => h.called (Or.inr hstopping)⟩
  | terminated ho hsome => exact absurd (h.starting (Or.inr ho)).2 hsome
  | createFailed ho =>
    obtain rfl : .startSignals false = a := Option.some.inj he
    have hnone := (h.starting (Or.inr ho)).2
    exact h.startFailed ht h.alive rfl hnone hnone rfl hs
  | claimed signal own hthread hr =>
    obtain rfl : .signalCaught = a := by simpa [SignalHandler.applicationEvent, hr] using he
    cases happ with
    | caught hwaiting =>
      refine ⟨ht, h.alive, OwnerAt.thread h.owner (by simp [hthread]) (by simp) rfl, fun _ => rfl,
        fun hend => absurd hend (h.not_ended (by simp [hthread])), ?_⟩
      simpa using fun hstopping => h.called (Or.inr hstopping)
  | dropped signal own hthread hr => simp [SignalHandler.applicationEvent, hr] at he
  | returned hthread =>
    obtain rfl : .signalNotify = a := Option.some.inj he
    cases happ with
    | signalled hnotifying =>
      exact ⟨ht, h.alive, OwnerAt.thread h.owner (by simp [hthread]) (by simp) rfl, fun _ => rfl,
        by simp, fun _ => h.called (Or.inl hthread)⟩
  | stopBegun ho =>
    obtain rfl : .signalStop = a := Option.some.inj he
    cases happ with
    | signalsStopping hm =>
      have howner := h.owner
      rw [hm] at howner
      refine ⟨ht, h.alive, ⟨howner.1, Or.inl ⟨_, rfl⟩⟩, fun _ => ?_, by simp, h.called⟩
      show p.application.signal.killed = _
      rw [phase_stopped, h.phase (by simp [hm])]
  | nothingToJoin ho hnone => exact absurd hnone (h.stopping (Or.inr ho)).2
  | joined ho hexited =>
    obtain rfl : .signalJoin = a := Option.some.inj he
    cases happ with
    | signalsJoined hm hsignal =>
      refine ⟨ht, h.alive, ⟨rfl, rfl⟩, fun hne => absurd rfl hne, fun _ => ?_, ?_⟩
      · rcases hsignal with hs | hs <;> simp [hs]
      · simpa using fun hstopping => h.called (Or.inr hstopping)
  | alreadyRunning | startBegun | maskSet | killed | sent | goneOn | left | took | tookKill
  | retried | cleared => simp [SignalHandler.applicationEvent] at he

theorem linked_step {e : ProcessEvent} (h : Linked p)
    (hstep : step M lib workerThreads p e = some p') : Linked p' := by
  cases step_cases hstep with
  | moved e s he hs => exact h.moved he hs
  | silent e handler hstart hh he => exact h.handler_moved hstart hh he
  | together e a s handler hh he hs => exact h.both_moved hh he hs

end Linked

/-! ## How the process exits -/

/-- What `main` returns: 1 if an exception left `run`, and what `run` returns otherwise. -/
def exitCode (p : ServiceProcess) : Option ℕ :=
  if p.application.main = .ended then some (if p.application.unwinding then 1 else 0) else none

/-- The request that an event picks up. -/
def requestOf : ProcessEvent → Option HandleCall
  | .thread e => ServiceApplication.requestOf e
  | .signal _ => none

/-- The events of the application in a run of the process. -/
def applicationEvents (M : CalculatorMath) (lib : Protocol) (workerThreads : Int32)
    (history : OperationHistory) (es : List ProcessEvent) : List ApplicationEvent :=
  trace (step M lib workerThreads) applicationEvent (launch history) es

/-- What holds in every state of the process. -/
structure Kept (lib : Protocol) (workerThreads : Int32) (p : ServiceProcess) : Prop where
  linked : Linked p
  reached : Reached lib p.application
  crewed : Crewed workerThreads p.application

section Exit

variable {M : CalculatorMath} {lib : Protocol} {workerThreads : Int32} {p p' : ServiceProcess}
  {history : OperationHistory} {es : List ProcessEvent}

theorem kept_launch (lib : Protocol) (workerThreads : Int32) (history : OperationHistory) :
    Kept lib workerThreads (launch history) :=
  ⟨linked_launch history, reached_launch lib history, crewed_launch workerThreads history⟩

theorem kept_step {e : ProcessEvent} (h : Kept lib workerThreads p)
    (hstep : step M lib workerThreads p e = some p') : Kept lib workerThreads p' := by
  have hlinked := linked_step h.linked hstep
  cases step_cases hstep with
  | moved e s he hs => exact ⟨hlinked, reached_step h.reached hs, crewed_step h.crewed hs⟩
  | silent e handler hstart hh he => exact ⟨hlinked, h.reached, h.crewed⟩
  | together e a s handler hh he hs =>
    exact ⟨hlinked, reached_step h.reached hs, crewed_step h.crewed hs⟩

theorem kept_run (h : Kept lib workerThreads p)
    (hrun : p.run M lib workerThreads es = some p') : Kept lib workerThreads p' :=
  runSteps_invariant (fun _ _ _ hi hstep => kept_step hi hstep) es h hrun

theorem application_run (hrun : (launch history).run M lib workerThreads es = some p) :
    (ServiceApplication.launch history).run M lib workerThreads
      (applicationEvents M lib workerThreads history es) = some p.application := by
  obtain ⟨s, hs, rfl⟩ := application_simulation.run es rfl hrun
  exact hs

theorem requests_eq (hrun : (launch history).run M lib workerThreads es = some p) :
    (applicationEvents M lib workerThreads history es).filterMap ServiceApplication.requestOf =
      es.filterMap requestOf := by
  refine filterMap_trace (fun p e p' _ => ?_) es hrun
  cases e with
  | thread e => rfl
  | signal e =>
    cases e <;> simp only [applicationEvent, SignalHandler.applicationEvent] <;>
      first
      | rfl
      | split <;> rfl

theorem handler_run (hrun : (launch history).run M lib workerThreads es = some p) :
    SignalHandler.construct.run (es.filterMap signalEvent) = some p.handler := by
  obtain ⟨h, hh, rfl⟩ := handler_simulation.run es rfl hrun
  rwa [trace_eq_filterMap hrun] at hh

/-- A signal that the callback was called with was sent. -/
theorem sent_of_callback (hrun : (launch history).run M lib workerThreads es = some p)
    {signal : Signal} (hmem : signal ∈ p.handler.callbacks) : .signal (.send signal) ∈ es := by
  have hcount := SignalHandler.count_callbacks_le (handler_run hrun) signal
  have hpos : 0 < p.handler.callbacks.count signal := List.count_pos_iff.mpr hmem
  have hsent := List.count_pos_iff.mp (Nat.lt_of_lt_of_le hpos hcount)
  obtain ⟨e, he, hlabel⟩ := List.mem_filterMap.mp hsent
  cases e with
  | thread e => cases hlabel
  | signal e =>
    obtain rfl := Option.some.inj hlabel
    exact he

theorem ended_of_exitCode {code : ℕ} (hexit : p.exitCode = some code) :
    p.application.main = .ended ∧ (code = 0 → p.application.unwinding = false) := by
  obtain ⟨hm, hcode⟩ := Option.ite_none_right_eq_some.mp hexit
  refine ⟨hm, fun hzero => ?_⟩
  cases hu : p.application.unwinding with
  | false => rfl
  | true => simp [hu, hzero] at hcode

/-- At its end a process has answered every request. -/
theorem answered_of_ended (hrun : (launch history).run M lib workerThreads es = some p)
    (hm : p.application.main = .ended) :
    ∃ w, AtomicService.run M lib history (served M lib workerThreads history
          (applicationEvents M lib workerThreads history es)) = some w ∧
        Matches p.application w ∧ w.taken = es.filterMap requestOf ∧
        (w.answered.map Prod.fst).Perm (List.range w.taken.length) := by
  have hkept := kept_run (kept_launch lib workerThreads history) hrun
  have hall := (staged_stopped hkept.reached.orderly (hm ▸ trivial)).1
  have happ := application_run hrun
  obtain ⟨w, hw, hmatches⟩ := served_of_run happ
  have haccounted := Workers.accounted_run (Workers.accounted_start _) hw
  have hidle := inProgress_of_idle hmatches fun t ht => Or.inr (hall t ht)
  refine ⟨w, hw, hmatches, (served_taken happ hw).trans (requests_eq hrun), ?_⟩
  unfold Workers.Accounted at haccounted
  rwa [hidle, List.nil_append] at haccounted

/-- A process that ended without an exception was sent a signal. -/
theorem sent_of_ended (hrun : (launch history).run M lib workerThreads es = some p)
    (hm : p.application.main = .ended) (hunwinding : p.application.unwinding = false) :
    ∃ signal ∈ p.handler.callbacks, .signal (.send signal) ∈ es := by
  have hkept := kept_run (kept_launch lib workerThreads history) hrun
  have hstopping := (hkept.crewed.reason (by simp [hm, Up])).resolve_left (by simp [hunwinding])
  obtain ⟨signal, hmem⟩ := List.exists_mem_of_ne_nil _ (hkept.linked.called (Or.inr hstopping))
  exact ⟨signal, hmem, sent_of_callback hrun hmem⟩

end Exit

/-- **The process accounts for how it exits.** However the threads, the signals and the requests
interleave: when `main` returns, every network thread, the storage worker's thread and the signal
thread have been joined, every job of the storage was run, and every request that was picked up has
been answered, once. It returns 0 only if a signal was sent to the process, for which the callback
was called. -/
theorem exit_accounted (M : CalculatorMath) (lib : Protocol) (workerThreads : Int32)
    (history : OperationHistory) (es : List ProcessEvent) (p : ServiceProcess) (code : ℕ)
    (hrun : (launch history).run M lib workerThreads es = some p)
    (hexit : p.exitCode = some code) :
    (AllExited p.application.threads ∧ p.application.storage.worker = none ∧
      p.handler.thread = none) ∧
    p.application.storage.accepted = p.application.storage.finished.map Finished.job ∧
    (∃ w, AtomicService.run M lib history (served M lib workerThreads history
          (applicationEvents M lib workerThreads history es)) = some w ∧
        Matches p.application w ∧ w.taken = es.filterMap requestOf ∧
        (w.answered.map Prod.fst).Perm (List.range w.taken.length)) ∧
    (code = 0 → ∃ signal ∈ p.handler.callbacks, .signal (.send signal) ∈ es) := by
  have hkept := kept_run (kept_launch lib workerThreads history) hrun
  obtain ⟨hm, hunwinding⟩ := ended_of_exitCode hexit
  obtain ⟨hall, hclosed⟩ := staged_stopped hkept.reached.orderly (hm ▸ trivial)
  have howner := hkept.linked.owner
  rw [hm] at howner
  exact ⟨⟨hall, hclosed.thread, howner.1⟩, hclosed.executed, answered_of_ended hrun hm,
    fun hzero => sent_of_ended hrun hm (hunwinding hzero)⟩

/-- `SIGTERM` comes while a request is between its `find` and its `save`. -/
def signalInFlight : List ProcessEvent :=
  [.signal .startExchange, .signal (.block true), .signal (.create true),
    .thread (.worker .startClear), .thread (.worker (.startThread {})), .signal .check,
    .thread (.worker .initDone), .thread (.worker .startReturn), .thread .createThread,
    .thread .serverStarted,
    .thread (.network 0 (.request "1+2" ⟨0, 0⟩)), .thread (.network 0 .submit),
    .thread (.network 0 .notify), .signal (.send .sigterm), .signal (.sigwait .sigterm),
    .signal .recheck, .signal .clear, .thread (.worker .check), .signal .callbackReturns,
    .thread .wake, .thread (.worker (.runJob .completed)), .thread (.network 0 .receive),
    .thread .ioStop, .thread (.network 0 .submit), .thread (.network 0 .notify),
    .thread (.worker .check), .thread (.worker (.runJob .completed)),
    .thread (.network 0 .receive), .thread (.network 0 .respond), .thread (.network 0 .exit),
    .thread .join, .thread .joined, .thread (.worker .stopFlag), .thread (.worker .stopNotify),
    .thread (.worker .check), .thread (.worker .stopJoin), .signal .stopExchange,
    .signal .stopKill, .signal .join]

/-- The process exits with 0 after it has answered the request. -/
theorem exit_accounted_in_flight :
    ∃ p w, (launch .empty).run .checked sampleProtocol 1 signalInFlight = some p ∧
      p.exitCode = some 0 ∧ p.handler.thread = none ∧ p.handler.callbacks = [.sigterm] ∧
      w.taken = [⟨"1+2", ⟨0, 0⟩⟩] ∧ w.answered.map Prod.snd = [.value "a: 3"] ∧
      AtomicService.run .checked sampleProtocol .empty (served .checked sampleProtocol 1 .empty
        (applicationEvents .checked sampleProtocol 1 .empty signalInFlight)) = some w := by
  have hend : ((launch .empty).run .checked sampleProtocol 1 signalInFlight).map
      (fun p => (p.exitCode, p.handler.callbacks, p.application.responses)) =
        some (some 0, [.sigterm], ["a: 3"]) := by
    decide +kernel
  obtain ⟨p, hrun, hs⟩ := Option.map_eq_some_iff.mp hend
  obtain ⟨hcode, hrest⟩ := Prod.mk.inj hs
  obtain ⟨hcallbacks, hresponses⟩ := Prod.mk.inj hrest
  obtain ⟨⟨-, -, hthread⟩, -, ⟨w, hw, hmatches, htaken, -⟩, -⟩ :=
    exit_accounted .checked sampleProtocol 1 .empty signalInFlight p 0 hrun hcode
  refine ⟨p, w, hrun, hcode, hthread, hcallbacks, htaken, ?_, hw⟩
  rw [hmatches.answered, hresponses]
  rfl

end ServiceProcess

/-! ## A signal is not lost -/

namespace SignalHandler

/-- The thread has taken a signal, or needs none any more. -/
def Taken : Option SignalThread → Prop
  | some (.woken _ _) | some (.claimed _) | some .calling | some .exited => True
  | _ => False

/-- A signal was sent, and is pending or has had its effect. -/
def Signalled (h : SignalHandler) : Prop :=
  h.blocked = true ∧ (h.pending ≠ [] ∨ Taken h.thread ∨ h.running = false)

section Signalled

variable {h h' : SignalHandler} {e : SignalEvent}

theorem signalled_sent {signal : Signal} (hstep : h.step (.send signal) = some h') :
    Signalled h' := by
  cases (step_cases hstep).2 with
  | sent _ hb => exact ⟨hb, Or.inl (List.ne_nil_of_mem (List.mem_insert_self))⟩

theorem signalled_step (ht : Tidy h) (hs : Signalled h) (he : e ≠ .startExchange)
    (hstep : h.step e = some h') : Signalled h' := by
  obtain ⟨hblocked, hs⟩ := hs
  cases (step_cases hstep).2 with
  | alreadyRunning | startBegun => exact absurd rfl he
  | maskSet => exact ⟨rfl, hs⟩
  | maskFailed | stopBegun => exact ⟨hblocked, Or.inr (Or.inr rfl)⟩
  | terminated | createFailed | killed | nothingToJoin => exact ⟨hblocked, hs⟩
  | created ho hnone =>
    rcases hs with hs | hs | hs
    · exact ⟨hblocked, Or.inl hs⟩
    · rw [hnone] at hs
      exact hs.elim
    · exact ⟨hblocked, Or.inr (Or.inr hs)⟩
  | joined ho => exact ⟨hblocked, Or.inr (Or.inr (ht.stopping (Or.inr ho)))⟩
  | sent signal => exact ⟨hblocked, Or.inl (List.ne_nil_of_mem (List.mem_insert_self))⟩
  | goneOn hthread | retried hthread =>
    rcases hs with hs | hs | hs
    · exact ⟨hblocked, Or.inl hs⟩
    · rw [hthread] at hs
      exact hs.elim
    · exact ⟨hblocked, Or.inr (Or.inr hs)⟩
  | left | took | tookKill | claimed | cleared | returned =>
    exact ⟨hblocked, Or.inr (Or.inl trivial)⟩
  | dropped _ _ _ hr => exact ⟨hblocked, Or.inr (Or.inr hr)⟩

/-- `stop` may still take two steps of its owner. -/
theorem effort_stopExchange (hstep : h.step .stopExchange = some h') :
    h'.effort ≤ h.effort + 2 := by
  cases (step_cases hstep).2 with
  | stopBegun ho =>
    have hthread : threadEffort false h.thread ≤ threadEffort h.running h.thread := by
      cases h.thread with
      | none => exact Nat.le_refl _
      | some t => cases t <;> cases h.running <;> simp [threadEffort]
    simp only [effort, ho, ownerEffort]
    omega

end Signalled

end SignalHandler

namespace ServiceProcess

/-- A step that needs no request, no further signal, no failure and no spurious wake-up. -/
def Advance : ProcessEvent → Prop
  | .thread e => ServiceApplication.Advance e
  | .signal .stopExchange => True
  | .signal (.block ok) => ok = true
  | .signal (.create ok) => ok = true
  | .signal e => SignalHandler.Internal e

/-- What `signal_handler.stop()` will need. -/
def stopEffort : MainPhase → ℕ
  | .joiningSignals | .ended => 0
  | _ => 4

/-- A bound on the steps still to come. -/
noncomputable def effort (workerThreads : Int32) (p : ServiceProcess) : ℕ :=
  p.application.effort + p.application.startEffort workerThreads + 2 * p.handler.effort +
    stopEffort p.application.main

section Progress

variable {M : CalculatorMath} {lib : Protocol} {workerThreads : Int32} {p p' : ServiceProcess}

/-- The main thread calls `signal_handler.stop()` once. -/
theorem stopEffort_step {s s' : ServiceApplication} {e : ApplicationEvent}
    (hstep : s.step M lib workerThreads e = some s') :
    stopEffort s'.main ≤ stopEffort s.main := by
  cases (ServiceApplication.step_cases hstep).2 with
  | caught | signalled | worked | storageStarting | storageStopping | threadCreated =>
    exact Nat.le_refl _
  | signalsFailed | signalsStopping | signalsJoined => exact Nat.zero_le _
  | signalsStarted hm | storageStarted _ _ hm | storageFailed _ _ hm | storageStopped _ _ hm
  | serverStarted hm | serverFailed hm | woken hm | ioStopped hm | threadJoined _ hm
  | serverStopped hm => simp [hm, stopEffort]
  | network i e s' hmove => rw [(network_frame hmove).1]

/-- The callback is about to be called: one step of the handler, which the application has to follow
with another. -/
theorem effort_caught {s s' : ServiceApplication}
    (hstep : s.step M lib workerThreads .signalCaught = some s') :
    s'.effort = s.effort + 1 ∧ s'.startEffort workerThreads = s.startEffort workerThreads := by
  cases (ServiceApplication.step_cases hstep).2 with
  | caught hs =>
    have hwaiting : signalEffort .waiting = 0 := rfl
    have hnotifying : signalEffort .notifying = 1 := rfl
    refine ⟨?_, rfl⟩
    simp only [ServiceApplication.effort, hs, hwaiting, hnotifying]
    omega

theorem stopEffort_signalStop {s s' : ServiceApplication}
    (hstep : s.step M lib workerThreads .signalStop = some s') :
    stopEffort s.main = 4 ∧ stopEffort s'.main = 0 := by
  cases (ServiceApplication.step_cases hstep).2 with
  | signalsStopping hm => exact ⟨by rw [hm]; rfl, rfl⟩

/-- **The steps of the process cannot go on for ever.** -/
theorem effort_advance {e : ProcessEvent} (hkept : Kept lib workerThreads p) (he : Advance e)
    (hstep : step M lib workerThreads p e = some p') :
    p'.effort workerThreads < p.effort workerThreads := by
  have htidy := hkept.linked.tidy
  cases step_cases hstep with
  | moved e s hnot hs =>
    have hless := ServiceApplication.effort_advance hkept.reached he hs
    have hstop := stopEffort_step hs
    simp only [effort]
    omega
  | silent e h hstart hh hnone =>
    have hinternal : SignalHandler.Internal e := by
      cases e with
      | startExchange | send | sigwaitError => exact he
      | stopExchange => cases hnone
      | block | create | stopKill | join | check | sigwait | sigwaitKill | recheck | clear
      | callbackReturns => trivial
    have hless := SignalHandler.effort_step htidy hinternal hh
    simp only [effort]
    omega
  | together e a s h hh hsome hs =>
    have hstop := stopEffort_step hs
    -- what the handler and the application do, and how their steps weigh against each other
    have hboth : SignalHandler.Internal e → ServiceApplication.Advance a →
        effort workerThreads ⟨s, h⟩ < p.effort workerThreads := fun hinternal hadvance => by
      have hhandler := SignalHandler.effort_step htidy hinternal hh
      have happ := ServiceApplication.effort_advance hkept.reached hadvance hs
      simp only [effort]
      omega
    cases e with
    | create ok =>
      obtain rfl : ok = true := he
      obtain rfl := Option.some.inj hsome
      exact hboth trivial (Or.inr trivial)
    | callbackReturns | join =>
      obtain rfl := Option.some.inj hsome
      exact hboth trivial (Or.inl trivial)
    | recheck =>
      obtain ⟨-, ha⟩ := Option.ite_none_right_eq_some.mp hsome
      obtain rfl := Option.some.inj ha
      have hhandler := SignalHandler.effort_step htidy (e := .recheck) trivial hh
      have happ := effort_caught hs
      simp only [effort]
      omega
    | stopExchange =>
      obtain rfl := Option.some.inj hsome
      have hhandler := SignalHandler.effort_stopExchange hh
      have happ := ServiceApplication.effort_advance (e := .signalStop) hkept.reached
        (Or.inl trivial) hs
      have hphase := stopEffort_signalStop hs
      simp only [effort]
      omega
    | block ok =>
      obtain rfl : ok = true := he
      cases hsome
    | startExchange | stopKill | send | check | sigwait | sigwaitKill | sigwaitError | clear =>
      cases hsome

end Progress

/-! ### When nothing is possible -/

section Quiescent

variable {M : CalculatorMath} {lib : Protocol} {workerThreads : Int32} {p p' : ServiceProcess}
  (hl : Linked p) (halive : p.application.aborted = false)
  (hquiet : ∀ e, Advance e → step M lib workerThreads p e = none)

include halive hquiet

/-- A step of the handler is possible only where the application cannot follow it. -/
theorem stuck (e : SignalEvent) (he : Advance (.signal e)) (hh : p.handler.step e ≠ none) :
    ∃ a, p.handler.applicationEvent e = some a ∧
      p.application.step M lib workerThreads a = none := by
  obtain ⟨h, hh⟩ := Option.ne_none_iff_exists'.mp hh
  have hstart : e ≠ .startExchange := by
    rintro rfl
    exact he
  have hnone := hquiet (.signal e) he
  cases ha : p.handler.applicationEvent e with
  | none => simp [step, halive, hstart, hh, ha] at hnone
  | some a =>
    refine ⟨a, rfl, ?_⟩
    cases hs : p.application.step M lib workerThreads a with
    | none => rfl
    | some s => simp [step, halive, hstart, hh, ha, hs] at hnone

include hl

/-- The callback does not get stuck. -/
theorem not_notifying : p.application.signal ≠ .notifying := by
  intro hs
  have hm : p.application.main ≠ .ended := fun hend => hl.silent hend hs
  have hphase : p.handler.phase = .notifying := (hl.phase hm).symm.trans hs
  cases hthread : p.handler.thread with
  | none => simp [SignalHandler.phase, hthread] at hphase
  | some t =>
    cases t with
    | claimed signal =>
      obtain ⟨a, ha, -⟩ := stuck halive hquiet .clear trivial
        (by simp [SignalHandler.step, hl.alive, SignalHandler.threadStep, hthread])
      cases ha
    | calling =>
      obtain ⟨a, ha, hnone⟩ := stuck halive hquiet .callbackReturns trivial
        (by simp [SignalHandler.step, hl.alive, SignalHandler.threadStep, hthread])
      obtain rfl := Option.some.inj ha
      simp [ServiceApplication.step, halive, act, hs] at hnone
    | exited => simp [SignalHandler.phase, hthread] at hphase
    | checking | waiting | woken =>
      cases hr : p.handler.running <;> simp [SignalHandler.phase, hthread, hr] at hphase

/-- Nor does `signal_handler.stop()`. -/
theorem not_joiningSignals : p.application.main ≠ .joiningSignals := by
  intro hm
  have howner := hl.owner
  rw [hm] at howner
  obtain ⟨hsome, hin⟩ := howner
  have hr := hl.tidy.stopping hin
  have hsignal := hl.phase (by simp [hm])
  have hnot : p.handler.owner ≠ .starting ∧ p.handler.owner ≠ .creating := by
    rcases hin with ⟨b, ho⟩ | ho <;> simp [ho]
  have hstopped := SignalHandler.stopped_of_quiescent (hin.imp_right Or.inl) hl.tidy fun e he => by
    by_contra hh
    have hstuck := fun hadvance => stuck halive hquiet e hadvance hh
    cases e with
    | startExchange | stopExchange | send | sigwaitError => exact he
    | block ok => simp [SignalHandler.step, hl.alive, SignalHandler.ownerStep, hnot.1] at hh
    | create => simp [SignalHandler.step, hl.alive, SignalHandler.ownerStep, hnot.2] at hh
    | stopKill | check | sigwait | sigwaitKill | clear =>
      obtain ⟨a, ha, -⟩ := hstuck trivial
      cases ha
    | recheck =>
      obtain ⟨a, ha, -⟩ := hstuck trivial
      simp [SignalHandler.applicationEvent, hr] at ha
    | callbackReturns =>
      obtain ⟨h, hh⟩ := Option.ne_none_iff_exists'.mp hh
      cases (SignalHandler.step_cases hh).2 with
      | returned hthread =>
        refine not_notifying hl halive hquiet (hsignal.trans ?_)
        simp [SignalHandler.phase, hthread]
    | join =>
      obtain ⟨a, ha, hnone⟩ := hstuck trivial
      obtain rfl := Option.some.inj ha
      obtain ⟨h, hh⟩ := Option.ne_none_iff_exists'.mp hh
      cases (SignalHandler.step_cases hh).2 with
      | nothingToJoin _ hthread => exact hsome hthread
      | joined _ hthread =>
        have hexited : p.application.signal = .exited :=
          hsignal.trans (by simp [SignalHandler.phase, hthread])
        simp [ServiceApplication.step, halive, act, hm, hexited] at hnone
  exact hsome hstopped.2.1

/-- The application has nothing left to do either. -/
theorem application_quiescent (hblocked : p.handler.blocked = true) (e : ApplicationEvent)
    (he : ServiceApplication.Advance e) : p.application.step M lib workerThreads e = none := by
  by_contra hne
  have hstuck := stuck halive hquiet
  have howner := hl.owner
  obtain ⟨s, hs⟩ := Option.ne_none_iff_exists'.mp hne
  by_cases hof : ofHandler e = true
  · cases (ServiceApplication.step_cases hs).2 with
    | signalsStarted hm =>
      rw [hm] at howner
      obtain ⟨hnone, hidle | hstarting | hcreating⟩ := howner
      · simp [hblocked] at hidle
      · simp [hblocked] at hstarting
      · obtain ⟨a, ha, hstop⟩ := hstuck (.create true) rfl
          (by simp [SignalHandler.step, hl.alive, SignalHandler.ownerStep, hcreating])
        obtain rfl := Option.some.inj ha
        exact hne hstop
    | signalled hsignal => exact not_notifying hl halive hquiet hsignal
    | signalsStopping hm =>
      rw [hm] at howner
      obtain ⟨a, ha, hstop⟩ := hstuck .stopExchange trivial
        (by simp [SignalHandler.step, hl.alive, SignalHandler.ownerStep, howner.2])
      obtain rfl := Option.some.inj ha
      exact hne hstop
    | signalsJoined hm => exact not_joiningSignals hl halive hquiet hm
    | signalsFailed | caught => rcases he with he | he <;> exact he
    | worked | storageStarting | storageStarted | storageFailed | storageStopping | storageStopped
    | threadCreated | serverStarted | serverFailed | woken | ioStopped | threadJoined
    | serverStopped | network => cases hof
  · have hnone := hquiet (.thread e) he
    simp [step, hof, hs] at hnone

end Quiescent

/-- When nothing is possible after a signal, `run` has returned. -/
theorem ended_of_quiescent {M : CalculatorMath} {lib : Protocol} {workerThreads : Int32}
    {p : ServiceProcess} (hkept : Kept lib workerThreads p) (hs : p.handler.Signalled)
    (hquiet : ∀ e, Advance e → step M lib workerThreads p e = none) :
    p.application.main = .ended ∨ p.application.aborted = true := by
  by_cases haborted : p.application.aborted = true
  · exact Or.inr haborted
  have halive : p.application.aborted = false := Bool.eq_false_iff.mpr haborted
  have hl := hkept.linked
  have happ := application_quiescent hl halive hquiet hs.1
  have hstuck := stuck halive hquiet
  refine Or.inl ((settled_of_quiescent hkept.reached hkept.crewed halive happ).resolve_left ?_)
  -- a service that is ready has a signal thread that waits, and that would get the signal
  intro hready
  have hphase : p.handler.phase = .waiting :=
    (hl.phase (by simp [hready.waiting])).symm.trans hready.signal
  have hcaught : p.application.step M lib workerThreads .signalCaught ≠ none := by
    simp [ServiceApplication.step, halive, act, hready.signal]
  cases hthread : p.handler.thread with
  | none => simp [SignalHandler.phase, hthread] at hphase
  | some t =>
    cases t with
    | claimed | calling | exited => simp [SignalHandler.phase, hthread] at hphase
    | checking =>
      obtain ⟨a, ha, -⟩ := hstuck .check trivial
        (by simp [SignalHandler.step, hl.alive, SignalHandler.threadStep, hthread])
      cases ha
    | waiting =>
      have hr : p.handler.running = true := by
        by_contra hr
        simp [SignalHandler.phase, hthread, hr] at hphase
      obtain ⟨signal, hp⟩ : ∃ signal, signal ∈ p.handler.pending := by
        rcases hs.2 with hp | htaken | hr'
        · exact List.exists_mem_of_ne_nil _ hp
        · rw [hthread] at htaken
          exact htaken.elim
        · simp [hr] at hr'
      obtain ⟨a, ha, -⟩ := hstuck (.sigwait signal) trivial
        (by simp [SignalHandler.step, hl.alive, SignalHandler.threadStep, hthread, hp])
      cases ha
    | woken signal own =>
      obtain ⟨a, ha, hnone⟩ := hstuck .recheck trivial
        (by simp [SignalHandler.step, hl.alive, SignalHandler.threadStep, hthread])
      obtain ⟨-, ha⟩ := Option.ite_none_right_eq_some.mp ha
      obtain rfl := Option.some.inj ha
      exact hcaught hnone

/-- A signal that was sent stays pending or takes effect, whatever happens next. -/
theorem signalled_step {M : CalculatorMath} {lib : Protocol} {workerThreads : Int32}
    {p p' : ServiceProcess} {e : ProcessEvent} (hl : Linked p) (hs : p.handler.Signalled)
    (hstep : step M lib workerThreads p e = some p') : p'.handler.Signalled := by
  cases step_cases hstep with
  | moved e s he hmoved => exact hs
  | silent e h hstart hh he =>
    refine SignalHandler.signalled_step hl.tidy hs (fun hexchange => ?_) hh
    -- `start` is not called again once it has blocked the signals
    have howner := hl.owner
    rw [hstart hexchange] at howner
    subst hexchange
    rcases howner.2 with ⟨-, -, hb⟩ | ⟨ho, -⟩ | ho
    · exact absurd (hs.1.symm.trans hb) (by simp)
    · simp [SignalHandler.step, SignalHandler.ownerStep, ho] at hh
    · simp [SignalHandler.step, SignalHandler.ownerStep, ho] at hh
  | together e a s h hh he hs' =>
    refine SignalHandler.signalled_step hl.tidy hs (fun hexchange => ?_) hh
    rw [hexchange] at he
    cases he

theorem signalled_run {M : CalculatorMath} {lib : Protocol} {workerThreads : Int32}
    {p p' : ServiceProcess} {es : List ProcessEvent} (hl : Linked p) (hs : p.handler.Signalled)
    (hrun : p.run M lib workerThreads es = some p') : p'.handler.Signalled :=
  (runSteps_invariant (I := fun p => Linked p ∧ p.handler.Signalled)
    (fun _ _ _ hi hstep => ⟨linked_step hi.1 hstep, signalled_step hi.1 hi.2 hstep⟩) es
    ⟨hl, hs⟩ hrun).2

/-- A process that was sent a signal. -/
theorem signalled_of_sent {M : CalculatorMath} {lib : Protocol} {workerThreads : Int32}
    {signal : Signal} : ∀ {es : List ProcessEvent} {p p' : ServiceProcess}, Linked p →
      .signal (.send signal) ∈ es → p.run M lib workerThreads es = some p' →
      p'.handler.Signalled
  | [], _, _, _, hmem, _ => absurd hmem List.not_mem_nil
  | e :: es, p, p', hl, hmem, hrun => by
    obtain ⟨q, hq, hrest⟩ := runSteps_cons hrun
    have hlq := linked_step hl hq
    rcases List.mem_cons.mp hmem with rfl | hmem
    · refine signalled_run hlq ?_ hrest
      cases step_cases hq with
      | silent _ h _ hh => exact SignalHandler.signalled_sent hh
      | together _ _ _ _ hh he => cases he
    · exact signalled_of_sent hlq hmem hrest

/-- **A signal ends the service.** Whenever `SIGINT` or `SIGTERM` was sent to the process after
`signal_handler.start()` blocked them, be it while the service starts, serves or stops: from then on
the steps of the process, requests in flight included, are at most `effort` many, and when none is
left, `run` has returned, unless the process was aborted. Not among these steps are new requests,
further signals, failures of `signal_handler.start()`, `server.start()` and `sigwait`, and spurious
wake-ups. -/
theorem signal_ends_service (M : CalculatorMath) (lib : Protocol) (workerThreads : Int32)
    (history : OperationHistory) (es es' : List ProcessEvent) (p p' : ServiceProcess)
    (signal : Signal) (hrun : (launch history).run M lib workerThreads es = some p)
    (hsent : .signal (.send signal) ∈ es) (hadvance : ∀ e ∈ es', Advance e)
    (hrun' : p.run M lib workerThreads es' = some p') :
    es'.length ≤ p.effort workerThreads ∧
      ((∀ e, Advance e → p'.step M lib workerThreads e = none) →
        p'.application.main = .ended ∨ p'.application.aborted = true) := by
  have hkept := kept_run (kept_launch lib workerThreads history) hrun
  have hlength := runSteps_bounded (C := Advance) (I := Kept lib workerThreads)
    (fun _ _ _ _ hi hstep => kept_step hi hstep)
    (fun _ _ _ he hi hstep => effort_advance hi he hstep) es' hadvance hkept hrun'
  have hsignalled := signalled_run hkept.linked
    (signalled_of_sent (linked_launch history) hsent hrun) hrun'
  exact ⟨by omega, ended_of_quiescent (kept_run hkept hrun') hsignalled⟩

/-- After `run` has returned nothing is left to do. -/
theorem quiescent_of_ended {M : CalculatorMath} {lib : Protocol} {workerThreads : Int32}
    {p : ServiceProcess} (hkept : Kept lib workerThreads p) (hm : p.application.main = .ended) :
    ∀ e, Advance e → step M lib workerThreads p e = none := by
  obtain ⟨hall, hclosed⟩ := staged_stopped hkept.reached.orderly (hm ▸ trivial)
  have howner := hkept.linked.owner
  rw [hm] at howner
  obtain ⟨hnone, hidle⟩ := howner
  have hhandler : ∀ e h, Advance (.signal e) → p.handler.step e = some h → e = .stopExchange := by
    intro e h he hh
    cases (SignalHandler.step_cases hh).2 with
    | stopBegun => rfl
    | alreadyRunning | startBegun | sent | retried => exact he.elim
    | maskSet ho | maskFailed ho | created ho | terminated ho | createFailed ho | killed _ ho
    | nothingToJoin ho | joined ho => exact absurd (hidle.symm.trans ho) (by simp)
    | goneOn ht | left ht | took _ ht | tookKill ht | claimed _ _ ht | dropped _ _ ht
    | cleared _ ht | returned ht => exact absurd (hnone.symm.trans ht) (by simp)
  intro e he
  refine Option.eq_none_iff_forall_ne_some.mpr fun p' hstep => ?_
  cases step_cases hstep with
  | silent e h hstart hh hsilent =>
    obtain rfl := hhandler e h he hh
    cases hsilent
  | together e a s h hh hsome hs =>
    obtain rfl := hhandler e h he hh
    obtain rfl := Option.some.inj hsome
    cases (ServiceApplication.step_cases hs).2 with
    | signalsStopping hstop => exact absurd (hm.symm.trans hstop) (by simp)
  | moved e s hof hs =>
    cases (ServiceApplication.step_cases hs).2 with
    | signalsStarted | signalsFailed | caught | signalled | signalsStopping | signalsJoined =>
      cases hof
    | worked e storage hown hw => exact (own_frame hown hw).2.1 hclosed.thread
    | storageStarting _ _ _ _ hm' | storageStarted _ _ hm' | storageFailed _ _ hm'
    | storageStopping _ _ _ _ hm' | storageStopped _ _ hm' | threadCreated hm' | serverStarted hm'
    | serverFailed hm' | woken hm' | ioStopped hm' | threadJoined _ hm' | serverStopped hm' =>
      exact absurd (hm.symm.trans hm') (by simp)
    | network i e s hmove =>
      cases hmove with
      | requested _ _ hi | rejected _ _ hi | accepted _ _ hi | notified _ _ _ _ hi
      | received _ _ _ _ _ hi | responded _ hi | aborted _ hi | left hi =>
        exact absurd (hall _ (List.mem_of_getElem? hi)) (by simp)

/-- `SIGINT` comes while the storage worker starts. -/
def signalAtStart : List ProcessEvent :=
  [.signal .startExchange, .signal (.block true), .signal (.create true),
    .thread (.worker .startClear), .signal (.send .sigint)]

/-- The service gets to `condition.wait` and leaves it at once. -/
def startAndStop : List ProcessEvent :=
  [.signal .check, .signal (.sigwait .sigint), .signal .recheck, .signal .clear,
    .thread (.worker (.startThread {})), .signal .callbackReturns, .thread (.worker .initDone),
    .thread (.worker .startReturn), .thread .createThread, .thread .serverStarted, .thread .wake,
    .thread .ioStop, .thread (.network 0 .exit), .thread .join, .thread .joined,
    .thread (.worker .stopFlag), .thread (.worker .stopNotify), .thread (.worker .check),
    .thread (.worker .stopJoin), .signal .stopExchange, .signal .stopKill, .signal .join]

theorem signal_ends_service_atStart :
    ∃ p p', (launch .empty).run .checked sampleProtocol 1 signalAtStart = some p ∧
      p.run .checked sampleProtocol 1 startAndStop = some p' ∧ p'.exitCode = some 0 ∧
      startAndStop.length ≤ p.effort 1 ∧
      (p'.application.main = .ended ∨ p'.application.aborted = true) := by
  have hend : (((launch .empty).run .checked sampleProtocol 1 signalAtStart).bind fun p =>
      p.run .checked sampleProtocol 1 startAndStop).map
        (fun p => (p.application.main, p.exitCode)) = some (.ended, some 0) := by
    decide +kernel
  obtain ⟨p', hboth, hs⟩ := Option.map_eq_some_iff.mp hend
  obtain ⟨p, hrun, hrun'⟩ := Option.bind_eq_some_iff.mp hboth
  obtain ⟨hmain, hcode⟩ := Prod.mk.inj hs
  have hkept := kept_run (kept_run (kept_launch sampleProtocol 1 .empty) hrun) hrun'
  obtain ⟨hlength, hended⟩ := signal_ends_service .checked sampleProtocol 1 .empty signalAtStart
    startAndStop p p' .sigint hrun (by simp [signalAtStart])
    (by simp [startAndStop, Advance, ServiceApplication.Advance, Forward, Starts,
      SignalHandler.Internal]) hrun'
  exact ⟨p, p', hrun, hrun', hcode, hlength, hended (quiescent_of_ended hkept hmain)⟩

end ServiceProcess

end ConsoleCalculator
