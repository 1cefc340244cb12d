import ConsoleCalculator.Base.Machine

/-!
# The signal handler

Model of `SignalHandler` (`server/src/signal-handler.cpp`): its owner, who calls `start` and `stop`,
the signal thread in `thread_main`, and the signals of the process. A step is what one of them does
between two accesses of `running_` or two calls of the system.

* `start` blocks `SIGINT` and `SIGTERM` before it creates the thread, and the threads created later
  inherit the mask. A signal sent to the process from then on stays pending until the signal thread
  takes it with `sigwait` (`send`, `sigwait`). Signals do not queue: a second one of a kind that is
  pending is lost.
* `stop` sends `SIGTERM` to the signal thread itself (`stopKill`, `sigwaitKill`), only if
  `running_` was set, and only after it has cleared it.
* Assigning to `thread_` while it is joinable calls `std::terminate` (`terminated`): `start` after
  the callback was called, without `stop` in between.
* A constructor of `std::thread` that throws leaves `start` with `running_` set and no thread
  (`create`): from then on `start` does nothing, until `stop` has been called.
* `sigwait` can fail, and the thread then looks at `running_` again (`sigwaitError`).
* `own` and `callbacks` are not in the source: whether a signal is the one of `stop`, and the
  signals `callback_` was called with.

Results:
* `tidy_step`: what holds between any two steps.
* **`callback_sound`**: the callback is called once for each thread at most, and only for signals
  that were sent from outside.
* **`stop_returns`**: `stop` returns, with the thread joined, from wherever the thread is, whatever
  signals are sent and however often `sigwait` fails.
-/

namespace ConsoleCalculator

open Base

/-- The signals that end the service. -/
inductive Signal where
  | sigint
  | sigterm
  deriving DecidableEq, Repr

/-- Where the signal thread is. -/
inductive SignalThread where
  /-- At `while (running_)`. -/
  | checking
  /-- In `sigwait`. -/
  | waiting
  /-- `sigwait` has returned; before the second look at `running_`. -/
  | woken (signal : Signal) (own : Bool)
  /-- `running_` was set; before `running_ = false`. -/
  | claimed (signal : Signal)
  /-- In `callback_`. -/
  | calling
  | exited
  deriving DecidableEq, Repr

/-- Where the owner is. -/
inductive OwnerPhase where
  | idle
  /-- In `start`, before `pthread_sigmask`. -/
  | starting
  /-- In `start`, before the thread is created. -/
  | creating
  /-- In `stop`, before `pthread_kill`. -/
  | stopping (wasRunning : Bool)
  /-- In `stop`, at the join. -/
  | joining
  deriving DecidableEq, Repr

structure SignalHandler where
  /-- `running_`. -/
  running : Bool
  /-- `thread_`, `none` if it is not joinable. -/
  thread : Option SignalThread
  owner : OwnerPhase
  /-- The process blocks the signals. -/
  blocked : Bool
  /-- The signals pending for the process. -/
  pending : List Signal
  /-- The signal of `stop` is pending for the thread. -/
  killed : Bool
  callbacks : List Signal
  terminated : Bool
  deriving DecidableEq, Repr

inductive SignalEvent where
  /-- `start()`: `running_.exchange(true)`. -/
  | startExchange
  /-- `pthread_sigmask` works, or not. -/
  | block (ok : Bool)
  /-- The constructor of `std::thread` returns, or throws. -/
  | create (ok : Bool)
  /-- `stop()`: `running_.exchange(false)`. -/
  | stopExchange
  | stopKill
  | join
  /-- Someone sends the process a signal. -/
  | send (signal : Signal)
  | check
  | sigwait (signal : Signal)
  | sigwaitKill
  | sigwaitError
  | recheck
  | clear
  | callbackReturns
  deriving DecidableEq, Repr

/-- The event is a signal from outside. -/
def SignalEvent.isSend : SignalEvent → Bool
  | .send _ => true
  | _ => false

namespace SignalHandler

/-- The constructor. -/
def construct : SignalHandler where
  running := false
  thread := none
  owner := .idle
  blocked := false
  pending := []
  killed := false
  callbacks := []
  terminated := false

/-- A step of the owner. -/
def ownerStep (h : SignalHandler) : SignalEvent → Option SignalHandler
  | .startExchange =>
    if h.owner = .idle then
      some { h with running := true, owner := if h.running then .idle else .starting }
    else none
  | .block ok =>
    if h.owner = .starting then
      some (if ok then { h with owner := .creating, blocked := true }
        else { h with owner := .idle, running := false })
    else none
  | .create ok =>
    if h.owner = .creating then
      some (if ok then
        match h.thread with
        | none => { h with owner := .idle, thread := some .checking }
        | some _ => { h with terminated := true }
      else { h with owner := .idle })
    else none
  | .stopExchange =>
    if h.owner = .idle then some { h with running := false, owner := .stopping h.running } else none
  | .stopKill =>
    match h.owner with
    | .stopping wasRunning =>
      some { h with
        owner := .joining
        killed := wasRunning && h.thread.any (· ≠ .exited) }
    | _ => none
  | .join =>
    if h.owner = .joining then
      match h.thread with
      | none => some { h with owner := .idle }
      | some .exited => some { h with owner := .idle, thread := none, killed := false }
      | some _ => none
    else none
  | _ => none

/-- A step of the signal thread. -/
def threadStep (h : SignalHandler) : SignalEvent → Option SignalHandler
  | .check =>
    if h.thread = some .checking then
      some { h with thread := some (if h.running then .waiting else .exited) }
    else none
  | .sigwait signal =>
    if h.thread = some .waiting ∧ signal ∈ h.pending then
      some { h with thread := some (.woken signal false), pending := h.pending.erase signal }
    else none
  | .sigwaitKill =>
    if h.thread = some .waiting ∧ h.killed = true then
      some { h with thread := some (.woken .sigterm true), killed := false }
    else none
  | .sigwaitError =>
    if h.thread = some .waiting then some { h with thread := some .checking } else none
  | .recheck =>
    match h.thread with
    | some (.woken signal _) =>
      some { h with thread := some (if h.running then .claimed signal else .checking) }
    | _ => none
  | .clear =>
    match h.thread with
    | some (.claimed signal) =>
      some { h with
        running := false, thread := some .calling, callbacks := h.callbacks ++ [signal] }
    | _ => none
  | .callbackReturns =>
    if h.thread = some .calling then some { h with thread := some .exited } else none
  | _ => none

/-- A step, `none` if it cannot happen. -/
def step (h : SignalHandler) (e : SignalEvent) : Option SignalHandler :=
  if h.terminated then none
  else
    match e with
    | .send signal =>
      if h.blocked then some { h with pending := h.pending.insert signal } else none
    | .startExchange | .block _ | .create _ | .stopExchange | .stopKill | .join => h.ownerStep e
    | _ => h.threadStep e

/-- A run from `h`. -/
def run (h : SignalHandler) (es : List SignalEvent) : Option SignalHandler := runSteps step h es

/-! ## What a step can do -/

/-- The steps, with what must hold for them: the inversion of `step`. -/
inductive Step (h : SignalHandler) : SignalEvent → SignalHandler → Prop
  | alreadyRunning (ho : h.owner = .idle) (hr : h.running = true) : Step h .startExchange h
  | startBegun (ho : h.owner = .idle) (hr : h.running = false) :
      Step h .startExchange { h with running := true, owner := .starting }
  | maskSet (ho : h.owner = .starting) :
      Step h (.block true) { h with owner := .creating, blocked := true }
  | maskFailed (ho : h.owner = .starting) :
      Step h (.block false) { h with owner := .idle, running := false }
  | created (ho : h.owner = .creating) (ht : h.thread = none) :
      Step h (.create true) { h with owner := .idle, thread := some .checking }
  | terminated (ho : h.owner = .creating) (ht : h.thread ≠ none) :
      Step h (.create true) { h with terminated := true }
  | createFailed (ho : h.owner = .creating) : Step h (.create false) { h with owner := .idle }
  | stopBegun (ho : h.owner = .idle) :
      Step h .stopExchange { h with running := false, owner := .stopping h.running }
  | killed (wasRunning : Bool) (ho : h.owner = .stopping wasRunning) :
      Step h .stopKill
        { h with owner := .joining, killed := wasRunning && h.thread.any (· ≠ .exited) }
  | nothingToJoin (ho : h.owner = .joining) (ht : h.thread = none) :
      Step h .join { h with owner := .idle }
  | joined (ho : h.owner = .joining) (ht : h.thread = some .exited) :
      Step h .join { h with owner := .idle, thread := none, killed := false }
  | sent (signal : Signal) (hb : h.blocked = true) :
      Step h (.send signal) { h with pending := h.pending.insert signal }
  | goneOn (ht : h.thread = some .checking) (hr : h.running = true) :
      Step h .check { h with thread := some .waiting }
  | left (ht : h.thread = some .checking) (hr : h.running = false) :
      Step h .check { h with thread := some .exited }
  | took (signal : Signal) (ht : h.thread = some .waiting) (hp : signal ∈ h.pending) :
      Step h (.sigwait signal)
        { h with thread := some (.woken signal false), pending := h.pending.erase signal }
  | tookKill (ht : h.thread = some .waiting) (hk : h.killed = true) :
      Step h .sigwaitKill { h with thread := some (.woken .sigterm true), killed := false }
  | retried (ht : h.thread = some .waiting) :
      Step h .sigwaitError { h with thread := some .checking }
  | claimed (signal : Signal) (own : Bool) (ht : h.thread = some (.woken signal own))
      (hr : h.running = true) : Step h .recheck { h with thread := some (.claimed signal) }
  | dropped (signal : Signal) (own : Bool) (ht : h.thread = some (.woken signal own))
      (hr : h.running = false) : Step h .recheck { h with thread := some .checking }
  | cleared (signal : Signal) (ht : h.thread = some (.claimed signal)) :
      Step h .clear
        { h with running := false, thread := some .calling, callbacks := h.callbacks ++ [signal] }
  | returned (ht : h.thread = some .calling) :
      Step h .callbackReturns { h with thread := some .exited }

section Cases

variable {h h' : SignalHandler} {e : SignalEvent}

theorem of_guard {p : Prop} [Decidable p] (hif : (if p then some h else none) = some h') :
    p ∧ h = h' := by
  obtain ⟨hp, hs⟩ := Option.ite_none_right_eq_some.mp hif
  exact ⟨hp, Option.some.inj hs⟩

theorem ownerStep_cases (hstep : h.ownerStep e = some h') : Step h e h' := by
  cases e with
  | startExchange =>
    obtain ⟨ho, rfl⟩ := of_guard hstep
    cases hr : h.running with
    | true =>
      have hsame : { h with running := true, owner := OwnerPhase.idle } = h := by
        rw [← hr, ← ho]
      simp only [if_true, hsame]
      exact .alreadyRunning ho hr
    | false => exact .startBegun ho hr
  | block ok =>
    obtain ⟨ho, rfl⟩ := of_guard hstep
    cases ok with
    | true => exact .maskSet ho
    | false => exact .maskFailed ho
  | create ok =>
    obtain ⟨ho, rfl⟩ := of_guard hstep
    cases ok with
    | true =>
      rw [if_pos rfl]
      split
      · rename_i ht
        exact .created ho ht
      · rename_i t ht
        exact .terminated ho (by simp [ht])
    | false => exact .createFailed ho
  | stopExchange =>
    obtain ⟨ho, rfl⟩ := of_guard hstep
    exact .stopBegun ho
  | stopKill =>
    simp only [ownerStep] at hstep
    split at hstep
    · rename_i wasRunning ho
      obtain rfl := Option.some.inj hstep
      exact .killed wasRunning ho
    · cases hstep
  | join =>
    obtain ⟨ho, hstep⟩ := Option.ite_none_right_eq_some.mp hstep
    split at hstep
    · rename_i ht
      obtain rfl := Option.some.inj hstep
      exact .nothingToJoin ho ht
    · rename_i ht
      obtain rfl := Option.some.inj hstep
      exact .joined ho ht
    · cases hstep
  | send | check | sigwait | sigwaitKill | sigwaitError | recheck | clear | callbackReturns =>
    cases hstep

theorem threadStep_cases (hstep : h.threadStep e = some h') : Step h e h' := by
  cases e with
  | check =>
    obtain ⟨ht, rfl⟩ := of_guard hstep
    by_cases hr : h.running = true
    · rw [if_pos hr]
      exact .goneOn ht hr
    · rw [if_neg hr]
      exact .left ht (Bool.eq_false_iff.mpr hr)
  | sigwait signal =>
    obtain ⟨⟨ht, hp⟩, rfl⟩ := of_guard hstep
    exact .took signal ht hp
  | sigwaitKill =>
    obtain ⟨⟨ht, hk⟩, rfl⟩ := of_guard hstep
    exact .tookKill ht hk
  | sigwaitError =>
    obtain ⟨ht, rfl⟩ := of_guard hstep
    exact .retried ht
  | recheck =>
    simp only [threadStep] at hstep
    split at hstep
    · rename_i signal own ht
      obtain rfl := Option.some.inj hstep
      by_cases hr : h.running = true
      · rw [if_pos hr]
        exact .claimed signal own ht hr
      · rw [if_neg hr]
        exact .dropped signal own ht (Bool.eq_false_iff.mpr hr)
    · cases hstep
  | clear =>
    simp only [threadStep] at hstep
    split at hstep
    · rename_i signal ht
      obtain rfl := Option.some.inj hstep
      exact .cleared signal ht
    · cases hstep
  | callbackReturns =>
    obtain ⟨ht, rfl⟩ := of_guard hstep
    exact .returned ht
  | startExchange | block | create | stopExchange | stopKill | join | send => cases hstep

theorem step_cases (hstep : h.step e = some h') : h.terminated = false ∧ Step h e h' := by
  unfold step at hstep
  split at hstep
  · cases hstep
  · rename_i hterm
    refine ⟨Bool.eq_false_iff.mpr hterm, ?_⟩
    cases e with
    | send signal =>
      obtain ⟨hb, rfl⟩ := of_guard hstep
      exact .sent signal hb
    | startExchange | block | create | stopExchange | stopKill | join =>
      exact ownerStep_cases hstep
    | check | sigwait | sigwaitKill | sigwaitError | recheck | clear | callbackReturns =>
      exact threadStep_cases hstep

end Cases

/-! ## What holds between steps -/

/-- The thread has not decided to call the callback, or to leave. -/
def Undecided : Option SignalThread → Prop
  | some .checking | some .waiting | some (.woken _ _) | some (.claimed _) => True
  | _ => False

/-- What `running_` says about the owner and the thread. -/
structure Tidy (h : SignalHandler) : Prop where
  starting : h.owner = .starting ∨ h.owner = .creating → h.running = true ∧ ¬ Undecided h.thread
  stopping : (∃ b, h.owner = .stopping b) ∨ h.owner = .joining → h.running = false
  /-- The signal of `stop` is around only while it waits for the thread. -/
  own : (h.killed = true ∨ ∃ signal, h.thread = some (.woken signal true)) →
    h.owner = .joining ∧ h.thread ≠ none
  undecided : Undecided h.thread → h.running = true ∨ h.owner = .stopping true ∨ h.owner = .joining
  /-- A thread in `sigwait` will not be left there. -/
  awake : h.thread = some .waiting → h.running = true ∨ h.owner = .stopping true ∨ h.killed = true
  terminated : h.terminated = true → h.owner = .creating

section Tidy

variable {h h' : SignalHandler} {e : SignalEvent}

theorem tidy_construct : Tidy construct :=
  ⟨by simp [construct], by simp [construct], by simp [construct], by simp [construct, Undecided],
    by simp [construct], by simp [construct]⟩

/-- The thread moves, and leaves `running_` alone. -/
theorem Tidy.moved (ht : Tidy h) {t : SignalThread} {pending : List Signal} {killed : Bool}
    (hund : Undecided h.thread ∨ ¬ Undecided (some t)) (hkilled : killed = true → h.killed = true)
    (hown : ∀ signal, t = .woken signal true → h.owner = .joining)
    (hwaiting : t = .waiting → h.running = true) :
    Tidy { h with thread := some t, pending := pending, killed := killed } where
  starting ho := by
    obtain ⟨hr, hdecided⟩ := ht.starting ho
    exact ⟨hr, fun h => (hund.resolve_left hdecided) h⟩
  stopping := ht.stopping
  own hk := by
    rcases hk with hk | ⟨signal, hs⟩
    · exact ⟨(ht.own (Or.inl (hkilled hk))).1, by simp⟩
    · exact ⟨hown signal (Option.some.inj hs), by simp⟩
  undecided hu := ht.undecided (hund.resolve_right fun hn => hn hu)
  awake hw := Or.inl (hwaiting (Option.some.inj hw))
  terminated := ht.terminated

/-- The signal of `stop` is not around while the owner is elsewhere. -/
theorem Tidy.quiet (ht : Tidy h) (ho : h.owner ≠ .joining) :
    h.killed = false ∧ ∀ signal, h.thread ≠ some (.woken signal true) :=
  ⟨Bool.eq_false_iff.mpr fun hk => ho (ht.own (Or.inl hk)).1,
    fun signal hs => ho (ht.own (Or.inr ⟨signal, hs⟩)).1⟩

/-- A thread that has not decided runs for an owner that has not called `stop`. -/
theorem Tidy.running (ht : Tidy h) (ho : h.owner = .idle) (hu : Undecided h.thread) :
    h.running = true := by
  rcases ht.undecided hu with hr | hs | hs
  · exact hr
  · simp [ho] at hs
  · simp [ho] at hs

/-- `stop` clears `running_`. -/
theorem Tidy.stopBegun (ht : Tidy h) (ho : h.owner = .idle) (hterm : h.terminated = false) :
    Tidy { h with running := false, owner := .stopping h.running } where
  starting := by simp
  stopping _ := rfl
  own hk := absurd (ht.own hk).1 (by simp [ho])
  undecided hu := Or.inr (Or.inl (by rw [ht.running ho hu]))
  awake hw := Or.inr (Or.inl (by rw [ht.running ho (hw ▸ trivial)]))
  terminated := by simp [hterm]

/-- `stop` sends its signal, if the thread may be in `sigwait`. -/
theorem Tidy.killSent (ht : Tidy h) {wasRunning : Bool} (ho : h.owner = .stopping wasRunning)
    (hterm : h.terminated = false) :
    Tidy { h with
      owner := .joining, killed := wasRunning && h.thread.any (· ≠ .exited) } where
  starting := by simp
  stopping _ := ht.stopping (Or.inl ⟨wasRunning, ho⟩)
  own hk := by
    rcases hk with hk | ⟨signal, hs⟩
    · refine ⟨rfl, fun hnone => ?_⟩
      simp [show h.thread = none from hnone] at hk
    · exact absurd hs ((ht.quiet (by simp [ho])).2 signal)
  undecided _ := Or.inr (Or.inr rfl)
  awake hw := by
    have hwaiting : h.thread = some .waiting := hw
    rcases ht.awake hwaiting with hr | hs | hk
    · simp [ht.stopping (Or.inl ⟨wasRunning, ho⟩)] at hr
    · have htrue : wasRunning = true := OwnerPhase.stopping.inj (ho.symm.trans hs)
      exact Or.inr (Or.inr (by simp [htrue, hwaiting]))
    · simp [(ht.quiet (by simp [ho])).1] at hk
  terminated := by simp [hterm]

/-- `start` throws: it leaves no thread behind that has not decided. -/
theorem Tidy.startFailed (ht : Tidy h) (ho : h.owner = .starting ∨ h.owner = .creating)
    (hterm : h.terminated = false) (running : Bool) :
    Tidy { h with owner := .idle, running := running } where
  starting := by simp
  stopping := by simp
  own hk := by
    have hjoining := (ht.own hk).1
    rcases ho with ho | ho <;> simp [ho] at hjoining
  undecided hu := absurd hu (ht.starting ho).2
  awake hw := absurd (hw ▸ trivial) (ht.starting ho).2
  terminated := by simp [hterm]

theorem tidy_step (ht : Tidy h) (hstep : h.step e = some h') : Tidy h' := by
  obtain ⟨hterm, hcases⟩ := step_cases hstep
  cases hcases with
  | alreadyRunning | sent =>
    exact ⟨ht.starting, ht.stopping, ht.own, ht.undecided, ht.awake, ht.terminated⟩
  | startBegun ho hr =>
    have hdecided : ¬ Undecided h.thread := fun hu => by simp [ht.running ho hu] at hr
    exact ⟨fun _ => ⟨rfl, hdecided⟩, by simp, fun hk => absurd (ht.own hk).1 (by simp [ho]),
      fun _ => Or.inl rfl, fun _ => Or.inl rfl, by simp [hterm]⟩
  | maskSet ho =>
    have hs := ht.starting (Or.inl ho)
    exact ⟨fun _ => hs, by simp, fun hk => absurd (ht.own hk).1 (by simp [ho]),
      fun hu => absurd hu hs.2, fun _ => Or.inl hs.1, fun _ => rfl⟩
  | maskFailed ho => exact ht.startFailed (Or.inl ho) hterm false
  | created ho hnone =>
    have hs := ht.starting (Or.inr ho)
    have hkilled := (ht.quiet (by simp [ho])).1
    exact ⟨by simp, by simp, by simp [hkilled], fun _ => Or.inl hs.1, by simp, by simp [hterm]⟩
  | terminated ho hsome =>
    exact ⟨ht.starting, ht.stopping, ht.own, ht.undecided, ht.awake, fun _ => ho⟩
  | createFailed ho => exact ht.startFailed (Or.inr ho) hterm h.running
  | stopBegun ho => exact ht.stopBegun ho hterm
  | killed wasRunning ho => exact ht.killSent ho hterm
  | nothingToJoin ho hnone =>
    exact ⟨by simp, by simp, fun hk => absurd hnone (ht.own hk).2, by simp [hnone, Undecided],
      by simp [hnone], by simp [hterm]⟩
  | joined ho hexited =>
    exact ⟨by simp, by simp, by simp, by simp [Undecided], by simp, by simp [hterm]⟩
  | goneOn hthread hr =>
    exact ht.moved (Or.inl (by simp [hthread, Undecided])) id (by simp) fun _ => hr
  | took _ hthread | retried hthread | claimed _ _ hthread | dropped _ _ hthread =>
    exact ht.moved (Or.inl (by simp [hthread, Undecided])) id (by simp) (by simp)
  | tookKill hthread hk =>
    exact ht.moved (Or.inl (by simp [hthread, Undecided])) (by simp)
      (fun _ _ => (ht.own (Or.inl hk)).1) (by simp)
  | left | returned => exact ht.moved (Or.inr (by simp [Undecided])) id (by simp) (by simp)
  | cleared signal hthread =>
    refine ⟨fun ho => absurd (hthread ▸ trivial) (ht.starting ho).2, fun _ => rfl, ?_,
      by simp [Undecided], by simp, by simp [hterm]⟩
    rintro (hk | ⟨signal', hs⟩)
    · exact ⟨(ht.own (Or.inl hk)).1, by simp⟩
    · simp at hs

theorem tidy_run {es : List SignalEvent} (ht : Tidy h) (hrun : h.run es = some h') : Tidy h' :=
  runSteps_invariant (fun _ _ _ hi hstep => tidy_step hi hstep) es ht hrun

end Tidy

/-! ## Callbacks -/

/-- Whether the thread holds a signal that was sent to the process. -/
def holds (signal : Signal) : Option SignalThread → ℕ
  | some (.woken s false) => if s = signal then 1 else 0
  | some (.claimed s) => if s = signal then 1 else 0
  | _ => 0

/-- How often a signal that was sent is around: pending, in the hands of the thread, or given to the
callback. -/
def inHand (signal : Signal) (h : SignalHandler) : ℕ :=
  h.pending.count signal + holds signal h.thread + h.callbacks.count signal

/-- How many callbacks there have been, and can be without another thread. -/
def calls (h : SignalHandler) : ℕ :=
  h.callbacks.length +
    match h.thread with
    | some .checking | some .waiting | some (.woken _ _) | some (.claimed _) => 1
    | _ => 0

section Callbacks

variable {h h' : SignalHandler} {e : SignalEvent}

/-- Signals come from outside only: that of `stop` finds `running_` cleared. -/
theorem inHand_step (signal : Signal) (ht : Tidy h) (hstep : h.step e = some h') :
    h'.inHand signal ≤ h.inHand signal + if e == .send signal then 1 else 0 := by
  cases (step_cases hstep).2 with
  | alreadyRunning | startBegun | maskSet | maskFailed | terminated | createFailed | stopBegun
  | killed | nothingToJoin => exact Nat.le_add_right _ _
  | created ho hnone => simp [inHand, holds, hnone]
  | joined ho hexited => simp [inHand, holds, hexited]
  | goneOn hthread | left hthread | retried hthread | returned hthread =>
    simp [inHand, holds, hthread]
  | sent signal' hb =>
    have hcount : (h.pending.insert signal').count signal ≤
        h.pending.count signal + if signal' = signal then 1 else 0 := by
      by_cases hmem : signal' ∈ h.pending
      · rw [List.insert_of_mem hmem]
        exact Nat.le_add_right _ _
      · rw [List.insert_of_not_mem hmem, List.count_cons]
        simp
    simp only [inHand, SignalEvent.send.injEq, beq_iff_eq]
    omega
  | took signal' hthread hp =>
    have hcount : (h.pending.erase signal').count signal + (if signal' = signal then 1 else 0) =
        h.pending.count signal := by
      by_cases heq : signal' = signal
      · subst heq
        have hpos := List.count_pos_iff.mpr hp
        rw [List.count_erase_self, if_pos rfl]
        omega
      · rw [List.count_erase_of_ne (Ne.symm heq), if_neg heq]
        rfl
    simp only [inHand, holds, hthread]
    omega
  | tookKill hthread hk => simp [inHand, holds, hthread]
  | claimed signal' own hthread hr =>
    cases own with
    | false => simp [inHand, holds, hthread]
    | true =>
      have hjoining := (ht.own (Or.inr ⟨signal', hthread⟩)).1
      exact absurd (ht.stopping (Or.inr hjoining)) (by simp [hr])
  | dropped signal' own hthread hr =>
    simp only [inHand, holds]
    omega
  | cleared signal' hthread =>
    simp only [inHand, holds, hthread, List.count_append, List.count_singleton, beq_iff_eq]
    omega

/-- Each thread calls back once at most. -/
theorem calls_step (hstep : h.step e = some h') :
    h'.calls ≤ h.calls + if e == .create true then 1 else 0 := by
  cases (step_cases hstep).2 with
  | alreadyRunning | startBegun | maskSet | maskFailed | terminated | createFailed | stopBegun
  | killed | nothingToJoin | sent => exact Nat.le_add_right _ _
  | created ho hnone => simp [calls, hnone]
  | joined ho hthread | goneOn hthread | left hthread | retried hthread | returned hthread
  | took _ hthread | tookKill hthread | claimed _ _ hthread | dropped _ _ hthread
  | cleared _ hthread => simp [calls, hthread]

variable {es : List SignalEvent}

/-- The callback is called for signals from outside only. -/
theorem count_callbacks_le (hrun : construct.run es = some h) (signal : Signal) :
    h.callbacks.count signal ≤ es.count (.send signal) := by
  have hcount := runSteps_countP (m := inHand signal) (p := (· == .send signal))
    (fun _ _ _ hi hstep => tidy_step hi hstep)
    (fun _ _ _ hi hstep => inHand_step signal hi hstep) es tidy_construct hrun
  have hzero : construct.inHand signal = 0 := rfl
  rw [hzero, Nat.zero_add] at hcount
  exact Nat.le_trans (Nat.le_add_left _ _) hcount

theorem length_callbacks_le (hrun : construct.run es = some h) :
    h.callbacks.length ≤ es.count (.create true) := by
  have hcount := runSteps_countP (m := calls) (p := (· == .create true)) (I := fun _ => True)
    (fun _ _ _ _ _ => trivial) (fun _ _ _ _ hstep => calls_step hstep) es trivial hrun
  have hzero : construct.calls = 0 := rfl
  rw [hzero, Nat.zero_add] at hcount
  exact Nat.le_trans (Nat.le_add_right _ _) hcount

end Callbacks

/-- **The callback is called for signals from outside only.** However `start` and `stop` are called,
and wherever the thread is when they are: the callback has been called with a signal no more often
than that signal was sent to the process, and no more often than threads were created. The signal
that `stop` sends never gets to it. -/
theorem callback_sound (es : List SignalEvent) (h : SignalHandler)
    (hrun : construct.run es = some h) :
    (∀ signal, h.callbacks.count signal ≤ es.count (.send signal)) ∧
      h.callbacks.length ≤ es.count (.create true) :=
  ⟨count_callbacks_le hrun, length_callbacks_le hrun⟩

/-- A signal is sent, and `stop` is called while the thread has it: the callback is called, and not
a second time for the signal of `stop`. -/
def stopWhileClaimed : List SignalEvent :=
  [.startExchange, .block true, .create true, .check, .send .sigint, .sigwait .sigint, .recheck,
    .stopExchange, .stopKill, .clear, .callbackReturns, .join]

theorem callback_sound_stopWhileClaimed :
    ∃ h, construct.run stopWhileClaimed = some h ∧ h.callbacks = [.sigint] ∧
      h.callbacks.count .sigterm ≤ stopWhileClaimed.count (.send .sigterm) := by
  have hend : (construct.run stopWhileClaimed).map (fun h => h.callbacks) = some [.sigint] := by
    decide
  obtain ⟨h, hrun, hs⟩ := Option.map_eq_some_iff.mp hend
  exact ⟨h, hrun, hs, (callback_sound _ h hrun).1 .sigterm⟩

/-! ## `stop` returns -/

/-- A step that needs no call of `start` or `stop`, no signal and no failure. -/
def Internal : SignalEvent → Prop
  | .startExchange | .stopExchange | .send _ | .sigwaitError => False
  | _ => True

/-- How far the thread is from its end, if it has one. -/
def threadEffort (running : Bool) : Option SignalThread → ℕ
  | some .checking => if running then 5 else 1
  | some .waiting => if running then 4 else 3
  | some (.woken _ _) => if running then 3 else 2
  | some (.claimed _) => 2
  | some .calling => 1
  | some .exited => 0
  | none => 0

def ownerEffort : OwnerPhase → ℕ
  | .idle => 0
  | .starting => 8
  | .creating => 7
  | .stopping _ => 2
  | .joining => 1

/-- A bound on the steps still to come. -/
def effort (h : SignalHandler) : ℕ :=
  threadEffort h.running h.thread + ownerEffort h.owner + if h.terminated then 0 else 1

/-- In `stop`, or after it. -/
def InStop (h : SignalHandler) : Prop :=
  (∃ b, h.owner = .stopping b) ∨ h.owner = .joining ∨
    (h.owner = .idle ∧ h.thread = none ∧ h.running = false ∧ h.killed = false)

section Stop

variable {h h' : SignalHandler} {e : SignalEvent}

theorem effort_step (ht : Tidy h) (he : Internal e) (hstep : h.step e = some h') :
    h'.effort < h.effort := by
  obtain ⟨hterm, hcases⟩ := step_cases hstep
  cases hcases with
  | alreadyRunning | startBegun | stopBegun | sent | retried => exact he.elim
  | maskSet ho => simp [effort, ho, ownerEffort]
  | maskFailed ho =>
    have hdecided := (ht.starting (Or.inl ho)).2
    have hsame : threadEffort false h.thread = threadEffort h.running h.thread := by
      cases hthread : h.thread with
      | none => rfl
      | some t =>
        rw [hthread] at hdecided
        cases t with
        | checking | waiting | woken | claimed => exact absurd trivial hdecided
        | calling | exited => rfl
    simp [effort, ho, ownerEffort, hsame]
  | created ho hnone =>
    have hr := (ht.starting (Or.inr ho)).1
    simp [effort, ho, ownerEffort, hnone, threadEffort, hr]
  | terminated ho hsome => simp [effort, hterm]
  | createFailed ho => simp [effort, ho, ownerEffort]
  | killed wasRunning ho => simp [effort, ho, ownerEffort]
  | nothingToJoin ho hnone => simp [effort, ho, ownerEffort]
  | joined ho hexited => simp [effort, ho, ownerEffort, hexited, threadEffort]
  | goneOn hthread hr | left hthread hr | claimed _ _ hthread hr | dropped _ _ hthread hr =>
    simp [effort, hthread, threadEffort, hr]
  | took signal hthread hp | tookKill hthread hp =>
    cases hr : h.running <;> simp [effort, hthread, threadEffort, hr]
  | cleared signal hthread => simp [effort, hthread, threadEffort]
  | returned hthread => simp [effort, hthread, threadEffort]

/-- The thread moves while the owner is in `stop`. -/
theorem InStop.owner (hin : InStop h) (hthread : h.thread ≠ none) :
    (∃ b, h.owner = .stopping b) ∨ h.owner = .joining := by
  rcases hin with hstopping | hjoining | ⟨-, hnone, -⟩
  · exact Or.inl hstopping
  · exact Or.inr hjoining
  · exact absurd hnone hthread

theorem inStop_step (hin : InStop h) (ht : Tidy h)
    (he : e ≠ .startExchange ∧ e ≠ .stopExchange) (hstep : h.step e = some h') : InStop h' := by
  have hnot : h.owner ≠ .starting ∧ h.owner ≠ .creating := by
    rcases hin with ⟨b, ho⟩ | ho | ⟨ho, -⟩ <;> simp [ho]
  cases (step_cases hstep).2 with
  | alreadyRunning | startBegun => exact absurd rfl he.1
  | stopBegun => exact absurd rfl he.2
  | sent => exact hin
  | maskSet ho | maskFailed ho => exact absurd ho hnot.1
  | created ho | terminated ho | createFailed ho => exact absurd ho hnot.2
  | killed wasRunning ho => exact Or.inr (Or.inl rfl)
  | nothingToJoin ho hnone =>
    refine Or.inr (Or.inr ⟨rfl, hnone, ht.stopping (Or.inr ho), ?_⟩)
    exact Bool.eq_false_iff.mpr fun hk => (ht.own (Or.inl hk)).2 hnone
  | joined ho hexited => exact Or.inr (Or.inr ⟨rfl, rfl, ht.stopping (Or.inr ho), rfl⟩)
  | goneOn hthread | left hthread | took _ hthread | tookKill hthread | retried hthread
  | claimed _ _ hthread | dropped _ _ hthread | cleared _ hthread | returned hthread =>
    exact (hin.owner (by simp [hthread])).imp_right Or.inl

/-- In `stop` a failure of `sigwait` gets the thread closer to its end too, and a signal from
outside takes it no further away. -/
theorem effort_inStop_step (hin : InStop h) (ht : Tidy h)
    (he : e ≠ .startExchange ∧ e ≠ .stopExchange) (hstep : h.step e = some h') :
    (h'.effort + if !e.isSend then 1 else 0) ≤ h.effort := by
  have hinternal : Internal e → (h'.effort + if !e.isSend then 1 else 0) ≤ h.effort := by
    intro hi
    have hless := effort_step ht hi hstep
    split <;> omega
  cases (step_cases hstep).2 with
  | alreadyRunning | startBegun => exact absurd rfl he.1
  | stopBegun => exact absurd rfl he.2
  | sent => exact Nat.le_refl _
  | retried hthread =>
    have hr := ht.stopping (hin.owner (by simp [hthread]))
    have hwaiting : threadEffort false (some .waiting) = 3 := rfl
    have hchecking : threadEffort false (some .checking) = 1 := rfl
    simp only [effort, hthread, hr, hwaiting, hchecking, SignalEvent.isSend, Bool.not_false,
      if_true]
    omega
  | maskSet | maskFailed | created | terminated | createFailed | killed | nothingToJoin | joined
  | goneOn | left | took | tookKill | claimed | dropped | cleared | returned =>
    exact hinternal trivial

/-- When nothing can happen, `stop` has returned. -/
theorem stopped_of_quiescent (hin : InStop h) (ht : Tidy h)
    (hquiet : ∀ e, Internal e → h.step e = none) :
    h.owner = .idle ∧ h.thread = none ∧ h.running = false ∧ h.killed = false := by
  rcases hin with ⟨b, ho⟩ | ho | hdone
  · have hterm : h.terminated = false :=
      Bool.eq_false_iff.mpr fun hterm => absurd (ho.symm.trans (ht.terminated hterm)) (by simp)
    exact absurd (hquiet .stopKill trivial) (by simp [step, hterm, ownerStep, ho])
  · have hterm : h.terminated = false :=
      Bool.eq_false_iff.mpr fun hterm => absurd (ho.symm.trans (ht.terminated hterm)) (by simp)
    have hr := ht.stopping (Or.inr ho)
    exfalso
    cases hthread : h.thread with
    | none =>
      exact absurd (hquiet .join trivial) (by simp [step, hterm, ownerStep, ho, hthread])
    | some t =>
      cases t with
      | checking =>
        exact absurd (hquiet .check trivial) (by simp [step, hterm, threadStep, hthread])
      | waiting =>
        -- `running_` was set when `stop` was called, so the thread has been sent a signal
        have hk : h.killed = true := by
          rcases ht.awake hthread with h' | h' | h'
          · simp [hr] at h'
          · simp [ho] at h'
          · exact h'
        exact absurd (hquiet .sigwaitKill trivial) (by simp [step, hterm, threadStep, hthread, hk])
      | woken signal own =>
        exact absurd (hquiet .recheck trivial) (by simp [step, hterm, threadStep, hthread])
      | claimed signal =>
        exact absurd (hquiet .clear trivial) (by simp [step, hterm, threadStep, hthread])
      | calling =>
        exact absurd (hquiet .callbackReturns trivial) (by simp [step, hterm, threadStep, hthread])
      | exited =>
        exact absurd (hquiet .join trivial) (by simp [step, hterm, ownerStep, ho, hthread])
  · exact hdone

/-- In `stop` the thread is at most three steps from its end. -/
theorem effort_inStop (ht : Tidy h) (hstop : (∃ b, h.owner = .stopping b) ∨ h.owner = .joining) :
    h.effort ≤ 6 := by
  have hthread : threadEffort h.running h.thread ≤ 3 := by
    rw [ht.stopping hstop]
    cases h.thread with
    | none => simp [threadEffort]
    | some t => cases t <;> simp [threadEffort]
  have howner : ownerEffort h.owner ≤ 2 := by
    rcases hstop with ⟨b, ho⟩ | ho <;> simp [ho, ownerEffort]
  unfold effort
  split <;> omega

end Stop

/-- **`stop` returns.** From any state that calls of `start` and `stop`, signals and the thread lead
to, once `stop` has been called it takes at most 6 steps of the owner and of the thread to return,
if the callback does, whatever signals are sent meanwhile and whether `sigwait` fails or not; then
the thread is joined, so that no callback is under way. -/
theorem stop_returns (es es' : List SignalEvent) (h h' : SignalHandler)
    (hrun : construct.run es = some h) (hstop : (∃ b, h.owner = .stopping b) ∨ h.owner = .joining)
    (hcalls : ∀ e ∈ es', e ≠ .startExchange ∧ e ≠ .stopExchange) (hrun' : h.run es' = some h') :
    es'.countP (fun e => !e.isSend) ≤ 6 ∧
      ((∀ e, Internal e → h'.step e = none) →
        h'.owner = .idle ∧ h'.thread = none ∧ h'.running = false ∧ h'.killed = false) := by
  have ht := tidy_run tidy_construct hrun
  have hkeeps : ∀ g e g', e ≠ .startExchange ∧ e ≠ .stopExchange → Tidy g ∧ InStop g →
      g.step e = some g' → Tidy g' ∧ InStop g' := fun g e g' he hi hstep =>
    ⟨tidy_step hi.1 hstep, inStop_step hi.2 hi.1 he hstep⟩
  have hin : Tidy h ∧ InStop h := ⟨ht, hstop.imp_right Or.inl⟩
  have hcount := runSteps_countP_bounded (p := fun e => !e.isSend) hkeeps
    (fun _ _ _ he hi hstep => effort_inStop_step hi.2 hi.1 he hstep) es' hcalls hin hrun'
  have heffort := effort_inStop ht hstop
  obtain ⟨ht', hin'⟩ := runSteps_keeps hkeeps es' hcalls hin hrun'
  exact ⟨by omega, stopped_of_quiescent hin' ht'⟩

/-- `stop` has been called while the thread is in `sigwait`. -/
def stoppedInSigwait : SignalHandler where
  running := false
  thread := some .waiting
  owner := .stopping true
  blocked := true
  pending := []
  killed := false
  callbacks := []
  terminated := false

/-- `stop` has returned, and `SIGINT` has been sent meanwhile. -/
def joinedInSigwait : SignalHandler :=
  { stoppedInSigwait with thread := none, owner := .idle, pending := [.sigint] }

/-- The signal of `stop` gets the thread out of `sigwait`, be another one pending or not. -/
theorem stop_returns_waiting :
    construct.run [.startExchange, .block true, .create true, .check, .stopExchange] =
        some stoppedInSigwait ∧
      stoppedInSigwait.run [.stopKill, .send .sigint, .sigwaitKill, .recheck, .check, .join] =
        some joinedInSigwait ∧
      joinedInSigwait.owner = .idle ∧ joinedInSigwait.thread = none := by
  have hrun : construct.run [.startExchange, .block true, .create true, .check, .stopExchange] =
      some stoppedInSigwait := by decide
  have hrun' : stoppedInSigwait.run
      [.stopKill, .send .sigint, .sigwaitKill, .recheck, .check, .join] = some joinedInSigwait := by
    decide
  have hquiet : ∀ e, Internal e → joinedInSigwait.step e = none := by
    intro e he
    cases e with
    | startExchange | stopExchange | send | sigwaitError => exact he.elim
    | block | create | stopKill | join | check | sigwait | sigwaitKill | recheck | clear
    | callbackReturns => rfl
  obtain ⟨howner, hthread, -⟩ := (stop_returns _ _ _ _ hrun (Or.inl ⟨true, rfl⟩)
    (by simp) hrun').2 hquiet
  exact ⟨hrun, hrun', howner, hthread⟩

end SignalHandler

end ConsoleCalculator
