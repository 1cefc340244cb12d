import ConsoleCalculator.Server.Application

/-!
# What holds in every state of the service

The invariants of `ServiceApplication`: what the phase of the main thread says about the others
(`Staged`), and which thread waits for which job of the storage worker (`Coupled`).

Results:
* `available_of_thread`: as long as a network thread has not left, the storage worker is in its loop
  and `stopping_` is not set.
* `workerEvents_run`: what the threads do to the storage worker is a run of `StorageWorker`.
* `closed_joined`: after `storage->stop()` every accepted job has been run.
* **`orderly_step`**: every step keeps both. So the storage worker is stopped only after every
  network thread has left, and every call of it has been answered or is made by one thread.
-/

namespace ConsoleCalculator

open Base RequestHandler

namespace ServiceApplication

/-! ## The storage worker at each stage -/

/-- While `storage->start()` runs. -/
structure Booting (w : StorageWorker) : Prop where
  uncalled : w.calls = []
  running : w.stopping = false
  thread : (w.worker = none ∧ (w.control = .idle ∨ w.control = .startCleared)) ∨
    (w.worker ≠ none ∧ w.control = .startAwaiting)

/-- While there may be network threads. -/
structure Available (w : StorageWorker) : Prop where
  running : w.stopping = false
  idle : w.control = .idle
  entered : w.Entered

/-- While `storage->stop()` runs. -/
structure Closing (w : StorageWorker) : Prop where
  thread : w.Entered ∨ (w.worker = some .failed ∧ w.accepted = [])
  control : (w.control = .idle ∧ w.stopping = false) ∨
    ((w.control = .stopFlagged ∨ w.control = .stopJoining) ∧ w.stopping = true)

/-- After `storage->stop()`, or if it was never needed. -/
structure Closed (w : StorageWorker) : Prop where
  thread : w.worker = none
  executed : w.accepted = w.finished.map Finished.job

section Worker

variable {w w' : StorageWorker} {e : WorkerEvent}

theorem not_call_of_own (he : OwnStep e) : ¬ CallStep e := by
  cases e <;> first | exact he.elim | exact id

/-- Only calls change the list of calls, and what has been accepted. -/
theorem calls_frame (he : ¬ CallStep e) (hstep : w.step e = some w') :
    w'.calls = w.calls ∧ w'.accepted = w.accepted := by
  cases StorageWorker.step_cases hstep with
  | rejected | accepted | notified | received => exact absurd trivial he
  | cleared | started | initialized | initFailed | startReturned | waited | left | took | woke | ran
  | flagged | stopNotified | joined => exact ⟨rfl, rfl⟩

/-- The worker's own steps do not touch the flags; they need a thread, and leave one. -/
theorem own_frame (he : OwnStep e) (hstep : w.step e = some w') :
    (w'.stopping = w.stopping ∧ w'.control = w.control) ∧
    w.worker ≠ none ∧ w.worker ≠ some .failed ∧ w'.worker ≠ none := by
  cases StorageWorker.step_cases hstep with
  | initialized _ _ hw | initFailed _ _ hw | waited hw | left hw | took _ _ hw | woke hw
  | ran _ _ hw =>
    exact ⟨⟨rfl, rfl⟩, by simp [hw], by simp [hw], by simp [StorageWorker.runJob]⟩
  | rejected | accepted | notified | received | cleared | started | startReturned | flagged
  | stopNotified | joined => exact he.elim

theorem entered_own (he : OwnStep e) (hw : w.Entered) (hstep : w.step e = some w') :
    w'.Entered := by
  have hinit : ∀ replies, w.worker ≠ some (.initializing replies) :=
    (StorageWorker.settled_of_entered hw).initialized
  cases StorageWorker.step_cases hstep with
  | initialized replies _ hi => exact absurd hi (hinit replies)
  | initFailed replies _ hi => exact absurd hi (hinit replies)
  | waited => exact Or.inr (Or.inl rfl)
  | left => exact Or.inr (Or.inr (Or.inr rfl))
  | took job => exact Or.inr (Or.inr (Or.inl ⟨job, rfl⟩))
  | woke => exact Or.inl rfl
  | ran => exact Or.inl rfl
  | rejected | accepted | notified | received | cleared | started | startReturned | flagged
  | stopNotified | joined => exact he.elim

theorem booting_own (he : OwnStep e) (h : Booting w) (hstep : w.step e = some w') :
    Booting w' := by
  have hcalls := (calls_frame (not_call_of_own he) hstep).1
  obtain ⟨⟨hstopping, hcontrol⟩, hsome, -, hsome'⟩ := own_frame he hstep
  refine ⟨hcalls.trans h.uncalled, hstopping.trans h.running, Or.inr ⟨hsome', ?_⟩⟩
  rcases h.thread with ⟨hnone, -⟩ | ⟨-, hc⟩
  · exact absurd hnone hsome
  · exact hcontrol.trans hc

theorem available_own (he : OwnStep e) (h : Available w) (hstep : w.step e = some w') :
    Available w' := by
  obtain ⟨⟨hstopping, hcontrol⟩, -⟩ := own_frame he hstep
  exact ⟨hstopping.trans h.running, hcontrol.trans h.idle, entered_own he h.entered hstep⟩

theorem closing_own (he : OwnStep e) (h : Closing w) (hstep : w.step e = some w') :
    Closing w' := by
  obtain ⟨⟨hstopping, hcontrol⟩, -, hfailed, -⟩ := own_frame he hstep
  refine ⟨?_, by rw [hcontrol, hstopping]; exact h.control⟩
  rcases h.thread with hw | ⟨hw, -⟩
  · exact Or.inl (entered_own he hw hstep)
  · exact absurd hw hfailed

/-- `start` goes on to create its thread. -/
theorem booting_start (he : e = .startClear ∨ ∃ replies, e = .startThread replies)
    (h : Booting w) (hstep : w.step e = some w') : Booting w' := by
  cases StorageWorker.step_cases hstep with
  | cleared hc =>
    rcases h.thread with ⟨hnone, -⟩ | ⟨-, hc'⟩
    · exact ⟨h.uncalled, rfl, Or.inl ⟨hnone, Or.inr rfl⟩⟩
    · exact absurd (hc.symm.trans hc') (by simp)
  | started replies hc hw => exact ⟨h.uncalled, h.running, Or.inr ⟨by simp, rfl⟩⟩
  | rejected | accepted | notified | received | initialized | initFailed | startReturned | waited
  | left | took | woke | ran | flagged | stopNotified | joined => simp at he

/-- `start` returns when the thread has entered its loop, or has failed. -/
theorem booted (hc : w.Consistent) (h : Booting w) (hstep : w.step .startReturn = some w') :
    (w.worker ≠ some .failed → Available w') ∧ (w.worker = some .failed → Closing w') := by
  cases StorageWorker.step_cases hstep with
  | startReturned hcontrol hinit =>
    constructor
    · intro hfailed
      refine ⟨h.running, rfl, ?_⟩
      have hsome : w.worker ≠ none := by
        rcases h.thread with ⟨-, hidle | hcleared⟩ | ⟨hsome, -⟩
        · exact absurd (hcontrol.symm.trans hidle) (by simp)
        · exact absurd (hcontrol.symm.trans hcleared) (by simp)
        · exact hsome
      obtain ⟨p, hp⟩ := Option.ne_none_iff_exists'.mp hsome
      cases p with
      | initializing replies => exact absurd hp (hinit replies)
      | checking => exact Or.inl hp
      | waiting => exact Or.inr (Or.inl hp)
      | running job => exact Or.inr (Or.inr (Or.inl ⟨job, hp⟩))
      | exited => exact absurd ((hc.drained hp).1.symm.trans h.running) (by simp)
      | failed => exact absurd hp hfailed
    · intro hfailed
      refine ⟨Or.inr ⟨hfailed, ?_⟩, Or.inl ⟨rfl, h.running⟩⟩
      refine List.eq_nil_iff_forall_not_mem.mpr fun job hj => ?_
      obtain ⟨phase, hcall⟩ := hc.submitted job hj
      simp [h.uncalled] at hcall

/-- `stop` goes on to join. -/
theorem closing_stop (he : e = .stopFlag ∨ e = .stopNotify) (h : Closing w)
    (hstep : w.step e = some w') : Closing w' := by
  cases StorageWorker.step_cases hstep with
  | flagged hc => exact ⟨h.thread, Or.inr ⟨Or.inl rfl, rfl⟩⟩
  | stopNotified hc =>
    have hstopping : w.stopping = true := by
      rcases h.control with ⟨hidle, -⟩ | ⟨-, hstopping⟩
      · exact absurd (hc.symm.trans hidle) (by simp)
      · exact hstopping
    refine ⟨?_, Or.inr ⟨Or.inr rfl, hstopping⟩⟩
    rcases h.thread with hw | ⟨hw, hnone⟩
    · exact Or.inl (StorageWorker.entered_notified hw rfl)
    · exact Or.inr ⟨by simp [hw, WorkerPhase.notified], hnone⟩
  | rejected | accepted | notified | received | cleared | started | initialized | initFailed
  | startReturned | waited | left | took | woke | ran | joined => simp at he

/-- A thread that has entered its loop can be joined only when it has left it. -/
theorem exited_of_entered (h : w.Entered)
    (hw : w.worker = none ∨ w.worker = some .exited ∨ w.worker = some .failed) :
    w.worker = some .exited := by
  rcases h with h | h | ⟨job, h⟩ | h
  · simp [h] at hw
  · simp [h] at hw
  · simp [h] at hw
  · exact h

/-- A worker that has been joined has run every job. -/
theorem closed_joined (hc : w.Consistent) (h : Closing w) (hstep : w.step .stopJoin = some w') :
    Closed w' := by
  cases StorageWorker.step_cases hstep with
  | joined hcontrol hw =>
    refine ⟨rfl, ?_⟩
    have hacc := hc.accounted
    rcases h.thread with hentered | ⟨hfailed, hnone⟩
    · have hexited := exited_of_entered hentered hw
      rw [(hc.drained hexited).2] at hacc
      simpa [StorageWorker.current, hexited] using hacc
    · rw [hnone] at hacc
      have hempty := (List.append_eq_nil_iff.mp (List.append_eq_nil_iff.mp hacc.symm).1).1
      exact hnone.trans hempty.symm

end Worker

/-! ## The stages of a run -/

/-- Every network thread has left. -/
def AllExited (threads : List NetworkPhase) : Prop := ∀ t ∈ threads, t = .exited

/-- What the phase of the main thread says about the network threads and the storage worker. -/
def Staged : MainPhase → Bool → List NetworkPhase → StorageWorker → Prop
  | .startingSignals, _, threads, w => threads = [] ∧ ∃ history, w = .construct history
  | .startingStorage, _, threads, w => threads = [] ∧ Booting w
  | .startingServer, _, _, w => Available w
  | .waiting, _, _, w => Available w
  | .stoppingServer, _, _, w => Available w
  | .joining index, ioStopped, threads, w =>
    Available w ∧ ioStopped = true ∧ ∀ j < index, threads[j]? = some .exited
  | .stoppingStorage, _, threads, w => AllExited threads ∧ Closing w
  | .stoppingSignals, _, threads, w => AllExited threads ∧ Closed w
  | .joiningSignals, _, threads, w => AllExited threads ∧ Closed w
  | .ended, _, threads, w => AllExited threads ∧ Closed w

section Staged

variable {main : MainPhase} {ioStopped : Bool} {threads : List NetworkPhase} {w w' : StorageWorker}
  {i : ℕ} {t : NetworkPhase}

/-- As long as some network thread has not left, the storage worker serves. -/
theorem available_of_thread (h : Staged main ioStopped threads w) (hi : threads[i]? = some t)
    (ht : t ≠ .exited) : Available w := by
  have hmem : t ∈ threads := List.mem_of_getElem? hi
  cases main with
  | startingSignals | startingStorage => rw [h.1] at hmem; exact absurd hmem List.not_mem_nil
  | startingServer | waiting | stoppingServer => exact h
  | joining index => exact h.1
  | stoppingStorage | stoppingSignals | joiningSignals | ended => exact absurd (h.1 t hmem) ht

/-- A network thread that has not left may move and use the storage worker. -/
theorem staged_network (h : Staged main ioStopped threads w) (hi : threads[i]? = some t)
    (ht : t ≠ .exited) (t' : NetworkPhase) (hw : Available w') :
    Staged main ioStopped (threads.set i t') w' := by
  have hmem : t ∈ threads := List.mem_of_getElem? hi
  cases main with
  | startingSignals | startingStorage => rw [h.1] at hmem; exact absurd hmem List.not_mem_nil
  | startingServer | waiting | stoppingServer => exact hw
  | joining index =>
    refine ⟨hw, h.2.1, fun j hj => ?_⟩
    have hij : i ≠ j := by
      rintro rfl
      exact ht (Option.some.inj (hi.symm.trans (h.2.2 i hj)))
    rw [List.getElem?_set_ne hij]
    exact h.2.2 j hj
  | stoppingStorage | stoppingSignals | joiningSignals | ended => exact absurd (h.1 t hmem) ht

theorem staged_own (h : Staged main ioStopped threads w) {e : WorkerEvent} (he : OwnStep e)
    (hw : w.step e = some w') : Staged main ioStopped threads w' := by
  have hsome := (own_frame he hw).2.1
  cases main with
  | startingSignals =>
    obtain ⟨-, history, rfl⟩ := h
    exact absurd rfl hsome
  | startingStorage => exact ⟨h.1, booting_own he h.2 hw⟩
  | startingServer | waiting | stoppingServer => exact available_own he h hw
  | joining index => exact ⟨available_own he h.1 hw, h.2⟩
  | stoppingStorage => exact ⟨h.1, closing_own he h.2 hw⟩
  | stoppingSignals | joiningSignals | ended => exact absurd h.2.thread hsome

/-- The thread is in its initialization only while `storage->start()` waits for it. -/
theorem booting_of_initializing {replies : InitReplies} (h : Staged main ioStopped threads w)
    (hw : w.worker = some (.initializing replies)) :
    main = .startingStorage ∧ w.control = .startAwaiting := by
  have hentered : ¬ w.Entered := by
    rintro (h | h | ⟨job, h⟩ | h) <;> simp [hw] at h
  cases main with
  | startingSignals =>
    obtain ⟨-, history, rfl⟩ := h
    cases hw
  | startingStorage =>
    rcases h.2.thread with ⟨hnone, -⟩ | ⟨-, hc⟩
    · simp [hw] at hnone
    · exact ⟨rfl, hc⟩
  | startingServer | waiting | stoppingServer => exact absurd h.entered hentered
  | joining index => exact absurd h.1.entered hentered
  | stoppingStorage =>
    rcases h.2.thread with hin | ⟨hfailed, -⟩
    · exact absurd hin hentered
    · simp [hw] at hfailed
  | stoppingSignals | joiningSignals | ended => exact absurd (hw.symm.trans h.2.thread) (by simp)

end Staged

/-! ## Calls and their threads -/

/-- Every call that has not returned is made by one network thread. -/
structure Coupled (threads : List NetworkPhase) (calls : List StorageCall) (accepted : List Job) :
    Prop where
  /-- A thread in a call waits for a job of its own. -/
  caller : ∀ (i ticket : ℕ) (op : StorageOp) (rest : op.Ans → HandlerM String),
    threads[i]? = some (.calling ticket op rest) →
      (calls[ticket]? = some ⟨op, .notifying⟩ ∨ calls[ticket]? = some ⟨op, .awaiting⟩) ∧
        ⟨ticket, op⟩ ∈ accepted
  /-- No two threads wait for one job. -/
  alone : ∀ (i j ticket : ℕ) (op op' : StorageOp) (rest : op.Ans → HandlerM String)
    (rest' : op'.Ans → HandlerM String), threads[i]? = some (.calling ticket op rest) →
      threads[j]? = some (.calling ticket op' rest') → i = j
  /-- A call has returned, or is made by some thread. -/
  attended : ∀ (ticket : ℕ) (op : StorageOp) (phase : CallPhase),
    calls[ticket]? = some ⟨op, phase⟩ → (∃ reply, phase = .returned reply) ∨
      ∃ (i : ℕ) (rest : op.Ans → HandlerM String), threads[i]? = some (.calling ticket op rest)

/-- The thread is in no call. -/
def Outside : NetworkPhase → Prop
  | .calling _ _ _ => False
  | _ => True

section Coupled

variable {threads : List NetworkPhase} {calls : List StorageCall} {accepted : List Job} {i : ℕ}
  {t t' : NetworkPhase}

theorem coupled_start : Coupled [] [] [] where
  caller i ticket op rest h := by simp at h
  alone i j ticket op op' rest rest' h := by simp at h
  attended ticket op phase h := by simp at h

theorem calling_of_set {j ticket : ℕ} {op : StorageOp} {rest : op.Ans → HandlerM String}
    (ht' : Outside t') (h : (threads.set i t')[j]? = some (.calling ticket op rest)) :
    threads[j]? = some (.calling ticket op rest) := by
  rcases StorageWorker.getElem?_set_cases h with ⟨-, rfl⟩ | h
  · exact ht'.elim
  · exact h

/-- A thread in a call is not the one outside of calls that moves. -/
theorem calling_set {j ticket : ℕ} {op : StorageOp} {rest : op.Ans → HandlerM String}
    (hi : threads[i]? = some t) (ht : Outside t)
    (hj : threads[j]? = some (.calling ticket op rest)) (t' : NetworkPhase) :
    (threads.set i t')[j]? = some (.calling ticket op rest) := by
  have hij : i ≠ j := by
    rintro rfl
    obtain rfl := Option.some.inj (hi.symm.trans hj)
    exact ht
  rw [List.getElem?_set_ne hij]
  exact hj

/-- A thread outside of calls goes on to something else outside of calls. -/
theorem coupled_outside (h : Coupled threads calls accepted) (hi : threads[i]? = some t)
    (ht : Outside t) (ht' : Outside t') : Coupled (threads.set i t') calls accepted where
  caller j ticket op rest hj := h.caller j ticket op rest (calling_of_set ht' hj)
  alone j k ticket op op' rest rest' hj hk :=
    h.alone j k ticket op op' rest rest' (calling_of_set ht' hj) (calling_of_set ht' hk)
  attended ticket op phase hc := by
    refine (h.attended ticket op phase hc).imp_right ?_
    rintro ⟨j, rest, hj⟩
    exact ⟨j, rest, calling_set hi ht hj t'⟩

theorem coupled_created (h : Coupled threads calls accepted) :
    Coupled (threads ++ [.idle]) calls accepted := by
  have hold : ∀ (j ticket : ℕ) (op : StorageOp) (rest : op.Ans → HandlerM String),
      (threads ++ [.idle])[j]? = some (.calling ticket op rest) →
        threads[j]? = some (.calling ticket op rest) := by
    intro j ticket op rest hj
    rcases StorageWorker.getElem?_concat_iff.mp hj with hj | ⟨-, hj⟩
    · exact hj
    · cases hj
  refine ⟨fun j ticket op rest hj => h.caller j ticket op rest (hold j ticket op rest hj), ?_, ?_⟩
  · intro j k ticket op op' rest rest' hj hk
    exact h.alone j k ticket op op' rest rest' (hold _ _ _ _ hj) (hold _ _ _ _ hk)
  · intro ticket op phase hc
    refine (h.attended ticket op phase hc).imp_right ?_
    rintro ⟨j, rest, hj⟩
    exact ⟨j, rest, StorageWorker.getElem?_concat_iff.mpr (Or.inl hj)⟩

/-- `enqueue` leaves a call with a ticket of its own. -/
theorem coupled_accepted (h : Coupled threads calls accepted) (hi : threads[i]? = some t)
    (ht : Outside t) (op : StorageOp) (rest : op.Ans → HandlerM String) :
    Coupled (threads.set i (.calling calls.length op rest)) (calls ++ [⟨op, .notifying⟩])
      (accepted ++ [⟨calls.length, op⟩]) := by
  have hlt : i < threads.length := (List.getElem?_eq_some_iff.mp hi).1
  have hold : ∀ (j ticket : ℕ) (op' : StorageOp) (rest' : op'.Ans → HandlerM String),
      threads[j]? = some (.calling ticket op' rest') → ticket < calls.length := by
    intro j ticket op' rest' hj
    rcases (h.caller j ticket op' rest' hj).1 with hc | hc <;>
      exact (List.getElem?_eq_some_iff.mp hc).1
  constructor
  · intro j ticket op' rest' hj
    rcases StorageWorker.getElem?_set_cases hj with ⟨-, he⟩ | hj
    · cases he
      exact ⟨Or.inl (StorageWorker.getElem?_concat_iff.mpr (Or.inr ⟨rfl, rfl⟩)),
        List.mem_append_right _ (List.mem_singleton.mpr rfl)⟩
    · obtain ⟨hc, hm⟩ := h.caller j ticket op' rest' hj
      refine ⟨hc.imp ?_ ?_, List.mem_append_left _ hm⟩ <;>
        exact fun hc => StorageWorker.getElem?_concat_iff.mpr (Or.inl hc)
  · intro j k ticket op' op'' rest' rest'' hj hk
    rcases StorageWorker.getElem?_set_cases hj with ⟨rfl, he⟩ | hj' <;>
      rcases StorageWorker.getElem?_set_cases hk with ⟨rfl, he'⟩ | hk'
    · rfl
    · cases he
      exact absurd (hold k _ op'' rest'' hk') (Nat.lt_irrefl _)
    · cases he'
      exact absurd (hold j _ op' rest' hj') (Nat.lt_irrefl _)
    · exact h.alone j k ticket op' op'' rest' rest'' hj' hk'
  · intro ticket op' phase hc
    rcases StorageWorker.getElem?_concat_iff.mp hc with hc | ⟨rfl, he⟩
    · refine (h.attended ticket op' phase hc).imp_right ?_
      rintro ⟨j, rest', hj⟩
      exact ⟨j, rest', calling_set hi ht hj _⟩
    · cases he
      exact Or.inr ⟨i, rest, List.getElem?_set_self hlt⟩

theorem coupled_notified (h : Coupled threads calls accepted) {ticket : ℕ} {op : StorageOp}
    (hc : calls[ticket]? = some ⟨op, .notifying⟩) :
    Coupled threads (calls.set ticket ⟨op, .awaiting⟩) accepted := by
  have hlt : ticket < calls.length := (List.getElem?_eq_some_iff.mp hc).1
  refine ⟨fun j ticket' op' rest hj => ?_, h.alone, fun ticket' op' phase hp => ?_⟩
  · obtain ⟨hcall, hm⟩ := h.caller j ticket' op' rest hj
    refine ⟨?_, hm⟩
    by_cases he : ticket = ticket'
    · subst he
      have hop : op' = op := by
        rcases hcall with hcall | hcall <;>
          exact ((StorageCall.mk.inj (Option.some.inj (hc.symm.trans hcall))).1).symm
      exact Or.inr (by rw [hop, List.getElem?_set_self hlt])
    · rw [List.getElem?_set_ne he]
      exact hcall
  · rcases StorageWorker.getElem?_set_cases hp with ⟨rfl, he⟩ | hp
    · obtain ⟨rfl, -⟩ := StorageCall.mk.inj he
      exact Or.inr ((h.attended ticket' op' _ hc).resolve_left (by simp))
    · exact h.attended ticket' op' phase hp

/-- A call returns to the thread that made it. -/
theorem coupled_received (h : Coupled threads calls accepted) {ticket : ℕ} {op : StorageOp}
    {rest : op.Ans → HandlerM String} (hi : threads[i]? = some (.calling ticket op rest))
    (ht' : Outside t') (reply : StorageReply) :
    Coupled (threads.set i t') (calls.set ticket ⟨op, .returned reply⟩) accepted := by
  constructor
  · intro j ticket' op' rest' hj
    have hj' := calling_of_set ht' hj
    obtain ⟨hcall, hm⟩ := h.caller j ticket' op' rest' hj'
    have hne : ticket ≠ ticket' := by
      rintro rfl
      obtain rfl := h.alone i j ticket op op' rest rest' hi hj'
      rw [List.getElem?_set_self (List.getElem?_eq_some_iff.mp hi).1] at hj
      obtain rfl := Option.some.inj hj
      exact ht'
    rw [List.getElem?_set_ne hne]
    exact ⟨hcall, hm⟩
  · intro j k ticket' op' op'' rest' rest'' hj hk
    exact h.alone j k ticket' op' op'' rest' rest'' (calling_of_set ht' hj) (calling_of_set ht' hk)
  · intro ticket' op' phase hp
    by_cases he : ticket = ticket'
    · subst he
      rcases StorageWorker.getElem?_set_cases hp with ⟨-, hcall⟩ | hp'
      · exact Or.inl ⟨reply, (StorageCall.mk.inj hcall).2⟩
      · rw [List.getElem?_set_self (List.getElem?_eq_some_iff.mp hp').1] at hp
        exact Or.inl ⟨reply, (StorageCall.mk.inj (Option.some.inj hp)).2.symm⟩
    · rw [List.getElem?_set_ne he] at hp
      refine (h.attended ticket' op' phase hp).imp_right ?_
      rintro ⟨j, rest', hj⟩
      have hij : i ≠ j := by
        rintro rfl
        exact he (NetworkPhase.calling.inj (Option.some.inj (hi.symm.trans hj))).1
      exact ⟨j, rest', by rw [List.getElem?_set_ne hij]; exact hj⟩

end Coupled

/-! ## Every step -/

/-- The stages of the main thread, the accounts of the storage worker, and the calls. -/
structure Orderly (s : ServiceApplication) : Prop where
  consistent : s.storage.Consistent
  staged : Staged s.main s.ioStopped s.threads s.storage
  coupled : Coupled s.threads s.storage.calls s.storage.accepted

theorem orderly_launch (history : OperationHistory) : Orderly (launch history) :=
  ⟨StorageWorker.consistent_construct history, ⟨rfl, history, rfl⟩, coupled_start⟩

section Steps

variable {M : CalculatorMath} {lib : Protocol} {workerThreads : Int32}
  {s s' : ServiceApplication}

/-- Steps of the worker thread, of `start` and of `stop` make no calls. -/
theorem Orderly.of_worker (h : Orderly s) {storage : StorageWorker} {main : MainPhase}
    {e : WorkerEvent} (he : ¬ CallStep e) (hw : s.storage.step e = some storage)
    (hstaged : Staged main s.ioStopped s.threads storage) (unwinding : Bool) :
    Orderly { s with storage := storage, main := main, unwinding := unwinding } := by
  obtain ⟨hcalls, hacc⟩ := calls_frame he hw
  refine ⟨StorageWorker.consistent_step h.consistent hw, hstaged, ?_⟩
  show Coupled s.threads storage.calls storage.accepted
  rw [hcalls, hacc]
  exact h.coupled

/-- A network thread moves between two phases outside of a call. -/
theorem Orderly.moved (h : Orderly s) {i : ℕ} {t t' : NetworkPhase} (hi : s.threads[i]? = some t)
    (ht : t ≠ .exited) (hout : Outside t) (hout' : Outside t') : Orderly (s.moveThread i t') := by
  have hw := available_of_thread h.staged hi ht
  exact ⟨h.consistent, staged_network h.staged hi ht t' hw,
    coupled_outside h.coupled hi hout hout'⟩

theorem orderly_network (h : Orderly s) {i : ℕ} {e : NetworkEvent}
    (hmove : NetworkMove M lib s i e s') : Orderly s' := by
  cases hmove with
  | requested json millis hi hio => exact h.moved hi (by simp) trivial trivial
  | rejected op rest hi hs =>
    have hw := available_of_thread h.staged hi (by simp)
    exact absurd (hs.symm.trans hw.running) (by simp)
  | accepted op rest hi hs =>
    have hw := available_of_thread h.staged hi (by simp)
    have hstep : s.storage.step (.submit op) = some (s.storage.enqueue op) := rfl
    have henqueue : s.storage.enqueue op =
        { s.storage with
          jobs := s.storage.jobs ++ [⟨s.storage.calls.length, op⟩]
          calls := s.storage.calls ++ [⟨op, .notifying⟩]
          accepted := s.storage.accepted ++ [⟨s.storage.calls.length, op⟩] } := by
      simp [StorageWorker.enqueue, hs]
    refine ⟨StorageWorker.consistent_step h.consistent hstep, ?_, ?_⟩
    · refine staged_network h.staged hi (by simp) _ ?_
      rw [henqueue]
      exact ⟨hw.running, hw.idle, hw.entered⟩
    · show Coupled _ (s.storage.enqueue op).calls (s.storage.enqueue op).accepted
      rw [henqueue]
      exact coupled_accepted h.coupled hi trivial op rest
  | notified ticket op rest storage hi hw =>
    have hav := available_of_thread h.staged hi (by simp)
    obtain ⟨hlt, hget⟩ := List.getElem?_eq_some_iff.mp hi
    have hsame : s.threads.set i (.calling ticket op rest) = s.threads := by
      rw [← hget, List.set_getElem_self]
    have hcons := StorageWorker.consistent_step h.consistent hw
    cases StorageWorker.step_cases hw with
    | notified _ op' hc =>
      refine ⟨hcons, ?_, coupled_notified h.coupled hc⟩
      show Staged s.main s.ioStopped s.threads _
      rw [← hsame]
      exact staged_network h.staged hi (by simp) _
        ⟨hav.running, hav.idle, StorageWorker.entered_notified hav.entered rfl⟩
  | received ticket op rest storage answer hi hw ha =>
    have hav := available_of_thread h.staged hi (by simp)
    have hcons := StorageWorker.consistent_step h.consistent hw
    cases StorageWorker.step_cases hw with
    | received _ op' f hc hf ht =>
      have hop : op' = op := by
        rcases (h.coupled.caller i ticket op rest hi).1 with hcall | hcall <;>
          exact (StorageCall.mk.inj (Option.some.inj (hc.symm.trans hcall))).1
      subst hop
      have hout : Outside (.handling (rest answer)) := trivial
      refine ⟨hcons, ?_, coupled_received h.coupled hi hout f.reply⟩
      exact staged_network h.staged hi (by simp) _ ⟨hav.running, hav.idle, hav.entered⟩
  | responded text hi =>
    have hmoved : Orderly (s.moveThread i .idle) := h.moved hi (by simp) trivial trivial
    exact ⟨hmoved.consistent, hmoved.staged, hmoved.coupled⟩
  | aborted outcome hi => exact ⟨h.consistent, h.staged, h.coupled⟩
  | left hi hl => exact h.moved hi (by simp) trivial trivial

/-- **The storage worker outlives the network threads**, and every call is answered or attended
to. -/
theorem orderly_step {e : ApplicationEvent} (h : Orderly s)
    (hstep : step M lib workerThreads s e = some s') : Orderly s' := by
  have hstaged := h.staged
  cases (step_cases hstep).2 with
  | signalsStarted hm =>
    rw [hm] at hstaged
    obtain ⟨hnone, history, hs⟩ := hstaged
    refine ⟨h.consistent, ⟨hnone, ?_⟩, h.coupled⟩
    show Booting s.storage
    rw [hs]
    exact ⟨rfl, rfl, Or.inl ⟨rfl, Or.inl rfl⟩⟩
  | signalsFailed hm =>
    rw [hm] at hstaged
    obtain ⟨hnone, history, hs⟩ := hstaged
    refine ⟨h.consistent, ⟨?_, ?_⟩, h.coupled⟩
    · intro t ht
      exact absurd (hnone ▸ ht) List.not_mem_nil
    · show Closed s.storage
      rw [hs]
      exact ⟨rfl, rfl⟩
  | caught | signalled => exact ⟨h.consistent, h.staged, h.coupled⟩
  | worked e storage he hw =>
    exact h.of_worker (not_call_of_own he) hw (staged_own h.staged he hw) s.unwinding
  | storageStarting e storage he hw hm =>
    rw [hm] at hstaged
    have hcall : ¬ CallStep e := by rcases he with rfl | ⟨replies, rfl⟩ <;> exact id
    refine h.of_worker hcall hw ?_ s.unwinding
    rw [hm]
    exact ⟨hstaged.1, booting_start he hstaged.2 hw⟩
  | storageStarted storage hw hm hf =>
    rw [hm] at hstaged
    refine h.of_worker id hw ?_ s.unwinding
    exact (booted h.consistent hstaged.2 hw).1 hf
  | storageFailed storage hw hm hf =>
    rw [hm] at hstaged
    refine h.of_worker id hw ?_ true
    refine ⟨fun t ht => ?_, (booted h.consistent hstaged.2 hw).2 hf⟩
    exact absurd (hstaged.1 ▸ ht) List.not_mem_nil
  | storageStopping e storage he hw hm =>
    rw [hm] at hstaged
    have hcall : ¬ CallStep e := by rcases he with rfl | rfl <;> exact id
    refine h.of_worker hcall hw ?_ s.unwinding
    rw [hm]
    exact ⟨hstaged.1, closing_stop he hstaged.2 hw⟩
  | storageStopped storage hw hm =>
    rw [hm] at hstaged
    refine h.of_worker id hw ?_ s.unwinding
    exact ⟨hstaged.1, closed_joined h.consistent hstaged.2 hw⟩
  | threadCreated hm hn =>
    rw [hm] at hstaged
    refine ⟨h.consistent, ?_, coupled_created h.coupled⟩
    show Staged s.main _ _ _
    rw [hm]
    exact hstaged
  | serverStarted hm hn =>
    rw [hm] at hstaged
    exact ⟨h.consistent, hstaged, h.coupled⟩
  | serverFailed hm =>
    rw [hm] at hstaged
    exact ⟨h.consistent, hstaged, h.coupled⟩
  | woken hm hs =>
    rw [hm] at hstaged
    exact ⟨h.consistent, hstaged, h.coupled⟩
  | ioStopped hm =>
    rw [hm] at hstaged
    exact ⟨h.consistent, ⟨hstaged, rfl, fun j hj => absurd hj (Nat.not_lt_zero j)⟩, h.coupled⟩
  | threadJoined index hm hi =>
    rw [hm] at hstaged
    refine ⟨h.consistent, ⟨hstaged.1, hstaged.2.1, fun j hj => ?_⟩, h.coupled⟩
    rcases Nat.lt_succ_iff_lt_or_eq.mp hj with hlt | rfl
    · exact hstaged.2.2 j hlt
    · exact hi
  | serverStopped hm =>
    rw [hm] at hstaged
    obtain ⟨hav, -, hall⟩ := hstaged
    refine ⟨h.consistent, ⟨fun t ht => ?_, ?_⟩, h.coupled⟩
    · obtain ⟨j, hlt, hget⟩ := List.mem_iff_getElem.mp ht
      exact Option.some.inj ((List.getElem?_eq_some_iff.mpr ⟨hlt, hget⟩).symm.trans (hall j hlt))
    · exact ⟨Or.inl hav.entered, Or.inl ⟨hav.idle, hav.running⟩⟩
  | signalsStopping hm =>
    rw [hm] at hstaged
    exact ⟨h.consistent, hstaged, h.coupled⟩
  | signalsJoined hm hs =>
    rw [hm] at hstaged
    exact ⟨h.consistent, hstaged, h.coupled⟩
  | network i e s' hmove => exact orderly_network h hmove

/-! ## The storage worker in the service -/

/-- What a step does to the storage worker. -/
def workerEvent (s : ServiceApplication) : ApplicationEvent → Option WorkerEvent
  | .worker e => some e
  | .network i .submit =>
    match s.threads[i]? with
    | some (.handling (.call op _)) => some (.submit op)
    | _ => none
  | .network i .notify =>
    match s.threads[i]? with
    | some (.calling ticket _ _) => some (.notifyOne ticket)
    | _ => none
  | .network i .receive =>
    match s.threads[i]? with
    | some (.calling ticket _ _) => some (.getFuture ticket)
    | _ => none
  | _ => none

/-- The storage worker moves by its own steps only. -/
theorem worker_simulation :
    Simulation (step M lib workerThreads) StorageWorker.step workerEvent
      fun s w => s.storage = w := by
  refine .of_step fun {s w e s'} hR hstep => ?_
  subst hR
  cases (step_cases hstep).2 with
  | worked _ storage _ hw | storageStarting _ storage _ hw | storageStarted storage hw
  | storageFailed storage hw | storageStopping _ storage _ hw | storageStopped storage hw =>
    exact Or.inr ⟨_, storage, rfl, hw, rfl⟩
  | network i e s' hmove =>
    cases hmove with
    | rejected op _ hi | accepted op _ hi =>
      exact Or.inr ⟨.submit op, _, by simp [workerEvent, hi], rfl, rfl⟩
    | notified ticket op rest storage hi hw =>
      exact Or.inr ⟨.notifyOne ticket, storage, by simp [workerEvent, hi], hw, rfl⟩
    | received ticket op rest storage answer hi hw ha =>
      exact Or.inr ⟨.getFuture ticket, storage, by simp [workerEvent, hi], hw, rfl⟩
    | requested | responded | aborted | left => exact Or.inl ⟨rfl, rfl⟩
  | signalsStarted | signalsFailed | caught | signalled | threadCreated | serverStarted
  | serverFailed | woken | ioStopped | threadJoined | serverStopped | signalsStopping
  | signalsJoined => exact Or.inl ⟨rfl, rfl⟩

end Steps

/-- What PostgreSQL reports of a job. -/
def statement : ApplicationEvent → Option StatementReply
  | .worker e => e.statement
  | _ => none

/-- What a run does to the storage worker. -/
def workerEvents (M : CalculatorMath) (lib : Protocol) (workerThreads : Int32)
    (history : OperationHistory) (es : List ApplicationEvent) : List WorkerEvent :=
  trace (step M lib workerThreads) workerEvent (launch history) es

theorem workerEvents_run {M : CalculatorMath} {lib : Protocol} {workerThreads : Int32}
    {history : OperationHistory} {es : List ApplicationEvent} {s : ServiceApplication}
    (hrun : (launch history).run M lib workerThreads es = some s) :
    (StorageWorker.construct history).run (workerEvents M lib workerThreads history es) =
      some s.storage := by
  obtain ⟨w, hw, rfl⟩ := worker_simulation.run es rfl hrun
  exact hw

theorem workerEvents_statement {M : CalculatorMath} {lib : Protocol} {workerThreads : Int32}
    {history : OperationHistory} {es : List ApplicationEvent} {s : ServiceApplication}
    (hrun : (launch history).run M lib workerThreads es = some s) :
    (workerEvents M lib workerThreads history es).filterMap WorkerEvent.statement =
      es.filterMap statement := by
  refine filterMap_trace (fun s e s' hstep => ?_) es hrun
  cases (step_cases hstep).2 with
  | network i e s' hmove =>
    -- the calls of a handler are not statements
    cases hmove with
    | rejected _ _ hi | accepted _ _ hi | notified _ _ _ _ hi | received _ _ _ _ _ hi =>
      simp [workerEvent, hi, statement, WorkerEvent.statement]
    | requested | responded | aborted | left => rfl
  | worked | storageStarting | storageStarted | storageFailed | storageStopping | storageStopped =>
    rfl
  | signalsStarted | signalsFailed | caught | signalled | threadCreated | serverStarted
  | serverFailed | woken | ioStopped | threadJoined | serverStopped | signalsStopping
  | signalsJoined => rfl

end ServiceApplication

end ConsoleCalculator
