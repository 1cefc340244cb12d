import ConsoleCalculator.Server.AtomicService

/-!
# Whole runs of the service

A rule for runs of `ServiceApplication::run` with all its threads. What `RequestHandler::handle`
ends with, over a storage that other threads use as well (`Base.Prog.Relies`), holds of the
responses of the service: the application refines the atomic service (`simulation`), whose workers
keep to it (`Base.Workers.keeps_run`). Requests are picked up over a cache that
`StorageService::initialize` has filled, and it is filled once (`Stocked`).

Results:
* `stocked_step`: the table only grows, and the cache is empty until it is filled from it.
* **`keeps_from`**: the rule.
* `blamed_run`: a process is aborted by a call of `handle` that ended without a response.
* **`records_run`**: the rule for a property of all records.
-/

namespace ConsoleCalculator

open Base RequestHandler

namespace ServiceApplication

/-! ## What is in the storage -/

/-- `initialize` has not completed, and has not failed. -/
def Unloaded (main : MainPhase) (worker : Option WorkerPhase) : Prop :=
  (main = .startingSignals ∨ main = .startingStorage) ∧
    (worker = none ∨ ∃ replies, worker = some (.initializing replies))

/-- The table has the rows it was started with, and no others until the cache is filled with
them. -/
structure Stocked (history : OperationHistory) (s : ServiceApplication) : Prop where
  rows : history.rows <+: s.storage.storage.postgresRepository.rows
  cold : Unloaded s.main s.storage.worker → s.storage.storage = .fresh history
  warm : s.storage.Entered → ∀ r ∈ history.rows,
    (s.storage.storage.cacheRepository.findByKey r.cacheKey).isSome = true

end ServiceApplication

/-- Nothing is lost: rows stay as they are, and keys stay in the cache. -/
structure StorageService.Grows (s s' : StorageService) : Prop where
  rows : s.postgresRepository.rows <+: s'.postgresRepository.rows
  keys : ∀ k, (s.cacheRepository.findByKey k).isSome = true →
    (s'.cacheRepository.findByKey k).isSome = true

namespace StorageService

theorem Grows.refl (s : StorageService) : Grows s s := ⟨List.prefix_rfl, fun _ h => h⟩

theorem Grows.trans (s t u : StorageService) (h : Grows s t) (h' : Grows t u) : Grows s u :=
  ⟨h.rows.trans h'.rows, fun k hk => h'.keys k (h.keys k hk)⟩

/-- A save appends a row at most. -/
theorem save_rows (reply : StatementReply) (s : StorageService) (r : OperationRecord) :
    s.postgresRepository.rows <+: (s.save reply r).1.postgresRepository.rows := by
  rw [save_history]
  split
  · show _ <+: (s.postgresRepository.toKeyedLog.insertNew (storedRow r)).rows
    rw [KeyedLog.rows_insertNew]
    exact List.prefix_append _ _
  · exact List.prefix_rfl

/-- Whatever the database says, no operation loses anything. -/
theorem exec_grows (reply : StatementReply) (s : StorageService) (o : StorageOp) :
    Grows s (exec reply s o).1 := by
  cases o with
  | find a b name => exact Grows.refl s
  | save r =>
    have hexec : (exec reply s (.save r)).1 = (s.save reply r).1 := rfl
    rw [hexec]
    refine ⟨save_rows reply s r, fun k hk => ?_⟩
    rw [save_cache, CacheRepository.findByKey_put]
    split
    · rfl
    · exact hk

end StorageService

namespace ServiceApplication

section Stocked

variable {M : CalculatorMath} {lib : Protocol} {workerThreads : Int32}
  {history : OperationHistory} {s s' : ServiceApplication}

theorem stocked_launch (history : OperationHistory) : Stocked history (launch history) where
  rows := List.prefix_rfl
  cold _ := rfl
  warm h := by rcases h with h | h | ⟨job, h⟩ | h <;> cases h

/-- A step that does not touch the storage, and leaves the worker's thread where it is as far as it
matters here. -/
theorem Stocked.frame (h : Stocked history s) (hstorage : s'.storage.storage = s.storage.storage)
    (hcold : Unloaded s'.main s'.storage.worker → Unloaded s.main s.storage.worker)
    (hwarm : s'.storage.Entered → s.storage.Entered) : Stocked history s' where
  rows := hstorage ▸ h.rows
  cold hu := hstorage.trans (h.cold (hcold hu))
  warm he := hstorage ▸ h.warm (hwarm he)

/-- A notification does not get a thread anywhere else. -/
theorem unloaded_notified {main : MainPhase} {worker : Option WorkerPhase}
    (h : Unloaded main (worker.map .notified)) : Unloaded main worker := by
  refine ⟨h.1, h.2.imp Option.map_eq_none_iff.mp ?_⟩
  rintro ⟨replies, hr⟩
  exact ⟨replies, StorageWorker.map_notified_eq hr (by simp)⟩

theorem entered_of_notified {w w' : StorageWorker} (h : w'.worker = w.worker.map .notified)
    (he : w'.Entered) : w.Entered := by
  unfold StorageWorker.Entered at he ⊢
  rw [h] at he
  cases hw : w.worker with
  | none => simp [hw] at he
  | some p => cases p <;> simp_all [WorkerPhase.notified]

/-- A step of the worker's thread. -/
theorem stocked_worked (h : Stocked history s) {e : WorkerEvent} {storage : StorageWorker}
    (he : OwnStep e) (hw : s.storage.step e = some storage) :
    Stocked history { s with storage := storage } := by
  cases StorageWorker.step_cases hw with
  | initialized replies loaded hinit ha =>
    have hloaded : loaded = .loaded s.storage.storage.postgresRepository := by
      rcases StorageWorker.attempt_cases replies s.storage.storage.postgresRepository with
        ⟨-, hok⟩ | ⟨-, e, herror⟩
      · exact Except.ok.inj (ha.symm.trans hok)
      · rw [ha] at herror
        cases herror
    subst hloaded
    refine ⟨h.rows, fun hu => ?_, fun _ r hr => ?_⟩
    · rcases hu.2 with hn | ⟨_, hn⟩ <;> cases hn
    · show ((StorageService.loaded _).cacheRepository.findByKey r.cacheKey).isSome = true
      rw [StorageService.findByKey_loaded, Option.isSome_iff_exists]
      exact ⟨r, KeyedLog.find_eq_some_iff.mpr ⟨h.rows.subset hr, rfl⟩⟩
  | initFailed replies e hinit ha =>
    refine h.frame rfl (fun hu => ?_) fun hent => ?_
    · rcases hu.2 with hn | ⟨_, hn⟩ <;> cases hn
    · rcases hent with hn | hn | ⟨_, hn⟩ | hn <;> cases hn
  | ran reply job hrun =>
    have hgrows := StorageService.exec_grows reply s.storage.storage job.op
    refine ⟨h.rows.trans hgrows.rows, fun hu => ?_, fun _ r hr => ?_⟩
    · rcases hu.2 with hn | ⟨_, hn⟩ <;> cases hn
    · exact hgrows.keys _ (h.warm (Or.inr (Or.inr (Or.inl ⟨job, hrun⟩))) r hr)
  | waited hc | left hc | took _ _ hc =>
    refine h.frame rfl (fun hu => ?_) fun _ => Or.inl hc
    rcases hu.2 with hn | ⟨_, hn⟩ <;> cases hn
  | woke hc =>
    refine h.frame rfl (fun hu => ?_) fun _ => Or.inr (Or.inl hc)
    rcases hu.2 with hn | ⟨_, hn⟩ <;> cases hn
  | rejected | accepted | notified | received | cleared | started | startReturned | flagged
  | stopNotified | joined => exact he.elim

/-- **The table only grows, and the cache is filled from it once.** -/
theorem stocked_step {e : ApplicationEvent} (ho : Orderly s) (h : Stocked history s)
    (hstep : step M lib workerThreads s e = some s') : Stocked history s' := by
  cases (step_cases hstep).2 with
  | worked e storage he hw => exact stocked_worked h he hw
  | storageStarting e storage he hw hm =>
    cases StorageWorker.step_cases hw with
    | cleared hc => exact h.frame rfl id id
    | started replies hc hnone =>
      refine h.frame rfl (fun _ => ⟨Or.inr hm, Or.inl hnone⟩) fun hent => ?_
      rcases hent with hn | hn | ⟨_, hn⟩ | hn <;> cases hn
    | rejected | accepted | notified | received | initialized | initFailed | startReturned | waited
    | left | took | woke | ran | flagged | stopNotified | joined => simp at he
  | storageStarted storage hw hm hf | storageFailed storage hw hm hf =>
    cases StorageWorker.step_cases hw with
    | startReturned hc hinit =>
      exact h.frame rfl (fun hu => by rcases hu.1 with hn | hn <;> cases hn) id
  | storageStopping e storage he hw hm =>
    have hout : ∀ worker, ¬ Unloaded s.main worker := by
      rintro worker ⟨hn | hn, -⟩ <;> cases hm.symm.trans hn
    cases StorageWorker.step_cases hw with
    | flagged hc => exact h.frame rfl id id
    | stopNotified hc => exact h.frame rfl (fun hu => (hout _ hu).elim) (entered_of_notified rfl)
    | rejected | accepted | notified | received | cleared | started | initialized | initFailed
    | startReturned | waited | left | took | woke | ran | joined => simp at he
  | storageStopped storage hw hm =>
    cases StorageWorker.step_cases hw with
    | joined hc hthread =>
      refine h.frame rfl (fun hu => by rcases hu.1 with hn | hn <;> cases hn) fun hent => ?_
      rcases hent with hn | hn | ⟨_, hn⟩ | hn <;> cases hn
  | signalsStarted hm => exact h.frame rfl (fun hu => ⟨Or.inl hm, hu.2⟩) id
  | signalsFailed | serverStarted | serverFailed | woken | ioStopped | threadJoined | serverStopped
  | signalsStopping | signalsJoined =>
    exact h.frame rfl (fun hu => by rcases hu.1 with hn | hn <;> cases hn) id
  | caught | signalled | threadCreated => exact h.frame rfl id id
  | network i e s' hmove =>
    cases hmove with
    | requested | responded | aborted | left => exact h.frame rfl id id
    | rejected op rest hi hs =>
      have hw := available_of_thread ho.staged hi (by simp)
      exact absurd (hs.symm.trans hw.running) (by simp)
    | accepted op rest hi hs =>
      have henqueue : (s.storage.enqueue op).storage = s.storage.storage ∧
          (s.storage.enqueue op).worker = s.storage.worker := by
        simp [StorageWorker.enqueue, hs]
      refine h.frame henqueue.1 (fun hu => henqueue.2 ▸ hu) fun hent => ?_
      unfold StorageWorker.Entered at hent ⊢
      rwa [← henqueue.2]
    | notified ticket op rest storage hi hw =>
      cases StorageWorker.step_cases hw with
      | notified _ op' hc => exact h.frame rfl unloaded_notified (entered_of_notified rfl)
    | received ticket op rest storage answer hi hw ha =>
      cases StorageWorker.step_cases hw with
      | received _ op' f hc hf ht => exact h.frame rfl id id

end Stocked

/-! ## The rule for runs -/

/-- What the database replies to a job is what `A` allows. -/
def Replies (A : StatementReply → StorageService → StorageOp → Prop) (s : ServiceApplication) :
    ApplicationEvent → Prop
  | .worker (.runJob reply) =>
    ∀ job, s.storage.worker = some (.running job) → A reply s.storage.storage job.op
  | _ => True

/-- The database may reply in any way. -/
abbrev AnyReply : StatementReply → StorageService → StorageOp → Prop := fun _ _ _ => True

/-- How the two services are related in a run over a table that held `history`. -/
def Refines (history : OperationHistory) (s : ServiceApplication) (w : AtomicService) : Prop :=
  (Orderly s ∧ Matches s w) ∧ Stocked history s

section Rule

variable {M : CalculatorMath} {lib : Protocol} {workerThreads : Int32}
  {history : OperationHistory} {s s' : ServiceApplication} {w : AtomicService}
  {A : StatementReply → StorageService → StorageOp → Prop}

theorem refinement (history : OperationHistory) :
    Simulation (step M lib workerThreads) (AtomicService.step M lib) label (Refines history) :=
  simulation.with_invariant fun hR h hstep => stocked_step hR.1 h hstep

theorem guarded_anyReply {es : List ApplicationEvent} :
    Guarded (step M lib workerThreads) (Replies AnyReply) s es := by
  refine guarded_of_forall fun e _ s => ?_
  unfold Replies
  split
  · exact fun _ _ => trivial
  · trivial

theorem refines_launch (history : OperationHistory) :
    Refines history (launch history) (Workers.start (.fresh history)) :=
  ⟨⟨orderly_launch history, matches_launch history⟩, stocked_launch history⟩

/-- The rows that were there at the start are in the cache. -/
def Primed (history : OperationHistory) (s : StorageService) : Prop :=
  ∀ r ∈ history.rows, (s.cacheRepository.findByKey r.cacheKey).isSome = true

/-- As long as a network thread has not left, the cache has what the table was started with. -/
theorem Refines.primed (h : Refines history s w) {i : ℕ} {t : NetworkPhase}
    (hi : s.threads[i]? = some t) (ht : t ≠ .exited) : Primed history s.storage.storage :=
  h.2.warm (available_of_thread h.1.1.staged hi ht).entered

/-- Requests are picked up over a cache that is filled, and it is filled when it is empty. -/
theorem Refines.allows (h : Refines history s w) {e : ApplicationEvent} {a : AtomicEvent}
    (hstep : step M lib workerThreads s e = some s') (hlabel : label s e = some a)
    (hreplies : Replies A s e) :
    w.Allows A (fun _ s => s = .fresh history) (fun _ => Primed history) a := by
  have hprimed : ∀ {i : ℕ}, s.threads[i]? = some .idle → Primed history w.shared := fun hi =>
    h.1.2.shared ▸ h.primed hi (by simp)
  obtain ⟨⟨ho, hm⟩, hs⟩ := h
  cases (step_cases hstep).2 with
  | worked e storage he hw =>
    cases StorageWorker.step_cases hw with
    | initialized replies loaded hinit ha =>
      simp only [label, hinit, ha] at hlabel
      obtain rfl := Option.some.inj hlabel
      show w.shared = .fresh history
      rw [hm.shared]
      have hmain := (booting_of_initializing ho.staged hinit).1
      exact hs.cold ⟨Or.inr hmain, Or.inr ⟨replies, hinit⟩⟩
    | initFailed replies e hinit ha =>
      simp only [label, hinit, ha] at hlabel
      cases hlabel
    | ran reply job hrun =>
      simp only [label, hrun] at hlabel
      obtain rfl := Option.some.inj hlabel
      intro k o rest hk
      obtain ⟨rest', hi⟩ := running_caller ho hrun
      obtain ⟨k', hk'⟩ := hm.worker hi (p := .call job.op rest')
        (by simp only [NetworkPhase.left, promise_none (running_unfinished ho.consistent hrun)])
      have hsame := Option.some.inj (Option.some.inj (hk.symm.trans hk'))
      obtain ⟨rfl, -⟩ := Prog.call.inj (Prod.mk.inj hsame).2
      rw [hm.shared]
      exact hreplies job hrun
    | waited | left | took | woke => cases hlabel
    | rejected | accepted | notified | received | cleared | started | startReturned | flagged
    | stopNotified | joined => exact he.elim
  | network i e s' hmove =>
    cases hmove with
    | requested json millis hi hio =>
      obtain rfl := Option.some.inj hlabel
      exact hprimed hi
    | responded text hi =>
      obtain rfl := Option.some.inj hlabel
      trivial
    | rejected | accepted | notified | received | aborted | left => cases hlabel
  | threadCreated hmain hn =>
    obtain rfl := Option.some.inj hlabel
    trivial
  | storageStarting e storage he =>
    rcases he with rfl | ⟨replies, rfl⟩ <;> cases hlabel
  | storageStopping e storage he => rcases he with rfl | rfl <;> cases hlabel
  | storageStarted | storageFailed | storageStopped | signalsStarted | signalsFailed | caught
  | signalled | serverStarted | serverFailed | woken | ioStopped | threadJoined | serverStopped
  | signalsStopping | signalsJoined => cases hlabel

/-- **The rule for runs of the service.** From related states, what `handle` relies on and ends with
holds of the storage and of the responses of every run. -/
theorem keeps_from {R : StorageService → StorageService → Prop}
    {Q : ℕ → HandleCall → StorageService → Outcome Exception String → Prop} {s₀ : StorageService}
    {n : ℕ} (hrefl : ∀ s, R s s) (htrans : ∀ s t u, R s t → R t u → R s u)
    (hload : ∀ s, s.cacheRepository = .empty → R s (.loaded s.postgresRepository))
    (hnew : ∀ k c s, n ≤ k → R s₀ s → Primed history s →
      (AtomicService.program M lib c).Relies StorageService.exec A R (Q k c) s)
    (h : Refines history s w) (hkeeps : w.Keeps StorageService.exec A R Q s₀)
    (hn : n ≤ w.taken.length) {es : List ApplicationEvent}
    (hreplies : Guarded (step M lib workerThreads) (Replies A) s es)
    (hrun : s.run M lib workerThreads es = some s') :
    ∃ w', runSteps (AtomicService.step M lib) w
        (trace (step M lib workerThreads) label s es) = some w' ∧
      Refines history s' w' ∧ w'.Keeps StorageService.exec A R Q s₀ := by
  obtain ⟨w', hw', hR'⟩ := (refinement history).run es h hrun
  refine ⟨w', hw', hR', ?_⟩
  have hguarded := (refinement history).guarded (fun hR => hR.allows) es h hrun hreplies
  have hfresh : ∀ (_ : Unit) s, s = .fresh history → R s (.loaded s.postgresRepository) :=
    fun _ s hs => hload s (by rw [hs]; rfl)
  exact Workers.keeps_run hrefl htrans hfresh hnew _ hkeeps hn hguarded hw'

end Rule

/-! ## Who aborts the process -/

section Aborted

variable {M : CalculatorMath} {lib : Protocol} {workerThreads : Int32}
  {s s' : ServiceApplication}

/-- A call of `handle` ended without a response. -/
def Blamed (s : ServiceApplication) : Prop :=
  s.aborted = true → ∃ (i : ℕ) (out : Outcome Exception String),
    s.threads[i]? = some (.handling (.done out)) ∧ ∀ text, out ≠ .value text

theorem blamed_step {e : ApplicationEvent} (hstep : step M lib workerThreads s e = some s') :
    Blamed s' := by
  obtain ⟨halive, hcases⟩ := step_cases hstep
  have hother : s'.aborted = s.aborted → Blamed s' := fun h ha =>
    absurd (halive.symm.trans (h.symm.trans ha)) (by simp)
  cases hcases with
  | network i e s' hmove =>
    cases hmove with
    | requested | rejected | accepted | notified | received | responded | left => exact hother rfl
    | aborted outcome hi =>
      refine fun _ => ⟨i, outcome, hi, ?_⟩
      rintro text rfl
      simp [step, halive, act, networkStep, hi] at hstep
  | signalsStarted | signalsFailed | caught | signalled | worked | storageStarting | storageStarted
  | storageFailed | storageStopping | storageStopped | threadCreated | serverStarted | serverFailed
  | woken | ioStopped | threadJoined | serverStopped | signalsStopping | signalsJoined =>
    exact hother rfl

theorem blamed_run {history : OperationHistory} {es : List ApplicationEvent}
    (hrun : (launch history).run M lib workerThreads es = some s) : Blamed s :=
  runSteps_invariant (I := Blamed) (fun _ _ _ _ => blamed_step) es (fun h => by cases h) hrun

end Aborted

/-! ## Records and responses -/

section Records

variable {M : CalculatorMath} {lib : Protocol} {workerThreads : Int32}
  {history : OperationHistory} {es : List ApplicationEvent} {s : ServiceApplication}
  {w : AtomicService} {A : StatementReply → StorageService → StorageOp → Prop}

/-- What the atomic service keeps to, it keeps to in what has been answered. -/
theorem keeps_answered {R : StorageService → StorageService → Prop}
    {Q : ℕ → HandleCall → StorageService → Outcome Exception String → Prop} {s₀ : StorageService}
    (hrefl : ∀ s, R s s) (hrun : (launch history).run M lib workerThreads es = some s)
    (hw : AtomicService.run M lib history (served M lib workerThreads history es) = some w)
    (h : w.Keeps StorageService.exec A R Q s₀) {k : ℕ} {c : HandleCall} {text : String}
    (hanswered : Answered M lib workerThreads history es k c text) :
    Q k c w.shared (.value text) := by
  obtain ⟨w', hw', hc, hk⟩ := hanswered
  obtain rfl := Option.some.inj (hw.symm.trans hw')
  obtain ⟨c', hc', hQ⟩ := h.answered k _ hk
  rw [served_taken hrun hw, hc] at hc'
  obtain rfl := Option.some.inj hc'
  exact hQ w.shared (hrefl _)

/-- **The rule for records.** Let calls of `handle` keep `W` of all records, and answer `P`. Then a
service that starts over rows with `W` leaves such rows and answers `P`, and if it is aborted
`serialize_response` has thrown for a response to one of its requests. -/
theorem records_run {W : OperationRecord → Prop} {P : HandleCall → CalculationResponse → Prop}
    (hcalls : ∀ c, (AtomicService.program M lib c).Sat StorageService.exec A (Holds W)
      (Emits lib (P c))) (hrows : ∀ r ∈ history.rows, W r)
    (hreplies : Guarded (step M lib workerThreads) (Replies A) (launch history) es)
    (hrun : (launch history).run M lib workerThreads es = some s) :
    (∀ r ∈ s.storage.storage.postgresRepository.rows, W r) ∧
    (∀ k c text, Answered M lib workerThreads history es k c text → Emitted lib (P c) text) ∧
    (s.aborted = true → ∃ c ∈ es.filterMap requestOf, ∃ e, Unencoded lib (P c) e) := by
  have hstart : Holds W (.fresh history) := holds_fresh hrows
  -- the relation between two states of the storage is that the invariant stays
  obtain ⟨w, hw, ⟨⟨-, hm⟩, -⟩, hkeeps⟩ := keeps_from (n := 0)
    (R := fun s s' => Holds W s → Holds W s') (Q := fun _ c _ => Emits lib (P c)) (fun _ => id)
    (fun _ _ _ h h' => h' ∘ h) (fun _ _ h => holds_loaded h.history)
    (fun _ c s _ hs _ => Prog.relies_of_sat (hcalls c) (hs hstart)) (refines_launch history)
    (Workers.keeps_start (fun _ => id) _) (Nat.zero_le _) hreplies hrun
  refine ⟨hm.shared ▸ (hkeeps.shared hstart).history, fun k c text h =>
    keeps_answered (fun _ => id) hrun hw hkeeps h, fun habort => ?_⟩
  obtain ⟨i, out, hi, hvalue⟩ := blamed_run hrun habort
  obtain ⟨k, hk⟩ := hm.worker hi rfl
  obtain ⟨c, hc, hdone⟩ := hkeeps.working i k _ hk
  have hout : Emits lib (P c) out := hdone w.shared id
  cases out with
  | value text => exact absurd rfl (hvalue text)
  | thrown e => exact ⟨c, served_taken hrun hw ▸ List.mem_of_getElem? hc, e, hout⟩
  | undefined => exact hout.elim

end Records

end ServiceApplication

end ConsoleCalculator
