import ConsoleCalculator.Server.ServiceRuns

/-!
# The service over an in-memory storage

`IOperationStorage` has two implementations: `StorageWorker`, with its queue, its thread, the cache
and the database, and `InMemoryOperationStorage`, a map behind a mutex, which the tests of the
handler and of the server use. `InMemoryService` is the atomic service over the second one.

Results:
* `mirrors_exec`: a storage whose cache has been filled answers like a map of the same records, as
  long as its statements complete.
* **`in_memory_answers`**: every run of the service in which they do is one over the map, with the
  same requests and the same responses.
-/

namespace ConsoleCalculator

open Base RequestHandler ServiceApplication

/-- The map after the rows of a table have been saved to it. -/
def InMemoryOperationStorage.holding (history : OperationHistory) : InMemoryOperationStorage :=
  history.rows.foldl save ⟨∅⟩

/-- The service whose handlers share an in-memory storage. -/
abbrev InMemoryService : Type :=
  Workers InMemoryOperationStorage StorageOp StorageOp.Ans HandleCall (Outcome Exception String)

/-- A run over the map that holds `history`. -/
def InMemoryService.run (M : CalculatorMath) (lib : Protocol) (history : OperationHistory)
    (es : List (WorkEvent HandleCall Unit Empty)) : Option InMemoryService :=
  Workers.run (AtomicService.program M lib) (fun _ => InMemoryOperationStorage.exec)
    (fun x => x.elim) (Workers.start (.holding history)) es

/-- The storage and the map hold the same records, once the cache has been filled. -/
structure Mirrors (history : OperationHistory) (s : StorageService)
    (m : InMemoryOperationStorage) : Prop where
  warm : Primed history s → s.cacheRepository.cache = m.records
  cold : s = .fresh history → m = .holding history

section Mirrors

variable {history : OperationHistory} {s : StorageService} {m : InMemoryOperationStorage}

theorem foldl_save (rows : List OperationRecord) (m : InMemoryOperationStorage) :
    (rows.foldl InMemoryOperationStorage.save m).records =
      ((⟨m.records⟩ : CacheRepository).warmUp rows).cache := by
  induction rows generalizing m with
  | nil => rfl
  | cons r rows ih => exact ih (m.save r)

theorem holding_records (history : OperationHistory) :
    (InMemoryOperationStorage.holding history).records =
      (StorageService.loaded history).cacheRepository.cache :=
  foldl_save history.rows ⟨∅⟩

/-- A cache that is not filled yet has every row only if there is none. -/
theorem holding_of_primed (h : Primed history (.fresh history)) :
    InMemoryOperationStorage.holding history = ⟨∅⟩ := by
  have hnil : history.rows = [] := by
    refine List.eq_nil_iff_forall_not_mem.mpr fun r hr => ?_
    have hfound := h r hr
    simp [StorageService.fresh, CacheRepository.findByKey, CacheRepository.empty] at hfound
  simp [InMemoryOperationStorage.holding, hnil]

theorem mirrors_start (history : OperationHistory) :
    Mirrors history (.fresh history) (.holding history) where
  warm h := by
    rw [holding_of_primed h]
    rfl
  cold _ := rfl

/-- `initialize` fills the cache with what the map holds. -/
theorem mirrors_load (h : Mirrors history s m) (hs : s = .fresh history) :
    Mirrors history (AtomicService.load () s) m := by
  have hm := h.cold hs
  subst hs
  exact ⟨fun _ => by rw [hm, holding_records]; rfl, fun _ => hm⟩

/-- **The two storages answer alike.** -/
theorem mirrors_exec (h : Mirrors history s m) (hprimed : Primed history s) (o : StorageOp) :
    (m.exec o).2 = (StorageService.exec .completed s o).2 ∧
      Mirrors history (StorageService.exec .completed s o).1 (m.exec o).1 := by
  obtain ⟨hans, hcache⟩ := StorageWorker.exec_agrees (h.warm hprimed) o
  refine ⟨hans.symm, fun _ => hcache, fun hfresh => ?_⟩
  have hkeys := (StorageService.exec_grows .completed s o).keys
  have hstill : Primed history (StorageService.exec .completed s o).1 := fun r hr =>
    hkeys _ (hprimed r hr)
  rw [hfresh] at hstill hcache
  rw [holding_of_primed hstill]
  exact congrArg InMemoryOperationStorage.mk hcache.symm

end Mirrors

/-! ## Runs -/

/-- Every statement of a job completes. -/
def Completed (es : List ApplicationEvent) : Prop :=
  ∀ reply, ApplicationEvent.worker (.runJob reply) ∈ es → reply = .completed

/-- What a statement has to be like for the two storages to answer alike. -/
def Plainly (history : OperationHistory) (reply : StatementReply) (s : StorageService)
    (_ : StorageOp) : Prop :=
  reply = .completed ∧ Primed history s

section Runs

variable {M : CalculatorMath} {lib : Protocol} {workerThreads : Int32}
  {history : OperationHistory} {es : List ApplicationEvent} {s : ServiceApplication}
  {w : AtomicService}

theorem guarded_replies (h : Completed es) :
    Guarded (step M lib workerThreads) (Replies fun reply _ _ => reply = .completed) s es := by
  refine guarded_of_forall fun e he s => ?_
  unfold Replies
  split
  · exact fun _ _ => h _ he
  · trivial

/-- Jobs are run over a cache that has been filled. -/
theorem replies_plainly {e : ApplicationEvent} (h : Stocked history s)
    (hreplies : Replies (fun reply _ _ => reply = .completed) s e) :
    Replies (Plainly history) s e := by
  unfold Replies at hreplies ⊢
  split at hreplies
  · exact fun job hrun => ⟨hreplies job hrun, h.warm (Or.inr (Or.inr (Or.inl ⟨job, hrun⟩)))⟩
  · trivial

end Runs

/-- **The storage worker, its cache and its database are a map, to the clients.** Let every
statement that saves a record complete. Then, however requests, network threads, the storage
worker's thread, start and shutdown interleave, the same requests are answered with the same
responses, in the same order, by handlers that share an `InMemoryOperationStorage` which holds the
rows the table had at the start. -/
theorem in_memory_answers (M : CalculatorMath) (lib : Protocol) (workerThreads : Int32)
    (history : OperationHistory) (es : List ApplicationEvent) (s : ServiceApplication)
    (hcompleted : Completed es) (hrun : (launch history).run M lib workerThreads es = some s) :
    ∃ v, InMemoryService.run M lib history
        ((served M lib workerThreads history es).filterMap (WorkEvent.through fun _ => ())) =
          some v ∧
      v.taken = es.filterMap requestOf ∧
      v.answered.map Prod.snd = s.responses.map .value ∧
      v.workers.map (Option.map Prod.snd) = s.threads.map (NetworkPhase.left s.storage) := by
  obtain ⟨w, hw, hm⟩ := served_of_run hrun
  have hguarded := (refinement history).guarded
    (fun hR hstep hlabel hg => hR.allows hstep hlabel (replies_plainly hR.2 hg)) es
    (refines_launch history) hrun (guarded_replies hcompleted)
  obtain ⟨v, hv, halike, -⟩ : ∃ v, InMemoryService.run M lib history
      ((served M lib workerThreads history es).filterMap (WorkEvent.through fun _ => ())) =
        some v ∧ w.Alike v ∧ Mirrors history w.shared v.shared :=
    Workers.alike_run (fun reply s m o ⟨hreply, hprimed⟩ hR => hreply ▸ mirrors_exec hR hprimed o)
      (fun _ s m hs hR => mirrors_load hR hs) ⟨rfl, rfl, rfl⟩ (mirrors_start history) hguarded hw
  refine ⟨v, hv, ?_, ?_, ?_⟩
  · rw [halike.taken, served_taken hrun hw]
  · rw [halike.answered, hm.answered]
  · rw [halike.workers, hm.workers]

/-- The request in flight at a shutdown gets the response it would get from the map. -/
theorem in_memory_answers_in_flight :
    ∃ v, InMemoryService.run .checked sampleProtocol .empty
        ((served .checked sampleProtocol 1 .empty requestInFlight).filterMap
          (WorkEvent.through fun _ => ())) = some v ∧
      v.taken = [⟨"1+2", ⟨0, 0⟩⟩] ∧ v.answered.map Prod.snd = [.value "a: 3"] := by
  have hend : ((launch .empty).run .checked sampleProtocol 1 requestInFlight).map
      (fun s => s.responses) = some ["a: 3"] := by
    decide +kernel
  obtain ⟨s, hrun, hs⟩ := Option.map_eq_some_iff.mp hend
  have hcompleted : Completed requestInFlight := by
    intro reply hmem
    simp [requestInFlight] at hmem
    exact hmem
  obtain ⟨v, hv, htaken, hanswered, -⟩ := in_memory_answers _ _ _ _ _ s hcompleted hrun
  refine ⟨v, hv, htaken, ?_⟩
  rw [hanswered, hs]
  rfl

end ConsoleCalculator
