import ConsoleCalculator.Server.TryBlock
import ConsoleCalculator.Storage.Service

/-!
# Handlers over the storage service: every stored record

Runs of any number of `RequestHandler::handle` calls over one `StorageService`, in any
interleaving of their `find` and `save` steps. The environment chooses what libpq reports of each
insert, and may restart the service at any point: a new `StorageService` is constructed over the
table and initialized, and where `initialize` throws its cache is left empty.

* `Holds W` says that every record of the cache and of the table satisfies `W`, and that the cache
  files each one under its own key. `holds_save` and `holds_restart` are what one step preserves;
  the rest is the interleaving rule (`Base.Pool.run_sat`) with the rule for `handle` (`handle_sat`).

Results:
* **`stored_wellFormed`**: whatever fails and whenever the service restarts, every stored record is
  well formed, so no cache hit dereferences an empty optional and no cached failure is sent as OK.
* **`stored_genuine`**: as long as no insert of a successful result's record fails, every stored
  record has the status and result of its calculation, and no cache hit is a storage error. The
  condition is needed (`failed_insert_poisons_store`): when that insert fails, the exception is
  caught by the clause meant for failed calculations, which files the storage error under the
  calculation's key.
-/

namespace ConsoleCalculator

open Base RequestHandler

/-! ## The system -/

/-- A storage operation on the service; `reply` is what libpq reports of its statement. -/
def StorageService.exec (reply : StatementReply) (s : StorageService) :
    (o : StorageOp) → StorageService × o.Ans
  | .find firstNumber secondNumber operation => (s, s.find firstNumber secondNumber operation)
  | .save record => s.save reply record

/-- A restart: a new service over the same table. `replies` are those of its two statements. -/
def StorageService.restart (replies : StatementReply × StatementReply) (s : StorageService) :
    StorageService :=
  match initializeStorage replies.1 replies.2 (fresh s.postgresRepository) with
  | .ok started => started
  | .error _ => fresh s.postgresRepository

/-- A call of `handle`: its argument, and what its clock reads. -/
structure HandleCall where
  json : String
  millis : Elapsed

/-- Handlers over one service. -/
abbrev Handlers : Type := Pool StorageService StorageOp StorageOp.Ans (Outcome Exception String)

/-- All calls at their first step, over a service on an empty table. -/
def Handlers.start (M : CalculatorMath) (lib : Protocol) (calls : List HandleCall) : Handlers :=
  ⟨.fresh .empty, calls.map fun c => handle M lib c.millis c.json⟩

/-- A run of the handlers. -/
def Handlers.serve (M : CalculatorMath) (lib : Protocol) (calls : List HandleCall)
    (moves : List (Move StatementReply (StatementReply × StatementReply))) : Handlers :=
  (Handlers.start M lib calls).run StorageService.exec StorageService.restart moves

/-! ## A property of all records -/

/-- Every record of the cache and of the table satisfies `W`; the cache files it under its
key. -/
structure Holds (W : OperationRecord → Prop) (s : StorageService) : Prop where
  cache : ∀ k r, s.cacheRepository.findByKey k = some r → W r ∧ r.cacheKey = k
  history : ∀ r ∈ s.postgresRepository.rows, W r

section Holds

variable {W : OperationRecord → Prop} {s : StorageService}

theorem holds_fresh {history : OperationHistory} (h : ∀ r ∈ history.rows, W r) :
    Holds W (.fresh history) :=
  ⟨fun _ _ hr => absurd hr (by simp [StorageService.fresh, CacheRepository.findByKey,
    CacheRepository.empty]), h⟩

theorem holds_loaded {history : OperationHistory} (h : ∀ r ∈ history.rows, W r) :
    Holds W (.loaded history) := by
  refine ⟨fun k r hr => ?_, h⟩
  rw [StorageService.findByKey_loaded] at hr
  obtain ⟨hm, hk⟩ := KeyedLog.find_eq_some_iff.mp hr
  exact ⟨h r hm, hk⟩

/-- A save adds the record at most. -/
theorem holds_save (h : Holds W s) {r : OperationRecord} (hr : W r) (hrow : storedRow r = r)
    (reply : StatementReply) : Holds W (s.save reply r).1 := by
  constructor
  · intro k r' hk
    rw [StorageService.save_cache, CacheRepository.findByKey_put] at hk
    split at hk
    · rename_i he
      obtain rfl := Option.some.inj hk
      exact ⟨hr, he.symm⟩
    · exact h.cache k r' hk
  · intro r' hm
    rw [StorageService.save_history] at hm
    split at hm
    · rcases KeyedLog.mem_insertNew.mp hm with hm | ⟨he, -⟩
      · exact h.history r' hm
      · rw [he, hrow]; exact hr
    · exact h.history r' hm

/-- A restarted service holds the table's rows, or nothing in its cache. -/
theorem restart_cases (replies : StatementReply × StatementReply) (s : StorageService) :
    s.restart replies = .loaded s.postgresRepository ∨
      s.restart replies = .fresh s.postgresRepository := by
  unfold StorageService.restart
  rcases StorageService.initializeStorage_cases replies.1 replies.2 s.postgresRepository with
    ⟨-, -, hok⟩ | ⟨-, e, herr⟩
  · rw [hok]; exact Or.inl rfl
  · rw [herr]; exact Or.inr rfl

theorem holds_restart (h : Holds W s) (replies : StatementReply × StatementReply) :
    Holds W (s.restart replies) := by
  rcases restart_cases replies s with he | he
  · rw [he]; exact holds_loaded h.history
  · rw [he]; exact holds_fresh h.history

/-- A record that `find` returns is one of the cache. -/
theorem holds_find (h : Holds W s) {a : Int32} {b : Option Int32} {name : String}
    {r : OperationRecord} (hf : s.find a b name = .ok (some r)) : W r := by
  unfold StorageService.find CacheRepository.find at hf
  cases hk : OperationKey.make a b name with
  | error e => rw [hk] at hf; exact absurd hf (by simp [Except.map])
  | ok k =>
    rw [hk] at hf
    exact (h.cache k r (Except.ok.inj hf)).1

end Holds

/-! ## From records to runs -/

section Runs

variable {M : CalculatorMath} {lib : Protocol} {W : OperationRecord → Prop}
  {A : StatementReply → StorageService → StorageOp → Prop} {P : CalculationResponse → Prop}

theorem save_error {reply : StatementReply} {s : StorageService} {r : OperationRecord}
    {e : Exception} (h : (s.save reply r).2 = .error e) :
    reply ≠ .completed ∧ ∃ what, e = .ofCode .errorStorage what := by
  rw [StorageService.save_result] at h
  rcases reply.check_cases "PGRES_COMMAND_OK" with ⟨-, hok⟩ | ⟨hne, what, herr⟩
  · rw [hok] at h; exact absurd h (by simp)
  · rw [herr] at h; exact ⟨hne, what, (Except.error.inj h).symm⟩

/-- A `find` fails for want of a key. -/
theorem own_find {reply : StatementReply} {s : StorageService} {op : Operation} {a : Int32}
    {b : Option Int32} {e : Exception}
    (h : (StorageService.exec reply s (.find a b op.name)).2 = .error e) : Own e := by
  have hmake : (OperationKey.make a b op.name).map s.cacheRepository.findByKey = .error e := h
  cases hk : OperationKey.make a b op.name with
  | error e' =>
    rw [hk] at hmake
    obtain rfl := Except.error.inj hmake
    exact own_make hk
  | ok k =>
    rw [hk] at hmake
    cases hmake

/-- Handlers keep a property of all records, and answer `P`, if the records they make have it:
those of finished calculations, and the failure record left when a success could not be saved. -/
theorem obligations_of_records (herr : ∀ id e, P (errorResponse lib id e))
    (hcalc : ∀ id v, P (calculatedResponse lib id v))
    (hcached : ∀ id r, W r → ∃ response, cachedResponse lib id r = some response ∧ P response)
    (hgen : ∀ op c r, FiledAs op c r → Genuine M r → W r)
    (hfail : ∀ reply s op c r, FiledAs op c r → A reply s (.save r) →
      r.status = ErrorCode.errorNone.toInt → reply ≠ .completed →
      W (failureRecord r ErrorCode.errorStorage.toInt)) (request : CalculationRequest) :
    Obligations M lib request StorageService.exec A (Holds W) P where
  unserialized e _ := herr _ e
  rejected e _ := herr _ e
  find op data _ _ _ reply s _ hs :=
    ⟨hs, fun r hr => hcached _ r (holds_find hs hr), fun e _ => herr _ e⟩
  unchecked _ e _ _ := herr _ e
  calculated _ v _ _ _ _ := hcalc _ v
  failed _ e _ _ _ := herr _ e
  save op c r hr hg reply s ha hs := by
    refine ⟨holds_save hs (hgen op c r hr hg) hr.storedRow_eq reply, fun e he => ⟨herr _ e, ?_⟩⟩
    obtain ⟨hne, what', rfl⟩ := save_error he
    intro code what hcode hstatus reply' s' _ hs'
    obtain ⟨rfl, -⟩ := Exception.calculator.inj hcode
    have hW := hfail reply s op c r hr ha hstatus hne
    exact ⟨holds_save hs' hW (hr.of_eq _ _).storedRow_eq reply', fun e _ => herr _ e⟩

/-- Along every admissible run, the records have the property and the answers satisfy `P`. -/
theorem serve_good (hob : ∀ request, Obligations M lib request StorageService.exec A (Holds W) P)
    (herr : ∀ id e, P (errorResponse lib id e)) (calls : List HandleCall)
    (moves : List (Move StatementReply (StatementReply × StatementReply)))
    (hadm : Pool.RunAdmits StorageService.exec StorageService.restart A
      (Handlers.start M lib calls) moves) :
    (Handlers.serve M lib calls moves).Good StorageService.exec A (Holds W)
      fun _ => Emits lib P := by
  refine Pool.run_sat (fun replies s h => holds_restart h replies) moves ⟨?_, ?_⟩ hadm
  · exact holds_fresh fun r hr => absurd hr List.not_mem_nil
  · intro i t ht
    obtain ⟨c, hc, rfl⟩ := List.mem_map.mp (List.mem_of_getElem? ht)
    cases hparse : lib.parseRequest c.json with
    | ok request => exact handle_sat c.millis hparse (hob request)
    | error e => exact handle_unparsed_sat c.millis hparse (herr _ _)

end Runs

/-! ## Well-formed records -/

/-- The statuses a stored record can have. -/
def storedStatuses : List Int32 :=
  [ErrorCode.errorNone.toInt, ErrorCode.errorInvalidOperation.toInt,
    ErrorCode.errorDivisionByZero.toInt, ErrorCode.errorOverflow.toInt,
    ErrorCode.errorStorage.toInt]

/-- What the cache-hit branch of `handle` relies on. -/
structure WellFormed (r : OperationRecord) : Prop where
  result : r.result.isSome = true ↔ r.status = ErrorCode.errorNone.toInt
  status : r.status ∈ storedStatuses
  second : r.secondNumber = none ↔ r.operation = "fact"
  key : OperationKey.make r.firstNumber r.secondNumber r.operation = .ok r.cacheKey

theorem FiledAs.wellFormed {op : Operation} {c : Calculation} {r : OperationRecord}
    (h : FiledAs op c r) (hresult : r.result.isSome = true ↔ r.status = ErrorCode.errorNone.toInt)
    (hstatus : r.status ∈ storedStatuses) : WellFormed r where
  result := hresult
  status := hstatus
  second := by rw [h.second, h.name, op.name_fact_iff]
  key := h.make

/-- A genuine record: a success with its result, or one of three failures. -/
theorem genuine_cases {M : CalculatorMath} {r : OperationRecord} (h : Genuine M r) :
    (r.status = ErrorCode.errorNone.toInt ∧ ∃ v, r.result = some v) ∨
      (IsCalculationError r.status ∧ r.result = none) := by
  obtain ⟨op, -, hout⟩ := h
  exact outcome_cases hout

theorem wellFormed_of_genuine {M : CalculatorMath} {op : Operation} {c : Calculation}
    {r : OperationRecord} (h : FiledAs op c r) (hg : Genuine M r) : WellFormed r := by
  rcases genuine_cases hg with ⟨hs, v, hv⟩ | ⟨hs, hv⟩
  · exact h.wellFormed (by simp [hs, hv]) (by simp [hs, storedStatuses])
  · refine h.wellFormed (by simp [hv, hs.ne_none]) ?_
    rcases hs with hs | hs | hs <;> simp [hs, storedStatuses]

/-- The failure record of a save that could not reach the table. -/
theorem wellFormed_failureRecord {op : Operation} {c : Calculation} {r : OperationRecord}
    (h : FiledAs op c r) : WellFormed (failureRecord r ErrorCode.errorStorage.toInt) := by
  refine (h.of_eq _ _).wellFormed ?_ (by simp [storedStatuses])
  have hne : ErrorCode.errorStorage.toInt ≠ ErrorCode.errorNone.toInt := by decide
  simp [hne]

/-- A cached failure is mapped to a failure. -/
theorem mapInternalError_ne_ok {status : Int32} (hmem : status ∈ storedStatuses)
    (hne : status ≠ ErrorCode.errorNone.toInt) : mapInternalError status ≠ .ok := by
  simp only [storedStatuses, List.mem_cons, List.not_mem_nil, or_false] at hmem
  rcases hmem with rfl | rfl | rfl | rfl | rfl
  · exact absurd rfl hne
  all_goals decide

/-- **A hit on a well-formed record** is answered: with OK exactly if it is a success. -/
theorem cachedResponse_wellFormed (lib : Protocol) {r : OperationRecord} (h : WellFormed r)
    (id : String) :
    ∃ response, cachedResponse lib id r = some response ∧
      (response.statusCode = .ok ↔ r.status = ErrorCode.errorNone.toInt) := by
  unfold cachedResponse
  by_cases hs : r.status = ErrorCode.errorNone.toInt
  · obtain ⟨v, hv⟩ := Option.isSome_iff_exists.mp (h.result.mpr hs)
    rw [if_pos hs, hv]
    exact ⟨_, rfl, fun _ => hs, fun _ => lib.success_statusCode id v⟩
  · have hne := mapInternalError_ne_ok h.status hs
    rw [if_neg hs]
    refine ⟨_, rfl, fun hok => absurd hok ?_, fun h0 => absurd h0 hs⟩
    simpa [makeFailure, lib.failure_statusCode _ _ _ hne] using hne

/-- **Every stored record is well formed**, in every state of every run, whatever statements fail
and whenever the service restarts: so a cache hit never dereferences an empty result, a cached
failure is never answered OK, and no handler runs into undefined behaviour. -/
theorem stored_wellFormed (M : CalculatorMath) (lib : Protocol) (calls : List HandleCall)
    (moves : List (Move StatementReply (StatementReply × StatementReply))) :
    (∀ k r, (Handlers.serve M lib calls moves).shared.cacheRepository.findByKey k = some r →
      WellFormed r ∧ r.cacheKey = k ∧
      ∀ id, ∃ response, cachedResponse lib id r = some response ∧
        (response.statusCode = .ok ↔ r.status = ErrorCode.errorNone.toInt)) ∧
    (∀ r ∈ (Handlers.serve M lib calls moves).shared.postgresRepository.rows, WellFormed r) ∧
    ∀ i, (Handlers.serve M lib calls moves).result i ≠ some .undefined := by
  have hob : ∀ request, Obligations M lib request StorageService.exec (fun _ _ _ => True)
      (Holds WellFormed) fun _ => True :=
    obligations_of_records (fun _ _ => trivial) (fun _ _ => trivial)
      (fun id r hr => (cachedResponse_wellFormed lib hr id).imp fun _ h => ⟨h.1, trivial⟩)
      (fun _ _ _ h hg => wellFormed_of_genuine h hg)
      fun _ _ _ _ _ h _ _ _ => wellFormed_failureRecord h
  have hgood := serve_good hob (fun _ _ => trivial) calls moves
    (Pool.runAdmits_of_forall (C := fun _ => True) (fun _ _ _ _ => trivial) _ _
      fun _ _ _ => trivial)
  refine ⟨fun k r hr => ?_, hgood.1.history, fun i hi => hgood.result_sat hi⟩
  obtain ⟨hw, hk⟩ := hgood.1.cache k r hr
  exact ⟨hw, hk, cachedResponse_wellFormed lib hw⟩

/-! ## Genuine records -/

/-- The insert of a successful result's record completes. -/
def SuccessSaved (reply : StatementReply) (_ : StorageService) : StorageOp → Prop
  | .find _ _ _ => True
  | .save r => r.status = ErrorCode.errorNone.toInt → reply = .completed

/-- The response is not a storage error out of the cache. -/
def NoCachedStorageError (response : CalculationResponse) : Prop :=
  ¬ (response.resultSource = some .cache ∧ response.statusCode = .storageError)

theorem mapInternalError_ne_storageError {code : Int32} (h : IsCalculationError code) :
    mapInternalError code ≠ .storageError := by
  rcases h with rfl | rfl | rfl <;> decide

theorem cachedResponse_genuine (lib : Protocol) {M : CalculatorMath} {r : OperationRecord}
    (h : Genuine M r) (id : String) :
    ∃ response, cachedResponse lib id r = some response ∧ NoCachedStorageError response := by
  unfold cachedResponse
  rcases genuine_cases h with ⟨hs, v, hv⟩ | ⟨hs, -⟩
  · rw [if_pos hs, hv]
    exact ⟨_, rfl, fun hr => by simp at hr⟩
  · have hne := mapInternalError_calculationError hs
    rw [if_neg hs.ne_none]
    refine ⟨_, rfl, fun hr => mapInternalError_ne_storageError hs ?_⟩
    simpa [makeFailure, lib.failure_statusCode _ _ _ hne] using hr.2

/-- **No stored record is the trace of a storage failure**, as long as no insert of a successful
result's record fails: then in every state of the run every record of the cache and of the table
has the status and result that the calculator produces for its operands, and no request is
answered from the cache with a storage error. Inserts of failure records may fail. -/
theorem stored_genuine (M : CalculatorMath) (lib : Protocol) (calls : List HandleCall)
    (moves : List (Move StatementReply (StatementReply × StatementReply)))
    (hsaved : Pool.RunAdmits StorageService.exec StorageService.restart SuccessSaved
      (Handlers.start M lib calls) moves) :
    (∀ k r, (Handlers.serve M lib calls moves).shared.cacheRepository.findByKey k = some r →
      Genuine M r) ∧
    (∀ r ∈ (Handlers.serve M lib calls moves).shared.postgresRepository.rows, Genuine M r) ∧
    ∀ i text, (Handlers.serve M lib calls moves).result i = some (.value text) →
      Emitted lib NoCachedStorageError text := by
  have herr : ∀ id e, NoCachedStorageError (errorResponse lib id e) := by
    intro id e h
    simp [errorResponse_resultSource] at h
  have hob : ∀ request, Obligations M lib request StorageService.exec SuccessSaved
      (Holds (Genuine M)) NoCachedStorageError := by
    refine obligations_of_records herr (fun id v h => ?_)
      (fun id r hr => cachedResponse_genuine lib hr id)
      (fun _ _ _ _ hg => hg) fun reply s op c r _ ha hs hne => ?_
    · simp [calculatedResponse] at h
    · exact absurd (ha hs) hne
  have hgood := serve_good hob herr calls moves hsaved
  exact ⟨fun k r hr => (hgood.1.cache k r hr).1, hgood.1.history,
    fun i text hi => hgood.result_sat hi⟩

/-- A library that knows three requests and writes responses as short texts. -/
def sampleProtocol : Protocol :=
  .plain
    (fun text =>
      if text = "1+2" then .ok ⟨"a", .addition, [1, 2]⟩
      else if text = "2+1" then .ok ⟨"b", .addition, [2, 1]⟩
      else if text = "1/0" then .ok ⟨"", .division, [1, 0]⟩
      else .error (.protocolError .invalidJson "invalid JSON" none))
    fun r => .ok <|
      r.requestId ++ (if r.resultSource = some .cache then " from cache: " else ": ") ++
        match r.statusCode with
        | .ok => decimal (r.resultInfo.getD 0)
        | .storageError => "STORAGE_ERROR"
        | _ => "error"

/-- Two calls for `1 + 2` and one for `1 / 0`, all clocks at zero. -/
def sampleCalls : List HandleCall := [⟨"1+2", ⟨0, 0⟩⟩, ⟨"1+2", ⟨0, 0⟩⟩, ⟨"1/0", ⟨0, 0⟩⟩]

/-- The first two calls find nothing and save, and only the save of the failed division is
reported as failed. -/
def harmlessFaults : List (Move StatementReply (StatementReply × StatementReply)) :=
  [.thread 0 .completed, .thread 0 .completed, .thread 2 .completed, .thread 2 (.noResult true),
    .thread 1 (.disconnected "")]

/-- The run of `harmlessFaults` leaves genuine rows. -/
theorem stored_genuine_sample :
    Pool.RunAdmits StorageService.exec StorageService.restart SuccessSaved
        (Handlers.start .checked sampleProtocol sampleCalls) harmlessFaults ∧
      ∀ r ∈ (Handlers.serve .checked sampleProtocol sampleCalls harmlessFaults).shared
        |>.postgresRepository.rows, Genuine .checked r := by
  have h : Pool.RunAdmits StorageService.exec StorageService.restart SuccessSaved
      (Handlers.start .checked sampleProtocol sampleCalls) harmlessFaults := by
    refine ⟨?_, ?_, ?_, ?_, ?_, trivial⟩ <;> intro o k ho <;> cases ho
    · trivial
    · exact fun _ => rfl
    · trivial
    · exact fun hs => absurd hs (by decide)
    · trivial
  exact ⟨h, (stored_genuine _ _ _ _ h).2.1⟩

/-- The first call's insert fails, the insert of its failure record works, and the second call
looks its key up. -/
def oneFault : List (Move StatementReply (StatementReply × StatementReply)) :=
  [.thread 0 .completed, .thread 0 (.disconnected ""), .thread 0 .completed, .thread 1 .completed]

/-- The record left for `1 + 2` when its insert fails. -/
def poisoned : OperationRecord := ⟨1, some 2, "add", none, ErrorCode.errorStorage.toInt, "1+2"⟩

/-- **One failed insert poisons the store.** Cache and table hold a storage error for `1 + 2`,
and a later request for `1 + 2` is answered with it from the cache, although the database works
again. -/
theorem failed_insert_poisons_store :
    (Handlers.serve .checked sampleProtocol sampleCalls oneFault).shared.postgresRepository.rows =
        [poisoned] ∧
      (Handlers.serve .checked sampleProtocol sampleCalls oneFault).shared.cacheRepository.findByKey
        "1+2" = some poisoned ∧
      ¬ Genuine .checked poisoned ∧
      (Handlers.serve .checked sampleProtocol sampleCalls oneFault).result 1 =
        some (.value "a from cache: STORAGE_ERROR") := by
  refine ⟨rfl, rfl, ?_, rfl⟩
  rintro ⟨op, hop, hout⟩
  obtain rfl : Operation.binary .add = op := Option.some.inj hop
  exact absurd hout (by decide)

end ConsoleCalculator
