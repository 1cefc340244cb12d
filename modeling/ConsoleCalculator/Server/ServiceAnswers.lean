import ConsoleCalculator.Server.ServiceRuns

/-!
# What the service answers

Runs of `ServiceApplication::run` (`server/src/service-application.cpp`) with all its threads, over
any table, and what clients get from them. Requests are numbered in the order they are picked up
(`Answered`).

Results:
* `handle_owed`, `handle_conclusive`: what a call of `handle` keeps of the records and answers.
* **`service_transparent`**: over a table with true records, and as long as no statement fails,
  every response answers its own request as a calculator without a storage would, the process is
  never aborted, and the table it leaves has true records again.
* **`service_conclusive`**: whatever fails, every response says `OK` and has a result, or says
  something else and has an error.
-/

namespace ConsoleCalculator

open Base RequestHandler

namespace ServiceApplication

/-! ## Every response is right -/

/-- The record has the outcome of the calculation its key stands for, and that calculation passes
the check. -/
def Truthful (M : CalculatorMath) (r : OperationRecord) : Prop :=
  ∃ c : Calculation, c.key = r.cacheKey ∧ Checker.checkArguments c.data = .ok () ∧
    Abacus.outcome M c.data = some (r.status, r.result)

/-- What a call of `handle` owes: a response that answers its request, if it has an operand. -/
def Owed (M : CalculatorMath) (lib : Protocol) (c : HandleCall)
    (response : CalculationResponse) : Prop :=
  ∀ request, lib.parseRequest c.json = .ok request → request.operands ≠ [] →
    Answers M request response

section Transparent

variable {M : CalculatorMath} {lib : Protocol} {encodable : String → Prop}

theorem truthful_of_filed (hM : M.Commutes) {op : Operation} {c : Calculation} {r : OperationRecord}
    (h : FiledAs op c r) (hg : Genuine M r) : Truthful M r :=
  ⟨c, h.key.symm, checkArguments_calculation h.calculation ▸ h.accepted,
    outcome_calculation hM h.calculation ▸ (h.genuine_iff M).mp hg⟩

theorem faithful_of_holds {s : StorageService} (h : Holds (Truthful M) s) :
    Faithful .service M s := by
  intro k r hr
  obtain ⟨⟨c, hkey, hrest⟩, hk⟩ := h.cache k r hr
  exact ⟨c, hkey.trans hk, hrest⟩

/-- Without faults handlers keep the records true, and answer what is due. -/
theorem obligations_truthful (hM : M.Commutes) (hlib : lib.Accepts encodable)
    (request : CalculationRequest) :
    Obligations M lib request StorageService.exec (fun reply _ _ => reply = .completed)
      (Holds (Truthful M)) (Due M encodable request) := by
  have hob := obligations_of_storage (S := .service) hM hlib request
  refine ⟨hob.unserialized, hob.rejected, fun op data hdata hd hfirst reply s _ hs => ⟨hs, ?_⟩,
    hob.unchecked, hob.calculated, hob.failed, fun op c r hr hg reply s ha hs => ?_⟩
  · exact (hob.find op data hdata hd hfirst () s trivial (faithful_of_holds hs)).2
  · subst ha
    refine ⟨holds_save hs (truthful_of_filed hM hr hg) hr.storedRow_eq .completed, fun e he => ?_⟩
    exact absurd rfl (save_error he).1

/-- What a call of `handle` owes if the texts that come with it can be encoded: a response that can
be encoded, and that answers its request. -/
def OwedIfLegible (M : CalculatorMath) (lib : Protocol) (encodable : String → Prop)
    (c : HandleCall) (response : CalculationResponse) : Prop :=
  Legible lib encodable c.json → Owed M lib c response ∧ ∀ t ∈ response.texts, encodable t

/-- A call of `handle` over true records. -/
theorem handle_owed (hM : M.Commutes) (hlib : lib.Accepts encodable) (c : HandleCall) :
    (AtomicService.program M lib c).Sat StorageService.exec (fun reply _ _ => reply = .completed)
      (Holds (Truthful M)) (Emits lib (OwedIfLegible M lib encodable c)) := by
  unfold AtomicService.program
  cases hparse : lib.parseRequest c.json with
  | error e =>
    refine handle_unparsed_sat c.millis hparse fun hjson => ⟨fun request hr => ?_, ?_⟩
    · rw [hparse] at hr
      cases hr
    · exact (encodable_errorResponse hlib _ _).mpr
        ⟨hlib.ascii "" rfl, hjson.parser e hparse⟩
  | ok request =>
    refine Prog.sat_mono (fun out => Emits.mono fun response hdue hjson => ?_)
      (handle_sat c.millis hparse (obligations_truthful hM hlib request))
    obtain ⟨hanswers, htexts⟩ := hdue (hjson.requestId request hparse)
    refine ⟨fun request' hr => ?_, htexts⟩
    obtain rfl := Except.ok.inj (hparse.symm.trans hr)
    exact hanswers

end Transparent

/-- **The service answers as a calculator would.** Over a table with true records, with any number
of threads in any interleaving with the storage worker, the start and the shutdown, as long as no
statement fails and the texts that come with requests can be encoded: every response answers the
request with its number, if that has an operand, with the status, the result and the id that the
request has without a storage. No call takes the process down, and the records of the table are true
when the process ends, or is killed, so the next one starts as this one did. -/
theorem service_transparent {M : CalculatorMath} (hM : M.Commutes) {lib : Protocol}
    {encodable : String → Prop} (hlib : lib.Accepts encodable) (workerThreads : Int32)
    {history : OperationHistory} (htrue : ∀ r ∈ history.rows, Truthful M r)
    {es : List ApplicationEvent}
    (hlegible : ∀ c ∈ es.filterMap requestOf, Legible lib encodable c.json)
    (hfaults : ∀ reply, .worker (.runJob reply) ∈ es → reply = .completed)
    {s : ServiceApplication} (hrun : (launch history).run M lib workerThreads es = some s) :
    s.aborted = false ∧ (∀ r ∈ s.storage.storage.postgresRepository.rows, Truthful M r) ∧
      ∀ k c text, Answered M lib workerThreads history es k c text →
        Emitted lib (Owed M lib c) text := by
  have hreplies : Guarded (step M lib workerThreads)
      (Replies fun reply _ _ => reply = .completed) (launch history) es := by
    refine guarded_of_forall fun e he s => ?_
    unfold Replies
    split
    · rename_i reply
      exact fun _ _ => hfaults reply he
    · trivial
  obtain ⟨hrows, hanswers, haborted⟩ := records_run (handle_owed hM hlib) htrue hreplies hrun
  refine ⟨Bool.eq_false_iff.mpr fun habort => ?_, hrows, fun k c text h => ?_⟩
  · obtain ⟨c, hc, e, he⟩ := haborted habort
    exact not_unencoded hlib (fun _ h => (h (hlegible c hc)).2) he
  · exact (hanswers k c text h).mono fun _ howed => (howed (hlegible c h.mem)).1

/-- The service stops while a request is in flight: it was answered `3`, and that is the answer to
its request. -/
theorem service_transparent_in_flight :
    ∃ s, (launch .empty).run .checked sampleProtocol 1 requestInFlight = some s ∧
      s.aborted = false ∧ s.responses = ["a: 3"] ∧
      Answered .checked sampleProtocol 1 .empty requestInFlight 0 ⟨"1+2", ⟨0, 0⟩⟩ "a: 3" ∧
      Emitted sampleProtocol (Owed .checked sampleProtocol ⟨"1+2", ⟨0, 0⟩⟩) "a: 3" := by
  have hend : ((launch .empty).run .checked sampleProtocol 1 requestInFlight).map
      (fun s => s.responses) = some ["a: 3"] := by
    decide +kernel
  obtain ⟨s, hrun, hs⟩ := Option.map_eq_some_iff.mp hend
  obtain ⟨halive, -, hanswers⟩ := service_transparent CalculatorMath.checked_commutes
    sampleProtocol_accepts 1 (fun r hr => absurd hr List.not_mem_nil)
    (fun c _ => legible_all _ c.json) (fun reply hr => by simpa [requestInFlight] using hr) hrun
  exact ⟨s, hrun, halive, hs, answered_in_flight, hanswers _ _ _ answered_in_flight⟩

/-! ## Every response is conclusive -/

/-- The response says `OK` and has a result, or says why it has none. -/
def Conclusive (response : CalculationResponse) : Prop :=
  (response.statusCode = .ok ∧ response.resultInfo.isSome = true ∧ response.errorInfo = none) ∨
    (response.statusCode ≠ .ok ∧ response.resultInfo = none ∧ response.errorInfo.isSome = true)

/-- What the codec throws does not say `OK`. -/
def SaysFailed (lib : Protocol) : Prop :=
  ∀ e, lib.Throws e → exceptionStatus (.foreign e) ≠ .ok

section Conclusive

variable {M : CalculatorMath} {lib : Protocol}

theorem conclusive_error (id : String) {e : Exception} (h : exceptionStatus e ≠ .ok) :
    Conclusive (errorResponse lib id e) := by
  refine Or.inr ⟨?_, errorResponse_resultInfo lib id h, ?_⟩
  · rw [errorResponse_statusCode lib id h]
    exact h
  · rw [errorResponse_errorInfo]
    rfl

theorem conclusive_own (id : String) {e : Exception} (h : Own e) :
    Conclusive (errorResponse lib id e) :=
  conclusive_error id h.exceptionStatus_ne

theorem conclusive_cached {r : OperationRecord} (h : WellFormed r) (id : String) :
    ∃ response, cachedResponse lib id r = some response ∧ Conclusive response := by
  unfold cachedResponse
  by_cases hs : r.status = ErrorCode.errorNone.toInt
  · obtain ⟨v, hv⟩ := Option.isSome_iff_exists.mp (h.result.mpr hs)
    rw [if_pos hs, hv]
    exact ⟨_, rfl, Or.inl (by simp)⟩
  · have hne := mapInternalError_ne_ok h.status hs
    rw [if_neg hs]
    refine ⟨_, rfl, Or.inr ?_⟩
    simpa [makeFailure, lib.failure_statusCode _ _ _ hne, lib.failure_resultInfo _ _ _ hne]
      using hne

theorem conclusive_storage (id what : String) :
    Conclusive (errorResponse lib id (.ofCode .errorStorage what)) :=
  conclusive_error id (show mapInternalError ErrorCode.errorStorage.toInt ≠ .ok by decide)

/-- Whatever fails, handlers keep the records well formed and answer conclusively. -/
theorem obligations_conclusive (hlib : SaysFailed lib) (request : CalculationRequest) :
    Obligations M lib request StorageService.exec AnyReply (Holds WellFormed) Conclusive where
  unserialized e he := by
    obtain ⟨response, _, err, -, herr, rfl⟩ := he
    exact conclusive_error _ (hlib err (Or.inr ⟨_, herr⟩))
  rejected e he := conclusive_own _ (own_toCalculatorData he)
  find op data _ _ _ reply s _ hs := by
    refine ⟨hs, fun r hr => conclusive_cached (holds_find hs hr) _, fun e he => ?_⟩
    exact conclusive_own _ (own_find he)
  unchecked data e _ he := conclusive_own _ (own_checkArguments he)
  calculated _ v _ _ _ _ := Or.inl (by simp [calculatedResponse])
  failed data e _ _ he := conclusive_own _ (own_calculateResult he)
  save op c r hr hg reply s _ hs := by
    refine ⟨holds_save hs (wellFormed_of_genuine hr hg) hr.storedRow_eq reply, fun e he => ?_⟩
    obtain ⟨-, what, rfl⟩ := save_error he
    refine ⟨conclusive_storage _ what, fun code what' hcode _ reply' s' _ hs' => ?_⟩
    obtain ⟨rfl, -⟩ := Exception.calculator.inj hcode
    refine ⟨holds_save hs' (wellFormed_failureRecord hr) (hr.of_eq _ _).storedRow_eq reply',
      fun e' he' => ?_⟩
    obtain ⟨-, what'', rfl⟩ := save_error he'
    exact conclusive_storage _ what''

theorem handle_conclusive (hlib : SaysFailed lib) (c : HandleCall) :
    (AtomicService.program M lib c).Sat StorageService.exec AnyReply (Holds WellFormed)
      (Emits lib Conclusive) := by
  unfold AtomicService.program
  cases hparse : lib.parseRequest c.json with
  | error e =>
    exact handle_unparsed_sat c.millis hparse
      (conclusive_error _ (hlib e (Or.inl ⟨c.json, hparse⟩)))
  | ok request => exact handle_sat c.millis hparse (obligations_conclusive hlib request)

end Conclusive

/-- **The service keeps its word whatever fails.** Over a table with well-formed rows, in any run
and with any statements failing: every response either says `OK` and has a result, or says something
else, has none and has an error; the process is taken down only if `serialize_response` throws for
some response; and the rows of the table it leaves are well formed. -/
theorem service_conclusive (M : CalculatorMath) {lib : Protocol} (hlib : SaysFailed lib)
    (workerThreads : Int32) {history : OperationHistory}
    (hrows : ∀ r ∈ history.rows, WellFormed r) {es : List ApplicationEvent}
    {s : ServiceApplication} (hrun : (launch history).run M lib workerThreads es = some s) :
    (∀ r ∈ s.storage.storage.postgresRepository.rows, WellFormed r) ∧
    (∀ k c text, Answered M lib workerThreads history es k c text →
      Emitted lib Conclusive text) ∧
    (s.aborted = true → ∃ response e, lib.serializeResponse response = .error e) := by
  obtain ⟨hrows', hanswers, haborted⟩ :=
    records_run (handle_conclusive hlib) hrows guarded_anyReply hrun
  refine ⟨hrows', hanswers, fun habort => ?_⟩
  obtain ⟨c, -, e, response, timing, err, -, herr, -⟩ := haborted habort
  exact ⟨_, err, herr⟩

/-- A request whose insert fails: its failure record is stored. -/
def failedInsert : List ApplicationEvent :=
  oneRequest ++
    [.network 0 .submit, .network 0 .notify, .worker .check, .worker (.runJob .completed),
      .network 0 .receive, .network 0 .submit, .network 0 .notify, .worker .check,
      .worker (.runJob (.disconnected "")), .network 0 .receive, .network 0 .submit,
      .network 0 .notify, .worker .check, .worker (.runJob .completed), .network 0 .receive,
      .network 0 .respond]

/-- It is answered conclusively, and the record is well formed. -/
theorem service_conclusive_failedInsert :
    ∃ s, (launch .empty).run .checked sampleProtocol 1 failedInsert = some s ∧
      s.responses = ["a: STORAGE_ERROR"] ∧
      (∀ r ∈ s.storage.storage.postgresRepository.rows, WellFormed r) ∧
      Emitted sampleProtocol Conclusive "a: STORAGE_ERROR" := by
  have hend : ((launch .empty).run .checked sampleProtocol 1 failedInsert).map
      (fun s => s.responses) = some ["a: STORAGE_ERROR"] := by
    decide +kernel
  obtain ⟨s, hrun, hs⟩ := Option.map_eq_some_iff.mp hend
  have hlib : SaysFailed sampleProtocol := by
    rintro e (⟨json, hparse⟩ | ⟨response, hserialize⟩)
    · simp only [sampleProtocol, Protocol.plain] at hparse
      split_ifs at hparse
      cases hparse
      decide
    · cases hserialize
  obtain ⟨hrows, hanswers, -⟩ := service_conclusive .checked hlib 1
    (fun r hr => absurd hr List.not_mem_nil) hrun
  exact ⟨s, hrun, hs, hrows, hanswers 0 ⟨"1+2", ⟨0, 0⟩⟩ _
    (answered_of_map (l := [(0, .value "a: STORAGE_ERROR")]) (by decide +kernel) rfl (by simp))⟩

end ServiceApplication

end ConsoleCalculator
