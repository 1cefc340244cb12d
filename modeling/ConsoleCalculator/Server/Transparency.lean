import ConsoleCalculator.Server.HandlerRuns

/-!
# Caching is transparent

Handlers over any storage that starts empty and never fails. The two implementations of
`IOperationStorage` behind the server are `InMemoryOperationStorage`
(`server/src/in-memory-operation-storage.cpp`) and the `StorageService` that `StorageWorker` runs
its jobs on. What a handler needs of either is little: `find` looks its key up, and what is found
was saved (`OperationStorage`); a storage may forget records, but it may not make one up.

* `evaluate` is the cache-free evaluation of a request: `to_calculator_data`,
  `Checker::check_arguments`, `Abacus::calculate_result` and the mapping of error codes, without a
  storage.

Results:
* `outcome_calculation`, `checkArguments_calculation`: evaluating the operands in the order of the
  key gives the same outcome and passes the same check.
* **`handlers_transparent`**: in every interleaving, every call for a request with an operand that
  has ended has answered with the status and result of the cache-free evaluation of its own request;
  the request id is the request's own, except that a failure of a request with an empty id says
  `unknown` (`empty_id_replaced`). A call has ended after three turns.
-/

namespace ConsoleCalculator

open Base RequestHandler

/-! ## Storages -/

/-- `InMemoryOperationStorage`. -/
structure InMemoryOperationStorage where
  records : KeyedMap String OperationRecord

namespace InMemoryOperationStorage

/-- `InMemoryOperationStorage::find`. -/
def find (s : InMemoryOperationStorage) (firstNumber : Int32) (secondNumber : Option Int32)
    (operation : String) : Except Exception (Option OperationRecord) :=
  (OperationKey.make firstNumber secondNumber operation).map s.records.lookup

/-- `InMemoryOperationStorage::save`. -/
def save (s : InMemoryOperationStorage) (record : OperationRecord) : InMemoryOperationStorage :=
  ⟨KeyedMap.put OperationRecord.cacheKey s.records record⟩

/-- A storage operation. -/
def exec (s : InMemoryOperationStorage) : (o : StorageOp) → InMemoryOperationStorage × o.Ans
  | .find firstNumber secondNumber operation => (s, s.find firstNumber secondNumber operation)
  | .save record => (s.save record, .ok ())

end InMemoryOperationStorage

/-- A storage that starts empty and never fails: `find` looks its key up among the records held,
and a record that is held was saved. -/
structure OperationStorage where
  State : Type
  start : State
  exec : State → (o : StorageOp) → State × o.Ans
  held : State → String → Option OperationRecord
  held_start : ∀ k, held start k = none
  find_answer :
    ∀ s a b name, (exec s (.find a b name)).2 = (OperationKey.make a b name).map (held s)
  find_held : ∀ s a b name, held (exec s (.find a b name)).1 = held s
  save_answer : ∀ s r, (exec s (.save r)).2 = .ok ()
  save_held : ∀ s r k r', held (exec s (.save r)).1 k = some r' →
    (r' = r ∧ k = r.cacheKey) ∨ held s k = some r'

/-- A save that replaces the record of its key. -/
theorem put_held {r r' : OperationRecord} {k : String} {was : Option OperationRecord}
    (h : (if k = r.cacheKey then some r else was) = some r') :
    (r' = r ∧ k = r.cacheKey) ∨ was = some r' := by
  split at h
  · rename_i hk
    exact Or.inl ⟨(Option.some.inj h).symm, hk⟩
  · exact Or.inr h

namespace OperationStorage

/-- The in-memory storage. -/
def inMemory : OperationStorage where
  State := InMemoryOperationStorage
  start := ⟨∅⟩
  exec := InMemoryOperationStorage.exec
  held s k := s.records.lookup k
  held_start _ := rfl
  find_answer _ _ _ _ := rfl
  find_held _ _ _ _ := rfl
  save_answer _ _ := rfl
  save_held s r k r' h := by
    have h' : (KeyedMap.put OperationRecord.cacheKey s.records r).lookup k = some r' := h
    rw [KeyedMap.lookup_put] at h'
    exact put_held h'

/-- The storage service over an empty table, when every insert completes. -/
def service : OperationStorage where
  State := StorageService
  start := .fresh .empty
  exec := StorageService.exec .completed
  held s k := s.cacheRepository.findByKey k
  held_start _ := rfl
  find_answer _ _ _ _ := rfl
  find_held _ _ _ _ := rfl
  save_answer s r := StorageService.save_result .completed s r
  save_held s r k r' h := by
    have h' : (s.cacheRepository.put r).findByKey k = some r' := h
    rw [CacheRepository.findByKey_put] at h'
    exact put_held h'

/-- A run of the handlers of `calls` over the storage: the order of their turns. -/
def serve (S : OperationStorage) (M : CalculatorMath) (lib : Protocol)
    (calls : List HandleCall) (moves : List (Move Unit Empty)) :
    Pool S.State StorageOp StorageOp.Ans (Outcome Exception String) :=
  Pool.run (fun _ => S.exec) (fun x => x.elim)
    ⟨S.start, calls.map fun c => handle M lib c.millis c.json⟩ moves

end OperationStorage

/-! ## The order of the operands -/

/-- The data of a calculation, its operands in the order of the key. -/
def Calculation.data : Calculation → CalculatorData
  | .binary o left right => (Operation.binary o).data left (some right)
  | .factorial n => Operation.factorial.data n none

/-- A commutative library does not see the order. -/
theorem outcome_calculation {M : CalculatorMath} (hM : M.Commutes) {op : Operation} {a : Int32}
    {b : Option Int32} {c : Calculation} (h : op.calculation a b = some c) :
    Abacus.outcome M (op.data a b) = Abacus.outcome M c.data := by
  cases op with
  | factorial =>
    obtain rfl := Option.some.inj h
    exact outcome_congr M rfl rfl rfl rfl
  | binary o =>
    obtain ⟨b, rfl, rfl⟩ := Option.map_eq_some_iff.mp h
    rcases ofBinary_cases o a b with he | ⟨ho, he⟩
    · rw [he]; rfl
    · rw [he]
      refine outcome_congr M rfl rfl rfl ?_
      rcases ho with rfl | rfl
      · exact congrArg some (hM.addition a b)
      · exact congrArg some (hM.multiplication a b)

/-- Nor does the check. -/
theorem checkArguments_calculation {op : Operation} {a : Int32} {b : Option Int32}
    {c : Calculation} (h : op.calculation a b = some c) :
    Checker.checkArguments (op.data a b) = Checker.checkArguments c.data := by
  cases op with
  | factorial =>
    obtain rfl := Option.some.inj h
    by_cases hn : a < 0 <;>
      simp [Checker.checkArguments, Calculation.data, Operation.data, Operation.code, hn]
  | binary o =>
    obtain ⟨b, rfl, rfl⟩ := Option.map_eq_some_iff.mp h
    rcases ofBinary_cases o a b with he | ⟨ho, he⟩
    · rw [he]; rfl
    · rw [he]
      rcases ho with rfl | rfl <;>
        simp [Checker.checkArguments, Calculation.data, Operation.data, Operation.code]

/-! ## The evaluation of a request without a storage -/

namespace RequestHandler

/-- The cache-free evaluation: status code, and result if there is one. -/
def evaluate (M : CalculatorMath) (request : CalculationRequest) : StatusCode × Option Int32 :=
  match toCalculatorData request with
  | .error e => (exceptionStatus e, none)
  | .ok data =>
    match Checker.checkArguments data with
    | .error e => (exceptionStatus e, none)
    | .ok () =>
      match Abacus.calculateResult M data with
      | (_, .error e) => (exceptionStatus e, none)
      | (calculated, .ok ()) => (.ok, some calculated.result)

/-- The response answers the request as its evaluation does, and under its id; a failure of a
request without one says `unknown`. -/
structure Answers (M : CalculatorMath) (request : CalculationRequest)
    (response : CalculationResponse) : Prop where
  requestId : response.requestId =
    if request.requestId = "" ∧ response.resultInfo = none then "unknown" else request.requestId
  outcome : (response.statusCode, response.resultInfo) = evaluate M request

section Answers

variable {M : CalculatorMath} {lib : Protocol} {request : CalculationRequest}
  {data : CalculatorData}

theorem answers_error {e : Exception} (hok : exceptionStatus e ≠ .ok)
    (h : evaluate M request = (exceptionStatus e, none)) :
    Answers M request (errorResponse lib request.requestId e) := by
  constructor
  · rw [errorResponse_requestId, errorResponse_resultInfo lib request.requestId hok]
    simp
  · rw [errorResponse_outcome lib request.requestId hok, h]

theorem evaluate_rejected {e : Exception} (h : toCalculatorData request = .error e) :
    evaluate M request = (exceptionStatus e, none) := by
  simp only [evaluate, h]

theorem evaluate_unchecked {e : Exception} (hdata : toCalculatorData request = .ok data)
    (h : Checker.checkArguments data = .error e) :
    evaluate M request = (exceptionStatus e, none) := by
  simp only [evaluate, hdata, h]

theorem evaluate_calculated (hdata : toCalculatorData request = .ok data)
    (hc : Checker.checkArguments data = .ok ()) (hok : (Abacus.calculateResult M data).2 = .ok ()) :
    evaluate M request = (.ok, some (Abacus.calculateResult M data).1.result) := by
  simp only [evaluate, hdata, hc]
  rw [← Prod.eta (Abacus.calculateResult M data), hok]

theorem evaluate_failed {e : Exception} (hdata : toCalculatorData request = .ok data)
    (hc : Checker.checkArguments data = .ok ())
    (he : (Abacus.calculateResult M data).2 = .error e) :
    evaluate M request = (exceptionStatus e, none) := by
  simp only [evaluate, hdata, hc]
  rw [← Prod.eta (Abacus.calculateResult M data), he]

/-- The evaluation of checked data is the mapped outcome of the calculation. -/
theorem evaluate_checked {status : Int32} {result : Option Int32}
    (hdata : toCalculatorData request = .ok data) (hc : Checker.checkArguments data = .ok ())
    (hout : Abacus.outcome M data = some (status, result)) :
    evaluate M request = (mapInternalError status, result) := by
  simp only [evaluate, hdata, hc]
  unfold Abacus.outcome at hout
  split at hout
  · rename_i calculated he
    obtain ⟨rfl, rfl⟩ := Prod.mk.inj (Option.some.inj hout)
    rw [he]
    rfl
  · rename_i code what he
    obtain ⟨rfl, rfl⟩ := Prod.mk.inj (Option.some.inj hout)
    rw [he]
    rfl
  · exact absurd hout (by simp)

/-- A record with the outcome of a calculation has a response. -/
theorem exists_cachedResponse (lib : Protocol) (id : String) {r : OperationRecord}
    (hout : Abacus.outcome M data = some (r.status, r.result)) :
    ∃ response, cachedResponse lib id r = some response := by
  unfold cachedResponse
  rcases outcome_cases hout with ⟨hs, v, hv⟩ | ⟨hs, -⟩
  · rw [if_pos hs, hv]
    exact ⟨_, rfl⟩
  · rw [if_neg hs.ne_none]
    exact ⟨_, rfl⟩

/-- A cached record with the outcome of the request's own calculation answers the request. -/
theorem answers_cached {r : OperationRecord} {response : CalculationResponse}
    (hdata : toCalculatorData request = .ok data) (hc : Checker.checkArguments data = .ok ())
    (hout : Abacus.outcome M data = some (r.status, r.result))
    (hr : cachedResponse lib request.requestId r = some response) : Answers M request response := by
  have heval := evaluate_checked hdata hc hout
  unfold cachedResponse at hr
  rcases outcome_cases hout with ⟨hs, v, hv⟩ | ⟨hs, hv⟩
  · rw [if_pos hs, hv] at hr
    obtain rfl := Option.some.inj hr
    refine ⟨by simp, ?_⟩
    rw [heval, hs, hv]
    exact Prod.ext (lib.success_statusCode _ v) (lib.success_resultInfo _ v)
  · have hne := mapInternalError_calculationError hs
    rw [if_neg hs.ne_none] at hr
    obtain rfl := Option.some.inj hr
    constructor
    · simp [makeFailure, lib.failure_resultInfo _ _ _ hne]
    · rw [heval, hv]
      simp [makeFailure, lib.failure_resultInfo _ _ _ hne, lib.failure_statusCode _ _ _ hne]

end Answers

end RequestHandler

/-! ## Handlers over a storage -/

/-- Every record held has the outcome of the calculation its key stands for, and that calculation
passes the check. -/
def Faithful (S : OperationStorage) (M : CalculatorMath) (s : S.State) : Prop :=
  ∀ k r, S.held s k = some r → ∃ c : Calculation, c.key = k ∧
    Checker.checkArguments c.data = .ok () ∧
    Abacus.outcome M c.data = some (r.status, r.result)

section Handlers

variable {S : OperationStorage} {M : CalculatorMath} {lib : Protocol}
  {encodable : String → Prop} {request : CalculationRequest}

theorem faithful_save (hM : M.Commutes) {s : S.State} (h : Faithful S M s) {op : Operation}
    {c : Calculation} {r : OperationRecord} (hr : FiledAs op c r) (hg : Genuine M r) :
    Faithful S M (S.exec s (.save r)).1 := by
  intro k r' hk
  rcases S.save_held s r k r' hk with ⟨rfl, rfl⟩ | hk
  · refine ⟨c, hr.key.symm, ?_, ?_⟩
    · rw [← checkArguments_calculation hr.calculation]
      exact hr.accepted
    · rw [← outcome_calculation hM hr.calculation]
      exact (hr.genuine_iff M).mp hg
  · exact h k r' hk

/-- A record that `find` returns is held. -/
theorem held_of_find {s : S.State} {a : Int32} {b : Option Int32} {name : String}
    {r : OperationRecord} (hf : (S.exec s (.find a b name)).2 = .ok (some r)) :
    ∃ k, OperationKey.make a b name = .ok k ∧ S.held s k = some r := by
  rw [S.find_answer] at hf
  cases hk : OperationKey.make a b name with
  | error e =>
    rw [hk] at hf
    cases hf
  | ok k =>
    rw [hk] at hf
    exact ⟨k, rfl, Except.ok.inj hf⟩

/-- A record that is held under the key of a request is one of the calculation the request asks
for: keys are exact. -/
theorem faithful_find (hM : M.Commutes) {s : S.State} (h : Faithful S M s) {op : Operation}
    {data : CalculatorData} (hd : DataFor op data) (hfirst : data.hasFirstNumber ≠ 0)
    {k : String} {r : OperationRecord}
    (hk : OperationKey.make data.firstNumber (secondNumberForStorage data) op.name = .ok k)
    (hheld : S.held s k = some r) :
    Checker.checkArguments data = .ok () ∧
      Abacus.outcome M data = some (r.status, r.result) := by
  obtain ⟨c, rfl, hcheck, hout⟩ := h k r hheld
  have hs := standsFor_of_key hd hfirst hk
  constructor
  · rw [hs.checkArguments_eq, checkArguments_calculation hs.calculation]
    exact hcheck
  · rw [hs.outcome_eq, outcome_calculation hM hs.calculation]
    exact hout

/-- The key of a request with an operand fails only for want of a second one, which the check
reports with the same code. -/
theorem find_error {op : Operation} {data : CalculatorData} (hd : DataFor op data)
    (hfirst : data.hasFirstNumber ≠ 0) {e : Exception}
    (he : OperationKey.make data.firstNumber (secondNumberForStorage data) op.name = .error e) :
    ∃ e', Checker.checkArguments data = .error e' ∧ exceptionStatus e' = exceptionStatus e := by
  rw [make_eq, op.named_name] at he
  cases op with
  | factorial => exact absurd he (by simp)
  | binary o =>
    cases hs : secondNumberForStorage data with
    | some b => rw [hs] at he; exact absurd he (by simp)
    | none =>
      rw [hs] at he
      obtain rfl := Except.error.inj he
      have h2 : data.hasSecondNumber = 0 :=
        ((secondNumberForStorage_none_iff hd).mp hs).resolve_left (by simp)
      refine ⟨.ofCode .errorMissingSecondNumber "Second number is missing.", ?_, rfl⟩
      have hne := (Operation.binary o).code_ne_none
      have hnf : (Operation.binary o).code ≠ .operationFactorial :=
        fun h => absurd ((Operation.code_factorial_iff _).mp h) (by simp)
      simp [Checker.checkArguments, hd.needHelp, hd.operation, hfirst, h2, hne, hnf]

/-- What a call owes a request whose id can be encoded: a response that can be encoded, and that
answers the request if it has an operand. -/
def Due (M : CalculatorMath) (encodable : String → Prop) (request : CalculationRequest)
    (response : CalculationResponse) : Prop :=
  encodable request.requestId →
    (request.operands ≠ [] → Answers M request response) ∧ ∀ t ∈ response.texts, encodable t

theorem due_error (hlib : lib.Accepts encodable) {e : Exception} (he : Own e)
    (h : request.operands ≠ [] → evaluate M request = (exceptionStatus e, none)) :
    Due M encodable request (errorResponse lib request.requestId e) := fun hid =>
  ⟨fun hne => answers_error he.exceptionStatus_ne (h hne),
    (encodable_errorResponse hlib _ _).mpr ⟨hid, encodable_own hlib he⟩⟩

/-- Handlers keep the storage faithful, and answer requests with an operand as the cache-free
evaluation does. -/
theorem obligations_of_storage (hM : M.Commutes) (hlib : lib.Accepts encodable)
    (request : CalculationRequest) :
    Obligations M lib request (fun _ : Unit => S.exec) (fun _ _ _ => True) (Faithful S M)
      (Due M encodable request) where
  unserialized e he hid := absurd he (not_unencoded hlib fun _ h => (h hid).2)
  rejected e he := due_error hlib (own_toCalculatorData he) fun _ => evaluate_rejected he
  find op data hdata hd hfirst _ s _ hs := by
    refine ⟨?_, fun r hr => ?_, fun e he => ?_⟩
    · unfold Faithful
      rw [S.find_held]
      exact hs
    · obtain ⟨k, hk, hheld⟩ := held_of_find hr
      obtain ⟨c, -, -, hout⟩ := hs k r hheld
      obtain ⟨response, hresponse⟩ := exists_cachedResponse lib request.requestId hout
      refine ⟨response, hresponse, fun hid => ⟨fun hne => ?_,
        encodable_cachedResponse hlib hid hresponse⟩⟩
      obtain ⟨hcheck, hown⟩ := faithful_find hM hs hd (hfirst hne) hk hheld
      exact answers_cached hdata hcheck hown hresponse
    · rw [S.find_answer] at he
      cases hk : OperationKey.make data.firstNumber (secondNumberForStorage data) op.name with
      | ok k =>
        rw [hk] at he
        cases he
      | error e' =>
        rw [hk] at he
        obtain rfl := Except.error.inj he
        refine due_error hlib (own_make hk) fun hne => ?_
        obtain ⟨e'', hcheck, hstatus⟩ := find_error hd (hfirst hne) hk
        exact hstatus ▸ evaluate_unchecked hdata hcheck
  unchecked data e hdata he :=
    due_error hlib (own_checkArguments he) fun _ => evaluate_unchecked hdata he
  calculated data v hdata hc hok hv hid := by
    have heval : evaluate M request = (.ok, some v) := by
      rw [evaluate_calculated hdata hc hok, hv]
    refine ⟨fun _ => ⟨?_, ?_⟩, encodable_calculatedResponse hid v⟩
    · simp [calculatedResponse]
    · rw [calculatedResponse_outcome, heval]
  failed data e hdata hc he :=
    due_error hlib (own_calculateResult he) fun _ => evaluate_failed hdata hc he
  save op c r hr hg _ s _ hs := by
    refine ⟨faithful_save hM hs hr hg, fun e he => ?_⟩
    rw [S.save_answer] at he
    exact absurd he (by simp)

/-- What handlers keep, whatever they answer, holds in every state of a run. -/
theorem serve_keeps {I : S.State → Prop} (hstart : I S.start)
    (hob : ∀ request, Obligations M lib request (fun _ : Unit => S.exec) (fun _ _ _ => True) I
      fun _ => True) (calls : List HandleCall) (moves : List (Move Unit Empty)) :
    I (S.serve M lib calls moves).shared := by
  have hgood : (S.serve M lib calls moves).Good (fun _ : Unit => S.exec) (fun _ _ _ => True) I
      fun _ => Emits lib fun _ => True := by
    refine Pool.run_sat (fun x => x.elim) moves ⟨hstart, fun i t ht => ?_⟩
      (Pool.runAdmits_of_forall (C := fun _ => True) (fun _ _ _ _ => trivial) _ _
        fun _ _ _ => trivial)
    obtain ⟨c, -, rfl⟩ := List.mem_map.mp (List.mem_of_getElem? ht)
    cases hparse : lib.parseRequest c.json with
    | ok request => exact handle_sat c.millis hparse (hob request)
    | error e => exact handle_unparsed_sat c.millis hparse trivial
  exact hgood.1

/-- What thread `i` owes: it answers the request of call `i`, if that is one. -/
def AnswersOwn (M : CalculatorMath) (lib : Protocol) (encodable : String → Prop)
    (calls : List HandleCall) (i : ℕ) (out : Outcome Exception String) : Prop :=
  ∀ c request, calls[i]? = some c → lib.parseRequest c.json = .ok request →
    Emits lib (Due M encodable request) out

theorem serve_answersOwn (hM : M.Commutes) (hlib : lib.Accepts encodable)
    (calls : List HandleCall) (moves : List (Move Unit Empty)) :
    (S.serve M lib calls moves).Good (fun _ : Unit => S.exec) (fun _ _ _ => True)
      (Faithful S M) (AnswersOwn M lib encodable calls) := by
  refine Pool.run_sat (fun x => x.elim) moves ⟨?_, fun i t ht => ?_⟩
    (Pool.runAdmits_of_forall (C := fun _ => True) (fun _ _ _ _ => trivial) _ _
      fun _ _ _ => trivial)
  · intro k r hk
    rw [S.held_start] at hk
    exact absurd hk (by simp)
  · rw [List.getElem?_map, Option.map_eq_some_iff] at ht
    obtain ⟨c, hc, rfl⟩ := ht
    cases hparse : lib.parseRequest c.json with
    | ok request =>
      refine Prog.sat_mono (fun out hout c' request' hc' hparse' => ?_)
        (handle_sat c.millis hparse (obligations_of_storage hM hlib request))
      obtain rfl := Option.some.inj (hc.symm.trans hc')
      obtain rfl := Except.ok.inj (hparse.symm.trans hparse')
      exact hout
    | error e =>
      refine Prog.sat_mono (fun out _ c' request' hc' hparse' => ?_)
        (handle_unparsed_sat (P := fun _ => True) c.millis hparse trivial)
      obtain rfl := Option.some.inj (hc.symm.trans hc')
      exact absurd (hparse.symm.trans hparse') (by simp)

end Handlers

/-- **Caching is transparent.** Whatever the other calls ask for and whatever the interleaving, a
call for a request with an operand that has ended has returned a response with the status and result
of the cache-free evaluation of its own request, under its own id (`Answers`); and three turns end a
call. All that is asked of the library is that it can encode the request's id. -/
theorem handlers_transparent (S : OperationStorage) {M : CalculatorMath} (hM : M.Commutes)
    {lib : Protocol} {encodable : String → Prop} (hlib : lib.Accepts encodable)
    (calls : List HandleCall) (moves : List (Move Unit Empty)) {i : ℕ} {c : HandleCall}
    (hi : calls[i]? = some c) {request : CalculationRequest}
    (hr : lib.parseRequest c.json = .ok request) (hid : encodable request.requestId)
    (hoperands : request.operands ≠ []) :
    (∀ out, (S.serve M lib calls moves).result i = some out →
      ∃ text, out = .value text ∧ Emitted lib (Answers M request) text) ∧
    (3 ≤ Pool.turns i moves → ∃ out, (S.serve M lib calls moves).result i = some out) := by
  have hgood : (S.serve M lib calls moves).Good (fun _ : Unit => S.exec) (fun _ _ _ => True)
      (Faithful S M) (AnswersOwn M lib encodable calls) := serve_answersOwn hM hlib calls moves
  constructor
  · intro out hout
    obtain ⟨text, rfl, htext⟩ := emits_value hlib (fun _ h => (h hid).2)
      (hgood.result_sat hout c request hi hr)
    exact ⟨text, rfl, htext.mono fun _ h => (h hid).1 hoperands⟩
  · intro hturns
    refine Pool.run_ends moves (t := handle M lib c.millis c.json) ?_
      (handle_endsWithin M lib c.millis c.json) hturns
    rw [List.getElem?_map, hi]
    rfl

theorem sampleProtocol_accepts : sampleProtocol.Accepts fun _ => True :=
  ⟨fun _ _ => trivial, fun _ _ => ⟨_, rfl⟩⟩

/-- The second call for `1 + 2` is answered from the record of the first. -/
theorem handlers_transparent_sample :
    (OperationStorage.inMemory.serve .checked sampleProtocol sampleCalls
        [.thread 0 (), .thread 0 (), .thread 1 ()]).result 1 =
          some (.value "a from cache: 3") ∧
      ∃ text, Outcome.value "a from cache: 3" = (.value text : Outcome Exception String) ∧
        Emitted sampleProtocol (Answers .checked ⟨"a", .addition, [1, 2]⟩) text := by
  have h := handlers_transparent OperationStorage.inMemory CalculatorMath.checked_commutes
    sampleProtocol_accepts sampleCalls [.thread 0 (), .thread 0 (), .thread 1 ()] (i := 1) rfl rfl
    trivial (by simp)
  exact ⟨rfl, h.1 _ rfl⟩

/-- **A failure of a request with an empty id does not carry that id**: the call for `1 / 0`, whose
id is empty, is answered under the id `unknown`. -/
theorem empty_id_replaced :
    sampleProtocol.parseRequest "1/0" = .ok ⟨"", .division, [1, 0]⟩ ∧
      (OperationStorage.inMemory.serve .checked sampleProtocol sampleCalls
        [.thread 2 (), .thread 2 ()]).result 2 = some (.value "unknown: error") ∧
      ¬ Emitted sampleProtocol (fun response => response.requestId = "") "unknown: error" := by
  refine ⟨rfl, rfl, ?_⟩
  rintro ⟨response, timing, hid, htext⟩
  have h := congrArg String.toList (Except.ok.inj htext)
  simp only [hid, String.toList_append] at h
  split_ifs at h <;> exact absurd (List.cons.inj h).1 (by decide)

end ConsoleCalculator
