import ConsoleCalculator.Server.Records

/-!
# The exceptions of a handler, and a rule for its `try` block

What reaches the `catch` clauses of `RequestHandler::handle` (`server/src/request-handler.cpp`)
comes from outside, from `serialize_response` and the storage, or is one of the exceptions the
program throws itself (`Own`): those of `to_calculator_data`, `Checker`, `Abacus` and, through
`make_operation_record`, `OperationKey`.

Results:
* `own_toCalculatorData`, `own_checkArguments`, `own_calculateResult`, `own_makeOperationRecord`:
  what each function throws. None of it is answered `OK` (`Own.exceptionStatus_ne`).
* `encodable_errorResponse`, `encodable_own`, `encodable_cachedResponse`: which texts get into a
  response. `emits_value`: where they can be encoded, a call ends with a text.
* **`handleRequest_sat`**: the rule for the `try` block over any storage. It is enough to know how
  its two replies end, and what the storage answers (`TryBlock`).
-/

namespace ConsoleCalculator

open Base RequestHandler
open Base.Throwing (ofExcept sat_andThen sat_tryCatch sat_ofExcept sat_call ok_andThen)

/-! ## Exceptions -/

/-- The messages of the calculator's exceptions. -/
def ownMessages : List String :=
  ["Operation is missing.", "First number is missing.", "Factorial argument must be non-negative.",
    "Second number is missing.", "Negative power is not supported.", "Unknown operation code.",
    "Calculation failed.", "Second number is required for binary operation storage key."]

/-- An exception the program throws on its own account while it handles a request. -/
inductive Own : Exception → Prop
  | unknownOperation : Own unknownOperation
  | firstOperand : Own (operandOutOfRange "first" "operands[0]")
  | secondOperand : Own (operandOutOfRange "second" "operands[1]")
  | calculator {code : Int32} {what : String} (hwhat : what ∈ ownMessages)
      (hcode : mapInternalError code ≠ .ok) : Own (.calculator code what)

/-- None of them is answered `OK`. -/
theorem Own.exceptionStatus_ne {e : Exception} (h : Own e) : exceptionStatus e ≠ .ok := by
  cases h with
  | unknownOperation | firstOperand | secondOperand => decide
  | calculator _ hcode => exact hcode

theorem own_toCalculatorData {request : CalculationRequest} {e : Exception}
    (h : toCalculatorData request = .error e) : Own e := by
  unfold toCalculatorData at h
  rw [toInternalOperation_eq] at h
  cases hop : request.operation.operation with
  | none =>
    rw [hop] at h
    obtain rfl := Except.error.inj h
    exact .unknownOperation
  | some op =>
    simp only [hop, bind, Except.bind] at h
    split at h
    · rename_i e' he
      obtain rfl := Except.error.inj h
      unfold readFirstOperand at he
      split at he
      · cases he
      · split at he
        · cases he
        · obtain rfl := Except.error.inj he
          exact .firstOperand
    · unfold readSecondOperand at h
      split at h
      · split at h
        · cases h
        · obtain rfl := Except.error.inj h
          exact .secondOperand
      · cases h

theorem own_checkArguments {data : CalculatorData} {e : Exception}
    (h : Checker.checkArguments data = .error e) : Own e := by
  unfold Checker.checkArguments at h
  repeat' split at h
  all_goals cases h
  all_goals exact .calculator (by simp [ownMessages]) (by decide)

theorem mapInternalError_calculationError {code : Int32} (h : IsCalculationError code) :
    mapInternalError code ≠ .ok := by
  rcases h with rfl | rfl | rfl <;> decide

theorem own_calculateResult {M : CalculatorMath} {data : CalculatorData} {e : Exception}
    (h : (Abacus.calculateResult M data).2 = .error e) : Own e := by
  have hcode : ∀ code what, e = .calculator code what → mapInternalError code ≠ .ok := by
    rintro code what rfl
    obtain ⟨v, -, ⟨hok, -⟩ | ⟨code', what', herror, hcode, -⟩⟩ := calculateResult_spec M data
    · rw [hok] at h
      cases h
    · rw [herror] at h
      cases h
      exact mapInternalError_calculationError hcode
  unfold Abacus.calculateResult at h
  split at h
  · cases h
  · split at h
    · cases h
      exact .calculator (by simp [ownMessages]) (hcode _ _ rfl)
    · simp only at h
      split at h
      · cases h
        exact .calculator (by simp [ownMessages]) (hcode _ _ rfl)
      · cases h

/-- A key fails for want of a second operand. -/
theorem own_make {a : Int32} {b : Option Int32} {op : Operation} {e : Exception}
    (h : OperationKey.make a b op.name = .error e) : Own e := by
  rw [make_eq, op.named_name] at h
  cases op with
  | factorial => cases h
  | binary o =>
    cases b with
    | some b => cases h
    | none =>
      cases h
      exact .calculator (by simp [ownMessages]) (by decide)

theorem own_makeOperationRecord {data : CalculatorData} {status : Int32} {op : Operation}
    {e : Exception} (h : makeOperationRecord data status op.name = .error e) : Own e := by
  simp only [makeOperationRecord] at h
  split at h
  · cases h
  · rename_i e' he
    obtain rfl := Except.error.inj h
    exact own_make he

/-! ## Texts that can be encoded -/

/-- The texts of an exception. -/
def Exception.texts : Exception → List String
  | .calculator _ what => [what]
  | .foreign (.protocolError _ what field) => what :: field.toList
  | .foreign (.std what) => [what]
  | .foreign .other => []

/-- The texts that come with `json` can be encoded: those of the parser's exception, or the id of
the request. -/
structure Legible (lib : Protocol) (encodable : String → Prop) (json : String) : Prop where
  parser : ∀ e, lib.parseRequest json = .error e →
    ∀ t ∈ (Exception.foreign e).texts, encodable t
  requestId : ∀ request, lib.parseRequest json = .ok request → encodable request.requestId

theorem legible_all (lib : Protocol) (json : String) : Legible lib (fun _ => True) json :=
  ⟨fun _ _ _ _ => trivial, fun _ _ => trivial⟩

section Encodable

variable {lib : Protocol} {encodable : String → Prop}

/-- A failure response carries the request id and the texts of the exception. -/
theorem encodable_errorResponse (hlib : lib.Accepts encodable) (id : String) (e : Exception) :
    (∀ t ∈ (errorResponse lib id e).texts, encodable t) ↔
      encodable id ∧ ∀ t ∈ e.texts, encodable t := by
  have hid : encodable (if id = "" then "unknown" else id) ↔ encodable id := by
    by_cases h : id = ""
    · subst h
      exact iff_of_true (hlib.ascii _ (by decide)) (hlib.ascii _ (by decide))
    · rw [if_neg h]
  have hother : encodable "unknown server error" := hlib.ascii _ (by decide)
  rw [← hid, CalculationResponse.texts, errorResponse_requestId, errorResponse_errorInfo]
  cases e with
  | calculator code what => simp [exceptionInfo, Exception.texts]
  | foreign e =>
    cases e with
    | protocolError status what field => simp [exceptionInfo, Exception.texts]
    | std what => simp [exceptionInfo, Exception.texts]
    | other => simp [exceptionInfo, Exception.texts, hother]

theorem encodable_own (hlib : lib.Accepts encodable) {e : Exception} (he : Own e) :
    ∀ t ∈ e.texts, encodable t := by
  have hown : ∀ t ∈ ownMessages, isAscii t = true := by decide +kernel
  cases he with
  | calculator h =>
    intro t ht
    rw [List.mem_singleton.mp ht]
    exact hlib.ascii _ (hown _ h)
  | _ =>
    intro t ht
    exact hlib.ascii t ((by decide : ∀ t ∈ Exception.texts _, isAscii t = true) t ht)

theorem encodable_calculatedResponse {id : String} (hid : encodable id) (v : Int32) :
    ∀ t ∈ (calculatedResponse lib id v).texts, encodable t := by
  simpa [calculatedResponse, CalculationResponse.texts] using hid

theorem encodable_cachedResponse (hlib : lib.Accepts encodable) {id : String}
    (hid : encodable id) {r : OperationRecord} {response : CalculationResponse}
    (h : cachedResponse lib id r = some response) : ∀ t ∈ response.texts, encodable t := by
  unfold cachedResponse at h
  split at h
  · obtain ⟨v, -, rfl⟩ := Option.map_eq_some_iff.mp h
    simpa [CalculationResponse.texts] using hid
  · obtain rfl := Option.some.inj h
    -- the texts are those of the failure response to an exception with this message
    have hmessage := (encodable_errorResponse hlib id
      (.calculator r.status "cached calculation error")).mpr
      ⟨hid, by simpa [Exception.texts] using hlib.ascii _ (by decide)⟩
    exact hmessage

/-- A response whose texts can be encoded is not what `serialize_response` throws for. -/
theorem not_unencoded (hlib : lib.Accepts encodable) {P : CalculationResponse → Prop}
    (hP : ∀ response, P response → ∀ t ∈ response.texts, encodable t) {e : Exception} :
    ¬ Unencoded lib P e := by
  rintro ⟨response, timing, err, h, herr, -⟩
  obtain ⟨json, hjson⟩ := hlib.accepts { response with timing := timing } (hP response h)
  rw [hjson] at herr
  cases herr

/-- Where every response can be encoded, what a call emits is a text. -/
theorem emits_value (hlib : lib.Accepts encodable) {P : CalculationResponse → Prop}
    (hP : ∀ response, P response → ∀ t ∈ response.texts, encodable t)
    {out : Outcome Exception String} (h : Emits lib P out) :
    ∃ text, out = .value text ∧ Emitted lib P text := by
  cases out with
  | value text => exact ⟨text, rfl, h⟩
  | thrown e => exact (not_unencoded hlib hP h).elim
  | undefined => exact h.elim

end Encodable

/-! ## The rule -/

section Rule

variable {σ ε : Type} {M : CalculatorMath} {lib : Protocol} {millis : Elapsed}
  {exec : ε → σ → (o : StorageOp) → σ × o.Ans} {A : ε → σ → StorageOp → Prop} {I : σ → Prop}
  {U : Prop} {V : String → Prop} {X : Exception → Prop}

/-- What has to be known for the `try` block of a request with this id to end with a text satisfying
`V` or an exception satisfying `X`, or to be undefined where `U` allows it. -/
structure TryBlock (lib : Protocol) (millis : Elapsed) (requestId : String)
    (exec : ε → σ → (o : StorageOp) → σ × o.Ans) (A : ε → σ → StorageOp → Prop) (I : σ → Prop)
    (U : Prop) (V : String → Prop) (X : Exception → Prop) : Prop where
  own : ∀ e, Own e → X e
  find : ∀ a b name x s, A x s (.find a b name) → I s →
    I (exec x s (.find a b name)).1 ∧ (∀ e, (exec x s (.find a b name)).2 = .error e → X e) ∧
      ∀ r, (exec x s (.find a b name)).2 = .ok (some r) →
        (∀ response, cachedResponse lib requestId r = some response →
          (reply lib millis.tryBlock response).Sat exec A I (Outcome.PostOr U V X)) ∧
        (cachedResponse lib requestId r = none → U)
  save : ∀ r, SaveKeeps exec A I X r
  calculated : ∀ v, (reply lib millis.tryBlock (calculatedResponse lib requestId v)).Sat exec A I
    (Outcome.PostOr U V X)

theorem saveFailure_tryBlock {requestId : String}
    (h : TryBlock lib millis requestId exec A I U V X) {data : CalculatorData} {op : Operation}
    {e : Exception} (he : X e) :
    (saveFailure data op.name e).Sat exec A I (Outcome.PostOr U V X) := by
  cases e with
  | foreign e => exact he
  | calculator code what =>
    refine sat_andThen (V := fun _ => True) ?_ fun _ _ => he
    split
    · refine sat_tryCatch (X := X) (sat_andThen (V := fun _ => True) ?_ fun record _ => ?_) ?_
      · exact sat_ofExcept (fun _ _ => trivial) fun e' he' => h.own e' (own_makeOperationRecord he')
      · exact sat_call fun x s ha hi =>
          ⟨(h.save record x s ha hi).1, fun _ _ => trivial, (h.save record x s ha hi).2⟩
      · intro e' he'
        split
        · exact he'
        · trivial
    · trivial

theorem calculateAndSave_tryBlock {request : CalculationRequest}
    (h : TryBlock lib millis request.requestId exec A I U V X) (op : Operation)
    (data : CalculatorData) :
    (calculateAndSave M lib millis request op.name data).Sat exec A I
      (Outcome.PostOr U V X) := by
  refine sat_andThen (V := fun _ => True)
    (sat_ofExcept (fun _ _ => trivial) fun e he => h.own e (own_checkArguments he)) fun _ _ => ?_
  refine sat_tryCatch (X := X) ?_ fun e he => saveFailure_tryBlock h he
  refine sat_andThen (V := fun _ => True)
    (sat_ofExcept (fun _ _ => trivial) fun e he => h.own e (own_calculateResult he)) fun _ _ => ?_
  refine sat_andThen (V := fun _ => True)
    (sat_ofExcept (fun _ _ => trivial) fun e he => h.own e (own_makeOperationRecord he))
    fun record _ => ?_
  refine sat_andThen (V := fun _ => True) (sat_call fun x s ha hi => ?_) fun _ _ => h.calculated _
  exact ⟨(h.save record x s ha hi).1, fun _ _ => trivial, (h.save record x s ha hi).2⟩

/-- **The rule for the `try` block** of `handle`, once the request is parsed. -/
theorem handleRequest_sat {request : CalculationRequest}
    (h : TryBlock lib millis request.requestId exec A I U V X) :
    (handleRequest M lib millis request).Sat exec A I (Outcome.PostOr U V X) := by
  unfold handleRequest
  refine sat_andThen (V := fun data => toCalculatorData request = .ok data)
    (sat_ofExcept (fun _ hok => hok) fun e he => h.own e (own_toCalculatorData he))
    fun data hdata => ?_
  obtain ⟨op, hop, -, -⟩ := toCalculatorData_ok hdata
  rw [operationToStorageName_eq, hop]
  simp only [ok_andThen]
  refine sat_andThen (V := fun found => ∀ r, found = some r →
      (∀ response, cachedResponse lib request.requestId r = some response →
        (reply lib millis.tryBlock response).Sat exec A I (Outcome.PostOr U V X)) ∧
      (cachedResponse lib request.requestId r = none → U))
    (sat_call fun x s ha hi => ?_) fun found hfound => ?_
  · obtain ⟨hI, hthrown, hok⟩ := h.find _ _ _ x s ha hi
    exact ⟨hI, fun found hf r hr => hok r (hr ▸ hf), hthrown⟩
  · cases found with
    | none => exact calculateAndSave_tryBlock h op data
    | some r =>
      obtain ⟨hsome, hnone⟩ := hfound r rfl
      simp only [afterFind]
      split
      · rename_i response hresponse
        exact hsome response hresponse
      · rename_i hempty
        exact hnone hempty

end Rule

end ConsoleCalculator
