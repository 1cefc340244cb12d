import ConsoleCalculator.Server.Transparency

/-!
# One call of `handle`

`RequestHandler::handle` (`server/src/request-handler.cpp`) run alone on a storage that does not
fail, in any state of it: which response it returns and which state it leaves (`Responds`). Unlike
the rule of `Records`, which says what every response satisfies, this follows the call branch by
branch.

Results:
* `handleRequest_find`: a call looks its key up and goes on with what it finds.
* `responds_hit`, …, `responds_failed`: the response and the state, one lemma for each way through
  the call.
-/

namespace ConsoleCalculator

open Base RequestHandler
open Base.Throwing (andThen ofExcept ok_andThen error_andThen thrown_tryCatch eval_andThen_value
  eval_andThen_thrown eval_tryCatch_value eval_tryCatch_thrown eval_tryCatch_undefined)

/-- Run in the state `s`, the call leaves `s'` and returns `response`, with some timing. -/
def Responds (S : OperationStorage) (M : CalculatorMath) (lib : Protocol) (call : HandleCall)
    (s s' : S.State) (response : CalculationResponse) : Prop :=
  ∃ text timing, (handle M lib call.millis call.json).eval S.exec s = (s', .value text) ∧
    lib.serializeResponse { response with timing := timing } = .ok text

section Calls

variable {S : OperationStorage} {M : CalculatorMath} {lib : Protocol} {call : HandleCall}
  {encodable : String → Prop} {request : CalculationRequest} {s s' : S.State}

theorem eval_reply (hlib : lib.Accepts encodable) (elapsed : Int64)
    {response : CalculationResponse} (h : ∀ t ∈ response.texts, encodable t) :
    ∃ text timing, (reply lib elapsed response).eval S.exec s = (s, .value text) ∧
      lib.serializeResponse { response with timing := timing } = .ok text := by
  obtain ⟨text, ht⟩ := hlib.accepts { response with timing := some (makeTiming elapsed) } h
  refine ⟨text, _, ?_, ht⟩
  unfold reply HandlerM.serialize
  rw [ht]
  rfl

theorem eval_find (a : Int32) (b : Option Int32) (name : String) :
    (HandlerM.find a b name).eval S.exec s =
      (ofExcept ((OperationKey.make a b name).map (S.held s)) : HandlerM _).eval S.exec
        (S.exec s (.find a b name)).1 := by
  rw [← S.find_answer]
  rfl

theorem eval_save (r : OperationRecord) :
    (HandlerM.save r).eval S.exec s = ((S.exec s (.save r)).1, .value ()) := by
  show (ofExcept (S.exec s (.save r)).2 : HandlerM Unit).eval S.exec _ = _
  rw [S.save_answer]
  rfl

/-! ## The `try` block and its handlers -/

/-- A `try` block that replies. -/
theorem responds_replied (hlib : lib.Accepts encodable)
    (hparse : lib.parseRequest call.json = .ok request) {response : CalculationResponse}
    (htexts : ∀ t ∈ response.texts, encodable t)
    (h : (handleRequest M lib call.millis request).eval S.exec s =
      (reply lib call.millis.tryBlock response).eval S.exec s') :
    Responds S M lib call s s' response := by
  obtain ⟨text, timing, ht, hs⟩ := eval_reply (s := s') hlib call.millis.tryBlock htexts
  refine ⟨text, timing, ?_, hs⟩
  unfold handle
  rw [hparse]
  exact eval_tryCatch_value (h.trans ht)

/-- A `try` block that throws an exception of the program's own. -/
theorem responds_thrown (hlib : lib.Accepts encodable)
    (hparse : lib.parseRequest call.json = .ok request) (hid : encodable request.requestId)
    {e : Exception} (he : Own e)
    (h : (handleRequest M lib call.millis request).eval S.exec s = (s', .thrown e)) :
    Responds S M lib call s s' (errorResponse lib request.requestId e) := by
  obtain ⟨text, timing, ht, hs⟩ := eval_reply (s := s') hlib call.millis.catchClause
    ((encodable_errorResponse hlib request.requestId e).mpr ⟨hid, encodable_own hlib he⟩)
  refine ⟨text, timing, ?_, hs⟩
  unfold handle
  rw [hparse]
  exact (eval_tryCatch_thrown h).trans ht

/-- A request that `to_calculator_data` rejects does not reach the storage. -/
theorem responds_rejected (hlib : lib.Accepts encodable)
    (hparse : lib.parseRequest call.json = .ok request) (hid : encodable request.requestId)
    {e : Exception} (h : toCalculatorData request = .error e) :
    Responds S M lib call s s (errorResponse lib request.requestId e) := by
  refine responds_thrown hlib hparse hid (own_toCalculatorData h) ?_
  unfold handleRequest
  rw [h, error_andThen]
  rfl

section Data

variable {data : CalculatorData} {op : Operation}

/-- **A call looks its key up** and goes on with what the storage holds. -/
theorem handleRequest_find (millis : Elapsed) (hdata : toCalculatorData request = .ok data)
    (hop : request.operation.operation = some op) :
    (handleRequest M lib millis request).eval S.exec s =
      match OperationKey.make data.firstNumber (secondNumberForStorage data) op.name with
      | .error e =>
        ((S.exec s (.find data.firstNumber (secondNumberForStorage data) op.name)).1, .thrown e)
      | .ok k => (afterFind M lib millis request op.name data (S.held s k)).eval S.exec
          (S.exec s (.find data.firstNumber (secondNumberForStorage data) op.name)).1 := by
  unfold handleRequest
  rw [hdata, operationToStorageName_eq, hop, ok_andThen, ok_andThen]
  have hfind := eval_find (s := s) data.firstNumber (secondNumberForStorage data) op.name
  cases hk : OperationKey.make data.firstNumber (secondNumberForStorage data) op.name with
  | error e =>
    rw [hk] at hfind
    exact eval_andThen_thrown hfind
  | ok k =>
    rw [hk] at hfind
    exact eval_andThen_value hfind

/-- A request without a key: a binary operation without a second operand. -/
theorem responds_keyless (hlib : lib.Accepts encodable)
    (hparse : lib.parseRequest call.json = .ok request) (hid : encodable request.requestId)
    (hdata : toCalculatorData request = .ok data) (hop : request.operation.operation = some op)
    {e : Exception}
    (hk : OperationKey.make data.firstNumber (secondNumberForStorage data) op.name = .error e) :
    Responds S M lib call s
      (S.exec s (.find data.firstNumber (secondNumberForStorage data) op.name)).1
      (errorResponse lib request.requestId e) := by
  refine responds_thrown hlib hparse hid (own_make hk) ?_
  rw [handleRequest_find _ hdata hop, hk]

/-- A hit. -/
theorem responds_hit (hlib : lib.Accepts encodable)
    (hparse : lib.parseRequest call.json = .ok request) (hid : encodable request.requestId)
    (hdata : toCalculatorData request = .ok data) (hop : request.operation.operation = some op)
    {k : String} {r : OperationRecord} {response : CalculationResponse}
    (hk : OperationKey.make data.firstNumber (secondNumberForStorage data) op.name = .ok k)
    (hheld : S.held s k = some r) (hr : cachedResponse lib request.requestId r = some response) :
    Responds S M lib call s
      (S.exec s (.find data.firstNumber (secondNumberForStorage data) op.name)).1 response := by
  refine responds_replied hlib hparse (encodable_cachedResponse hlib hid hr) ?_
  rw [handleRequest_find _ hdata hop, hk]
  simp only [hheld, afterFind, hr]

/-- A hit on a success without a result. -/
theorem undefined_hit (hparse : lib.parseRequest call.json = .ok request)
    (hdata : toCalculatorData request = .ok data) (hop : request.operation.operation = some op)
    {k : String} {r : OperationRecord}
    (hk : OperationKey.make data.firstNumber (secondNumberForStorage data) op.name = .ok k)
    (hheld : S.held s k = some r) (hr : cachedResponse lib request.requestId r = none) :
    (handle M lib call.millis call.json).eval S.exec s =
      ((S.exec s (.find data.firstNumber (secondNumberForStorage data) op.name)).1,
        .undefined) := by
  unfold handle
  rw [hparse]
  refine eval_tryCatch_undefined ?_
  rw [handleRequest_find _ hdata hop, hk]
  simp only [hheld, afterFind, hr]
  rfl

/-- A miss of data that fail the check. -/
theorem responds_unchecked (hlib : lib.Accepts encodable)
    (hparse : lib.parseRequest call.json = .ok request) (hid : encodable request.requestId)
    (hdata : toCalculatorData request = .ok data) (hop : request.operation.operation = some op)
    {k : String} {e : Exception}
    (hk : OperationKey.make data.firstNumber (secondNumberForStorage data) op.name = .ok k)
    (hheld : S.held s k = none) (hc : Checker.checkArguments data = .error e) :
    Responds S M lib call s
      (S.exec s (.find data.firstNumber (secondNumberForStorage data) op.name)).1
      (errorResponse lib request.requestId e) := by
  refine responds_thrown hlib hparse hid (own_checkArguments hc) ?_
  rw [handleRequest_find _ hdata hop, hk]
  simp only [hheld, afterFind, calculateAndSave, hc, error_andThen]
  rfl

/-! ## Calculations -/

variable {c : Calculation}

/-- A miss of data that pass the check, and a calculation that succeeds: its record is saved. -/
theorem responds_calculated (hlib : lib.Accepts encodable)
    (hparse : lib.parseRequest call.json = .ok request) (hid : encodable request.requestId)
    (hdata : toCalculatorData request = .ok data) (hop : request.operation.operation = some op)
    (hs : StandsFor op data c) (hheld : S.held s c.key = none)
    (hc : Checker.checkArguments data = .ok ()) {v : Int32}
    (hv : Abacus.calculateResult M data = ({ data with result := v }, .ok ())) :
    Responds S M lib call s
      (S.exec (S.exec s (.find data.firstNumber (secondNumberForStorage data) op.name)).1
        (.save ⟨data.firstNumber, secondNumberForStorage data, op.name, some v,
          ErrorCode.errorNone.toInt, c.key⟩)).1
      (calculatedResponse lib request.requestId v) := by
  refine responds_replied hlib hparse (encodable_calculatedResponse hid v) ?_
  rw [handleRequest_find _ hdata hop, hs.make]
  simp only [hheld, afterFind, calculateAndSave, hc, ok_andThen, hv, hs.makeOperationRecord_eq,
    if_true]
  obtain ⟨text, timing, ht, -⟩ := eval_reply hlib call.millis.tryBlock
    (encodable_calculatedResponse hid v)
  refine (eval_tryCatch_value ?_).trans ht.symm
  exact (eval_andThen_value (eval_save _)).trans ht

/-- A miss of data that pass the check, and a calculation that fails: a failure record is saved. -/
theorem responds_failed (hlib : lib.Accepts encodable)
    (hparse : lib.parseRequest call.json = .ok request) (hid : encodable request.requestId)
    (hdata : toCalculatorData request = .ok data) (hop : request.operation.operation = some op)
    (hs : StandsFor op data c) (hheld : S.held s c.key = none)
    (hc : Checker.checkArguments data = .ok ()) {v code : Int32} {what : String}
    (hcode : code ≠ ErrorCode.errorNone.toInt)
    (hv : Abacus.calculateResult M data =
      ({ data with result := v }, .error (.calculator code what))) :
    Responds S M lib call s
      (S.exec (S.exec s (.find data.firstNumber (secondNumberForStorage data) op.name)).1
        (.save ⟨data.firstNumber, secondNumberForStorage data, op.name, none, code, c.key⟩)).1
      (errorResponse lib request.requestId (.calculator code what)) := by
  refine responds_thrown hlib hparse hid (own_calculateResult (by rw [hv])) ?_
  rw [handleRequest_find _ hdata hop, hs.make]
  simp only [hheld, afterFind, calculateAndSave, hc, ok_andThen, hv, error_andThen,
    thrown_tryCatch, saveFailure, hs.storable, if_true, hs.makeOperationRecord_eq, if_neg hcode]
  exact eval_andThen_value (eval_tryCatch_value (eval_save _))

end Data

end Calls

end ConsoleCalculator
