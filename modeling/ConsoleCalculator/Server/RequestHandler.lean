import ConsoleCalculator.Base.Exceptions
import ConsoleCalculator.Storage.Postgres

/-!
# The request handler

Model of `RequestHandler` (`server/src/request-handler.cpp`). `handle` reaches the storage only
through `storage_->find` and `storage_->save`, each of which is one atomic step for the other
threads, so it is a `Base.Prog` over these two operations (`StorageOp`): what one call does
between two storage operations is its own business.

* `HandlerM` is that program with C++ exceptions (`Base.Throwing`). The outcome `undefined`
  stands for dereferencing an empty `std::optional`, which `handle` would do on a cached record
  with status 0 and no result.
* `handle` is cut at its `try` blocks: `handleRequest` is the body of the outer `try` once the
  request is parsed and `request_id` is set, `catchClauses` its four handlers, `saveFailure` the
  handler of the inner `try`.
* Every response carries a timing. The clock is not modelled: what it reads in the `try` block
  and in a `catch` clause of a call is an argument (`Elapsed`).

Results:
* `errorResponse_eq`: what a `catch` clause answers, and as far as the library is known its fields.
* `toCalculatorData_ok`: the data of an accepted request, in terms of the operation it names.
* `checked_calculation`: data that pass the check stand for a calculation.
* `StandsFor.makeOperationRecord_eq`: the record such data leave, key included.
* **`handle_endsWithin`**: a call issues at most three storage operations.
-/

namespace ConsoleCalculator

open Base
open Base.Throwing (andThen tryCatch ofExcept endsWithin_andThen endsWithin_tryCatch
  endsWithin_ofExcept endsWithin_ofExcept_andThen)

/-! ## The storage as the handler sees it -/

/-- The operations of `IOperationStorage` (`server/include/operation-storage.h`). -/
inductive StorageOp where
  | find (firstNumber : Int32) (secondNumber : Option Int32) (operation : String)
  | save (record : OperationRecord)
  deriving DecidableEq, Repr

/-- What an operation of the storage returns, or the exception it throws. -/
@[reducible] def StorageOp.Ans : StorageOp → Type
  | .find _ _ _ => Except Exception (Option OperationRecord)
  | .save _ => Except Exception Unit

/-- A program over the storage that may throw. -/
@[reducible] def HandlerM (α : Type) : Type := Throwing StorageOp StorageOp.Ans Exception α

namespace HandlerM

/-- `storage_->find`. -/
def find (firstNumber : Int32) (secondNumber : Option Int32) (operation : String) :
    HandlerM (Option OperationRecord) :=
  .call (.find firstNumber secondNumber operation) fun answer => ofExcept answer

/-- `storage_->save`. -/
def save (record : OperationRecord) : HandlerM Unit :=
  .call (.save record) fun answer => ofExcept answer

/-- `JsonCodec::serialize_response`, which may throw. -/
def serialize (lib : Protocol) (response : CalculationResponse) : HandlerM String :=
  ofExcept ((lib.serializeResponse response).mapError .foreign)

end HandlerM

namespace RequestHandler

/-! ## The static helpers -/

/-- `fits_int64_to_int`. -/
def fitsInt64ToInt (value : Int64) : Bool :=
  decide (Int32.minValue.toInt64 ≤ value) && decide (value ≤ Int32.maxValue.toInt64)

/-- The exception for an operation the protocol does not know. -/
def unknownOperation : Exception :=
  .foreign (.protocolError .invalidOperation "unknown operation" (some "operation"))

/-- `RequestHandler::to_internal_operation`. -/
def toInternalOperation : ProtocolOperation → Except Exception OperationCode
  | .addition => .ok .operationAddition
  | .subtraction => .ok .operationSubtraction
  | .multiplication => .ok .operationMultiplication
  | .division => .ok .operationDivision
  | .exponentiation => .ok .operationExponentiation
  | .factorial => .ok .operationFactorial
  | .unknown => .error unknownOperation

/-- `RequestHandler::operation_to_storage_name`. -/
def operationToStorageName : ProtocolOperation → Except Exception String
  | .addition => .ok "add"
  | .subtraction => .ok "sub"
  | .multiplication => .ok "mul"
  | .division => .ok "div"
  | .exponentiation => .ok "pow"
  | .factorial => .ok "fact"
  | .unknown => .error unknownOperation

/-- The exception for an operand that is no `int`. -/
def operandOutOfRange (which field : String) : Exception :=
  .foreign
    (.protocolError .operandOutOfRange (which ++ " operand is outside int range") (some field))

/-- The first `if` of `to_calculator_data`. -/
def readFirstOperand (data : CalculatorData) (operands : List Int64) :
    Except Exception CalculatorData :=
  match operands with
  | [] => .ok data
  | first :: _ =>
    if fitsInt64ToInt first then
      .ok { data with firstNumber := first.toInt32, hasFirstNumber := 1 }
    else .error (operandOutOfRange "first" "operands[0]")

/-- The second `if` of `to_calculator_data`. -/
def readSecondOperand (data : CalculatorData) (operands : List Int64) :
    Except Exception CalculatorData :=
  match operands with
  | _ :: second :: _ =>
    if fitsInt64ToInt second then
      .ok { data with secondNumber := second.toInt32, hasSecondNumber := 1 }
    else .error (operandOutOfRange "second" "operands[1]")
  | _ => .ok data

/-- `RequestHandler::to_calculator_data`. -/
def toCalculatorData (request : CalculationRequest) : Except Exception CalculatorData := do
  let operation ← toInternalOperation request.operation
  let data ← readFirstOperand { operation := operation } request.operands
  readSecondOperand data request.operands

/-- `RequestHandler::second_number_for_storage`. -/
def secondNumberForStorage (data : CalculatorData) : Option Int32 :=
  if data.operation = .operationFactorial ∨ data.hasSecondNumber = 0 then none
  else some data.secondNumber

/-- `RequestHandler::is_storable_operation`. -/
def isStorableOperation (data : CalculatorData) : Bool :=
  if data.needHelp ≠ 0 ∨ data.operation = .operationNone ∨ data.hasFirstNumber = 0 then false
  else decide (data.operation = .operationFactorial ∨ data.hasSecondNumber ≠ 0)

/-- `RequestHandler::make_operation_record`. -/
def makeOperationRecord (data : CalculatorData) (status : Int32) (operation : String) :
    Except Exception OperationRecord :=
  let secondNumber := secondNumberForStorage data
  let result := if status = ErrorCode.errorNone.toInt then some data.result else none
  match OperationKey.make data.firstNumber secondNumber operation with
  | .ok cacheKey => .ok ⟨data.firstNumber, secondNumber, operation, result, status, cacheKey⟩
  | .error e => .error e

/-- `RequestHandler::map_internal_error`. -/
def mapInternalError (errorCode : Int32) : StatusCode :=
  match ErrorCode.ofInt errorCode with
  | some .errorNone => .ok
  | some .errorMissingFirstNumber => .operandsCountMismatch
  | some .errorMissingSecondNumber => .operandsCountMismatch
  | some .errorInvalidNumber => .invalidOperands
  | some .errorMissingOperation => .invalidOperation
  | some .errorInvalidOperation => .invalidOperation
  | some .errorDivisionByZero => .divisionByZero
  | some .errorNegativeFactorial => .factorialOfNegativeNumber
  | some .errorOverflow => .numericOverflow
  | some .errorStorage => .storageError
  | some .errorInvalidJson => .invalidJson
  | some .errorNegativePower => .invalidOperands
  | some .errorUnknownOption => .calculationError
  | none => .calculationError

/-- `RequestHandler::make_timing` of the milliseconds elapsed. -/
def makeTiming (millis : Int64) : ℕ := millis.toInt.toNat

/-- `RequestHandler::make_failure`. -/
def makeFailure (lib : Protocol) (requestId : String) (status : StatusCode) (message : String) :
    CalculationResponse :=
  lib.failure (if requestId = "" then "unknown" else requestId) status message

/-! ## `handle` -/

/-- The milliseconds since the start of the call, as read in the `try` block and in a `catch`
clause. -/
structure Elapsed where
  tryBlock : Int64
  catchClause : Int64
  deriving DecidableEq, Repr

section Handle

variable (M : CalculatorMath) (lib : Protocol) (millis : Elapsed)

/-- `set_timing_info`, `serialize_response`, `return`. -/
def reply (elapsed : Int64) (response : CalculationResponse) : HandlerM String :=
  HandlerM.serialize lib { response with timing := some (makeTiming elapsed) }

/-- The response made of a cached record: `none` is the dereference of an empty optional. -/
def cachedResponse (requestId : String) (cached : OperationRecord) : Option CalculationResponse :=
  if cached.status = ErrorCode.errorNone.toInt then
    cached.result.map fun v => { lib.success requestId v with resultSource := some .cache }
  else some
    { makeFailure lib requestId (mapInternalError cached.status) "cached calculation error" with
      resultSource := some .cache }

/-- The response made of a calculated result. -/
def calculatedResponse (requestId : String) (value : Int32) : CalculationResponse :=
  { lib.success requestId value with resultSource := some .calculated }

/-- The `catch` clause of the inner `try`: save a failure record, then rethrow. The inner
handler of that save catches every `std::exception`. -/
def saveFailure (data : CalculatorData) (operation : String) (e : Exception) : HandlerM String :=
  match e with
  | .calculator code _ =>
    andThen
      (if isStorableOperation data then
        tryCatch
          (andThen (ofExcept (makeOperationRecord data code operation)) HandlerM.save)
          fun
          | .foreign .other => .done (.thrown (.foreign .other))
          | _ => .done (.value ())
      else .done (.value ()))
      fun _ => .done (.thrown e)
  | .foreign _ => .done (.thrown e)

/-- `handle` after a miss in the storage: check, calculate, save, reply. -/
def calculateAndSave (request : CalculationRequest) (operation : String) (data : CalculatorData) :
    HandlerM String :=
  andThen (ofExcept (Checker.checkArguments data)) fun _ =>
    let calculated := Abacus.calculateResult M data
    tryCatch
      (andThen (ofExcept calculated.2) fun _ =>
        andThen
          (ofExcept (makeOperationRecord calculated.1 ErrorCode.errorNone.toInt operation))
          fun record => andThen (HandlerM.save record) fun _ =>
            reply lib millis.tryBlock
              (calculatedResponse lib request.requestId calculated.1.result))
      (saveFailure calculated.1 operation)

/-- `handle` after the answer of `storage_->find`. -/
def afterFind (request : CalculationRequest) (operation : String) (data : CalculatorData) :
    Option OperationRecord → HandlerM String
  | some cached =>
    match cachedResponse lib request.requestId cached with
    | some response => reply lib millis.tryBlock response
    | none => .done .undefined
  | none => calculateAndSave M lib millis request operation data

/-- The body of the outer `try`, from the assignment of `request_id` on. -/
def handleRequest (request : CalculationRequest) : HandlerM String :=
  andThen (ofExcept (toCalculatorData request)) fun data =>
    andThen (ofExcept (operationToStorageName request.operation)) fun operation =>
      andThen (HandlerM.find data.firstNumber (secondNumberForStorage data) operation)
        (afterFind M lib millis request operation data)

/-- The response an exception is turned into, by the first `catch` clause that fits. -/
def errorResponse (requestId : String) : Exception → CalculationResponse
  | .foreign (.protocolError status what field) =>
    let response := makeFailure lib requestId status what
    match field, response.errorInfo with
    | some f, some info => { response with errorInfo := some { info with field := some f } }
    | _, _ => response
  | .calculator code what => makeFailure lib requestId (mapInternalError code) what
  | .foreign (.std what) => makeFailure lib requestId .internalError what
  | .foreign .other => makeFailure lib requestId .unknownError "unknown server error"

/-- The four `catch` clauses of the outer `try`. -/
def catchClauses (requestId : String) (e : Exception) : HandlerM String :=
  reply lib millis.catchClause (errorResponse lib requestId e)

/-- `RequestHandler::handle`. When `parse_request` throws, `request_id` is still empty. -/
def handle (requestJson : String) : HandlerM String :=
  match lib.parseRequest requestJson with
  | .error e => catchClauses lib millis "" (.foreign e)
  | .ok request =>
    tryCatch (handleRequest M lib millis request)
      (catchClauses lib millis request.requestId)

end Handle

/-! ### What the responses say -/

/-- The status an exception is answered with. -/
def exceptionStatus : Exception → StatusCode
  | .foreign (.protocolError status _ _) => status
  | .calculator code _ => mapInternalError code
  | .foreign (.std _) => .internalError
  | .foreign .other => .unknownError

/-- The error an exception is answered with. -/
def exceptionInfo : Exception → ErrorInfo
  | .foreign (.protocolError _ what field) => ⟨what, field⟩
  | .calculator _ what => { message := what }
  | .foreign (.std what) => { message := what }
  | .foreign .other => { message := "unknown server error" }

section Responses

variable (lib : Protocol) (id : String)

/-- Whichever clause catches the exception, the response is a failure with its status and its
error. -/
theorem errorResponse_eq (e : Exception) :
    errorResponse lib id e =
      { makeFailure lib id (exceptionStatus e) (exceptionInfo e).message with
        errorInfo := some (exceptionInfo e) } := by
  have hinfo : ∀ status message, makeFailure lib id status message =
      { makeFailure lib id status message with errorInfo := some { message := message } } := by
    intro status message
    conv_rhs => rw [← lib.failure_errorInfo (if id = "" then "unknown" else id) status message]
    rfl
  cases e with
  | calculator code what => exact hinfo _ _
  | foreign e =>
    cases e with
    | protocolError status what field =>
      cases field with
      | none => exact hinfo _ _
      | some f => simp [errorResponse, exceptionStatus, exceptionInfo, makeFailure]
    | std what => exact hinfo _ _
    | other => exact hinfo _ _

theorem errorResponse_requestId (e : Exception) :
    (errorResponse lib id e).requestId = if id = "" then "unknown" else id := by
  rw [errorResponse_eq]
  exact lib.failure_requestId _ _ _

theorem errorResponse_errorInfo (e : Exception) :
    (errorResponse lib id e).errorInfo = some (exceptionInfo e) := by
  rw [errorResponse_eq]

theorem errorResponse_resultSource (e : Exception) :
    (errorResponse lib id e).resultSource = none := by
  rw [errorResponse_eq]
  exact lib.failure_resultSource _ _ _

theorem errorResponse_statusCode {e : Exception} (h : exceptionStatus e ≠ .ok) :
    (errorResponse lib id e).statusCode = exceptionStatus e := by
  rw [errorResponse_eq]
  exact lib.failure_statusCode _ _ _ h

theorem errorResponse_resultInfo {e : Exception} (h : exceptionStatus e ≠ .ok) :
    (errorResponse lib id e).resultInfo = none := by
  rw [errorResponse_eq]
  exact lib.failure_resultInfo _ _ _ h

theorem errorResponse_outcome {e : Exception} (h : exceptionStatus e ≠ .ok) :
    ((errorResponse lib id e).statusCode, (errorResponse lib id e).resultInfo) =
      (exceptionStatus e, none) := by
  rw [errorResponse_statusCode lib id h, errorResponse_resultInfo lib id h]

theorem calculatedResponse_outcome (value : Int32) :
    ((calculatedResponse lib id value).statusCode, (calculatedResponse lib id value).resultInfo) =
      (.ok, some value) :=
  Prod.ext (lib.success_statusCode id value) (lib.success_resultInfo id value)

end Responses

/-- **A call issues at most three storage operations**: a `find`, the save of its result, and
when that throws the save of a failure record. -/
theorem handle_endsWithin (M : CalculatorMath) (lib : Protocol) (millis : Elapsed)
    (json : String) : (handle M lib millis json).EndsWithin 3 := by
  have hsave : ∀ r, (HandlerM.save r).EndsWithin 1 := fun r answer => endsWithin_ofExcept 0 answer
  have hfail : ∀ data operation e, (saveFailure data operation e).EndsWithin 1 := by
    intro data operation e
    cases e with
    | foreign e => trivial
    | calculator code what =>
      refine endsWithin_andThen (n := 1) (m := 0) ?_ fun _ => trivial
      split
      · refine endsWithin_tryCatch (n := 1) (m := 0) ?_ fun e => ?_
        · exact endsWithin_ofExcept_andThen _ fun r => hsave r
        · split <;> trivial
      · trivial
  have hcalc : ∀ request operation data,
      (calculateAndSave M lib millis request operation data).EndsWithin 2 := by
    intro request operation data
    refine endsWithin_ofExcept_andThen _ fun _ => ?_
    refine endsWithin_tryCatch (n := 1) (m := 1) ?_ (hfail _ _)
    refine endsWithin_ofExcept_andThen _ fun _ => endsWithin_ofExcept_andThen _ fun r => ?_
    exact endsWithin_andThen (n := 1) (m := 0) (hsave r) fun _ => endsWithin_ofExcept 0 _
  unfold handle
  split
  · exact endsWithin_ofExcept 3 _
  · refine endsWithin_tryCatch (n := 3) (m := 0) ?_ fun _ => endsWithin_ofExcept 0 _
    refine endsWithin_ofExcept_andThen _ fun data => ?_
    refine endsWithin_ofExcept_andThen _ fun operation => ?_
    refine endsWithin_andThen (n := 1) (m := 2) (fun answer => endsWithin_ofExcept 0 answer) ?_
    intro found
    cases found with
    | none => exact hcalc _ _ _
    | some cached =>
      simp only [afterFind]
      split
      · exact endsWithin_ofExcept 2 _
      · trivial

end RequestHandler

/-! ## What a request asks for -/

namespace Operation

/-- The name the handler stores an operation under. -/
def name : Operation → String
  | .binary .add => "add"
  | .binary .sub => "sub"
  | .binary .mul => "mul"
  | .binary .div => "div"
  | .binary .pow => "pow"
  | .factorial => "fact"

/-- The calculator's code of an operation. -/
def code : Operation → OperationCode
  | .binary .add => .operationAddition
  | .binary .sub => .operationSubtraction
  | .binary .mul => .operationMultiplication
  | .binary .div => .operationDivision
  | .binary .pow => .operationExponentiation
  | .factorial => .operationFactorial

/-- Calculator data for an operation and its operands, as a request sets them. -/
def data (op : Operation) (a : Int32) (b : Option Int32) : CalculatorData where
  firstNumber := a
  secondNumber := b.getD 0
  hasFirstNumber := 1
  hasSecondNumber := if b.isSome then 1 else 0
  operation := op.code

theorem named_name (op : Operation) : Operation.named op.name = some op := by
  rcases op with (_ | _ | _ | _ | _) | _ <;> rfl

theorem code_ne_none (op : Operation) : op.code ≠ .operationNone := by
  rcases op with (_ | _ | _ | _ | _) | _ <;> decide

theorem code_factorial_iff (op : Operation) :
    op.code = .operationFactorial ↔ op = .factorial := by
  rcases op with (_ | _ | _ | _ | _) | _ <;> simp [code]

theorem name_fact_iff (op : Operation) : op.name = "fact" ↔ op = .factorial := by
  rcases op with (_ | _ | _ | _ | _) | _ <;> simp [name]

end Operation

/-- The operation a protocol operation stands for; none for `UNKNOWN`. -/
def ProtocolOperation.operation : ProtocolOperation → Option Operation
  | .addition => some (.binary .add)
  | .subtraction => some (.binary .sub)
  | .multiplication => some (.binary .mul)
  | .division => some (.binary .div)
  | .exponentiation => some (.binary .pow)
  | .factorial => some .factorial
  | .unknown => none

namespace RequestHandler

theorem toInternalOperation_eq (p : ProtocolOperation) :
    toInternalOperation p =
      match p.operation with
      | some op => .ok op.code
      | none => .error unknownOperation := by
  cases p <;> rfl

theorem operationToStorageName_eq (p : ProtocolOperation) :
    operationToStorageName p =
      match p.operation with
      | some op => .ok op.name
      | none => .error unknownOperation := by
  cases p <;> rfl

/-- Data set from a request that names `op`. -/
structure DataFor (op : Operation) (data : CalculatorData) : Prop where
  operation : data.operation = op.code
  needHelp : data.needHelp = 0
  result : data.result = 0

theorem readFirstOperand_ok {data data' : CalculatorData} {operands : List Int64}
    (h : readFirstOperand data operands = .ok data') :
    ∃ n f, data' = { data with firstNumber := n, hasFirstNumber := f } ∧
      (operands ≠ [] → f ≠ 0) := by
  unfold readFirstOperand at h
  split at h
  · obtain rfl := Except.ok.inj h
    exact ⟨data.firstNumber, data.hasFirstNumber, rfl, fun hn => absurd rfl hn⟩
  · split at h
    · obtain rfl := Except.ok.inj h
      exact ⟨_, _, rfl, fun _ => by decide⟩
    · exact absurd h (by simp)

theorem readSecondOperand_ok {data data' : CalculatorData} {operands : List Int64}
    (h : readSecondOperand data operands = .ok data') :
    ∃ n f, data' = { data with secondNumber := n, hasSecondNumber := f } := by
  unfold readSecondOperand at h
  split at h
  · split at h
    · obtain rfl := Except.ok.inj h
      exact ⟨_, _, rfl⟩
    · exact absurd h (by simp)
  · obtain rfl := Except.ok.inj h
    exact ⟨data.secondNumber, data.hasSecondNumber, rfl⟩

/-- **An accepted request** names an operation, and its data have a first number if it has an
operand. -/
theorem toCalculatorData_ok {request : CalculationRequest} {data : CalculatorData}
    (h : toCalculatorData request = .ok data) :
    ∃ op, request.operation.operation = some op ∧ DataFor op data ∧
      (request.operands ≠ [] → data.hasFirstNumber ≠ 0) := by
  unfold toCalculatorData at h
  rw [toInternalOperation_eq] at h
  cases hop : request.operation.operation with
  | none => rw [hop] at h; exact absurd h (by simp [bind, Except.bind])
  | some op =>
    rw [hop] at h
    simp only [bind, Except.bind] at h
    split at h
    · exact absurd h (by simp)
    · rename_i first hfirst
      obtain ⟨n, f, rfl, hf⟩ := readFirstOperand_ok hfirst
      obtain ⟨n', f', rfl⟩ := readSecondOperand_ok h
      exact ⟨op, rfl, ⟨rfl, rfl, rfl⟩, hf⟩

/-! ## Data that pass the check -/

theorem secondNumberForStorage_none_iff {op : Operation} {data : CalculatorData}
    (hd : DataFor op data) :
    secondNumberForStorage data = none ↔ op = .factorial ∨ data.hasSecondNumber = 0 := by
  rw [← op.code_factorial_iff, ← hd.operation]
  unfold secondNumberForStorage
  split
  · rename_i h; exact ⟨fun _ => h, fun _ => rfl⟩
  · rename_i h; exact ⟨fun h' => absurd h' (by simp), fun h' => absurd h' h⟩

/-- Data for `op` that stand for the calculation `c`: they are storable, and so is any copy of
them with another result. -/
structure StandsFor (op : Operation) (data : CalculatorData) (c : Calculation) : Prop where
  dataFor : DataFor op data
  first : data.hasFirstNumber ≠ 0
  storable : ∀ v, isStorableOperation { data with result := v } = true
  second : secondNumberForStorage data = none ↔ op = .factorial
  calculation : op.calculation data.firstNumber (secondNumberForStorage data) = some c

/-- Data with a first number and, unless they are for a factorial, a second one. -/
theorem standsFor_of_numbers {op : Operation} {data : CalculatorData} (hd : DataFor op data)
    (hfirst : data.hasFirstNumber ≠ 0) (hsecond : op = .factorial ∨ data.hasSecondNumber ≠ 0) :
    ∃ c, StandsFor op data c := by
  have hstore : ∀ v, isStorableOperation { data with result := v } = true := by
    intro v
    unfold isStorableOperation
    rw [if_neg (by
      rintro (h | h | h)
      · exact h hd.needHelp
      · exact op.code_ne_none (hd.operation ▸ h)
      · exact hfirst h)]
    refine decide_eq_true (hsecond.imp_left fun h => ?_)
    rw [hd.operation, h]
    rfl
  have hnone : secondNumberForStorage data = none ↔ op = .factorial := by
    rw [secondNumberForStorage_none_iff hd]
    exact ⟨fun h => h.elim id fun h0 => hsecond.resolve_right fun hn => hn h0, Or.inl⟩
  cases op with
  | factorial => exact ⟨_, hd, hfirst, hstore, hnone, rfl⟩
  | binary o =>
    obtain ⟨b, hb⟩ := Option.ne_none_iff_exists'.mp fun h => Operation.noConfusion (hnone.mp h)
    exact ⟨_, hd, hfirst, hstore, hnone, by rw [hb]; rfl⟩

/-- Data with a first number and a key stand for the calculation of that key: keys are exact. -/
theorem standsFor_of_key {op : Operation} {data : CalculatorData} {c : Calculation}
    (hd : DataFor op data) (hfirst : data.hasFirstNumber ≠ 0)
    (hk : OperationKey.make data.firstNumber (secondNumberForStorage data) op.name = .ok c.key) :
    StandsFor op data c := by
  obtain ⟨op', c', hop', hcalc, hkey⟩ := make_ok_iff.mp hk
  rw [op.named_name] at hop'
  obtain rfl := Option.some.inj hop'
  obtain rfl := key_injective hkey
  have hsecond : op = .factorial ∨ data.hasSecondNumber ≠ 0 := by
    by_cases h2 : data.hasSecondNumber = 0
    · rw [(secondNumberForStorage_none_iff hd).mpr (Or.inr h2)] at hcalc
      cases op with
      | factorial => exact Or.inl rfl
      | binary o => exact absurd hcalc (by simp [Operation.calculation])
    · exact Or.inr h2
  obtain ⟨c'', hs⟩ := standsFor_of_numbers hd hfirst hsecond
  obtain rfl := Option.some.inj (hs.calculation.symm.trans hcalc)
  exact hs

/-- **Data that pass the check stand for a calculation.** -/
theorem checked_calculation {op : Operation} {data : CalculatorData} (hd : DataFor op data)
    (hc : Checker.checkArguments data = .ok ()) : ∃ c, StandsFor op data c := by
  obtain ⟨-, hfirst, hsecond⟩ := checkArguments_ok hd.needHelp hc
  rw [hd.operation, op.code_factorial_iff] at hsecond
  exact standsFor_of_numbers hd hfirst hsecond

namespace StandsFor

variable {op : Operation} {data : CalculatorData} {c : Calculation}

/-- The key the data are looked up and saved under. -/
theorem make (h : StandsFor op data c) :
    OperationKey.make data.firstNumber (secondNumberForStorage data) op.name = .ok c.key :=
  make_ok_iff.mpr ⟨op, c, op.named_name, h.calculation, rfl⟩

/-- **The record such data leave**, for every status and result. -/
theorem makeOperationRecord_eq (h : StandsFor op data c) (v status : Int32) :
    makeOperationRecord { data with result := v } status op.name =
      .ok ⟨data.firstNumber, secondNumberForStorage data, op.name,
        if status = ErrorCode.errorNone.toInt then some v else none, status, c.key⟩ := by
  have hs : secondNumberForStorage { data with result := v } = secondNumberForStorage data := rfl
  simp only [makeOperationRecord, hs, h.make]

/-- Unless they are for a factorial, the data have a second number, and it is the one stored. -/
theorem second_eq (h : StandsFor op data c) (hf : op ≠ .factorial) :
    data.hasSecondNumber ≠ 0 ∧ secondNumberForStorage data = some data.secondNumber := by
  have hs : ¬ (op = .factorial ∨ data.hasSecondNumber = 0) := by
    rw [← secondNumberForStorage_none_iff h.dataFor, h.second]
    exact hf
  refine ⟨fun h0 => hs (Or.inr h0), ?_⟩
  rw [← op.code_factorial_iff, ← h.dataFor.operation] at hs
  unfold secondNumberForStorage
  rw [if_neg hs]

/-- The calculation is a function of what the record keeps of the data. -/
theorem outcome_eq (h : StandsFor op data c) (M : CalculatorMath) :
    Abacus.outcome M data =
      Abacus.outcome M (op.data data.firstNumber (secondNumberForStorage data)) := by
  refine outcome_congr M h.dataFor.needHelp rfl h.dataFor.result ?_
  rw [h.dataFor.operation]
  by_cases hf : op = .factorial
  · rw [hf]; rfl
  · rw [(h.second_eq hf).2]; rfl

/-- So is the check. -/
theorem checkArguments_eq (h : StandsFor op data c) :
    Checker.checkArguments data =
      Checker.checkArguments (op.data data.firstNumber (secondNumberForStorage data)) := by
  have hd := h.dataFor
  by_cases hf : op = .factorial
  · subst hf
    by_cases hn : data.firstNumber < 0 <;>
      simp [Checker.checkArguments, hd.needHelp, hd.operation, h.first, Operation.data,
        Operation.code, hn]
  · obtain ⟨h2, hs⟩ := h.second_eq hf
    simp [Checker.checkArguments, hd.needHelp, hd.operation, h.first, Operation.data, hs, h2]

end StandsFor

end RequestHandler

end ConsoleCalculator
