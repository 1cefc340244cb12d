import Mathlib.Data.List.Basic

/-!
# The protocol's models, as the server uses them

`ConsoleCalculatorProtocol` is a library outside the repository; what the server takes from it
is data (`README.md`, "Protocol"; `server/include/request-handler.h`) and four functions. The data
are modelled here with the fields the server reads or writes:

* `CalculationRequest`: `request_id`, `operation`, `operands`. `operands` is any list of 64-bit
  integers, as `set_operands` of `tests/request_handler_tests.cpp` takes it.
* `CalculationResponse`: built by `success` or `failure`, then completed by the setters. The
  README's example response and `RequestHandlerTest` show these fields.
* `StatusCode`: the codes the server names, and `other` for codes only the library uses.

The functions are the parameter `Protocol` of everything that follows:

* `parse_request` and `serialize_response` may throw, but never a `CalculatorException`, which is a
  class of this repository: `ForeignError` is what code outside the repository can throw.
* `success` and `failure` are known as far as the fields `success_requestId` to
  `failure_resultInfo` say. The tests and the README show the status and the result of a success and
  that it has no error, and of a failure its status, that it has an error and that it has no result.
  That the id and the message are those of the arguments, and that a failure has no source before
  one is set, is assumed. What status and result the library gives a failure that is built with the
  status `OK` is shown nowhere and left open.

Left out: `protocol_version`, which no function of the server touches.
-/

namespace ConsoleCalculator

/-- `CalculatorProtocol::Codes::OperationCode`. -/
inductive ProtocolOperation where
  | addition
  | subtraction
  | multiplication
  | division
  | exponentiation
  | factorial
  | unknown
  deriving DecidableEq, Repr

/-- `CalculatorProtocol::Codes::StatusCode`: the codes the server names. -/
inductive StatusCode where
  | ok
  | operandsCountMismatch
  | invalidOperands
  | invalidOperation
  | divisionByZero
  | factorialOfNegativeNumber
  | numericOverflow
  | storageError
  | invalidJson
  | calculationError
  | operandOutOfRange
  | internalError
  | unknownError
  | other (code : Int32)
  deriving DecidableEq, Repr

/-- `CalculatorProtocol::Types::ResultSource`. -/
inductive ResultSource where
  | calculated
  | cache
  deriving DecidableEq, Repr

/-- `CalculatorProtocol::Models::CalculationRequest`. -/
structure CalculationRequest where
  requestId : String
  operation : ProtocolOperation
  operands : List Int64
  deriving DecidableEq, Repr

/-- The error part of a response: message and, for a protocol error, the field it is about. -/
structure ErrorInfo where
  message : String
  field : Option String := none
  deriving DecidableEq, Repr

/-- `CalculatorProtocol::Models::CalculationResponse`. `timing` is `total_duration_ms`. -/
structure CalculationResponse where
  requestId : String
  statusCode : StatusCode
  resultInfo : Option Int32 := none
  errorInfo : Option ErrorInfo := none
  resultSource : Option ResultSource := none
  timing : Option ℕ := none
  deriving DecidableEq, Repr

/-- The texts of a response. -/
def CalculationResponse.texts (response : CalculationResponse) : List String :=
  response.requestId ::
    match response.errorInfo with
    | none => []
    | some info => info.message :: info.field.toList

/-- What code outside the repository can throw: the library's `ProtocolError`, another
`std::exception`, or something that is no `std::exception`. -/
inductive ForeignError where
  | protocolError (status : StatusCode) (what : String) (field : Option String)
  | std (what : String)
  | other
  deriving DecidableEq, Repr

/-- The functions of the library that the server calls, with what is known of the responses they
build. -/
structure Protocol where
  /-- `CalculatorProtocol::Formats::JsonCodec::parse_request`. -/
  parseRequest : String → Except ForeignError CalculationRequest
  /-- `CalculatorProtocol::Formats::JsonCodec::serialize_response`. -/
  serializeResponse : CalculationResponse → Except ForeignError String
  /-- `CalculatorProtocol::Models::CalculationResponse::success`. -/
  success (requestId : String) (value : Int32) : CalculationResponse
  /-- `CalculatorProtocol::Models::CalculationResponse::failure`. -/
  failure (requestId : String) (status : StatusCode) (message : String) : CalculationResponse
  success_requestId : ∀ id value, (success id value).requestId = id
  success_statusCode : ∀ id value, (success id value).statusCode = .ok
  success_resultInfo : ∀ id value, (success id value).resultInfo = some value
  success_errorInfo : ∀ id value, (success id value).errorInfo = none
  failure_requestId : ∀ id status message, (failure id status message).requestId = id
  failure_errorInfo : ∀ id status message,
    (failure id status message).errorInfo = some { message := message }
  failure_resultSource : ∀ id status message, (failure id status message).resultSource = none
  -- only of a status other than `OK`
  failure_statusCode : ∀ id status message, status ≠ .ok →
    (failure id status message).statusCode = status
  failure_resultInfo : ∀ id status message, status ≠ .ok →
    (failure id status message).resultInfo = none

namespace Protocol

attribute [simp] success_requestId success_statusCode success_resultInfo success_errorInfo
  failure_requestId failure_errorInfo failure_resultSource

/-- A library whose responses hold what they are built from. -/
def plain (parseRequest : String → Except ForeignError CalculationRequest)
    (serializeResponse : CalculationResponse → Except ForeignError String) : Protocol where
  parseRequest := parseRequest
  serializeResponse := serializeResponse
  success requestId value := { requestId := requestId, statusCode := .ok, resultInfo := some value }
  failure requestId status message :=
    { requestId := requestId, statusCode := status, errorInfo := some { message := message } }
  success_requestId _ _ := rfl
  success_statusCode _ _ := rfl
  success_resultInfo _ _ := rfl
  success_errorInfo _ _ := rfl
  failure_requestId _ _ _ := rfl
  failure_errorInfo _ _ _ := rfl
  failure_resultSource _ _ _ := rfl
  failure_statusCode _ _ _ _ := rfl
  failure_resultInfo _ _ _ _ := rfl

end Protocol

/-! ## Texts that can be encoded -/

def isAscii (text : String) : Bool := text.toList.all fun c => c.toNat < 128

/-- `serialize_response` encodes every response whose texts are `encodable`. Which texts those are
is left open, but for ASCII texts. -/
structure Protocol.Accepts (lib : Protocol) (encodable : String → Prop) : Prop where
  ascii : ∀ text, isAscii text = true → encodable text
  accepts : ∀ response, (∀ t ∈ response.texts, encodable t) →
    ∃ json, lib.serializeResponse response = .ok json

end ConsoleCalculator
