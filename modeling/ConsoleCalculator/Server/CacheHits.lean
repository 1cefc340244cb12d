import ConsoleCalculator.Server.SingleCalls

/-!
# What a cache hit is answered for

`RequestHandler::handle` (`server/src/request-handler.cpp`) asks the storage before it runs the
`Checker`, with the defaults of `CalculatorData` in the place of missing operands, and answers a hit
from the record's status and result as they are. Two questions about that branch:

* Can a request that the `Checker` would reject be answered from the cache? In a storage filled by
  handlers every record files an accepted calculation (`Filed`), and keys are exact, so a request
  with a first operand cannot. A factorial without operands can: it is looked up as `0!`.
* Can a row of `operation_history` be answered for something it does not say? The schema of
  `init_schema` (`storage/postgres/src/postgres-repository.cpp`) admits rows no handler writes. A
  status 0 without a result is dereferenced. A status that is a multiple of 256 becomes `ERROR_NONE`
  in the cast to the eight bits of `ErrorCode`, so `CalculationResponse::failure` is called with the
  status `OK`; what the response then says is the library's business (`Protocol.RefusesOk`).

Results:
* **`check_bypassed_iff`**: exactly the factorials without operands are answered from the cache
  instead of being rejected, once `0!` is stored. `missing_operand_answered` is such a run.
* **`history_row_answer`**: which rows are answered for what they say, and what the others come to
  (`empty_result_dereferenced`).
-/

namespace ConsoleCalculator

open Base RequestHandler

/-! ## Records that handlers leave -/

/-- Every record held files the calculation of its key, with the outcome of that calculation. -/
def Filed (S : OperationStorage) (M : CalculatorMath) (s : S.State) : Prop :=
  ∀ k r, S.held s k = some r → ∃ op c, FiledAs op c r ∧ c.key = k ∧ Genuine M r

section Filed

variable {S : OperationStorage} {M : CalculatorMath} {lib : Protocol}
  {request : CalculationRequest} {s : S.State}

theorem filed_start : Filed S M S.start := by
  intro k r hk
  rw [S.held_start] at hk
  cases hk

theorem filed_save (h : Filed S M s) {op : Operation} {c : Calculation} {r : OperationRecord}
    (hr : FiledAs op c r) (hg : Genuine M r) : Filed S M (S.exec s (.save r)).1 := by
  intro k r' hk
  rcases S.save_held s r k r' hk with ⟨rfl, rfl⟩ | hk
  · exact ⟨op, c, hr, hr.key.symm, hg⟩
  · exact h k r' hk

theorem filed_find_genuine (h : Filed S M s) {a : Int32} {b : Option Int32} {name : String}
    {r : OperationRecord} (hf : (S.exec s (.find a b name)).2 = .ok (some r)) : Genuine M r := by
  obtain ⟨k, -, hheld⟩ := held_of_find hf
  obtain ⟨-, -, -, -, hg⟩ := h k r hheld
  exact hg

theorem obligations_filed (request : CalculationRequest) :
    Obligations M lib request (fun _ : Unit => S.exec) (fun _ _ _ => True) (Filed S M)
      fun _ => True where
  unserialized _ _ := trivial
  rejected _ _ := trivial
  find op data _ _ _ _ s _ hs := by
    refine ⟨?_, fun r hr => ?_, fun _ _ => trivial⟩
    · unfold Filed
      rw [S.find_held]
      exact hs
    · obtain ⟨response, hr', -⟩ :=
        cachedResponse_genuine lib (filed_find_genuine hs hr) request.requestId
      exact ⟨response, hr', trivial⟩
  unchecked _ _ _ _ := trivial
  calculated _ _ _ _ _ _ := trivial
  failed _ _ _ _ _ := trivial
  save op c r hr hg _ s _ hs := by
    refine ⟨filed_save hs hr hg, fun e he => ?_⟩
    rw [S.save_answer] at he
    cases he

theorem filed_serve (calls : List HandleCall) (moves : List (Move Unit Empty)) :
    Filed S M (S.serve M lib calls moves).shared :=
  serve_keeps filed_start obligations_filed calls moves

/-- Data with a first number that hit a record pass the check. -/
theorem filed_accepted (h : Filed S M s) {op : Operation} {data : CalculatorData}
    (hd : DataFor op data) (hfirst : data.hasFirstNumber ≠ 0) {k : String} {r : OperationRecord}
    (hk : OperationKey.make data.firstNumber (secondNumberForStorage data) op.name = .ok k)
    (hheld : S.held s k = some r) : Checker.checkArguments data = .ok () := by
  obtain ⟨op', c, hr, rfl, -⟩ := h k r hheld
  have hs := standsFor_of_key hd hfirst hk
  calc Checker.checkArguments data
      = Checker.checkArguments (op.data data.firstNumber (secondNumberForStorage data)) :=
        hs.checkArguments_eq
    _ = Checker.checkArguments c.data := checkArguments_calculation hs.calculation
    _ = Checker.checkArguments (op'.data r.firstNumber r.secondNumber) :=
        (checkArguments_calculation hr.calculation).symm
    _ = .ok () := hr.accepted

end Filed

/-! ## Rejected requests -/

section Rejected

variable {op : Operation} {data : CalculatorData} {request : CalculationRequest}

theorem toCalculatorData_nil (hop : request.operation.operation = some op)
    (hnil : request.operands = []) :
    toCalculatorData request = .ok { operation := op.code } := by
  unfold toCalculatorData
  rw [toInternalOperation_eq, hop, hnil]
  rfl

/-- A missing operand is answered with a count mismatch. -/
theorem checkArguments_missing (hd : DataFor op data)
    (hmiss : data.hasFirstNumber = 0 ∨ (op ≠ .factorial ∧ data.hasSecondNumber = 0)) {code : Int32}
    {what : String} (hc : Checker.checkArguments data = .error (.calculator code what)) :
    mapInternalError code = .operandsCountMismatch := by
  have hne := op.code_ne_none
  by_cases hfirst : data.hasFirstNumber = 0
  · simp only [Checker.checkArguments, hd.needHelp, hd.operation, hne, hfirst, ne_eq,
      not_true_eq_false, if_false, if_true, Exception.ofCode, Except.error.injEq,
      Exception.calculator.injEq] at hc
    rw [← hc.1]
    rfl
  · obtain ⟨hf, hsecond⟩ := hmiss.resolve_left hfirst
    have hnf : op.code ≠ .operationFactorial := fun h => hf (op.code_factorial_iff.mp h)
    simp only [Checker.checkArguments, hd.needHelp, hd.operation, hne, hfirst, hnf, hsecond, ne_eq,
      not_true_eq_false, if_false, if_true, Exception.ofCode, Except.error.injEq,
      Exception.calculator.injEq] at hc
    rw [← hc.1]
    rfl

/-- A record with the outcome of a calculation is never answered with a count mismatch. -/
theorem cachedResponse_not_mismatch (lib : Protocol) {M : CalculatorMath} {r : OperationRecord}
    (hg : Genuine M r) (id : String) : ∃ response, cachedResponse lib id r = some response ∧
      response.statusCode ≠ .operandsCountMismatch := by
  unfold cachedResponse
  rcases genuine_cases hg with ⟨hs, v, hv⟩ | ⟨hs, -⟩
  · rw [if_pos hs, hv]
    exact ⟨_, rfl, by simp⟩
  · have hne := mapInternalError_calculationError hs
    have hmismatch : mapInternalError r.status ≠ .operandsCountMismatch := by
      rcases hs with h | h | h <;> rw [h] <;> decide
    rw [if_neg hs.ne_none]
    refine ⟨_, rfl, ?_⟩
    simpa [makeFailure, lib.failure_statusCode _ _ _ hne] using hmismatch

/-- Only a binary operation without a second operand has no key. -/
theorem make_keyless (hd : DataFor op data) {e : Exception}
    (hk : OperationKey.make data.firstNumber (secondNumberForStorage data) op.name = .error e) :
    op ≠ .factorial ∧ data.hasSecondNumber = 0 ∧
      exceptionStatus e = .operandsCountMismatch := by
  rw [make_eq, op.named_name] at hk
  cases op with
  | factorial => cases hk
  | binary o =>
    cases hs : secondNumberForStorage data with
    | some b => rw [hs] at hk; cases hk
    | none =>
      rw [hs] at hk
      obtain rfl := Except.error.inj hk
      have h2 := (secondNumberForStorage_none_iff hd).mp hs
      exact ⟨by simp, h2.resolve_left (by simp), rfl⟩

/-- Without operands only the factorial has a key. -/
theorem make_of_nothing (hop : request.operation.operation = some op) {k : String}
    (hk : OperationKey.make ({ operation := op.code } : CalculatorData).firstNumber
      (secondNumberForStorage { operation := op.code }) op.name = .ok k) :
    op = .factorial ∧ request.operation = .factorial := by
  cases op with
  | factorial =>
    refine ⟨rfl, ?_⟩
    cases hp : request.operation <;> rw [hp] at hop <;> first | rfl | cases hop
  | binary o =>
    have hnone : secondNumberForStorage { operation := (Operation.binary o).code } = none := by
      simp [secondNumberForStorage]
    rw [hnone, make_eq, Operation.named_name] at hk
    cases hk

end Rejected

/-- A failure with the code of the check, as it would be without a cache. -/
def RejectedWith (code : Int32) (response : CalculationResponse) : Prop :=
  response.statusCode = mapInternalError code ∧ response.statusCode ≠ .ok ∧
    response.resultInfo = none

/-- An exception that is mapped as the code of the check gives the rejection. -/
theorem rejectedWith_errorResponse (lib : Protocol) {data : CalculatorData} {code : Int32}
    {what : String} (hcheck : Checker.checkArguments data = .error (.calculator code what))
    {e : Exception} (hstatus : exceptionStatus e = mapInternalError code) (requestId : String) :
    RejectedWith code (errorResponse lib requestId e) := by
  have hcode : mapInternalError code ≠ .ok := (own_checkArguments hcheck).exceptionStatus_ne
  have hok : exceptionStatus e ≠ .ok := hstatus ▸ hcode
  have hs := (errorResponse_statusCode lib requestId hok).trans hstatus
  exact ⟨hs, hs ▸ hcode, errorResponse_resultInfo lib requestId hok⟩

/-- The request asks for the factorial of nothing, and `0!` is stored. -/
def AsksForZero (S : OperationStorage) (s : S.State) (request : CalculationRequest) : Prop :=
  request.operation = .factorial ∧ request.operands = [] ∧ S.held s "fact(0)" ≠ none

/-- **A rejected request is answered from the cache exactly if it is a factorial without operands
and `0!` is stored.** In every other case, in every state that fault-free calls lead to, the
response to a request whose data the `Checker` rejects is a failure with the `Checker`'s code, and
the storage is as it was. -/
theorem check_bypassed_iff (S : OperationStorage)
    (hfind : ∀ s a b name, (S.exec s (.find a b name)).1 = s) (M : CalculatorMath)
    {lib : Protocol} {encodable : String → Prop} (hlib : lib.Accepts encodable)
    (calls : List HandleCall) (moves : List (Move Unit Empty)) (call : HandleCall)
    {request : CalculationRequest} (hparse : lib.parseRequest call.json = .ok request)
    (hid : encodable request.requestId) {data : CalculatorData}
    (hdata : toCalculatorData request = .ok data) {code : Int32} {what : String}
    (hcheck : Checker.checkArguments data = .error (.calculator code what)) :
    ∃ response, Responds S M lib call (S.serve M lib calls moves).shared
        (S.serve M lib calls moves).shared response ∧
      (RejectedWith code response ↔
        ¬ AsksForZero S (S.serve M lib calls moves).shared request) := by
  have hfiled : Filed S M (S.serve M lib calls moves).shared := filed_serve calls moves
  generalize (S.serve M lib calls moves).shared = s at hfiled
  obtain ⟨op, hop, hd, hfirst⟩ := toCalculatorData_ok hdata
  have hreject : ∀ e, Responds S M lib call s
        (S.exec s (.find data.firstNumber (secondNumberForStorage data) op.name)).1
        (errorResponse lib request.requestId e) → exceptionStatus e = mapInternalError code →
      ¬ AsksForZero S s request →
      ∃ response, Responds S M lib call s s response ∧
        (RejectedWith code response ↔ ¬ AsksForZero S s request) := by
    intro e hresp hstatus hnot
    rw [hfind] at hresp
    exact ⟨_, hresp, fun _ => hnot, fun _ => rejectedWith_errorResponse lib hcheck hstatus _⟩
  cases hk : OperationKey.make data.firstNumber (secondNumberForStorage data) op.name with
  | error e =>
    -- no key: the storage throws before the check would, with a code that is mapped alike
    obtain ⟨hbinary, hsecond, hstatus⟩ := make_keyless hd hk
    refine hreject e (responds_keyless hlib hparse hid hdata hop hk) ?_ ?_
    · rw [hstatus, checkArguments_missing hd (Or.inr ⟨hbinary, hsecond⟩) hcheck]
    · rintro ⟨hfact, -⟩
      rw [hfact] at hop
      exact hbinary (Option.some.inj hop).symm
  | ok k =>
    by_cases hnil : request.operands = []
    · -- no operand: a binary operation has no key, a factorial is looked up as `0!`
      obtain rfl := Except.ok.inj (hdata.symm.trans (toCalculatorData_nil hop hnil))
      obtain ⟨rfl, hfact⟩ := make_of_nothing hop hk
      have hzero : k = "fact(0)" := (Except.ok.inj hk).symm
      cases hheld : S.held s k with
      | none =>
        exact hreject _ (responds_unchecked hlib hparse hid hdata hop hk hheld hcheck) rfl
          fun h => h.2.2 (hzero ▸ hheld)
      | some r =>
        obtain ⟨-, -, -, -, hg⟩ := hfiled k r hheld
        obtain ⟨response, hr, hne⟩ := cachedResponse_not_mismatch lib hg request.requestId
        have hresp := responds_hit (M := M) hlib hparse hid hdata hop hk hheld hr
        rw [hfind] at hresp
        have hmiss := checkArguments_missing hd (Or.inl rfl) hcheck
        refine ⟨response, hresp, fun h => absurd (h.1.trans hmiss) hne, fun h => ?_⟩
        exact absurd ⟨hfact, hnil, by rw [← hzero, hheld]; simp⟩ h
    · cases hheld : S.held s k with
      | none =>
        exact hreject _ (responds_unchecked hlib hparse hid hdata hop hk hheld hcheck) rfl
          fun h => hnil h.2.1
      | some r =>
        have hok := filed_accepted hfiled hd (hfirst hnil) hk hheld
        rw [hok] at hcheck
        cases hcheck

/-- A library that knows `0!`, `5!` and a factorial without operands. -/
def factorialProtocol : Protocol :=
  .plain
    (fun text =>
      if text = "0!" then .ok ⟨"a", .factorial, [0]⟩
      else if text = "!" then .ok ⟨"b", .factorial, []⟩
      else if text = "5!" then .ok ⟨"c", .factorial, [5]⟩
      else .error (.protocolError .invalidJson "invalid JSON" none))
    sampleProtocol.serializeResponse

theorem factorialProtocol_accepts : factorialProtocol.Accepts fun _ => True :=
  ⟨fun _ _ => trivial, fun _ _ => ⟨_, rfl⟩⟩

theorem missing_first_number : Checker.checkArguments { operation := .operationFactorial } =
    .error (.ofCode .errorMissingFirstNumber "First number is missing.") := rfl

/-- The storage after a call for `5!`. -/
def afterFive : InMemoryOperationStorage :=
  (OperationStorage.inMemory.serve .checked factorialProtocol [⟨"5!", ⟨0, 0⟩⟩]
    [.thread 0 (), .thread 0 ()]).shared

/-- On a storage that holds `5!` a factorial without operands is rejected. -/
theorem check_bypassed_iff_five :
    OperationStorage.inMemory.held afterFive "fact(5)" =
        some ⟨5, none, "fact", some 120, ErrorCode.errorNone.toInt, "fact(5)"⟩ ∧
      ∃ response, Responds .inMemory .checked factorialProtocol ⟨"!", ⟨0, 0⟩⟩ afterFive afterFive
          response ∧
        RejectedWith ErrorCode.errorMissingFirstNumber.toInt response := by
  obtain ⟨response, hresp, h⟩ := check_bypassed_iff .inMemory (fun _ _ _ _ => rfl) .checked
    factorialProtocol_accepts [⟨"5!", ⟨0, 0⟩⟩] [.thread 0 (), .thread 0 ()] ⟨"!", ⟨0, 0⟩⟩ rfl
    trivial rfl missing_first_number
  have hzero : OperationStorage.inMemory.held afterFive "fact(0)" = none := by decide +kernel
  exact ⟨by decide +kernel, response, hresp, h.mpr fun hz => hz.2.2 hzero⟩

/-- **A factorial without operands is answered `1`** once `0!` has been calculated. The `Checker`
would reject it: the first number is missing. -/
theorem missing_operand_answered :
    toCalculatorData ⟨"b", .factorial, []⟩ = .ok { operation := .operationFactorial } ∧
      Checker.checkArguments { operation := .operationFactorial } =
        .error (.ofCode .errorMissingFirstNumber "First number is missing.") ∧
      Responds .inMemory .checked factorialProtocol ⟨"!", ⟨0, 0⟩⟩
        (OperationStorage.inMemory.serve .checked factorialProtocol [⟨"0!", ⟨0, 0⟩⟩]
          [.thread 0 (), .thread 0 ()]).shared
        (OperationStorage.inMemory.serve .checked factorialProtocol [⟨"0!", ⟨0, 0⟩⟩]
          [.thread 0 (), .thread 0 ()]).shared
        { factorialProtocol.success "b" 1 with resultSource := some .cache } :=
  ⟨rfl, missing_first_number, "b from cache: 1", none, rfl, rfl⟩

/-! ## Rows of the history -/

/-- What the cast to `ErrorCode` keeps of a status. -/
theorem toUInt8_toNat (status : Int32) :
    (status.toUInt32.toUInt8.toNat : ℤ) = status.toInt % 256 := by
  have h : status.toUInt32.toUInt8.toNat = status.toBitVec.toNat % 256 := by
    simp
    rfl
  have hlt := status.toBitVec.isLt
  rw [h, ← Int32.toInt_toBitVec, BitVec.toInt_eq_toNat_cond]
  split <;> omega

/-- **A status is mapped to OK exactly if it is a multiple of 256.** -/
theorem mapInternalError_ok_iff (status : Int32) :
    mapInternalError status = .ok ↔ (256 : ℤ) ∣ status.toInt := by
  rw [Int.dvd_iff_emod_eq_zero, ← toUInt8_toNat]
  unfold mapInternalError ErrorCode.ofInt
  generalize status.toUInt32.toUInt8.toNat = n
  match n with
  | 0 => simp
  | 1 | 2 | 3 | 4 | 5 | 6 | 7 | 8 | 9 | 10 | 11 | 12 => simp
  | n + 13 =>
    simp only [reduceCtorEq, false_iff]
    omega

/-- The response says what the record says: OK with the record's result if its status is 0, and a
failure without a result if it is not. -/
structure AnswersRow (r : OperationRecord) (response : CalculationResponse) : Prop where
  ok_iff : (response.statusCode = .ok ∧ response.resultInfo ≠ none) ↔
    r.status = ErrorCode.errorNone.toInt
  value : r.status = ErrorCode.errorNone.toInt → response.resultInfo = r.result
  failure : r.status ≠ ErrorCode.errorNone.toInt →
    response.statusCode ≠ .ok ∧ response.resultInfo = none

/-- A failure that is built with the status `OK` is one all the same: it says something else and has
no result. Whether that is so is the library's business. -/
def Protocol.RefusesOk (lib : Protocol) (id : String) : Prop :=
  (makeFailure lib id .ok "cached calculation error").statusCode ≠ .ok ∧
    (makeFailure lib id .ok "cached calculation error").resultInfo = none

/-- A success has its result; and a failure whose status is a multiple of 256 is left to a library
that refuses `OK`. -/
structure Readable (lib : Protocol) (id : String) (r : OperationRecord) : Prop where
  result : r.status = ErrorCode.errorNone.toInt → r.result ≠ none
  status : r.status ≠ ErrorCode.errorNone.toInt → (256 : ℤ) ∣ r.status.toInt → lib.RefusesOk id

/-- A success is answered as it says exactly if it has a result. -/
theorem cachedResponse_success (lib : Protocol) (id : String) {r : OperationRecord}
    (hs : r.status = ErrorCode.errorNone.toInt) :
    (r.result = none → cachedResponse lib id r = none) ∧
    (r.result ≠ none → ∃ response, cachedResponse lib id r = some response ∧
      AnswersRow r response) := by
  unfold cachedResponse
  rw [if_pos hs]
  constructor
  · intro hnone
    rw [hnone]
    rfl
  · intro hsome
    obtain ⟨v, hv⟩ := Option.ne_none_iff_exists'.mp hsome
    rw [hv]
    refine ⟨_, rfl, ⟨fun _ => hs, fun _ => ?_⟩, fun _ => ?_, fun h => absurd hs h⟩
    · simp
    · simp [hv]

/-- A failure is answered as it says exactly if the response made of its status is one. -/
theorem cachedResponse_failure (lib : Protocol) (id : String) {r : OperationRecord}
    (hs : r.status ≠ ErrorCode.errorNone.toInt) :
    ∃ response, cachedResponse lib id r = some response ∧
      (AnswersRow r response ↔ ((256 : ℤ) ∣ r.status.toInt → lib.RefusesOk id)) := by
  unfold cachedResponse
  rw [if_neg hs]
  refine ⟨_, rfl, ?_⟩
  constructor
  · intro ha hdvd
    have hfailure := ha.failure hs
    rw [(mapInternalError_ok_iff _).mpr hdvd] at hfailure
    exact hfailure
  · intro hrefuses
    have hfailure : (makeFailure lib id (mapInternalError r.status)
          "cached calculation error").statusCode ≠ .ok ∧
        (makeFailure lib id (mapInternalError r.status)
          "cached calculation error").resultInfo = none := by
      by_cases hok : mapInternalError r.status = .ok
      · rw [hok]
        exact hrefuses ((mapInternalError_ok_iff _).mp hok)
      · exact ⟨(lib.failure_statusCode _ _ _ hok).symm ▸ hok, lib.failure_resultInfo _ _ _ hok⟩
    exact ⟨⟨fun hboth => absurd hboth.1 hfailure.1, fun h0 => absurd h0 hs⟩,
      fun h0 => absurd h0 hs, fun _ => hfailure⟩

/-- The response made of a record, and whether it says what the record says. -/
theorem cachedResponse_row (lib : Protocol) (id : String) (r : OperationRecord) :
    (Readable lib id r →
      ∃ response, cachedResponse lib id r = some response ∧ AnswersRow r response) ∧
    (¬ Readable lib id r → cachedResponse lib id r = none ∨
      ∃ response, cachedResponse lib id r = some response ∧ ¬ AnswersRow r response) := by
  by_cases hs : r.status = ErrorCode.errorNone.toInt
  · obtain ⟨hnone, hsome⟩ := cachedResponse_success lib id hs
    by_cases hv : r.result = none
    · exact ⟨fun h => absurd hv (h.result hs), fun _ => Or.inl (hnone hv)⟩
    · exact ⟨fun _ => hsome hv, fun h => absurd ⟨fun _ => hv, fun h' => absurd hs h'⟩ h⟩
  · obtain ⟨response, hr, hiff⟩ := cachedResponse_failure lib id hs
    constructor
    · exact fun h => ⟨response, hr, hiff.mpr (h.status hs)⟩
    · exact fun h => Or.inr ⟨response, hr, fun ha =>
        h ⟨fun h0 => absurd h0 hs, fun _ => hiff.mp ha⟩⟩

/-- **A row is answered for what it says exactly if it is readable.** The service is initialized
over any content of the table; a request that hits one of its rows is answered as the row says if a
success has its result, and a failure has a status that is no multiple of 256 or the library does
not say `OK` in a failure. Otherwise an empty optional is dereferenced, or the response says
something else. -/
theorem history_row_answer (M : CalculatorMath) {lib : Protocol} {encodable : String → Prop}
    (hlib : lib.Accepts encodable) (history : OperationHistory) {s : StorageService}
    (hinit : StorageService.initializeStorage .completed .completed (.fresh history) = .ok s)
    (call : HandleCall) {request : CalculationRequest}
    (hparse : lib.parseRequest call.json = .ok request) (hid : encodable request.requestId)
    {data : CalculatorData} (hdata : toCalculatorData request = .ok data) {name : String}
    (hname : operationToStorageName request.operation = .ok name) {r : OperationRecord}
    (hhit : s.find data.firstNumber (secondNumberForStorage data) name = .ok (some r)) :
    r ∈ history.rows ∧
    (Readable lib request.requestId r → ∃ response, Responds .service M lib call s s response ∧
      AnswersRow r response) ∧
    (¬ Readable lib request.requestId r →
      (handle M lib call.millis call.json).eval (StorageService.exec .completed) s =
        (s, .undefined) ∨
      ∃ response, Responds .service M lib call s s response ∧ ¬ AnswersRow r response) := by
  rw [StorageService.initializeStorage_completed] at hinit
  obtain rfl := Except.ok.inj hinit
  obtain ⟨op, hop, -⟩ := toCalculatorData_ok hdata
  rw [operationToStorageName_eq, hop] at hname
  obtain rfl := Except.ok.inj hname
  obtain ⟨k, hk, hheld⟩ : ∃ k,
      OperationKey.make data.firstNumber (secondNumberForStorage data) op.name = .ok k ∧
        (StorageService.loaded history).cacheRepository.findByKey k = some r := by
    unfold StorageService.find CacheRepository.find at hhit
    cases hk : OperationKey.make data.firstNumber (secondNumberForStorage data) op.name with
    | error e => rw [hk] at hhit; cases hhit
    | ok k => exact ⟨k, rfl, by rw [hk] at hhit; exact Except.ok.inj hhit⟩
  obtain ⟨hread, hmisread⟩ := cachedResponse_row lib request.requestId r
  refine ⟨?_, fun h => ?_, fun h => ?_⟩
  · rw [StorageService.findByKey_loaded] at hheld
    exact (KeyedLog.find_eq_some_iff.mp hheld).1
  · obtain ⟨response, hr, ha⟩ := hread h
    exact ⟨response, responds_hit (S := .service) hlib hparse hid hdata hop hk hheld hr, ha⟩
  · rcases hmisread h with hr | ⟨response, hr, ha⟩
    · exact Or.inl (undefined_hit (S := .service) hparse hdata hop hk hheld hr)
    · refine Or.inr ⟨response, ?_, ha⟩
      exact responds_hit (S := .service) hlib hparse hid hdata hop hk hheld hr

/-- A table with one row under the key `1+2`. -/
def oneRow (result : Option Int32) (status : Int32) : OperationHistory :=
  OperationHistory.empty.store ⟨1, some 2, "add", result, status, "1+2"⟩

/-- A stored division by zero is answered as a failure. -/
theorem history_row_answer_failure :
    ∃ response, Responds .service .checked sampleProtocol ⟨"1+2", ⟨0, 0⟩⟩ (.loaded (oneRow none 7))
        (.loaded (oneRow none 7)) response ∧
      AnswersRow ⟨1, some 2, "add", none, 7, "1+2"⟩ response :=
  (history_row_answer .checked sampleProtocol_accepts (oneRow none 7)
    (StorageService.initializeStorage_completed _) ⟨"1+2", ⟨0, 0⟩⟩ rfl trivial rfl rfl rfl).2.1
    ⟨by decide, fun _ h => absurd h (by decide)⟩

/-- **A row with status 0 and no result is dereferenced**, by a service that has loaded it as any
other row. -/
theorem empty_result_dereferenced :
    (oneRow none 0).rows = [⟨1, some 2, "add", none, ErrorCode.errorNone.toInt, "1+2"⟩] ∧
      StorageService.initializeStorage .completed .completed (.fresh (oneRow none 0)) =
        .ok (.loaded (oneRow none 0)) ∧
      (handle .checked sampleProtocol ⟨0, 0⟩ "1+2").eval (StorageService.exec .completed)
        (.loaded (oneRow none 0)) = (.loaded (oneRow none 0), .undefined) :=
  ⟨rfl, StorageService.initializeStorage_completed _, rfl⟩

end ConsoleCalculator
