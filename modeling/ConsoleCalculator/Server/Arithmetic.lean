import ConsoleCalculator.Server.SingleCalls

/-!
# Integer arithmetic, from the request to the response

A request passes four layers: `to_calculator_data` narrows its operands to `int`
(`server/src/request-handler.cpp`), `Checker::check_arguments` rejects what is not calculated
(`core/src/checker.cpp`), `Abacus::calculate_result` calls the math library and translates its
errors (`core/src/abacus.cpp`), and `map_internal_error` translates those once more. Together they
answer with the exact result over the integers, or with the reason there is none.

* `Operation.exact` is that result: quotients truncated toward zero, powers with a non-negative
  exponent, factorials of non-negative numbers. `Operation.exactAnswer` is the response made of it.
* The math library is assumed exact (`CalculatorMath.Exact`): it stores the result if that is an
  `int` and reports an overflow if not, and reports a zero divisor. Nothing is assumed of it for
  negative exponents and factorials, which the `Checker` keeps away from it.

Results:
* `exact_settled`: check and calculation come to `exactAnswer`, for every operation.
* **`handle_exact`**: a call on an empty storage answers so, names the first operand that is no
  `int`, and leaves one record exactly if the operands pass the check.
-/

namespace ConsoleCalculator

open Base RequestHandler

/-! ## Exact results -/

/-- The integer is an `int`. -/
def FitsInt (n : ℤ) : Prop := Int32.minValue.toInt ≤ n ∧ n ≤ Int32.maxValue.toInt

instance (n : ℤ) : Decidable (FitsInt n) := inferInstanceAs (Decidable (_ ∧ _))

namespace Operation

/-- The number of operands. -/
def arity : Operation → ℕ
  | .binary _ => 2
  | .factorial => 1

/-- The result over the integers, if there is one. -/
def exact : Operation → List ℤ → Option ℤ
  | .binary .add, [a, b] => some (a + b)
  | .binary .sub, [a, b] => some (a - b)
  | .binary .mul, [a, b] => some (a * b)
  | .binary .div, [a, b] => if b = 0 then none else some (a.tdiv b)
  | .binary .pow, [a, b] => if b < 0 then none else some (a ^ b.toNat)
  | .factorial, [n] => if n < 0 then none else some n.toNat.factorial
  | _, _ => none

/-- The status for operands without a result. -/
def undefinedStatus : Operation → StatusCode
  | .binary .div => .divisionByZero
  | .binary .pow => .invalidOperands
  | .factorial => .factorialOfNegativeNumber
  | _ => .numericOverflow

/-- The status and result of a response: the exact result if it is an `int`. -/
def exactAnswer (op : Operation) (operands : List ℤ) : StatusCode × Option Int32 :=
  match op.exact operands with
  | some n => if FitsInt n then (.ok, some (Int32.ofInt n)) else (.numericOverflow, none)
  | none => (op.undefinedStatus, none)

end Operation

/-- The library call reports the result `n`: it stores an `int`, and overflows otherwise. -/
def MathOutcome.Yields (out : MathOutcome) (n : ℤ) : Prop :=
  if FitsInt n then out.status = .errorNone ∧ out.result = some (Int32.ofInt n)
  else out.status = .errorOverflow

/-- What is assumed of the math library. -/
structure CalculatorMath.Exact (M : CalculatorMath) : Prop where
  addition : ∀ a b, (M.addition a b).Yields (a.toInt + b.toInt)
  subtraction : ∀ a b, (M.subtraction a b).Yields (a.toInt - b.toInt)
  multiplication : ∀ a b, (M.multiplication a b).Yields (a.toInt * b.toInt)
  division : ∀ a b, b.toInt ≠ 0 → (M.division a b).Yields (a.toInt.tdiv b.toInt)
  divisionByZero : ∀ a b, b.toInt = 0 → (M.division a b).status = .errorDivisionByZero
  exponentiation : ∀ a b, 0 ≤ b.toInt → (M.exponentiation a b).Yields (a.toInt ^ b.toInt.toNat)
  factorial : ∀ n, 0 ≤ n.toInt → (M.factorial n).Yields n.toInt.toNat.factorial

theorem checked_yields (n : ℤ) : (MathOutcome.checked n).Yields n := by
  unfold MathOutcome.Yields MathOutcome.checked FitsInt
  split
  · exact ⟨rfl, rfl⟩
  · rfl

theorem CalculatorMath.checked_exact : CalculatorMath.checked.Exact where
  addition _ _ := checked_yields _
  subtraction _ _ := checked_yields _
  multiplication _ _ := checked_yields _
  division a b hb := by
    have h0 : b ≠ 0 := fun h => hb (by rw [h]; rfl)
    simp only [checked, if_neg h0]
    exact checked_yields _
  divisionByZero a b hb := by
    obtain rfl : b = 0 := Int32.toInt_inj.mp hb
    rfl
  exponentiation a b hb := by
    have h0 : ¬ b < 0 := by
      rw [Int32.lt_iff_toInt_lt]
      exact Int.not_lt.mpr hb
    simp only [checked, if_neg h0]
    exact checked_yields _
  factorial n hn := by
    have h0 : ¬ n < 0 := by
      rw [Int32.lt_iff_toInt_lt]
      exact Int.not_lt.mpr hn
    simp only [checked, if_neg h0]
    exact checked_yields _

/-! ## Narrowing -/

theorem fitsInt64ToInt_iff (x : Int64) : fitsInt64ToInt x = true ↔ FitsInt x.toInt := by
  simp only [fitsInt64ToInt, Bool.and_eq_true, decide_eq_true_eq, Int64.le_iff_toInt_le,
    Int32.toInt_toInt64, FitsInt]

theorem toInt32_toInt {x : Int64} (h : FitsInt x.toInt) : x.toInt32.toInt = x.toInt := by
  have hmin : Int32.minValue.toInt = -2147483648 := rfl
  have hmax : Int32.maxValue.toInt = 2147483647 := rfl
  unfold FitsInt at h
  rw [Int64.toInt_toInt32, Int.bmod_eq_of_le] <;> omega

section Narrowing

variable {request : CalculationRequest} {op : Operation} {x y : Int64}

theorem readFirstOperand_fits (data : CalculatorData) (rest : List Int64) (hx : FitsInt x.toInt) :
    readFirstOperand data (x :: rest) =
      .ok { data with firstNumber := x.toInt32, hasFirstNumber := 1 } := by
  simp only [readFirstOperand, (fitsInt64ToInt_iff x).mpr hx, if_true]

/-- An operand that is no `int` is reported with its field. -/
theorem toCalculatorData_first (hop : request.operation.operation = some op) {rest : List Int64}
    (h : request.operands = x :: rest) (hx : ¬ FitsInt x.toInt) :
    toCalculatorData request = .error (operandOutOfRange "first" "operands[0]") := by
  have hf : ¬ fitsInt64ToInt x = true := fun hf => hx ((fitsInt64ToInt_iff x).mp hf)
  unfold toCalculatorData
  rw [toInternalOperation_eq, hop, h]
  simp only [readFirstOperand, if_neg hf]
  rfl

theorem toCalculatorData_second (hop : request.operation.operation = some op)
    (h : request.operands = [x, y]) (hx : FitsInt x.toInt) (hy : ¬ FitsInt y.toInt) :
    toCalculatorData request = .error (operandOutOfRange "second" "operands[1]") := by
  have hf : ¬ fitsInt64ToInt y = true := fun hf => hy ((fitsInt64ToInt_iff y).mp hf)
  unfold toCalculatorData
  rw [toInternalOperation_eq, hop, h]
  simp only [readFirstOperand_fits _ _ hx, readSecondOperand, if_neg hf, bind, Except.bind]

theorem toCalculatorData_one (hop : request.operation.operation = some op)
    (h : request.operands = [x]) (hx : FitsInt x.toInt) :
    toCalculatorData request = .ok (op.data x.toInt32 none) := by
  unfold toCalculatorData
  rw [toInternalOperation_eq, hop, h]
  simp only [readFirstOperand_fits _ _ hx, readSecondOperand, bind, Except.bind]
  rfl

theorem toCalculatorData_two (hop : request.operation.operation = some op)
    (h : request.operands = [x, y]) (hx : FitsInt x.toInt) (hy : FitsInt y.toInt) :
    toCalculatorData request = .ok (op.data x.toInt32 (some y.toInt32)) := by
  unfold toCalculatorData
  rw [toInternalOperation_eq, hop, h]
  simp only [readFirstOperand_fits _ _ hx, readSecondOperand, (fitsInt64ToInt_iff y).mpr hy,
    if_true, bind, Except.bind]
  rfl

end Narrowing

/-! ## Check and calculation -/

/-- The check and the calculation of `data` come to a status and a result. -/
inductive Settled (M : CalculatorMath) (data : CalculatorData) : StatusCode × Option Int32 → Prop
  | rejected {code : Int32} {what : String}
      (hc : Checker.checkArguments data = .error (.calculator code what)) :
      Settled M data (mapInternalError code, none)
  | calculated {v : Int32} (hc : Checker.checkArguments data = .ok ())
      (hv : Abacus.calculateResult M data = ({ data with result := v }, .ok ())) :
      Settled M data (.ok, some v)
  | failed {v code : Int32} {what : String} (hc : Checker.checkArguments data = .ok ())
      (hcode : code ≠ ErrorCode.errorNone.toInt)
      (hv : Abacus.calculateResult M data =
        ({ data with result := v }, .error (.calculator code what))) :
      Settled M data (mapInternalError code, none)

section Settled

variable {M : CalculatorMath} {data : CalculatorData} {out : MathOutcome}

theorem settled_status (hc : Checker.checkArguments data = .ok ()) (hh : data.needHelp = 0)
    (hm : Abacus.mathCall M data.operation data.firstNumber data.secondNumber = some out)
    {status : MathStatus} (hs : out.status = status)
    (hcode : Abacus.mapMathError status ≠ ErrorCode.errorNone.toInt) :
    Settled M data (mapInternalError (Abacus.mapMathError status), none) := by
  have hv : Abacus.calculateResult M data =
      ({ data with result := out.result.getD data.result },
        .error (.calculator (Abacus.mapMathError status) "Calculation failed.")) := by
    unfold Abacus.calculateResult
    rw [if_neg (not_not.mpr hh), hm]
    simp only [hs, ne_eq, hcode, not_false_eq_true, if_true]
  exact .failed hc hcode hv

/-- A library call that reports the result `n`. -/
theorem settled_yields (hc : Checker.checkArguments data = .ok ()) (hh : data.needHelp = 0)
    (hm : Abacus.mathCall M data.operation data.firstNumber data.secondNumber = some out) {n : ℤ}
    (hy : out.Yields n) :
    Settled M data
      (if FitsInt n then (.ok, some (Int32.ofInt n)) else (.numericOverflow, none)) := by
  unfold MathOutcome.Yields at hy
  by_cases hn : FitsInt n
  · rw [if_pos hn] at hy ⊢
    refine .calculated hc ?_
    unfold Abacus.calculateResult
    rw [if_neg (not_not.mpr hh), hm]
    simp only [hy.1, hy.2, Abacus.mapMathError, ne_eq, not_true_eq_false, if_false,
      Option.getD_some]
  · rw [if_neg hn] at hy ⊢
    exact settled_status hc hh hm hy (by decide)

end Settled

/-- Operands with a sign the operation does not take are rejected, all others accepted. -/
theorem checkArguments_data (op : Operation) (a : Int32) (b : Option Int32) :
    (b = none ↔ op = .factorial) → Checker.checkArguments (op.data a b) =
      match op, b with
      | .factorial, _ => if a < 0 then
          .error (.ofCode .errorNegativeFactorial "Factorial argument must be non-negative.")
        else .ok ()
      | .binary .pow, some b => if b < 0 then
          .error (.ofCode .errorNegativePower "Negative power is not supported.") else .ok ()
      | _, _ => .ok () := by
  intro hb
  cases b with
  | none =>
    obtain rfl := hb.mp rfl
    simp [Checker.checkArguments, Operation.data, Operation.code]
  | some b =>
    have hne : op ≠ .factorial := fun h => absurd (hb.mpr h) (by simp)
    rcases op with (_ | _ | _ | _ | _) | _
    · simp [Checker.checkArguments, Operation.data, Operation.code]
    · simp [Checker.checkArguments, Operation.data, Operation.code]
    · simp [Checker.checkArguments, Operation.data, Operation.code]
    · simp [Checker.checkArguments, Operation.data, Operation.code]
    · simp [Checker.checkArguments, Operation.data, Operation.code]
    · exact absurd rfl hne

theorem lt_zero_iff {n : Int32} : n < 0 ↔ n.toInt < 0 := Int32.lt_iff_toInt_lt

section Exact

variable {M : CalculatorMath}

/-- **Check and calculation come to the exact answer**, for every operation on its operands. -/
theorem exact_settled (hM : M.Exact) (op : Operation) (a : Int32) (b : Option Int32)
    (hb : b = none ↔ op = .factorial) :
    Settled M (op.data a b) (op.exactAnswer (a.toInt :: (b.map Int32.toInt).toList)) := by
  have hc := checkArguments_data op a b hb
  cases b with
  | none =>
    obtain rfl := hb.mp rfl
    simp only [Operation.exactAnswer, Option.map_none, Option.toList_none, Operation.exact]
    by_cases ha : a < 0
    · rw [if_pos ha] at hc
      rw [if_pos (lt_zero_iff.mp ha)]
      exact .rejected hc
    · rw [if_neg ha] at hc
      have ha' : ¬ a.toInt < 0 := fun h => ha (lt_zero_iff.mpr h)
      rw [if_neg ha']
      exact settled_yields hc rfl rfl (hM.factorial a (Int.not_lt.mp ha'))
  | some b =>
    simp only [Operation.exactAnswer, Option.map_some, Option.toList_some]
    cases op with
    | factorial => exact absurd (hb.mpr rfl) (by simp)
    | binary o =>
      cases o with
      | add => exact settled_yields hc rfl rfl (hM.addition a b)
      | sub => exact settled_yields hc rfl rfl (hM.subtraction a b)
      | mul => exact settled_yields hc rfl rfl (hM.multiplication a b)
      | div =>
        simp only [Operation.exact]
        by_cases h0 : b.toInt = 0
        · rw [if_pos h0]
          exact settled_status hc rfl rfl (hM.divisionByZero a b h0) (by decide)
        · rw [if_neg h0]
          exact settled_yields hc rfl rfl (hM.division a b h0)
      | pow =>
        simp only [Operation.exact]
        by_cases hn : b < 0
        · simp only [if_pos hn] at hc
          rw [if_pos (lt_zero_iff.mp hn)]
          exact .rejected hc
        · simp only [if_neg hn] at hc
          have hn' : ¬ b.toInt < 0 := fun h => hn (lt_zero_iff.mpr h)
          rw [if_neg hn']
          exact settled_yields hc rfl rfl (hM.exponentiation a b (Int.not_lt.mp hn'))

end Exact

/-! ## Calls on an empty storage -/

/-- The storage holds no record. -/
def HoldsNothing (S : OperationStorage) (s : S.State) : Prop := ∀ k, S.held s k = none

/-- The storage holds one record, and no other. -/
def HoldsOne (S : OperationStorage) (s : S.State) : Prop :=
  ∃ r : OperationRecord, ∀ k, S.held s k = if k = r.cacheKey then some r else none

section Calls

variable {S : OperationStorage} {M : CalculatorMath} {lib : Protocol} {encodable : String → Prop}
  {call : HandleCall} {request : CalculationRequest} {op : Operation}

theorem holdsNothing_find {s : S.State} (h : HoldsNothing S s) (a : Int32) (b : Option Int32)
    (name : String) : HoldsNothing S (S.exec s (.find a b name)).1 := by
  intro k
  rw [S.find_held]
  exact h k

theorem holdsOne_save (hkeep : ∀ s r, S.held (S.exec s (.save r)).1 r.cacheKey = some r)
    {s : S.State} (h : HoldsNothing S s) (r : OperationRecord) :
    HoldsOne S (S.exec s (.save r)).1 := by
  refine ⟨r, fun k => ?_⟩
  by_cases hk : k = r.cacheKey
  · rw [if_pos hk, hk, hkeep]
  · rw [if_neg hk]
    cases hheld : S.held (S.exec s (.save r)).1 k with
    | none => rfl
    | some r' =>
      rcases S.save_held s r k r' hheld with ⟨-, hk'⟩ | hs
      · exact absurd hk' hk
      · rw [h k] at hs
        cases hs

/-- The call answers what check and calculation come to, and leaves a record exactly if the data
pass the check. -/
theorem responds_settled (hkeep : ∀ s r, S.held (S.exec s (.save r)).1 r.cacheKey = some r)
    (hlib : lib.Accepts encodable) (hparse : lib.parseRequest call.json = .ok request)
    (hid : encodable request.requestId) (hop : request.operation.operation = some op)
    {a : Int32} {b : Option Int32} (hb : b = none ↔ op = .factorial)
    (hdata : toCalculatorData request = .ok (op.data a b))
    {answer : StatusCode × Option Int32} (h : Settled M (op.data a b) answer) :
    ∃ s' response, Responds S M lib call S.start s' response ∧
      (response.statusCode, response.resultInfo) = answer ∧
      (Checker.checkArguments (op.data a b) = .ok () → HoldsOne S s') ∧
      (Checker.checkArguments (op.data a b) ≠ .ok () → HoldsNothing S s') := by
  have hstart : HoldsNothing S S.start := S.held_start
  have hsecond : op = .factorial ∨ (op.data a b).hasSecondNumber ≠ 0 := by
    cases b with
    | none => exact Or.inl (hb.mp rfl)
    | some b => exact Or.inr (by simp [Operation.data])
  obtain ⟨c, hs⟩ := standsFor_of_numbers (show DataFor op (op.data a b) from ⟨rfl, rfl, rfl⟩)
    (by simp [Operation.data]) hsecond
  have hmiss := hstart c.key
  cases h with
  | rejected hc =>
    refine ⟨_, _, responds_unchecked hlib hparse hid hdata hop hs.make hmiss hc,
      errorResponse_outcome lib _ (own_checkArguments hc).exceptionStatus_ne, fun hok => ?_,
      fun _ => holdsNothing_find hstart _ _ _⟩
    rw [hok] at hc
    cases hc
  | calculated hc hv =>
    exact ⟨_, _, responds_calculated hlib hparse hid hdata hop hs hmiss hc hv,
      calculatedResponse_outcome lib _ _,
      fun _ => holdsOne_save hkeep (holdsNothing_find hstart _ _ _) _, fun hne => absurd hc hne⟩
  | failed hc hcode hv =>
    have howned := own_calculateResult (congrArg Prod.snd hv)
    exact ⟨_, _, responds_failed hlib hparse hid hdata hop hs hmiss hc hcode hv,
      errorResponse_outcome lib _ howned.exceptionStatus_ne,
      fun _ => holdsOne_save hkeep (holdsNothing_find hstart _ _ _) _, fun hne => absurd hc hne⟩

/-- A response that reports the operand at `index` as no `int`. -/
structure ReportsOperand (index : ℕ) (response : CalculationResponse) : Prop where
  status : response.statusCode = .operandOutOfRange
  result : response.resultInfo = none
  field : ∃ info, response.errorInfo = some info ∧
    info.field = some ("operands[" ++ toString index ++ "]")

theorem reportsOperand_errorResponse (id which : String) (index : ℕ) :
    ReportsOperand index (errorResponse lib id
      (operandOutOfRange which ("operands[" ++ toString index ++ "]"))) where
  status := errorResponse_statusCode lib id (by decide : StatusCode.operandOutOfRange ≠ .ok)
  result := errorResponse_resultInfo lib id (by decide : StatusCode.operandOutOfRange ≠ .ok)
  field := ⟨_, errorResponse_errorInfo lib id _, rfl⟩

/-- The response to a call in range: the exact answer, and a record if the data pass the check. -/
structure AnswersExactly (S : OperationStorage) (op : Operation) (request : CalculationRequest)
    (s' : S.State) (response : CalculationResponse) : Prop where
  answer : (response.statusCode, response.resultInfo) =
    op.exactAnswer (request.operands.map Int64.toInt)
  stored : ∃ data, toCalculatorData request = .ok data ∧
    (Checker.checkArguments data = .ok () → HoldsOne S s') ∧
    (Checker.checkArguments data ≠ .ok () → HoldsNothing S s')

/-- **`handle` computes exact integer arithmetic.** On an empty storage, a request with as many
operands as its operation takes is answered with the exact result if all of them are `int`s, and
otherwise with the first one that is not. One record is left if the operands are `int`s and pass
the check, and none otherwise. -/
theorem handle_exact (S : OperationStorage)
    (hkeep : ∀ s r, S.held (S.exec s (.save r)).1 r.cacheKey = some r) {M : CalculatorMath}
    (hM : M.Exact) {lib : Protocol} {encodable : String → Prop} (hlib : lib.Accepts encodable)
    (call : HandleCall) {request : CalculationRequest}
    (hparse : lib.parseRequest call.json = .ok request) (hid : encodable request.requestId)
    {op : Operation} (hop : request.operation.operation = some op)
    (harity : request.operands.length = op.arity) :
    ∃ s' response, Responds S M lib call S.start s' response ∧
      match request.operands.findIdx? fun x => decide (¬ FitsInt x.toInt) with
      | some index => ReportsOperand index response ∧ HoldsNothing S s'
      | none => AnswersExactly S op request s' response := by
  cases op with
  | factorial =>
    obtain ⟨x, hx⟩ := List.length_eq_one_iff.mp harity
    by_cases hfit : FitsInt x.toInt
    · have hdata := toCalculatorData_one hop hx hfit
      obtain ⟨s', response, hr, ha, h⟩ := responds_settled hkeep hlib hparse hid hop (by simp)
          hdata
        (exact_settled hM .factorial x.toInt32 none (by simp))
      refine ⟨s', response, hr, ?_⟩
      simp only [hx, List.findIdx?_cons, hfit, List.findIdx?_nil]
      refine ⟨?_, _, hdata, h⟩
      rw [ha, hx, toInt32_toInt hfit]
      rfl
    · refine ⟨_, _, responds_rejected hlib hparse hid (toCalculatorData_first hop hx hfit), ?_⟩
      simp only [hx, List.findIdx?_cons, hfit]
      exact ⟨reportsOperand_errorResponse _ "first" 0, S.held_start⟩
  | binary o =>
    obtain ⟨x, y, hxy⟩ := List.length_eq_two.mp harity
    by_cases hfit : FitsInt x.toInt
    · by_cases hfit' : FitsInt y.toInt
      · have hdata := toCalculatorData_two hop hxy hfit hfit'
        obtain ⟨s', response, hr, ha, h⟩ := responds_settled hkeep hlib hparse hid hop (by simp)
          hdata
          (exact_settled hM (.binary o) x.toInt32 (some y.toInt32) (by simp))
        refine ⟨s', response, hr, ?_⟩
        simp only [hxy, List.findIdx?_cons, hfit, hfit', List.findIdx?_nil]
        refine ⟨?_, _, hdata, h⟩
        rw [ha, hxy, toInt32_toInt hfit, Option.map_some, toInt32_toInt hfit']
        rfl
      · have hdata := toCalculatorData_second hop hxy hfit hfit'
        refine ⟨_, _, responds_rejected hlib hparse hid hdata, ?_⟩
        simp only [hxy, List.findIdx?_cons, hfit, hfit']
        exact ⟨reportsOperand_errorResponse _ "second" 1, S.held_start⟩
    · refine ⟨_, _, responds_rejected hlib hparse hid (toCalculatorData_first hop hxy hfit), ?_⟩
      simp only [hxy, List.findIdx?_cons, hfit]
      exact ⟨reportsOperand_errorResponse _ "first" 0, S.held_start⟩

end Calls

/-- A library that reads every text as one request. -/
def constantProtocol (request : CalculationRequest) : Protocol :=
  .plain (fun _ => .ok request) sampleProtocol.serializeResponse

/-- The most negative `int` divided by `-1` is an overflow, and is stored as one. -/
theorem handle_exact_minimum :
    ∃ s' response, Responds .inMemory .checked
        (constantProtocol ⟨"a", .division, [-2147483648, -1]⟩) ⟨"", ⟨0, 0⟩⟩
        OperationStorage.inMemory.start s' response ∧
      (response.statusCode, response.resultInfo) = (.numericOverflow, none) ∧
      HoldsOne .inMemory s' := by
  have hkeep : ∀ s r, OperationStorage.inMemory.held
      (OperationStorage.inMemory.exec s (.save r)).1 r.cacheKey = some r := fun s r =>
    (KeyedMap.lookup_put s.records r r.cacheKey).trans (if_pos rfl)
  obtain ⟨s', response, hr, h⟩ := handle_exact .inMemory hkeep CalculatorMath.checked_exact
    (⟨fun _ _ => trivial, fun _ _ => ⟨_, rfl⟩⟩ :
      (constantProtocol ⟨"a", .division, [-2147483648, -1]⟩).Accepts fun _ => True)
    ⟨"", ⟨0, 0⟩⟩ rfl trivial rfl rfl
  obtain ⟨ha, data, hdata, hone, -⟩ : AnswersExactly .inMemory (.binary .div)
    ⟨"a", .division, [-2147483648, -1]⟩ s' response := h
  refine ⟨s', response, hr, ha.trans (by decide), hone ?_⟩
  obtain rfl := Except.ok.inj hdata
  decide

end ConsoleCalculator
