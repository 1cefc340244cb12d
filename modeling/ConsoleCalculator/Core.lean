import Mathlib.Algebra.Group.Int.Defs
import Mathlib.Data.Nat.Factorial.Basic
import ConsoleCalculator.Protocol

/-!
# The calculator core: argument check and calculation

Model of `support/include/exception.h`, `support/include/types/error-code.h`,
`core/include/types/` and of `Checker::check_arguments` (`core/src/checker.cpp`) and
`Abacus::calculate_result` (`core/src/abacus.cpp`).

* `int` is `Int32`. The flags `has_first_number`, `has_second_number` and `need_help` are ints
  in the source and stay ints here.
* A C++ function that may throw returns an `Except Exception`. `calculate_result` also changes
  the caller's `CalculatorData`, so it returns the data it leaves behind next to its outcome.
* The math library `CalculatorMath` is not in the repository: its six functions are a parameter
  (`CalculatorMath`). A call returns a status and may store a result through the pointer it is
  given; `MathOutcome.result` is what it stores. Its status constants are only compared with
  (`map_math_error`), so they are an enumeration, with `other` for any further value.
* Logging is left out, and so is `CalculatorData::error_code`, which is written and never read.

Results: `calculateResult_error`: a failed calculation throws one of three codes;
`checkArguments_ok`: what an accepted request looks like.
-/

namespace ConsoleCalculator

/-! ## Error codes and exceptions -/

/-- `Types::ErrorCode`. -/
inductive ErrorCode where
  | errorNone
  | errorUnknownOption
  | errorInvalidNumber
  | errorMissingFirstNumber
  | errorMissingSecondNumber
  | errorMissingOperation
  | errorInvalidOperation
  | errorDivisionByZero
  | errorNegativeFactorial
  | errorNegativePower
  | errorOverflow
  | errorInvalidJson
  | errorStorage
  deriving DecidableEq, Repr

/-- `static_cast<int>` of an error code: the enumerator's value. -/
def ErrorCode.toInt : ErrorCode → Int32
  | .errorNone => 0
  | .errorUnknownOption => 1
  | .errorInvalidNumber => 2
  | .errorMissingFirstNumber => 3
  | .errorMissingSecondNumber => 4
  | .errorMissingOperation => 5
  | .errorInvalidOperation => 6
  | .errorDivisionByZero => 7
  | .errorNegativeFactorial => 8
  | .errorNegativePower => 9
  | .errorOverflow => 10
  | .errorInvalidJson => 11
  | .errorStorage => 12

/-- `static_cast<Types::ErrorCode>` of an int: its low eight bits, `none` when no enumerator has
that value (every `switch` on the result then takes its `default`). -/
def ErrorCode.ofInt (code : Int32) : Option ErrorCode :=
  match code.toUInt32.toUInt8.toNat with
  | 0 => some .errorNone
  | 1 => some .errorUnknownOption
  | 2 => some .errorInvalidNumber
  | 3 => some .errorMissingFirstNumber
  | 4 => some .errorMissingSecondNumber
  | 5 => some .errorMissingOperation
  | 6 => some .errorInvalidOperation
  | 7 => some .errorDivisionByZero
  | 8 => some .errorNegativeFactorial
  | 9 => some .errorNegativePower
  | 10 => some .errorOverflow
  | 11 => some .errorInvalidJson
  | 12 => some .errorStorage
  | _ => none

/-- An exception: `CalculatorException` with its code, or one of any other class. -/
inductive Exception where
  | calculator (code : Int32) (what : String)
  | foreign (e : ForeignError)
  deriving DecidableEq, Repr

/-- `throw CalculatorException(static_cast<int>(code), what)`. -/
def Exception.ofCode (code : ErrorCode) (what : String) : Exception :=
  .calculator code.toInt what

/-! ## The data -/

/-- `Types::OperationCode`. -/
inductive OperationCode where
  | operationNone
  | operationAddition
  | operationSubtraction
  | operationMultiplication
  | operationDivision
  | operationExponentiation
  | operationFactorial
  deriving DecidableEq, Repr

/-- `Types::CalculatorData`. -/
structure CalculatorData where
  firstNumber : Int32 := 0
  secondNumber : Int32 := 0
  result : Int32 := 0
  hasFirstNumber : Int32 := 0
  hasSecondNumber : Int32 := 0
  operation : OperationCode := .operationNone
  needHelp : Int32 := 0
  deriving DecidableEq, Repr

/-! ## `Checker` -/

/-- `Checker::check_arguments`. -/
def Checker.checkArguments (data : CalculatorData) : Except Exception Unit :=
  if data.needHelp ≠ 0 then .ok ()
  else if data.operation = .operationNone then
    .error (.ofCode .errorMissingOperation "Operation is missing.")
  else if data.hasFirstNumber = 0 then
    .error (.ofCode .errorMissingFirstNumber "First number is missing.")
  else if data.operation = .operationFactorial then
    if data.firstNumber < 0 then
      .error (.ofCode .errorNegativeFactorial "Factorial argument must be non-negative.")
    else .ok ()
  else if data.hasSecondNumber = 0 then
    .error (.ofCode .errorMissingSecondNumber "Second number is missing.")
  else if data.operation = .operationExponentiation ∧ data.secondNumber < 0 then
    .error (.ofCode .errorNegativePower "Negative power is not supported.")
  else .ok ()

/-- An accepted request that asks for no help has an operation, a first number and, unless it is
a factorial, a second one. -/
theorem checkArguments_ok {data : CalculatorData} (hh : data.needHelp = 0)
    (h : Checker.checkArguments data = .ok ()) :
    data.operation ≠ .operationNone ∧ data.hasFirstNumber ≠ 0 ∧
      (data.operation = .operationFactorial ∨ data.hasSecondNumber ≠ 0) := by
  unfold Checker.checkArguments at h
  rw [if_neg (not_not.mpr hh)] at h
  split at h
  · exact absurd h (by simp)
  · rename_i hop
    split at h
    · exact absurd h (by simp)
    · rename_i hfirst
      refine ⟨hop, hfirst, ?_⟩
      split at h
      · rename_i hfact; exact Or.inl hfact
      · split at h
        · exact absurd h (by simp)
        · rename_i hsecond; exact Or.inr hsecond

/-! ## `Abacus` -/

/-- The status constants of `CalculatorMath`, and any other int a function may return. -/
inductive MathStatus where
  | errorNone
  | errorOverflow
  | errorDivisionByZero
  | errorInvalidArguments
  | other (status : Int32)
  deriving DecidableEq, Repr

/-- What a call of the math library does: the status it returns, and the value it stores through
its result pointer, if it stores one. -/
structure MathOutcome where
  status : MathStatus
  result : Option Int32
  deriving DecidableEq, Repr

/-- The math library: pure functions of their operands. -/
structure CalculatorMath where
  addition : Int32 → Int32 → MathOutcome
  subtraction : Int32 → Int32 → MathOutcome
  multiplication : Int32 → Int32 → MathOutcome
  division : Int32 → Int32 → MathOutcome
  exponentiation : Int32 → Int32 → MathOutcome
  factorial : Int32 → MathOutcome

/-- Addition and multiplication give the same status and result on swapped operands. -/
structure CalculatorMath.Commutes (M : CalculatorMath) : Prop where
  addition : ∀ a b, M.addition a b = M.addition b a
  multiplication : ∀ a b, M.multiplication a b = M.multiplication b a

/-- A result in range, or an overflow. -/
def MathOutcome.checked (n : ℤ) : MathOutcome :=
  if Int32.minValue.toInt ≤ n ∧ n ≤ Int32.maxValue.toInt then ⟨.errorNone, some (Int32.ofInt n)⟩
  else ⟨.errorOverflow, none⟩

/-- A math library that meets the assumptions: integer arithmetic with overflow checks. -/
def CalculatorMath.checked : CalculatorMath where
  addition a b := .checked (a.toInt + b.toInt)
  subtraction a b := .checked (a.toInt - b.toInt)
  multiplication a b := .checked (a.toInt * b.toInt)
  division a b := if b = 0 then ⟨.errorDivisionByZero, none⟩ else .checked (a.toInt.tdiv b.toInt)
  exponentiation a b :=
    if b < 0 then ⟨.errorInvalidArguments, none⟩ else .checked (a.toInt ^ b.toInt.toNat)
  factorial n :=
    if n < 0 then ⟨.errorInvalidArguments, none⟩ else .checked (n.toInt.toNat.factorial)

theorem CalculatorMath.checked_commutes : CalculatorMath.checked.Commutes where
  addition a b := congrArg MathOutcome.checked (Int.add_comm a.toInt b.toInt)
  multiplication a b := congrArg MathOutcome.checked (Int.mul_comm a.toInt b.toInt)

/-- `Abacus::map_math_error`. -/
def Abacus.mapMathError : MathStatus → Int32
  | .errorNone => ErrorCode.errorNone.toInt
  | .errorOverflow => ErrorCode.errorOverflow.toInt
  | .errorDivisionByZero => ErrorCode.errorDivisionByZero.toInt
  | .errorInvalidArguments => ErrorCode.errorInvalidOperation.toInt
  | .other _ => ErrorCode.errorInvalidOperation.toInt

/-- The `switch` of `calculate_result`: the library call made for the operation. -/
def Abacus.mathCall (M : CalculatorMath) (operation : OperationCode) (a b : Int32) :
    Option MathOutcome :=
  match operation with
  | .operationAddition => some (M.addition a b)
  | .operationSubtraction => some (M.subtraction a b)
  | .operationMultiplication => some (M.multiplication a b)
  | .operationDivision => some (M.division a b)
  | .operationExponentiation => some (M.exponentiation a b)
  | .operationFactorial => some (M.factorial a)
  | .operationNone => none

/-- `Abacus::calculate_result`: the data it leaves behind, and whether it throws. -/
def Abacus.calculateResult (M : CalculatorMath) (data : CalculatorData) :
    CalculatorData × Except Exception Unit :=
  if data.needHelp ≠ 0 then (data, .ok ())
  else
    match mathCall M data.operation data.firstNumber data.secondNumber with
    | none => (data, .error (.ofCode .errorInvalidOperation "Unknown operation code."))
    | some out =>
      let data := { data with result := out.result.getD data.result }
      let mapped := mapMathError out.status
      if mapped ≠ ErrorCode.errorNone.toInt then
        (data, .error (.calculator mapped "Calculation failed."))
      else (data, .ok ())

/-- The codes a calculation can fail with. -/
def IsCalculationError (code : Int32) : Prop :=
  code = ErrorCode.errorInvalidOperation.toInt ∨ code = ErrorCode.errorDivisionByZero.toInt ∨
    code = ErrorCode.errorOverflow.toInt

theorem IsCalculationError.ne_none {code : Int32} (h : IsCalculationError code) :
    code ≠ ErrorCode.errorNone.toInt := by
  rcases h with rfl | rfl | rfl <;> decide

theorem mapMathError_cases (s : MathStatus) :
    Abacus.mapMathError s = ErrorCode.errorNone.toInt ∨
      IsCalculationError (Abacus.mapMathError s) := by
  cases s <;> simp [Abacus.mapMathError, IsCalculationError]

/-- The calculation touches nothing but `result`. -/
theorem calculateResult_frame (M : CalculatorMath) (data : CalculatorData) :
    ∃ v, (Abacus.calculateResult M data).1 = { data with result := v } := by
  unfold Abacus.calculateResult
  split
  · exact ⟨data.result, rfl⟩
  · split
    · exact ⟨data.result, rfl⟩
    · simp only
      split
      · exact ⟨_, rfl⟩
      · exact ⟨_, rfl⟩

/-- **A calculation fails with a `CalculatorException` of one of three codes**: division by
zero, overflow, or invalid operation for everything else. -/
theorem calculateResult_error {M : CalculatorMath} {data : CalculatorData} {e : Exception}
    (h : (Abacus.calculateResult M data).2 = .error e) :
    ∃ code what, e = .calculator code what ∧ IsCalculationError code := by
  unfold Abacus.calculateResult at h
  split at h
  · exact absurd h (by simp)
  · split at h
    · obtain rfl := Except.error.inj h
      exact ⟨_, _, rfl, Or.inl rfl⟩
    · rename_i out _
      simp only at h
      split at h
      · rename_i hne
        obtain rfl := Except.error.inj h
        exact ⟨_, _, rfl, (mapMathError_cases out.status).resolve_left hne⟩
      · exact absurd h (by simp)

/-- What a calculation comes to: status `ERROR_NONE` with the result, or the code it threw without
one. -/
def Abacus.outcome (M : CalculatorMath) (data : CalculatorData) : Option (Int32 × Option Int32) :=
  match calculateResult M data with
  | (calculated, .ok ()) => some (ErrorCode.errorNone.toInt, some calculated.result)
  | (_, .error (.calculator code _)) => some (code, none)
  | (_, .error (.foreign _)) => none

/-- The two ways `calculate_result` ends. -/
theorem calculateResult_spec (M : CalculatorMath) (data : CalculatorData) :
    ∃ v, (Abacus.calculateResult M data).1 = { data with result := v } ∧
      (((Abacus.calculateResult M data).2 = .ok () ∧
          Abacus.outcome M data = some (ErrorCode.errorNone.toInt, some v)) ∨
        ∃ code what, (Abacus.calculateResult M data).2 = .error (.calculator code what) ∧
          IsCalculationError code ∧ Abacus.outcome M data = some (code, none)) := by
  obtain ⟨v, hv⟩ := calculateResult_frame M data
  refine ⟨v, hv, ?_⟩
  unfold Abacus.outcome
  cases hc : Abacus.calculateResult M data with
  | mk calculated ended =>
    rw [hc] at hv
    cases ended with
    | ok u => exact Or.inl ⟨rfl, by simp only [show calculated = _ from hv]⟩
    | error e =>
      obtain ⟨code, what, rfl, hcode⟩ := calculateResult_error (congrArg Prod.snd hc)
      exact Or.inr ⟨code, what, rfl, hcode, rfl⟩

/-- An outcome is a success with a result, or one of the three codes without one. -/
theorem outcome_cases {M : CalculatorMath} {data : CalculatorData} {status : Int32}
    {result : Option Int32} (h : Abacus.outcome M data = some (status, result)) :
    (status = ErrorCode.errorNone.toInt ∧ ∃ v, result = some v) ∨
      (IsCalculationError status ∧ result = none) := by
  obtain ⟨v, -, ⟨-, hout⟩ | ⟨code, what, -, hcode, hout⟩⟩ := calculateResult_spec M data
  · rw [hout] at h
    obtain ⟨rfl, rfl⟩ := Prod.mk.inj (Option.some.inj h)
    exact Or.inl ⟨rfl, v, rfl⟩
  · rw [hout] at h
    obtain ⟨rfl, rfl⟩ := Prod.mk.inj (Option.some.inj h)
    exact Or.inr ⟨hcode, rfl⟩

/-- The outcome depends on the operation, its operands and the result the data came with. -/
theorem outcome_congr (M : CalculatorMath) {data data' : CalculatorData}
    (hh : data.needHelp = 0) (hh' : data'.needHelp = 0) (hr : data.result = data'.result)
    (hm : Abacus.mathCall M data.operation data.firstNumber data.secondNumber =
      Abacus.mathCall M data'.operation data'.firstNumber data'.secondNumber) :
    Abacus.outcome M data = Abacus.outcome M data' := by
  unfold Abacus.outcome Abacus.calculateResult
  rw [if_neg (not_not.mpr hh), if_neg (not_not.mpr hh'), hm, hr]
  cases Abacus.mathCall M data'.operation data'.firstNumber data'.secondNumber with
  | none => rfl
  | some out =>
    by_cases hz : Abacus.mapMathError out.status = ErrorCode.errorNone.toInt
    · simp only [hz, ne_eq, not_true_eq_false, if_false]
    · simp only [ne_eq, hz, not_false_eq_true, if_true]

end ConsoleCalculator
