import ConsoleCalculator.Server.RequestHandler

/-!
# What a handler stores, and a rule for its runs

The records `handle` (`server/src/request-handler.cpp`) hands to the storage all file a
calculation: they carry its operation and operands, pass the argument check and have its key
(`FiledAs`). They are of two kinds. A record made from a finished calculation has the status and
result of that calculation (`Genuine`). A record made in the inner `catch` clause after the save
of a success threw has the code of that exception and no result.

Results:
* `FiledAs.storedRow_eq`: such a record goes through PostgreSQL unchanged.
* **`handle_sat`**: the rule for `handle` over any shared storage. To show that a handler keeps an
  invariant of the storage and answers with responses satisfying `P`, it is enough to show the
  obligations of `Obligations`: what the answer of `find` may be, and what saving a genuine record,
  or after a failed save its failure record, does.
-/

namespace ConsoleCalculator

open Base RequestHandler
open Base.Throwing (sat_andThen sat_tryCatch sat_ofExcept sat_call ok_andThen error_andThen
  thrown_tryCatch)

/-! ## Records -/

/-- The record files the calculation `c`, an accepted calculation with operation `op`. -/
structure FiledAs (op : Operation) (c : Calculation) (r : OperationRecord) : Prop where
  name : r.operation = op.name
  second : r.secondNumber = none ↔ op = .factorial
  calculation : op.calculation r.firstNumber r.secondNumber = some c
  key : r.cacheKey = c.key
  accepted : Checker.checkArguments (op.data r.firstNumber r.secondNumber) = .ok ()

/-- The record has the status and result that `Abacus::calculate_result` produces for its
operation and operands. -/
def Genuine (M : CalculatorMath) (r : OperationRecord) : Prop :=
  ∃ op, Operation.named r.operation = some op ∧
    Abacus.outcome M (op.data r.firstNumber r.secondNumber) = some (r.status, r.result)

theorem nulFree_key (c : Calculation) : NulFree c.key := by
  cases c with
  | binary o l r =>
    refine nulFree_append_iff.mpr
      ⟨nulFree_append_iff.mpr ⟨nulFree_decimal l, ?_⟩, nulFree_decimal r⟩
    cases o <;> decide
  | factorial n =>
    exact nulFree_append_iff.mpr
      ⟨nulFree_append_iff.mpr ⟨by decide, nulFree_decimal n⟩, by decide⟩

theorem nulFree_name (op : Operation) : NulFree op.name := by
  rcases op with (_ | _ | _ | _ | _) | _ <;> decide

namespace FiledAs

variable {op : Operation} {c : Calculation} {r : OperationRecord}

/-- The status and the result are no part of the filing. -/
theorem of_eq (h : FiledAs op c r) (status : Int32) (result : Option Int32) :
    FiledAs op c { r with status := status, result := result } :=
  ⟨h.name, h.second, h.calculation, h.key, h.accepted⟩

theorem make (h : FiledAs op c r) :
    OperationKey.make r.firstNumber r.secondNumber r.operation = .ok r.cacheKey := by
  rw [h.name, h.key]
  exact make_ok_iff.mpr ⟨op, c, op.named_name, h.calculation, rfl⟩

/-- PostgreSQL stores it as it is. -/
theorem storedRow_eq (h : FiledAs op c r) : storedRow r = r := by
  refine storedRow_of_nulFree ?_ ?_
  · rw [h.name]; exact nulFree_name op
  · rw [h.key]; exact nulFree_key c

theorem genuine_iff (h : FiledAs op c r) (M : CalculatorMath) :
    Genuine M r ↔
      Abacus.outcome M (op.data r.firstNumber r.secondNumber) = some (r.status, r.result) := by
  unfold Genuine
  rw [h.name, op.named_name]
  simp

end FiledAs

/-- The record data leave files the calculation they stand for. -/
theorem filedAs_of_standsFor {op : Operation} {data : CalculatorData} {c : Calculation}
    (h : StandsFor op data c) (hc : Checker.checkArguments data = .ok ()) (result : Option Int32)
    (status : Int32) :
    FiledAs op c
      ⟨data.firstNumber, secondNumberForStorage data, op.name, result, status, c.key⟩ :=
  ⟨rfl, h.second, h.calculation, rfl, h.checkArguments_eq ▸ hc⟩

/-! ## The rule -/

section Rule

variable {σ ε : Type} {M : CalculatorMath} {lib : Protocol} {request : CalculationRequest}
  {exec : ε → σ → (o : StorageOp) → σ × o.Ans} {A : ε → σ → StorageOp → Prop} {I : σ → Prop}
  {P : CalculationResponse → Prop}

/-- The text is a response satisfying `P`, with some timing. -/
def Emitted (lib : Protocol) (P : CalculationResponse → Prop) (text : String) : Prop :=
  ∃ response timing, P response ∧
    lib.serializeResponse { response with timing := timing } = .ok text

theorem Emitted.mono {P Q : CalculationResponse → Prop} (hPQ : ∀ response, P response → Q response)
    {text : String} (h : Emitted lib P text) : Emitted lib Q text := by
  obtain ⟨response, timing, hP, hs⟩ := h
  exact ⟨response, timing, hPQ response hP, hs⟩

/-- The exception is that of a `serialize_response` that could not encode a response satisfying
`P`. -/
def Unencoded (lib : Protocol) (P : CalculationResponse → Prop) (e : Exception) : Prop :=
  ∃ response timing err, P response ∧
    lib.serializeResponse { response with timing := timing } = .error err ∧ e = .foreign err

/-- What a call of `handle` ends with: a response satisfying `P`, or the exception of a
`serialize_response` that could not encode one. -/
def Emits (lib : Protocol) (P : CalculationResponse → Prop) : Outcome Exception String → Prop :=
  Outcome.Post (Emitted lib P) (Unencoded lib P)

theorem Emits.mono {P Q : CalculationResponse → Prop} (hPQ : ∀ response, P response → Q response)
    {out : Outcome Exception String} (h : Emits lib P out) : Emits lib Q out := by
  cases out with
  | value text => exact Emitted.mono hPQ h
  | thrown e =>
    obtain ⟨response, timing, err, hP, hrest⟩ := h
    exact ⟨response, timing, err, hPQ response hP, hrest⟩
  | undefined => exact h

/-- Saving `r` keeps the invariant, and an exception it throws may be answered. -/
def SaveKeeps (exec : ε → σ → (o : StorageOp) → σ × o.Ans) (A : ε → σ → StorageOp → Prop)
    (I : σ → Prop) (X : Exception → Prop) (r : OperationRecord) : Prop :=
  ∀ x s, A x s (.save r) → I s →
    I (exec x s (.save r)).1 ∧ ∀ e, (exec x s (.save r)).2 = .error e → X e

/-- The record the inner `catch` clause makes of the record whose save threw `code`. -/
def failureRecord (r : OperationRecord) (code : Int32) : OperationRecord :=
  { r with
    status := code
    result := if code = ErrorCode.errorNone.toInt then r.result else none }

/-- What has to be known of a storage for handlers of `request` to keep `I` and to answer `P`. -/
structure Obligations (M : CalculatorMath) (lib : Protocol) (request : CalculationRequest)
    (exec : ε → σ → (o : StorageOp) → σ × o.Ans) (A : ε → σ → StorageOp → Prop)
    (I : σ → Prop) (P : CalculationResponse → Prop) : Prop where
  unserialized : ∀ e, Unencoded lib P e → P (errorResponse lib request.requestId e)
  rejected : ∀ e, toCalculatorData request = .error e → P (errorResponse lib request.requestId e)
  find : ∀ op data, toCalculatorData request = .ok data → DataFor op data →
    (request.operands ≠ [] → data.hasFirstNumber ≠ 0) →
    ∀ x s, A x s (.find data.firstNumber (secondNumberForStorage data) op.name) → I s →
      I (exec x s (.find data.firstNumber (secondNumberForStorage data) op.name)).1 ∧
      (∀ r, (exec x s (.find data.firstNumber (secondNumberForStorage data) op.name)).2 =
          .ok (some r) →
        ∃ response, cachedResponse lib request.requestId r = some response ∧ P response) ∧
      ∀ e, (exec x s (.find data.firstNumber (secondNumberForStorage data) op.name)).2 = .error e →
        P (errorResponse lib request.requestId e)
  unchecked : ∀ data e, toCalculatorData request = .ok data →
    Checker.checkArguments data = .error e → P (errorResponse lib request.requestId e)
  calculated : ∀ data v, toCalculatorData request = .ok data →
    Checker.checkArguments data = .ok () →
    (Abacus.calculateResult M data).2 = .ok () → (Abacus.calculateResult M data).1.result = v →
    P (calculatedResponse lib request.requestId v)
  failed : ∀ data e, toCalculatorData request = .ok data →
    Checker.checkArguments data = .ok () → (Abacus.calculateResult M data).2 = .error e →
    P (errorResponse lib request.requestId e)
  save : ∀ op c r, FiledAs op c r → Genuine M r →
    SaveKeeps exec A I (fun e => P (errorResponse lib request.requestId e) ∧
      ∀ code what, e = .calculator code what → r.status = ErrorCode.errorNone.toInt →
        SaveKeeps exec A I (fun e => P (errorResponse lib request.requestId e))
          (failureRecord r code)) r

theorem reply_sat {U : Prop} {X : Exception → Prop} {elapsed : Int64}
    {response : CalculationResponse} (hp : P response)
    (hx : ∀ e, Unencoded lib P e → X e) :
    (reply lib elapsed response).Sat exec A I (Outcome.PostOr U (Emitted lib P) X) := by
  unfold reply HandlerM.serialize
  cases hs : lib.serializeResponse { response with timing := some (makeTiming elapsed) } with
  | ok text => exact ⟨response, _, hp, hs⟩
  | error e => exact hx _ ⟨response, _, e, hp, hs, rfl⟩

theorem catchClauses_sat {millis : Elapsed} {e : Exception} {requestId : String}
    (hp : P (errorResponse lib requestId e)) :
    (catchClauses lib millis requestId e).Sat exec A I (Emits lib P) :=
  reply_sat hp fun _ h => h

theorem save_sat {X : Exception → Prop} {r : OperationRecord} (h : SaveKeeps exec A I X r) :
    (HandlerM.save r).Sat exec A I (Outcome.Post (fun _ => True) X) :=
  sat_call fun x s ha hi => ⟨(h x s ha hi).1, fun _ _ => trivial, (h x s ha hi).2⟩

/-- The inner `catch` clause: whatever the save of the failure record does, the exception that
was caught, or one that is no `std::exception`, goes on. -/
theorem saveFailure_sat {V : String → Prop} {X : Exception → Prop} {op : Operation}
    {data : CalculatorData} {c : Calculation} (hs : StandsFor op data c) {v code : Int32}
    {what : String} (hX : X (.calculator code what))
    (hsave : SaveKeeps exec A I X
      ⟨data.firstNumber, secondNumberForStorage data, op.name,
        if code = ErrorCode.errorNone.toInt then some v else none, code, c.key⟩) :
    (saveFailure { data with result := v } op.name (.calculator code what)).Sat exec A I
      (Outcome.Post V X) := by
  unfold saveFailure
  simp only [hs.storable, if_true, hs.makeOperationRecord_eq]
  refine sat_andThen (V := fun _ => True) ?_ fun _ _ => hX
  refine sat_tryCatch (save_sat hsave) fun e he => ?_
  split
  · exact he
  · exact trivial

/-- `handle` after a miss. -/
theorem calculateAndSave_sat {op : Operation} {data : CalculatorData} {millis : Elapsed}
    (ob : Obligations M lib request exec A I P) (hdata : toCalculatorData request = .ok data)
    (hd : DataFor op data) :
    (calculateAndSave M lib millis request op.name data).Sat exec A I
      (Outcome.Post (Emitted lib P) fun e => P (errorResponse lib request.requestId e)) := by
  unfold calculateAndSave
  refine sat_andThen (V := fun _ => Checker.checkArguments data = .ok ())
    (sat_ofExcept (fun _ h => h) fun e he => ob.unchecked data e hdata he) fun _ hc => ?_
  obtain ⟨c, hs⟩ := checked_calculation hd hc
  obtain ⟨v, hv, hend⟩ := calculateResult_spec M data
  have hfiled := filedAs_of_standsFor hs hc
  simp only [hv]
  rcases hend with ⟨hok, hout⟩ | ⟨code, what, herr, hcode, hout⟩
  · -- a success: its record is saved, and if that throws, a failure record
    have hgen : Genuine M
        ⟨data.firstNumber, secondNumberForStorage data, op.name, some v,
          ErrorCode.errorNone.toInt, c.key⟩ :=
      ((hfiled _ _).genuine_iff M).mpr (hs.outcome_eq M ▸ hout)
    rw [hok, hs.makeOperationRecord_eq, if_pos rfl, ok_andThen, ok_andThen]
    refine sat_tryCatch (sat_andThen (save_sat (ob.save op c _ (hfiled _ _) hgen)) fun _ _ => ?_) ?_
    · refine reply_sat (ob.calculated data v hdata hc hok (by rw [hv])) fun e he => ?_
      refine ⟨ob.unserialized e he, fun code what hcode => ?_⟩
      obtain ⟨_, _, err, -, -, rfl⟩ := he
      exact Exception.noConfusion hcode
    · rintro (⟨code, what⟩ | e) ⟨hP, hfail⟩
      · exact saveFailure_sat hs hP (hfail code what rfl rfl)
      · exact hP
  · -- a failed calculation: its own record is saved
    have hgen : Genuine M
        ⟨data.firstNumber, secondNumberForStorage data, op.name, none, code, c.key⟩ :=
      ((hfiled _ _).genuine_iff M).mpr (hs.outcome_eq M ▸ hout)
    have hsave : SaveKeeps exec A I (fun e => P (errorResponse lib request.requestId e))
        ⟨data.firstNumber, secondNumberForStorage data, op.name, none, code, c.key⟩ := by
      intro x s ha hi
      obtain ⟨hI, hX⟩ := ob.save op c _ (hfiled _ _) hgen x s ha hi
      exact ⟨hI, fun e he => (hX e he).1⟩
    rw [herr, error_andThen, thrown_tryCatch]
    refine saveFailure_sat hs (ob.failed data _ hdata hc herr) ?_
    rw [if_neg hcode.ne_none]
    exact hsave

/-- **The rule for `handle`.** -/
theorem handle_sat {json : String} (millis : Elapsed)
    (hparse : lib.parseRequest json = .ok request)
    (ob : Obligations M lib request exec A I P) :
    (handle M lib millis json).Sat exec A I (Emits lib P) := by
  unfold handle
  rw [hparse]
  refine sat_tryCatch (X := fun e => P (errorResponse lib request.requestId e)) ?_ fun e he =>
    catchClauses_sat he
  unfold handleRequest
  refine sat_andThen (V := fun data => toCalculatorData request = .ok data)
    (sat_ofExcept (fun _ h => h) ob.rejected) fun data hdata => ?_
  obtain ⟨op, hop, hd, hfirst⟩ := toCalculatorData_ok hdata
  rw [operationToStorageName_eq, hop]
  simp only [ok_andThen]
  refine sat_andThen (V := fun found => ∀ r, found = some r →
      ∃ response, cachedResponse lib request.requestId r = some response ∧ P response)
    (sat_call fun x s ha hi => ?_) fun found hfound => ?_
  · obtain ⟨hI, hcached, herr⟩ := ob.find op data hdata hd hfirst x s ha hi
    exact ⟨hI, fun found h r hr => hcached r (hr ▸ h), herr⟩
  · cases found with
    | none => exact calculateAndSave_sat ob hdata hd
    | some r =>
      obtain ⟨response, hr, hP⟩ := hfound r rfl
      unfold afterFind
      simp only [hr]
      exact reply_sat hP ob.unserialized

/-- A text that is no request is answered with the parser's error. -/
theorem handle_unparsed_sat {json : String} {e : ForeignError} (millis : Elapsed)
    (hparse : lib.parseRequest json = .error e) (hP : P (errorResponse lib "" (.foreign e))) :
    (handle M lib millis json).Sat exec A I (Emits lib P) := by
  unfold handle
  rw [hparse]
  exact catchClauses_sat hP

end Rule

end ConsoleCalculator
