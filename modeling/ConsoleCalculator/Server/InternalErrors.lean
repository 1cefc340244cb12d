import ConsoleCalculator.Server.HandlerRuns
import ConsoleCalculator.Server.TryBlock

/-!
# Where responses `INTERNAL_ERROR` come from

`handle` (`server/src/request-handler.cpp`) answers `INTERNAL_ERROR` when a `std::exception` that is
neither a `ProtocolError` nor a `CalculatorException` reaches its third `catch` clause. The storage
service throws nothing but `CalculatorException`s whose codes are those of failures (`exec_plain`),
so what is left is the codec, a storage that throws something else, and what the library makes of a
cached row whose status is a multiple of 256: that is a failure with the status `OK`, of which
nothing is known but its message.

Results:
* **`handle_explained`**: as long as the storage throws nothing but such exceptions, a response
  `INTERNAL_ERROR` carries a message of the codec, or that of a cached row.
-/

namespace ConsoleCalculator

open Base RequestHandler
open Base.Throwing (sat_tryCatch)

/-! ## Exceptions -/

/-- The codec throws this, from one of its two functions. -/
def Protocol.Throws (lib : Protocol) (e : ForeignError) : Prop :=
  (∃ json, lib.parseRequest json = .error e) ∨
    ∃ response, lib.serializeResponse response = .error e

/-- `what()` of a library's exception, if it has one. -/
def ForeignError.what : ForeignError → Option String
  | .protocolError _ what _ => some what
  | .std what => some what
  | .other => none

/-- A response `INTERNAL_ERROR` reports an exception of the codec, or has the message of a cached
failure. -/
def Explained (lib : Protocol) (response : CalculationResponse) : Prop :=
  response.statusCode = .internalError → ∃ info, response.errorInfo = some info ∧
    (info.message = "cached calculation error" ∨ ∃ e, lib.Throws e ∧ e.what = some info.message)

/-- An exception of the calculator, with the code of a failure. -/
def IsPlain (e : Exception) : Prop :=
  ∃ code what, e = .calculator code what ∧ mapInternalError code ≠ .ok

/-- The answer is no exception but a plain one. -/
def StorageOp.Plain : (o : StorageOp) → o.Ans → Prop
  | .find _ _ _, answer => ∀ e, answer = .error e → IsPlain e
  | .save _, answer => ∀ e, answer = .error e → IsPlain e

section Responses

variable {lib : Protocol}

theorem mapInternalError_ne (code : Int32) : mapInternalError code ≠ .internalError := by
  unfold mapInternalError
  split <;> simp

/-- An exception that is answered with another status. -/
theorem explained_of_status (id : String) {e : Exception} (hok : exceptionStatus e ≠ .ok)
    (hne : exceptionStatus e ≠ .internalError) : Explained lib (errorResponse lib id e) := by
  intro h
  rw [errorResponse_statusCode lib id hok] at h
  exact absurd h hne

theorem explained_plain (id : String) {e : Exception} (he : IsPlain e) :
    Explained lib (errorResponse lib id e) := by
  obtain ⟨code, what, rfl, hok⟩ := he
  exact explained_of_status id hok (mapInternalError_ne code)

theorem explained_thrown (id : String) {e : ForeignError} (he : lib.Throws e) :
    Explained lib (errorResponse lib id (.foreign e)) := by
  cases e with
  | protocolError status what field =>
    exact fun _ => ⟨_, errorResponse_errorInfo lib id _, Or.inr ⟨_, he, rfl⟩⟩
  | std what => exact fun _ => ⟨_, errorResponse_errorInfo lib id _, Or.inr ⟨_, he, rfl⟩⟩
  | other => exact explained_of_status id (by decide) (by decide)

/-- The handler's own exceptions are answered with other codes. -/
theorem explained_own (id : String) {e : Exception} (he : Own e) :
    Explained lib (errorResponse lib id e) := by
  refine explained_of_status id he.exceptionStatus_ne ?_
  cases he with
  | unknownOperation | firstOperand | secondOperand => decide
  | calculator => exact mapInternalError_ne _

theorem make_error {a : Int32} {b : Option Int32} {name : String} {e : Exception}
    (h : OperationKey.make a b name = .error e) : IsPlain e := by
  rw [make_eq] at h
  split at h
  · cases h
  · exact ⟨_, _, (Except.error.inj h).symm, by decide⟩
  · cases h
  · exact ⟨_, _, (Except.error.inj h).symm, by decide⟩

/-- What the service answers is plain. -/
theorem exec_plain (reply : StatementReply) (service : StorageService) (o : StorageOp) :
    o.Plain (StorageService.exec reply service o).2 := by
  cases o with
  | find a b name =>
    intro e he
    cases hk : OperationKey.make a b name with
    | ok key =>
      simp [StorageService.exec, StorageService.find, CacheRepository.find, hk, Except.map] at he
    | error e' =>
      simp only [StorageService.exec, StorageService.find, CacheRepository.find, hk,
        Except.map] at he
      obtain rfl := Except.error.inj he
      exact make_error hk
  | save record =>
    intro e he
    obtain ⟨-, what, rfl⟩ := save_error he
    exact ⟨_, what, rfl, by decide⟩

/-- As long as the storage's answers are plain, the program ends with a value satisfying `V` or an
exception satisfying `X`, or is undefined. -/
abbrev PlainSat {α : Type} (V : α → Prop) (X : Exception → Prop) (p : HandlerM α) : Prop :=
  p.Sat (fun (answer : (o : StorageOp) → o.Ans) (_ : Unit) o => ((), answer o))
    (fun answer _ o => o.Plain (answer o)) (fun _ => True) (Outcome.PostOr True V X)

/-- An exception that may be reported. -/
def Reportable (lib : Protocol) (e : Exception) : Prop :=
  ∀ id, Explained lib (errorResponse lib id e)

theorem reply_explained {elapsed : Int64} {response : CalculationResponse}
    (h : Explained lib response) :
    PlainSat (Emitted lib (Explained lib)) (Reportable lib) (reply lib elapsed response) :=
  reply_sat h fun _ he id => by
    obtain ⟨_, _, err, -, herr, rfl⟩ := he
    exact explained_thrown id (Or.inr ⟨_, herr⟩)

theorem cached_explained {id : String} {record : OperationRecord} {response : CalculationResponse}
    (h : cachedResponse lib id record = some response) : Explained lib response := by
  unfold cachedResponse at h
  split at h
  · obtain ⟨v, -, rfl⟩ := Option.map_eq_some_iff.mp h
    intro hs
    simp at hs
  · obtain rfl := Option.some.inj h
    exact fun _ => ⟨_, lib.failure_errorInfo _ _ _, Or.inl rfl⟩

/-- **A response `INTERNAL_ERROR` comes from the library**, as long as the storage throws nothing
but plain exceptions. -/
theorem handle_explained (M : CalculatorMath) (lib : Protocol) (millis : Elapsed)
    (json : String) :
    PlainSat (Emitted lib (Explained lib)) (fun _ => True) (handle M lib millis json) := by
  have hcatch : ∀ id e, Reportable lib e → PlainSat (Emitted lib (Explained lib))
      (fun _ => True) (catchClauses lib millis id e) := fun id e he =>
    reply_sat (he id) fun _ _ => trivial
  unfold handle
  split
  · rename_i e he
    exact hcatch _ _ fun id => explained_thrown id (Or.inl ⟨json, he⟩)
  · rename_i request hparse
    refine sat_tryCatch (X := Reportable lib) (handleRequest_sat ?_) (hcatch request.requestId)
    exact {
      own := fun e he id => explained_own id he
      find := fun a b name x s hplain _ =>
        ⟨trivial, fun e he => fun id => explained_plain id (hplain e he),
          fun r _ => ⟨fun response hr => reply_explained (cached_explained hr), fun _ => trivial⟩⟩
      save := fun r x s hplain _ =>
        ⟨trivial, fun e he => fun id => explained_plain id (hplain e he)⟩
      calculated := fun v => reply_explained fun hs => by simp [calculatedResponse] at hs }

end Responses

end ConsoleCalculator
