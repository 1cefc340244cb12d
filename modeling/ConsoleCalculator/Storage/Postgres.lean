import ConsoleCalculator.Base.Keyed
import ConsoleCalculator.Storage.OperationKey

/-!
# The operation history in PostgreSQL

Model of `OperationRecord` (`storage/include/types/operation-record.h`), `PostgresConnection`,
`PostgresResult` and `PostgresRepository` (`storage/postgres/src/`).

* The table `operation_history` is a `Base.KeyedLog` on `cache_key`: rows in `id` order, the
  `UNIQUE` column as an invariant of the type. An `INTEGER` column is an `Int32`, a `TEXT`
  column a string without NUL (the second invariant), and a row has the record's six fields;
  `id` is the position, and `created_at` is left out, since nothing reads it.
* A statement goes through texts. `save` writes six positional parameters, `c_str` cuts each at
  its first NUL, and the server parses them by the column types; `load_history` reads six
  positional columns, integers in plain decimal, `NULL` kept apart from text.
* What comes back of a statement is the environment's choice (`StatementReply`): it completed,
  the connection was down, libpq had no result, or the result had another status. The last two
  leave open whether the server had applied the statement (`applied`).

Results:
* **`readRow_columns`**: reading a stored row back gives the record it was, whatever its ints.
* `loadHistory_completed`: a completed `load_history` returns the rows.
* **`save_eq`**: a save stores the record (`OperationHistory.store`) when the statement is
  applied, and throws `ERROR_STORAGE` exactly when it does not complete.
* **`loadHistory_saveAll`**: records saved one after the other are loaded in this order, the first
  one with each key. `saveAll_rows`: a table is restored from what was loaded of it.
-/

namespace ConsoleCalculator

open Base

/-- `Storage::Types::OperationRecord`. -/
structure OperationRecord where
  firstNumber : Int32
  secondNumber : Option Int32
  operation : String
  result : Option Int32
  status : Int32
  cacheKey : String
  deriving DecidableEq, Repr

/-! ## Statements -/

/-- What libpq reports of a statement. -/
inductive StatementReply where
  | completed
  | disconnected (lastError : String)
  | noResult (applied : Bool)
  | badStatus (status : String) (errorMessage : Option String) (applied : Bool)
  deriving DecidableEq, Repr

namespace StatementReply

/-- Whether the server carried the statement out. -/
def applied : StatementReply → Bool
  | .completed => true
  | .disconnected _ => false
  | .noResult a => a
  | .badStatus _ _ a => a

/-- The checks around a statement: `PostgresConnection::ensure_connected`, the constructor of
`PostgresResult` and `PostgresResult::expect_status`, in that order. -/
def check (expected : String) : StatementReply → Except Exception Unit
  | .completed => .ok ()
  | .disconnected lastError =>
    .error (.ofCode .errorStorage ("PostgreSQL connection failed: " ++ lastError))
  | .noResult _ => .error (.ofCode .errorStorage "PostgreSQL result was not created.")
  | .badStatus status errorMessage _ =>
    .error (.ofCode .errorStorage ("Unexpected PostgreSQL result status. Expected " ++ expected ++
      ", got " ++ status ++ ". " ++ errorMessage.getD ""))

/-- A statement that does not complete throws, and throws `ERROR_STORAGE`. -/
theorem check_cases (expected : String) (reply : StatementReply) :
    (reply = .completed ∧ reply.check expected = .ok ()) ∨
      (reply ≠ .completed ∧
        ∃ what, reply.check expected = .error (.ofCode .errorStorage what)) := by
  cases reply with
  | completed => exact Or.inl ⟨rfl, rfl⟩
  | disconnected e => exact Or.inr ⟨by simp, _, rfl⟩
  | noResult a => exact Or.inr ⟨by simp, _, rfl⟩
  | badStatus s e a => exact Or.inr ⟨by simp, _, rfl⟩

end StatementReply

/-- `std::string::c_str` as libpq reads it: up to the first NUL. -/
def cStr (s : String) : String := String.ofList (s.toList.takeWhile (· != '\x00'))

/-- A string libpq reads whole. -/
def NulFree (s : String) : Prop := '\x00' ∉ s.toList

instance (s : String) : Decidable (NulFree s) := inferInstanceAs (Decidable (_ ∉ s.toList))

theorem cStr_of_nulFree {s : String} (h : NulFree s) : cStr s = s := by
  have ht : s.toList.takeWhile (· != '\x00') = s.toList := by
    rw [List.takeWhile_eq_self_iff]
    intro c hc
    rw [bne_iff_ne]
    rintro rfl
    exact h hc
  unfold cStr
  rw [ht, String.ofList_toList]

/-- What libpq reads never has a NUL. -/
theorem nulFree_cStr (s : String) : NulFree (cStr s) := by
  unfold NulFree cStr
  rw [String.toList_ofList]
  intro h
  have := List.mem_takeWhile_imp h
  exact absurd this (by decide)

/-! ## The table -/

/-- The table `operation_history`. -/
structure OperationHistory extends KeyedLog OperationRecord.cacheKey where
  text : ∀ r ∈ rows, NulFree r.operation ∧ NulFree r.cacheKey

namespace OperationHistory

/-- The table as `init_schema` creates it. -/
def empty : OperationHistory := ⟨KeyedLog.empty, fun _ h => absurd h List.not_mem_nil⟩

/-- A table is its rows. -/
theorem eq_of_rows {history history' : OperationHistory} (h : history.rows = history'.rows) :
    history = history' := by
  obtain ⟨⟨rows, _⟩, _⟩ := history
  obtain ⟨⟨rows', _⟩, _⟩ := history'
  obtain rfl : rows = rows' := h
  rfl

/-- `INSERT … ON CONFLICT (cache_key) DO NOTHING`; a text with a NUL is rejected. -/
def insert (history : OperationHistory) (row : OperationRecord) : Option OperationHistory :=
  if h : NulFree row.operation ∧ NulFree row.cacheKey then
    some
      { history.toKeyedLog.insertNew row with
        text := fun r hr => (KeyedLog.mem_insertNew.mp hr).elim (history.text r) fun e => e.1 ▸ h }
  else none

end OperationHistory

/-- PostgreSQL's input of an `INTEGER`: a decimal number and nothing after it, in range. -/
def int4in (text : String) : Option Int32 :=
  match scanDecimal text.toList with
  | some (_, _, []) => stoi text
  | _ => none

theorem int4in_decimal (n : Int32) : int4in (decimal n) = some n := by
  have hs := scanDecimal_repr n.toInt noDigitAhead_nil
  rw [List.append_nil] at hs
  unfold int4in decimal
  rw [hs]
  exact stoi_decimal n

/-! ## `PostgresRepository::save` -/

/-- `PostgresRepository::to_optional_string`. -/
def toOptionalString (value : Option Int32) : Option String := value.map decimal

/-- The parameters of the `INSERT`, in the order of its column list. -/
def saveParams (record : OperationRecord) : List (Option String) :=
  [some (decimal record.firstNumber),
    toOptionalString record.secondNumber,
    some record.operation,
    toOptionalString record.result,
    some (decimal record.status),
    some record.cacheKey]

/-- The row the server makes of `(first_number, second_number, operation, result, status,
cache_key) VALUES ($1, …, $6)`; `none` when it rejects a parameter. -/
def parseRow : List (Option String) → Option OperationRecord
  | [some first, second, some operation, result, some status, some cacheKey] => do
    let first ← int4in first
    let second ← second.mapM int4in
    let result ← result.mapM int4in
    let status ← int4in status
    return ⟨first, second, operation, result, status, cacheKey⟩
  | _ => none

/-- The row a record is stored as: its texts up to the first NUL. -/
def storedRow (record : OperationRecord) : OperationRecord :=
  { record with operation := cStr record.operation, cacheKey := cStr record.cacheKey }

/-- `PostgresRepository::save`: the `INSERT` and the checks around it. A rejected row is a failed
statement. -/
def PostgresRepository.save (reply : StatementReply) (history : OperationHistory)
    (record : OperationRecord) : OperationHistory × Except Exception Unit :=
  match (parseRow ((saveParams record).map (Option.map cStr))).bind history.insert with
  | none =>
    (history, (StatementReply.badStatus "PGRES_FATAL_ERROR" none false).check "PGRES_COMMAND_OK")
  | some history' =>
    (if reply.applied then history' else history, reply.check "PGRES_COMMAND_OK")

theorem nulFree_append_iff {s t : String} : NulFree (s ++ t) ↔ NulFree s ∧ NulFree t := by
  unfold NulFree
  rw [String.toList_append, List.mem_append, not_or]

theorem nulFree_repr (n : ℕ) : NulFree n.repr :=
  fun h => absurd (isDigit_of_mem_repr h) (by decide)

theorem nulFree_decimal (n : Int32) : NulFree (decimal n) := by
  unfold decimal
  cases n.toInt with
  | ofNat m => exact nulFree_repr m
  | negSucc m => exact nulFree_append_iff.mpr ⟨by decide, nulFree_repr (m + 1)⟩

/-- The server accepts every record, and stores it up to its NULs. -/
theorem parseRow_saveParams (record : OperationRecord) :
    parseRow ((saveParams record).map (Option.map cStr)) = some (storedRow record) := by
  obtain ⟨first, second, operation, result, status, cacheKey⟩ := record
  have hopt : ∀ v : Option Int32, ((toOptionalString v).map cStr).mapM int4in = some v := by
    intro v
    cases v with
    | none => rfl
    | some n =>
      simp only [toOptionalString, Option.map_some, cStr_of_nulFree (nulFree_decimal n),
        Option.mapM_some, int4in_decimal, Option.map_eq_map]
  simp only [saveParams, List.map_cons, List.map_nil, Option.map_some, parseRow,
    cStr_of_nulFree (nulFree_decimal first), cStr_of_nulFree (nulFree_decimal status),
    int4in_decimal, hopt, storedRow, Option.bind_eq_bind, Option.bind_some, Option.pure_def]

theorem storedRow_of_nulFree {record : OperationRecord} (ho : NulFree record.operation)
    (hk : NulFree record.cacheKey) : storedRow record = record := by
  unfold storedRow
  rw [cStr_of_nulFree ho, cStr_of_nulFree hk]

/-- The history with the record's row inserted. -/
def OperationHistory.store (history : OperationHistory) (record : OperationRecord) :
    OperationHistory :=
  { history.toKeyedLog.insertNew (storedRow record) with
    text := fun r hr => (KeyedLog.mem_insertNew.mp hr).elim (history.text r) fun e =>
      e.1 ▸ ⟨nulFree_cStr _, nulFree_cStr _⟩ }

theorem insert_storedRow (history : OperationHistory) (record : OperationRecord) :
    history.insert (storedRow record) = some (history.store record) := by
  unfold OperationHistory.insert
  rw [dif_pos ⟨nulFree_cStr _, nulFree_cStr _⟩]
  rfl

/-- **A save** stores the record if the statement is applied, and returns what the checks make
of the reply. -/
theorem save_eq (reply : StatementReply) (history : OperationHistory) (record : OperationRecord) :
    PostgresRepository.save reply history record =
      (if reply.applied then history.store record else history,
        reply.check "PGRES_COMMAND_OK") := by
  unfold PostgresRepository.save
  rw [parseRow_saveParams, Option.bind_some, insert_storedRow]

/-! ## `PostgresRepository::load_history` -/

/-- The columns of `SELECT first_number, second_number, operation, result, status, cache_key`
for one row, integers in decimal. -/
def columns (row : OperationRecord) : List (Option String) :=
  [some (decimal row.firstNumber),
    row.secondNumber.map decimal,
    some row.operation,
    row.result.map decimal,
    some (decimal row.status),
    some row.cacheKey]

/-- `PostgresResult::is_null`. -/
def isNull (cells : List (Option String)) (column : ℕ) : Bool := (cells[column]?.join).isNone

/-- `PostgresResult::value`: empty for `NULL`. -/
def cellValue (cells : List (Option String)) (column : ℕ) : String := (cells[column]?.join).getD ""

/-- `std::stoi`, which throws a `std::exception` on a text that is no `int`. -/
def stoiOrThrow (text : String) : Except Exception Int32 :=
  match stoi text with
  | some n => .ok n
  | none => .error (.foreign (.std "stoi"))

/-- `PostgresRepository::parse_optional_int`. -/
def parseOptionalInt (cells : List (Option String)) (column : ℕ) :
    Except Exception (Option Int32) :=
  if isNull cells column then .ok none
  else (stoiOrThrow (cellValue cells column)).map some

/-- The body of `load_history`'s loop. -/
def readRow (cells : List (Option String)) : Except Exception OperationRecord := do
  let firstNumber ← stoiOrThrow (cellValue cells 0)
  let secondNumber ← parseOptionalInt cells 1
  let operation := cellValue cells 2
  let operationResult ← parseOptionalInt cells 3
  let status ← stoiOrThrow (cellValue cells 4)
  let cacheKey := cellValue cells 5
  return ⟨firstNumber, secondNumber, operation, operationResult, status, cacheKey⟩

/-- `PostgresRepository::load_history`. -/
def PostgresRepository.loadHistory (reply : StatementReply) (history : OperationHistory) :
    Except Exception (List OperationRecord) := do
  reply.check "PGRES_TUPLES_OK"
  (history.rows.map columns).mapM readRow

/-- `PostgresRepository::init_schema`: the table is there already or is created empty, so a
history is unchanged by it. -/
def PostgresRepository.initSchema (reply : StatementReply) : Except Exception Unit :=
  reply.check "PGRES_COMMAND_OK"

theorem stoiOrThrow_decimal (n : Int32) : stoiOrThrow (decimal n) = .ok n := by
  unfold stoiOrThrow
  rw [stoi_decimal]

theorem parseOptionalInt_decimal {cells : List (Option String)} {column : ℕ} {v : Option Int32}
    (h : cells[column]? = some (v.map decimal)) : parseOptionalInt cells column = .ok v := by
  unfold parseOptionalInt isNull cellValue
  rw [h]
  cases v with
  | none => rfl
  | some n =>
    show (stoiOrThrow (decimal n)).map some = .ok (some n)
    rw [stoiOrThrow_decimal]
    rfl

/-- **A row is read back as it is**, field by field. -/
theorem readRow_columns (row : OperationRecord) : readRow (columns row) = .ok row := by
  have h0 : cellValue (columns row) 0 = decimal row.firstNumber := rfl
  have h2 : cellValue (columns row) 2 = row.operation := rfl
  have h4 : cellValue (columns row) 4 = decimal row.status := rfl
  have h5 : cellValue (columns row) 5 = row.cacheKey := rfl
  have h1 : parseOptionalInt (columns row) 1 = .ok row.secondNumber := parseOptionalInt_decimal rfl
  have h3 : parseOptionalInt (columns row) 3 = .ok row.result := parseOptionalInt_decimal rfl
  unfold readRow
  rw [h0, h1, h2, h3, h4, h5, stoiOrThrow_decimal, stoiOrThrow_decimal]
  rfl

theorem mapM_readRow : ∀ rows : List OperationRecord,
    (rows.map columns).mapM readRow = .ok rows
  | [] => rfl
  | row :: rows => by
    rw [List.map_cons, List.mapM_cons, readRow_columns, mapM_readRow rows]
    rfl

/-- **A completed load returns the rows in `id` order.** -/
theorem loadHistory_completed (history : OperationHistory) :
    PostgresRepository.loadHistory .completed history = .ok history.rows :=
  mapM_readRow history.rows

/-! ## Saving a list and loading it -/

/-- `PostgresRepository::save` of one record after the other, with statements that complete. An
exception ends it. -/
def PostgresRepository.saveAll (history : OperationHistory) (records : List OperationRecord) :
    Except Exception OperationHistory :=
  records.foldlM
    (fun history record =>
      let saved := PostgresRepository.save .completed history record
      saved.2.map fun _ => saved.1)
    history

theorem saveAll_cons (history : OperationHistory) (record : OperationRecord)
    (records : List OperationRecord) :
    PostgresRepository.saveAll history (record :: records) =
      PostgresRepository.saveAll (history.store record) records := by
  unfold PostgresRepository.saveAll
  rw [List.foldlM_cons]
  simp only [save_eq]
  rfl

/-- No save throws, and the rows are inserted in order. -/
theorem saveAll_completed : ∀ (records : List OperationRecord) (history : OperationHistory),
    ∃ history', PostgresRepository.saveAll history records = .ok history' ∧
      history'.toKeyedLog = history.toKeyedLog.insertAll (records.map storedRow)
  | [], history => ⟨history, rfl, rfl⟩
  | record :: records, history => by
    obtain ⟨history', hsave, hlog⟩ := saveAll_completed records (history.store record)
    exact ⟨history', (saveAll_cons history record records).trans hsave, hlog⟩

theorem map_storedRow_of_nulFree {records : List OperationRecord}
    (h : ∀ r ∈ records, NulFree r.operation ∧ NulFree r.cacheKey) :
    records.map storedRow = records := by
  have hsame : ∀ r ∈ records, storedRow r = r := fun r hr =>
    storedRow_of_nulFree (h r hr).1 (h r hr).2
  rw [List.map_congr_left hsame, List.map_id']

/-- **Saved records are loaded as they were**, in their order, the first one with each key. -/
theorem loadHistory_saveAll {records : List OperationRecord}
    (h : ∀ r ∈ records, NulFree r.operation ∧ NulFree r.cacheKey) (history : OperationHistory) :
    ∃ history', PostgresRepository.saveAll history records = .ok history' ∧
      history'.rows = firstByKey OperationRecord.cacheKey (history.rows ++ records) ∧
      PostgresRepository.loadHistory .completed history' = .ok history'.rows := by
  obtain ⟨history', hsave, hlog⟩ := saveAll_completed records history
  refine ⟨history', hsave, ?_, loadHistory_completed history'⟩
  rw [hlog, KeyedLog.rows_insertAll, map_storedRow_of_nulFree h]

/-- A table is made again by saving its rows. -/
theorem saveAll_rows (history : OperationHistory) :
    PostgresRepository.saveAll .empty history.rows = .ok history := by
  obtain ⟨history', hsave, hrows, -⟩ := loadHistory_saveAll history.text .empty
  have hsame : history'.rows = history.rows := hrows.trans (firstByKey_of_nodup history.unique)
  rw [hsave, OperationHistory.eq_of_rows hsame]

end ConsoleCalculator
