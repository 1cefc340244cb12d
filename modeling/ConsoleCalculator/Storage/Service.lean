import ConsoleCalculator.Storage.Postgres

/-!
# The storage service: cache and history

Model of `CacheRepository` (`storage/src/cache-repository.cpp`) and `StorageService`
(`storage/src/storage-service.cpp`). The cache is a `Base.KeyedMap` (`insert_or_assign`: the last
record of a key wins), the history a table in which the first one wins, and `save` writes the
cache first and then the table, which may fail.

Results:
* `initializeStorage_completed`: a service initialized from a table finds, under every key, the row
  with that key.
* `coherent_iff`: "the cache returns what a fresh service over the same table would return" is
  agreement of the two stores (`Base.Agree`).
* `coherent_save_iff`: **what keeps the two stores in step**. A save from a coherent state ends
  coherent iff the table already holds this very record under its key, or the key is free, the
  insert takes effect and the record's texts have no NUL.
* **`allCoherent_iff`**: along any sequence of saves, with any of the inserts failing, every
  state is coherent iff every save meets that condition.
* **`history_round_trip`**: records saved into an empty table are loaded as they were, the first one
  with each key, and a cache that is warmed up with them has exactly those.
-/

namespace ConsoleCalculator

open Base

/-! ## `CacheRepository` -/

/-- `CacheRepository`. -/
structure CacheRepository where
  cache : KeyedMap String OperationRecord

namespace CacheRepository

/-- The cache as it is constructed. -/
def empty : CacheRepository := ⟨∅⟩

/-- `CacheRepository::put`. -/
def put (c : CacheRepository) (record : OperationRecord) : CacheRepository :=
  ⟨KeyedMap.put OperationRecord.cacheKey c.cache record⟩

/-- `CacheRepository::warm_up`. -/
def warmUp (c : CacheRepository) (records : List OperationRecord) : CacheRepository :=
  records.foldl put c

/-- `CacheRepository::find_by_key`. -/
def findByKey (c : CacheRepository) (cacheKey : String) : Option OperationRecord :=
  c.cache.lookup cacheKey

/-- `CacheRepository::size`. -/
def size (c : CacheRepository) : ℕ := c.cache.size

/-- `CacheRepository::find`. -/
def find (c : CacheRepository) (firstNumber : Int32) (secondNumber : Option Int32)
    (operation : String) : Except Exception (Option OperationRecord) :=
  (OperationKey.make firstNumber secondNumber operation).map c.findByKey

theorem findByKey_put (c : CacheRepository) (r : OperationRecord) (k : String) :
    (c.put r).findByKey k = if k = r.cacheKey then some r else c.findByKey k :=
  KeyedMap.lookup_put c.cache r k

theorem warmUp_cache : ∀ (records : List OperationRecord) (c : CacheRepository),
    (c.warmUp records).cache = KeyedMap.putAll OperationRecord.cacheKey c.cache records
  | [], _ => rfl
  | r :: rs, c => warmUp_cache rs (c.put r)

/-- A cache that is warmed up with a table finds its rows. -/
theorem findByKey_warmUp (history : OperationHistory) (k : String) :
    (empty.warmUp history.rows).findByKey k = history.find k := by
  unfold findByKey
  rw [warmUp_cache]
  exact KeyedLog.lookup_putAll_rows history.toKeyedLog k

theorem size_warmUp (history : OperationHistory) :
    (empty.warmUp history.rows).size = history.rows.length := by
  unfold size
  rw [warmUp_cache]
  exact KeyedLog.size_putAll_rows history.toKeyedLog

end CacheRepository

/-! ## `StorageService` -/

/-- `StorageService`: the cache, and the table the repository's connection reaches. -/
structure StorageService where
  cacheRepository : CacheRepository
  postgresRepository : OperationHistory

namespace StorageService

/-- The service as `StorageWorker::thread_main` constructs it: an empty cache over the table. -/
def fresh (history : OperationHistory) : StorageService := ⟨.empty, history⟩

/-- `StorageService::initialize`. -/
def initializeStorage (schemaReply historyReply : StatementReply) (s : StorageService) :
    Except Exception StorageService := do
  PostgresRepository.initSchema schemaReply
  let records ← PostgresRepository.loadHistory historyReply s.postgresRepository
  return { s with cacheRepository := s.cacheRepository.warmUp records }

/-- `StorageService::find`. -/
def find (s : StorageService) (firstNumber : Int32) (secondNumber : Option Int32)
    (operation : String) : Except Exception (Option OperationRecord) :=
  s.cacheRepository.find firstNumber secondNumber operation

/-- `StorageService::save`: the cache, then the table. -/
def save (reply : StatementReply) (s : StorageService) (record : OperationRecord) :
    StorageService × Except Exception Unit :=
  let cacheRepository := s.cacheRepository.put record
  let saved := PostgresRepository.save reply s.postgresRepository record
  (⟨cacheRepository, saved.1⟩, saved.2)

/-- The service over a table once its initialization completed. -/
def loaded (history : OperationHistory) : StorageService :=
  ⟨CacheRepository.empty.warmUp history.rows, history⟩

theorem initializeStorage_completed (history : OperationHistory) :
    initializeStorage .completed .completed (fresh history) = .ok (loaded history) := by
  unfold initializeStorage fresh
  rw [loadHistory_completed]
  rfl

/-- An initialization completes, or throws before it touches the cache. -/
theorem initializeStorage_cases (schema load : StatementReply) (history : OperationHistory) :
    (schema = .completed ∧ load = .completed ∧
        initializeStorage schema load (fresh history) = .ok (loaded history)) ∨
      (¬ (schema = .completed ∧ load = .completed) ∧
        ∃ e, initializeStorage schema load (fresh history) = .error e) := by
  rcases schema.check_cases "PGRES_COMMAND_OK" with ⟨rfl, -⟩ | ⟨hne, what, hs⟩
  · rcases load.check_cases "PGRES_TUPLES_OK" with ⟨rfl, -⟩ | ⟨hne, what, hl⟩
    · exact Or.inl ⟨rfl, rfl, initializeStorage_completed history⟩
    · refine Or.inr ⟨fun h => hne h.2, .ofCode .errorStorage what, ?_⟩
      simp only [initializeStorage, PostgresRepository.initSchema,
        PostgresRepository.loadHistory, hl]
      rfl
  · refine Or.inr ⟨fun h => hne h.1, .ofCode .errorStorage what, ?_⟩
    simp only [initializeStorage, PostgresRepository.initSchema, hs]
    rfl

theorem findByKey_loaded (history : OperationHistory) (k : String) :
    (loaded history).cacheRepository.findByKey k = history.find k :=
  CacheRepository.findByKey_warmUp history k

theorem save_cache (reply : StatementReply) (s : StorageService) (r : OperationRecord) :
    (save reply s r).1.cacheRepository = s.cacheRepository.put r := rfl

theorem save_history (reply : StatementReply) (s : StorageService) (r : OperationRecord) :
    (save reply s r).1.postgresRepository =
      if reply.applied then s.postgresRepository.store r else s.postgresRepository := by
  unfold save
  rw [save_eq]

theorem save_result (reply : StatementReply) (s : StorageService) (r : OperationRecord) :
    (save reply s r).2 = reply.check "PGRES_COMMAND_OK" := by
  unfold save
  rw [save_eq]

end StorageService

/-! ## Coherence -/

/-- The cache returns, for every key, exactly what a fresh service initialized over the current
table would return. -/
def Coherent (s : StorageService) : Prop :=
  ∃ t,
    StorageService.initializeStorage .completed .completed (.fresh s.postgresRepository) = .ok t ∧
    ∀ k, s.cacheRepository.findByKey k = t.cacheRepository.findByKey k

/-- Coherence is agreement of the two stores. -/
theorem coherent_iff {s : StorageService} :
    Coherent s ↔ Agree s.cacheRepository.cache s.postgresRepository.toKeyedLog := by
  unfold Coherent
  rw [StorageService.initializeStorage_completed]
  constructor
  · rintro ⟨t, ht, h⟩ k
    obtain rfl := Except.ok.inj ht
    rw [← show s.postgresRepository.find k = s.postgresRepository.toKeyedLog.find k from rfl,
      ← StorageService.findByKey_loaded]
    exact h k
  · intro h
    refine ⟨_, rfl, fun k => ?_⟩
    rw [StorageService.findByKey_loaded]
    exact h k

/-- When a save of `record`, whose insert is answered by `reply`, keeps cache and table in
step. -/
def SaveKeepsStep (s : StorageService) (reply : StatementReply) (record : OperationRecord) : Prop :=
  s.postgresRepository.find record.cacheKey = some record ∨
    (reply.applied = true ∧ s.postgresRepository.find record.cacheKey = none ∧
      NulFree record.operation ∧ NulFree record.cacheKey)

/-- A row of the table has no NUL in its texts, so it is stored as it is. -/
theorem storedRow_of_find {history : OperationHistory} {k : String} {r : OperationRecord}
    (h : history.find k = some r) : storedRow r = r := by
  obtain ⟨ho, hk⟩ := history.text r (KeyedLog.find_eq_some_iff.mp h).1
  exact storedRow_of_nulFree ho hk

/-- **A save from a coherent state** ends in a coherent one iff the table already holds this
record, or its key is free, its texts have no NUL and the insert takes effect. -/
theorem coherent_save_iff {s : StorageService} (h : Coherent s) (reply : StatementReply)
    (r : OperationRecord) : Coherent (s.save reply r).1 ↔ SaveKeepsStep s reply r := by
  rw [coherent_iff] at h
  rw [coherent_iff, StorageService.save_cache, StorageService.save_history]
  unfold SaveKeepsStep CacheRepository.put
  by_cases ha : reply.applied = true
  · rw [if_pos ha]
    constructor
    · intro h'
      -- under the record's own key the cache holds `r`, so the table must hold it too
      have hk := h' r.cacheKey
      rw [KeyedMap.lookup_put, if_pos rfl] at hk
      obtain ⟨hm, -⟩ := KeyedLog.find_eq_some_iff.mp hk.symm
      rcases KeyedLog.mem_insertNew.mp hm with hm | ⟨he, hf⟩
      · exact Or.inl (KeyedLog.find_eq_some_iff.mpr ⟨hm, rfl⟩)
      · have ho : NulFree r.operation := by rw [he]; exact nulFree_cStr _
        have hc : NulFree r.cacheKey := by rw [he]; exact nulFree_cStr _
        rw [← he] at hf
        exact Or.inr ⟨ha, hf, ho, hc⟩
    · intro hs
      have he : storedRow r = r := by
        rcases hs with hf | ⟨-, -, ho, hc⟩
        · exact storedRow_of_find hf
        · exact storedRow_of_nulFree ho hc
      unfold OperationHistory.store
      simp only [he]
      refine (agree_put_insertNew h r).mpr ?_
      rcases hs with hf | ⟨-, hf, -⟩
      · exact Or.inr hf
      · exact Or.inl hf
  · rw [if_neg ha]
    refine (agree_put_iff h r).trans ⟨Or.inl, ?_⟩
    rintro (hf | ⟨ha', -⟩)
    · exact hf
    · exact absurd ha' ha

/-! ## Runs of saves -/

/-- A save call: the record, and the reply its insert will get. -/
abbrev SaveCall : Type := StatementReply × OperationRecord

/-- Every state of the run is coherent, the first one included. -/
def AllCoherent : StorageService → List SaveCall → Prop
  | s, [] => Coherent s
  | s, c :: cs => Coherent s ∧ AllCoherent (s.save c.1 c.2).1 cs

/-- Every save of the run keeps the two stores in step, in the state it is made in. -/
def AllKeepStep : StorageService → List SaveCall → Prop
  | _, [] => True
  | s, c :: cs => SaveKeepsStep s c.1 c.2 ∧ AllKeepStep (s.save c.1 c.2).1 cs

/-- **Cache and history along a run of saves.** From a coherent state, every state of a run is
coherent iff each of its saves writes a record the table already holds, or one with a free key
that the insert really adds. -/
theorem allCoherent_iff : ∀ (calls : List SaveCall) {s : StorageService}, Coherent s →
    (AllCoherent s calls ↔ AllKeepStep s calls)
  | [], _, h => ⟨fun _ => trivial, fun _ => h⟩
  | c :: cs, s, h => by
    constructor
    · rintro ⟨-, hrest⟩
      have hc : Coherent (s.save c.1 c.2).1 := by
        cases cs with
        | nil => exact hrest
        | cons c' cs => exact hrest.1
      exact ⟨(coherent_save_iff h c.1 c.2).mp hc, (allCoherent_iff cs hc).mp hrest⟩
    · rintro ⟨hstep, hrest⟩
      have hc := (coherent_save_iff h c.1 c.2).mpr hstep
      exact ⟨h, (allCoherent_iff cs hc).mpr hrest⟩

/-- A service over an empty table is coherent as it starts. -/
theorem coherent_fresh_empty : Coherent (.fresh .empty) :=
  coherent_iff.mpr fun _ => rfl

/-- The record of `1 + 2`. -/
def onePlusTwo : OperationRecord := ⟨1, some 2, "add", some 3, 0, "1+2"⟩

/-- The record of `2 + 1`, which has the same key. -/
def twoPlusOne : OperationRecord := ⟨2, some 1, "add", some 3, 0, "1+2"⟩

/-- Saving one record twice keeps every state coherent. -/
theorem allCoherent_repeated :
    Coherent (.fresh .empty) ∧
      AllCoherent (.fresh .empty) [(.completed, onePlusTwo), (.completed, onePlusTwo)] := by
  refine ⟨coherent_fresh_empty, (allCoherent_iff _ coherent_fresh_empty).mpr ⟨Or.inr ?_, Or.inl ?_,
    trivial⟩⟩
  · exact ⟨rfl, rfl, by decide, by decide⟩
  · rfl

/-- **The two stores can part**: by one failed insert, which leaves the record in the cache
alone, and without any failure by two records with one key, of which the cache keeps the second
and the table the first. -/
theorem saves_break_coherence :
    Coherent (.fresh .empty) ∧
      ¬ Coherent ((StorageService.fresh .empty).save (.disconnected "") onePlusTwo).1 ∧
      ¬ AllCoherent (.fresh .empty) [(.completed, onePlusTwo), (.completed, twoPlusOne)] := by
  refine ⟨coherent_fresh_empty, fun h => ?_, fun h => ?_⟩
  · rcases (coherent_save_iff coherent_fresh_empty _ _).mp h with hf | ⟨ha, -⟩
    · exact absurd hf (by decide)
    · exact absurd ha (by decide)
  · rcases (coherent_save_iff h.2.1 _ _).mp h.2.2 with hf | ⟨-, hf, -⟩
    · exact absurd hf (by decide)
    · exact absurd hf (by decide)

/-! ## Saved, loaded and warmed up -/

/-- **Saving and loading are inverse.** The records of a list are saved one after the other into an
empty table. No save throws, and `load_history` returns those whose key does not occur before them
in the list, in their order and in every field as they were. A cache that is warmed up with them
has as many entries, and finds each one by its key. -/
theorem history_round_trip (records : List OperationRecord)
    (htext : ∀ r ∈ records, NulFree r.operation ∧ NulFree r.cacheKey) :
    ∃ history loaded,
      PostgresRepository.saveAll .empty records = .ok history ∧
      PostgresRepository.loadHistory .completed history = .ok loaded ∧
      loaded = firstByKey OperationRecord.cacheKey records ∧
      (CacheRepository.empty.warmUp loaded).size = loaded.length ∧
      ∀ r ∈ loaded, (CacheRepository.empty.warmUp loaded).findByKey r.cacheKey = some r := by
  obtain ⟨history, hsave, hrows, hload⟩ := loadHistory_saveAll htext .empty
  refine ⟨history, history.rows, hsave, hload, hrows, CacheRepository.size_warmUp history, ?_⟩
  intro r hr
  rw [CacheRepository.findByKey_warmUp]
  exact KeyedLog.find_eq_some_iff.mpr ⟨hr, rfl⟩

/-- The record of the most negative `int` divided by `-1`, an overflow. -/
def leastByMinusOne : OperationRecord :=
  ⟨-2147483648, some (-1), "div", none, ErrorCode.errorOverflow.toInt, "-2147483648/-1"⟩

/-- The record of `13!`, an overflow with one operand. -/
def thirteenFactorial : OperationRecord :=
  ⟨13, none, "fact", none, ErrorCode.errorOverflow.toInt, "fact(13)"⟩

/-- Of two records with one key the first is loaded. -/
theorem history_round_trip_sample :
    ∃ history,
      PostgresRepository.saveAll .empty
        [onePlusTwo, leastByMinusOne, twoPlusOne, thirteenFactorial] = .ok history ∧
      PostgresRepository.loadHistory .completed history =
        .ok [onePlusTwo, leastByMinusOne, thirteenFactorial] ∧
      (CacheRepository.empty.warmUp [onePlusTwo, leastByMinusOne, thirteenFactorial]).size = 3 := by
  obtain ⟨history, loaded, hsave, hload, hfirst, hsize, -⟩ :=
    history_round_trip [onePlusTwo, leastByMinusOne, twoPlusOne, thirteenFactorial] (by decide)
  have hloaded : loaded = [onePlusTwo, leastByMinusOne, thirteenFactorial] := hfirst.trans rfl
  rw [hloaded] at hload hsize
  exact ⟨history, hsave, hload, hsize⟩

end ConsoleCalculator
