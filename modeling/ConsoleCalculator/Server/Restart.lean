import ConsoleCalculator.Server.Transparency

/-!
# A restart is invisible

Two runs side by side: further requests handled by the running `StorageService`, and by a new one
that `initialize` filled from the table the run left behind (`storage/src/storage-service.cpp`).
The two caches need not be equal. Concurrent misses of `2 + 1` and `1 + 2` save two records under
one key, of which the cache keeps the last and the table the first. They are equal in what a
response is made of: under every key both hold nothing, or records with the same status and
result (`SameAnswers`).

Results:
* `replayable_serve`: fault-free runs leave the same keys in cache and table, and genuine records.
* `sameAnswers_loaded`: so the reloaded cache gives the same answers.
* `handle_related`: handlers cannot tell the two apart, and saving keeps it so.
* **`restart_invisible`**: the two services give the same responses to every further sequence of
  requests, timing apart.
-/

namespace ConsoleCalculator

open Base RequestHandler
open Base.Throwing (related_andThen related_tryCatch related_ofExcept ok_andThen)

/-! ## Caches that give the same answers -/

/-- What a response is made of. -/
def OperationRecord.answer (r : OperationRecord) : Int32 × Option Int32 := (r.status, r.result)

/-- Under every key both caches hold nothing, or records that are answered alike. -/
def SameAnswers (s t : StorageService) : Prop :=
  ∀ k, (s.cacheRepository.findByKey k).map OperationRecord.answer =
    (t.cacheRepository.findByKey k).map OperationRecord.answer

/-- Answers of a storage without faults that a handler treats alike. -/
def SameAnswer : (o : StorageOp) → o.Ans → o.Ans → Prop
  | .find _ _ name, x, y =>
    x.map (Option.map OperationRecord.answer) = y.map (Option.map OperationRecord.answer) ∧
      ∀ (op : Operation) e, name = op.name → x = .error e → Own e
  | .save _, x, y => x = .ok () ∧ y = .ok ()

theorem exec_sameAnswers {s t : StorageService} (h : SameAnswers s t) (o : StorageOp) :
    SameAnswer o (StorageService.exec .completed s o).2 (StorageService.exec .completed t o).2 ∧
      SameAnswers (StorageService.exec .completed s o).1
        (StorageService.exec .completed t o).1 := by
  cases o with
  | find a b name =>
    refine ⟨⟨?_, fun op e hname he => ?_⟩, h⟩
    · show ((OperationKey.make a b name).map s.cacheRepository.findByKey).map _ =
        ((OperationKey.make a b name).map t.cacheRepository.findByKey).map _
      cases OperationKey.make a b name with
      | error e => rfl
      | ok k => exact congrArg Except.ok (h k)
    · subst hname
      exact own_find he
  | save r =>
    refine ⟨⟨StorageService.save_result .completed s r, StorageService.save_result .completed t r⟩,
      fun k => ?_⟩
    · show ((s.save .completed r).1.cacheRepository.findByKey k).map _ =
        ((t.save .completed r).1.cacheRepository.findByKey k).map _
      rw [StorageService.save_cache, StorageService.save_cache, CacheRepository.findByKey_put,
        CacheRepository.findByKey_put]
      split
      · rfl
      · exact h k

/-! ## The state a fault-free run leaves -/

/-- Cache and table hold genuine records under the same keys. -/
structure Replayable (M : CalculatorMath) (s : StorageService) : Prop where
  holds : Holds (fun r => (∃ op c, FiledAs op c r) ∧ Genuine M r) s
  keys : ∀ k, s.cacheRepository.findByKey k = none ↔ s.postgresRepository.find k = none

theorem replayable_fresh (M : CalculatorMath) : Replayable M (.fresh .empty) :=
  ⟨holds_fresh fun _ hr => absurd hr List.not_mem_nil, fun _ => ⟨fun _ => rfl, fun _ => rfl⟩⟩

theorem replayable_save {M : CalculatorMath} {s : StorageService} (h : Replayable M s)
    {op : Operation} {c : Calculation} {r : OperationRecord} (hr : FiledAs op c r)
    (hg : Genuine M r) : Replayable M (s.save .completed r).1 := by
  refine ⟨holds_save h.holds ⟨⟨op, c, hr⟩, hg⟩ hr.storedRow_eq .completed, fun k => ?_⟩
  have hhist : (s.save .completed r).1.postgresRepository.find k =
      if k = r.cacheKey then (s.postgresRepository.find k).or (some r)
      else s.postgresRepository.find k := by
    rw [StorageService.save_history, if_pos (show StatementReply.completed.applied = true from rfl)]
    unfold OperationHistory.store
    simp only [hr.storedRow_eq]
    exact KeyedLog.find_insertNew _ r k
  rw [hhist, StorageService.save_cache, CacheRepository.findByKey_put]
  split
  · cases s.postgresRepository.find k <;> simp
  · exact h.keys k

/-- Handlers keep a service replayable as long as nothing fails. -/
theorem obligations_replayable (M : CalculatorMath) (lib : Protocol)
    (request : CalculationRequest) :
    Obligations M lib request (fun _ : Unit => StorageService.exec .completed)
      (fun _ _ _ => True) (Replayable M) fun _ => True where
  unserialized _ _ := trivial
  rejected _ _ := trivial
  find _ _ _ _ _ _ s _ hs :=
    ⟨hs, fun r hr => (cachedResponse_genuine lib (holds_find hs.holds hr).2 request.requestId).imp
      fun _ h => ⟨h.1, trivial⟩, fun _ _ => trivial⟩
  unchecked _ _ _ _ := trivial
  calculated _ _ _ _ _ _ := trivial
  failed _ _ _ _ _ := trivial
  save op c r hr hg _ s _ hs := by
    refine ⟨replayable_save hs hr hg, fun e he => ?_⟩
    exact absurd rfl (save_error he).1

theorem handle_replayable (M : CalculatorMath) (lib : Protocol) (millis : Elapsed)
    (json : String) :
    (handle M lib millis json).Sat (fun _ : Unit => StorageService.exec .completed)
      (fun _ _ _ => True) (Replayable M) (Emits lib fun _ => True) := by
  cases hparse : lib.parseRequest json with
  | ok request => exact handle_sat millis hparse (obligations_replayable M lib request)
  | error e => exact handle_unparsed_sat millis hparse trivial

/-- **Every fault-free run leaves a replayable state.** -/
theorem replayable_serve (M : CalculatorMath) (lib : Protocol) (calls : List HandleCall)
    (moves : List (Move Unit Empty)) :
    Replayable M (OperationStorage.service.serve M lib calls moves).shared :=
  serve_keeps (S := .service) (replayable_fresh M) (obligations_replayable M lib) calls moves

/-- Two genuine records with one key have the same status and result. -/
theorem answer_unique {M : CalculatorMath} (hM : M.Commutes) {op op' : Operation}
    {c c' : Calculation} {r r' : OperationRecord} (hr : FiledAs op c r) (hr' : FiledAs op' c' r')
    (hg : Genuine M r) (hg' : Genuine M r') (hk : r.cacheKey = r'.cacheKey) :
    r.answer = r'.answer := by
  rw [hr.key, hr'.key] at hk
  obtain rfl := key_injective hk
  have h := (hr.genuine_iff M).mp hg
  have h' := (hr'.genuine_iff M).mp hg'
  rw [outcome_calculation hM hr.calculation] at h
  rw [outcome_calculation hM hr'.calculation, h] at h'
  exact Option.some.inj h'

/-- The reloaded cache gives the answers of the running one. -/
theorem sameAnswers_loaded {M : CalculatorMath} (hM : M.Commutes) {s : StorageService}
    (h : Replayable M s) : SameAnswers s (.loaded s.postgresRepository) := by
  intro k
  rw [StorageService.findByKey_loaded]
  cases hc : s.cacheRepository.findByKey k with
  | none => rw [(h.keys k).mp hc]
  | some r =>
    cases hf : s.postgresRepository.find k with
    | none => rw [(h.keys k).mpr hf] at hc; exact absurd hc (by simp)
    | some r' =>
      obtain ⟨⟨⟨op, c, hr⟩, hg⟩, hk⟩ := h.holds.cache k r hc
      obtain ⟨hm, hk'⟩ := KeyedLog.find_eq_some_iff.mp hf
      obtain ⟨⟨op', c', hr'⟩, hg'⟩ := h.holds.history r' hm
      exact congrArg some (answer_unique hM hr hr' hg hg' (hk.trans hk'.symm))

/-! ## Handlers side by side -/

/-- Two texts of one response, with timings of their own. -/
def SameText (lib : Protocol) (text text' : String) : Prop :=
  ∃ (response : CalculationResponse) (timing timing' : Option ℕ),
    lib.serializeResponse { response with timing := timing } = .ok text ∧
    lib.serializeResponse { response with timing := timing' } = .ok text'

section Related

variable {M : CalculatorMath} {lib : Protocol} {encodable : String → Prop}
  {millis millis' : Elapsed} {request : CalculationRequest}

theorem reply_related (hlib : lib.Accepts encodable) {X : Exception → Prop}
    (elapsed elapsed' : Int64) {response : CalculationResponse}
    (h : ∀ t ∈ response.texts, encodable t) :
    Prog.Related SameAnswer (Outcome.Same (SameText lib) X) (reply lib elapsed response)
      (reply lib elapsed' response) := by
  obtain ⟨text, ht⟩ := hlib.accepts { response with timing := some (makeTiming elapsed) } h
  obtain ⟨text', ht'⟩ := hlib.accepts { response with timing := some (makeTiming elapsed') } h
  unfold reply HandlerM.serialize
  rw [ht, ht']
  exact .done (.value ⟨response, _, _, ht, ht'⟩)

theorem save_related {X : Exception → Prop} (r : OperationRecord) :
    Prog.Related SameAnswer (Outcome.Same Eq X) (HandlerM.save r) (HandlerM.save r) := by
  refine .call fun x y h => ?_
  obtain ⟨rfl, rfl⟩ := h
  exact .done (.value rfl)

theorem saveFailure_related (data : CalculatorData) (op : Operation) {e : Exception} (he : Own e) :
    Prog.Related SameAnswer (Outcome.Same (SameText lib) Own) (saveFailure data op.name e)
      (saveFailure data op.name e) := by
  cases e with
  | foreign e => exact .done (.thrown he)
  | calculator code what =>
    refine related_andThen (V := Eq) ?_ fun _ _ _ => .done (.thrown he)
    split
    · refine related_tryCatch (related_andThen
        (related_ofExcept fun e h => own_makeOperationRecord h) ?_) fun e h => ?_
      · rintro r _ rfl
        exact save_related r
      · split
        · exact .done (.thrown h)
        · exact .done (.value rfl)
    · exact .done (.value rfl)

theorem calculateAndSave_related (hlib : lib.Accepts encodable)
    (hid : encodable request.requestId) (op : Operation) (data : CalculatorData) :
    Prog.Related SameAnswer (Outcome.Same (SameText lib) Own)
      (calculateAndSave M lib millis request op.name data)
      (calculateAndSave M lib millis' request op.name data) := by
  refine related_andThen (related_ofExcept fun e h => own_checkArguments h) fun _ _ _ => ?_
  refine related_tryCatch (X := Own) ?_ fun e he => saveFailure_related _ op he
  refine related_andThen (related_ofExcept fun e h => own_calculateResult h) fun _ _ _ => ?_
  refine related_andThen (related_ofExcept fun e h => own_makeOperationRecord h) ?_
  rintro r _ rfl
  exact related_andThen (save_related r) fun _ _ _ =>
    reply_related hlib _ _ (encodable_calculatedResponse hid _)

/-- A hit is answered from status and result alone. -/
theorem cachedResponse_congr {r r' : OperationRecord} (h : r.answer = r'.answer) (id : String) :
    cachedResponse lib id r = cachedResponse lib id r' := by
  obtain ⟨hs, hv⟩ := Prod.mk.inj h
  unfold cachedResponse
  rw [hs, hv]

theorem afterFind_related (hlib : lib.Accepts encodable) (hid : encodable request.requestId)
    (op : Operation) (data : CalculatorData) {x y : Option OperationRecord}
    (h : x.map OperationRecord.answer = y.map OperationRecord.answer) :
    Prog.Related SameAnswer (Outcome.Same (SameText lib) Own)
      (afterFind M lib millis request op.name data x)
      (afterFind M lib millis' request op.name data y) := by
  cases x with
  | none =>
    cases y with
    | none => exact calculateAndSave_related hlib hid op data
    | some r' => exact absurd h (by simp)
  | some r =>
    cases y with
    | none => exact absurd h (by simp)
    | some r' =>
      simp only [afterFind, cachedResponse_congr (Option.some.inj h)]
      split
      · rename_i response hresponse
        exact reply_related hlib _ _ (encodable_cachedResponse hlib hid hresponse)
      · exact .done .undefined

/-- The `try` block. What it throws is the program's own. -/
theorem handleRequest_related (hlib : lib.Accepts encodable) (hid : encodable request.requestId) :
    Prog.Related SameAnswer (Outcome.Same (SameText lib) Own)
      (handleRequest M lib millis request) (handleRequest M lib millis' request) := by
  unfold handleRequest
  cases hdata : toCalculatorData request with
  | error e => exact .done (.thrown (own_toCalculatorData hdata))
  | ok data =>
    obtain ⟨op, hop, -⟩ := toCalculatorData_ok hdata
    rw [operationToStorageName_eq, hop]
    simp only [ok_andThen]
    refine related_andThen
      (V := fun x y => x.map OperationRecord.answer = y.map OperationRecord.answer)
      (.call fun x y h => ?_) fun x y h => afterFind_related hlib hid op data h
    obtain ⟨hsame, hown⟩ := h
    cases x with
    | error e =>
      cases y with
      | error e' =>
        obtain rfl := Except.error.inj hsame
        exact .done (.thrown (hown op e rfl rfl))
      | ok b => exact absurd hsame (by simp [Except.map])
    | ok a =>
      cases y with
      | error e' => exact absurd hsame (by simp [Except.map])
      | ok b => exact .done (.value (Except.ok.inj hsame))

/-- **Handlers of one request cannot tell related storages apart**, and throw nothing if its texts
can be encoded. -/
theorem handle_related (hlib : lib.Accepts encodable) {json : String}
    (hjson : Legible lib encodable json) :
    Prog.Related SameAnswer (Outcome.Same (SameText lib) fun _ => False)
      (handle M lib millis json) (handle M lib millis' json) := by
  unfold handle
  split
  · rename_i e hparse
    exact reply_related hlib _ _ ((encodable_errorResponse hlib _ _).mpr
      ⟨hlib.ascii "" rfl, hjson.parser e hparse⟩)
  · rename_i request hparse
    have hid := hjson.requestId request hparse
    refine related_tryCatch (handleRequest_related hlib hid) fun e he => ?_
    exact reply_related hlib _ _ ((encodable_errorResponse hlib _ _).mpr
      ⟨hid, encodable_own hlib he⟩)

end Related

/-! ## Requests one after another -/

/-- Handle requests one after another, without faults: what each call ends with. -/
def StorageService.handleAll (M : CalculatorMath) (lib : Protocol) :
    StorageService → List HandleCall → List (Outcome Exception String)
  | _, [] => []
  | s, c :: cs =>
    let ended := (handle M lib c.millis c.json).eval (StorageService.exec .completed) s
    ended.2 :: handleAll M lib ended.1 cs

/-- Both calls return the same response, timing apart. -/
def SameResponse (lib : Protocol) (out out' : Outcome Exception String) : Prop :=
  ∃ text text', out = .value text ∧ out' = .value text' ∧ SameText lib text text'

/-- One request to two services that give the same answers. -/
theorem eval_same {M : CalculatorMath} {lib : Protocol} {encodable : String → Prop}
    (hlib : lib.Accepts encodable) (millis millis' : Elapsed) {json : String}
    (hjson : Legible lib encodable json) {s t : StorageService} (hst : SameAnswers s t) :
    Outcome.Same (SameText lib) (fun _ => False)
        ((handle M lib millis json).eval (StorageService.exec .completed) s).2
        ((handle M lib millis' json).eval (StorageService.exec .completed) t).2 ∧
      SameAnswers ((handle M lib millis json).eval (StorageService.exec .completed) s).1
        ((handle M lib millis' json).eval (StorageService.exec .completed) t).1 :=
  Prog.eval_related (S := SameAnswers) (fun _ _ o h => exec_sameAnswers h o)
    (handle_related hlib hjson) hst

/-- Calls that end alike, without exceptions and without undefined behaviour, respond alike. -/
theorem sameResponse_of_same {lib : Protocol} {P : CalculationResponse → Prop}
    {out out' : Outcome Exception String}
    (h : Outcome.Same (SameText lib) (fun _ => False) out out') (hemits : Emits lib P out) :
    SameResponse lib out out' := by
  cases h with
  | value h => exact ⟨_, _, rfl, rfl, h⟩
  | thrown h => exact h.elim
  | undefined => exact hemits.elim

/-- Services that give the same answers go on giving the same responses. -/
theorem handleAll_same {M : CalculatorMath} {lib : Protocol} {encodable : String → Prop}
    (hlib : lib.Accepts encodable) :
    ∀ (later later' : List HandleCall) {s t : StorageService},
      (∀ c ∈ later, Legible lib encodable c.json) →
      later.map HandleCall.json = later'.map HandleCall.json → Replayable M s → SameAnswers s t →
      List.Forall₂ (SameResponse lib) (s.handleAll M lib later) (t.handleAll M lib later')
  | [], [], _, _, _, _, _, _ => .nil
  | [], _ :: _, _, _, _, hj, _, _ => absurd hj (by simp)
  | _ :: _, [], _, _, _, hj, _, _ => absurd hj (by simp)
  | c :: cs, c' :: cs', s, t, hlater, hj, hs, hst => by
    rw [List.map_cons, List.map_cons] at hj
    obtain ⟨hc, hcs⟩ := List.cons.inj hj
    obtain ⟨hs', hemits⟩ := Prog.eval_sat (handle_replayable M lib c.millis c.json) hs
    obtain ⟨hsame, hst'⟩ := eval_same (M := M) hlib c.millis c'.millis
      (hlater c List.mem_cons_self) hst
    refine .cons ?_ (handleAll_same hlib cs cs'
      (fun d hd => hlater d (List.mem_cons_of_mem c hd)) hcs hs' (hc ▸ hst'))
    rw [← hc]
    exact sameResponse_of_same hsame hemits

/-- **A restart is invisible.** After every fault-free run, a new service initialized from the
table gives the same responses as the running one to every further sequence of requests whose
texts can be encoded. -/
theorem restart_invisible {M : CalculatorMath} (hM : M.Commutes) {lib : Protocol}
    {encodable : String → Prop} (hlib : lib.Accepts encodable) (calls : List HandleCall)
    (moves : List (Move Unit Empty)) (later later' : List HandleCall)
    (hlater : ∀ c ∈ later, Legible lib encodable c.json)
    (hjson : later.map HandleCall.json = later'.map HandleCall.json) :
    ∃ restarted,
      StorageService.initializeStorage .completed .completed
        (.fresh (OperationStorage.service.serve M lib calls moves).shared.postgresRepository) =
          .ok restarted ∧
      List.Forall₂ (SameResponse lib)
        (StorageService.handleAll M lib
          (OperationStorage.service.serve M lib calls moves).shared later)
        (restarted.handleAll M lib later') := by
  have hs := replayable_serve M lib calls moves
  exact ⟨_, StorageService.initializeStorage_completed _,
    handleAll_same hlib later later' hlater hjson hs (sameAnswers_loaded hM hs)⟩

/-- Calls for `1 + 2` and `2 + 1`, both of which miss before either saves. -/
def crossedMisses : Pool StorageService StorageOp StorageOp.Ans (Outcome Exception String) :=
  OperationStorage.service.serve .checked sampleProtocol [⟨"1+2", ⟨0, 0⟩⟩, ⟨"2+1", ⟨0, 0⟩⟩]
    [.thread 0 (), .thread 1 (), .thread 0 (), .thread 1 ()]

/-- Crossed misses leave different records in cache and table, and still a restart shows in no
response. -/
theorem restart_invisible_crossed :
    crossedMisses.shared.cacheRepository.findByKey "1+2" = some twoPlusOne ∧
      crossedMisses.shared.postgresRepository.rows = [onePlusTwo] ∧
      ∃ restarted,
        StorageService.initializeStorage .completed .completed
          (.fresh crossedMisses.shared.postgresRepository) = .ok restarted ∧
        List.Forall₂ (SameResponse sampleProtocol)
          (StorageService.handleAll .checked sampleProtocol crossedMisses.shared
            [⟨"2+1", ⟨0, 0⟩⟩, ⟨"1/0", ⟨0, 0⟩⟩])
          (restarted.handleAll .checked sampleProtocol [⟨"2+1", ⟨5, 5⟩⟩, ⟨"1/0", ⟨7, 7⟩⟩]) :=
  ⟨rfl, rfl, restart_invisible CalculatorMath.checked_commutes sampleProtocol_accepts _ _ _ _
    (fun c _ => legible_all _ c.json) rfl⟩

end ConsoleCalculator
