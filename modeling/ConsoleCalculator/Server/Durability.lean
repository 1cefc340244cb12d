import ConsoleCalculator.Server.ServiceRuns

/-!
# What has been answered stays

The storage never loses anything, whatever the database replies and however the process ends:
`StorageService::save` (`storage/src/storage-service.cpp`) puts into the cache before it inserts
into the table, and the table's `INSERT … ON CONFLICT DO NOTHING` only appends. So what a call of
`RequestHandler::handle` (`server/src/request-handler.cpp`) knows of the storage when it answers is
true from then on, also while other threads use it.

Results:
* `handle_settles`: when a call ends, the calculation it was asked for is in the cache, and it has a
  row in the table if the response says that it was calculated.
* `handle_cached`: a call that starts with its calculation in the cache answers from there.
* **`calculated_durable`**: a calculation that was answered `CALCULATED` has a row in the table,
  when that process has ended and in all processes after it, wherever they were killed.
* **`answered_from_cache`**: a calculation that was answered before a request was picked up, or that
  had a row in the table when the process started, is not calculated again for that request.
-/

namespace ConsoleCalculator

open Base RequestHandler ServiceApplication
open Base.Throwing (PostAt postAt_mono relies_done relies_andThen relies_tryCatch relies_ofExcept
  relies_call ok_andThen error_andThen thrown_tryCatch)

/-! ## What a request asks for -/

/-- The text is a request for the calculation `c`, and passes the check. -/
def AsksFor (lib : Protocol) (json : String) (c : Calculation) : Prop :=
  ∃ request data op, lib.parseRequest json = .ok request ∧
    toCalculatorData request = .ok data ∧ request.operation.operation = some op ∧
    StandsFor op data c ∧ Checker.checkArguments data = .ok ()

/-- The calculation is in the cache. -/
def InCache (c : Calculation) (s : StorageService) : Prop :=
  (s.cacheRepository.findByKey c.key).isSome = true

/-- The calculation has a row in the table. -/
def Recorded (c : Calculation) (s : StorageService) : Prop :=
  ∃ r ∈ s.postgresRepository.rows, r.cacheKey = c.key

/-- What the text asks for is in the cache. -/
def Known (lib : Protocol) (json : String) (s : StorageService) : Prop :=
  ∀ c, AsksFor lib json c → InCache c s

/-- A response that says `CALCULATED` is one whose calculation has a row. -/
def Backed (lib : Protocol) (json : String) (s : StorageService)
    (response : CalculationResponse) : Prop :=
  response.resultSource = some .calculated → ∃ c, AsksFor lib json c ∧ Recorded c s

section Stable

variable {s s' : StorageService} {lib : Protocol} {json : String} {c : Calculation}

theorem InCache.grow (h : InCache c s) (hs : s.Grows s') : InCache c s' := hs.keys _ h

theorem Recorded.grow (h : Recorded c s) (hs : s.Grows s') : Recorded c s' :=
  h.imp fun _ hr => ⟨hs.rows.subset hr.1, hr.2⟩

theorem Known.grow (h : Known lib json s) (hs : s.Grows s') : Known lib json s' :=
  fun c hc => (h c hc).grow hs

theorem Backed.grow {response : CalculationResponse} (h : Backed lib json s response)
    (hs : s.Grows s') : Backed lib json s' response :=
  fun hr => (h hr).imp fun _ hc => ⟨hc.1, hc.2.grow hs⟩

end Stable

section AsksFor

variable {lib : Protocol} {json : String} {request : CalculationRequest} {data : CalculatorData}
  {op : Operation} {c c' : Calculation}

/-- What is asked for is a matter of the data. -/
theorem AsksFor.standsFor (h : AsksFor lib json c)
    (hparse : lib.parseRequest json = .ok request) (hdata : toCalculatorData request = .ok data)
    (hop : request.operation.operation = some op) :
    StandsFor op data c ∧ Checker.checkArguments data = .ok () := by
  obtain ⟨request', data', op', hparse', hdata', hop', hs, hc⟩ := h
  obtain rfl := Except.ok.inj (hparse.symm.trans hparse')
  obtain rfl := Except.ok.inj (hdata.symm.trans hdata')
  obtain rfl := Option.some.inj (hop.symm.trans hop')
  exact ⟨hs, hc⟩

/-- A request asks for one calculation. -/
theorem AsksFor.unique (h : AsksFor lib json c) (h' : AsksFor lib json c') : c = c' := by
  obtain ⟨request, data, op, hparse, hdata, hop, hs, -⟩ := h
  exact Option.some.inj (hs.calculation.symm.trans (h'.standsFor hparse hdata hop).1.calculation)

theorem known_of_inCache {s : StorageService} (h : AsksFor lib json c) (hs : InCache c s) :
    Known lib json s := fun _ h' => h.unique h' ▸ hs

end AsksFor

/-! ## What a call leaves behind -/

section Relies

variable {lib : Protocol} {encodable : String → Prop} {json : String} {s : StorageService}
  {c : Calculation}

/-- What `handle` may return. -/
def Settles (lib : Protocol) (json : String) (s : StorageService) (text : String) : Prop :=
  Known lib json s ∧ Emitted lib (Backed lib json s) text

theorem Settles.grow {s' : StorageService} {text : String} (h : Settles lib json s text)
    (hs : s.Grows s') : Settles lib json s' text := by
  obtain ⟨hknown, response, timing, hbacked, htext⟩ := h
  exact ⟨hknown.grow hs, response, timing, hbacked.grow hs, htext⟩

theorem reply_settles {elapsed : Int64} {response : CalculationResponse}
    (hknown : Known lib json s) (hbacked : Backed lib json s response) :
    (reply lib elapsed response).Relies StorageService.exec AnyReply StorageService.Grows
      (PostAt (Settles lib json) fun s _ => Known lib json s) s := by
  unfold reply HandlerM.serialize
  cases htext : lib.serializeResponse { response with timing := some (makeTiming elapsed) } with
  | ok text =>
    exact relies_done fun s' hs => ⟨hknown.grow hs, response, _, hbacked.grow hs, htext⟩
  | error e => exact relies_done fun s' hs => hknown.grow hs

/-- A save: the record is in the cache, and if it does not throw its key is in the table. -/
theorem save_relies {r : OperationRecord} (hkey : r.cacheKey = c.key) (hrow : storedRow r = r)
    (s : StorageService) :
    (HandlerM.save r).Relies StorageService.exec AnyReply StorageService.Grows
      (PostAt (fun s _ => InCache c s ∧ Recorded c s) fun s _ => InCache c s) s := by
  refine relies_call (fun _ _ _ hs h => ⟨h.1.grow hs, h.2.grow hs⟩) (fun _ _ _ hs h => h.grow hs)
    fun reply s' _ _ => ?_
  have hexec : (StorageService.exec reply s' (.save r)).1 = (s'.save reply r).1 := rfl
  have hin : InCache c (s'.save reply r).1 := by
    unfold InCache
    rw [StorageService.save_cache, CacheRepository.findByKey_put, if_pos hkey.symm]
    rfl
  refine ⟨StorageService.exec_grows reply s' _, fun a ha => ?_, fun _ _ => hexec ▸ hin⟩
  rw [hexec]
  refine ⟨hin, ?_⟩
  have hresult : (s'.save reply r).2 = .ok a := ha
  have happlied : reply.applied = true := by
    rw [StorageService.save_result] at hresult
    rcases reply.check_cases "PGRES_COMMAND_OK" with ⟨rfl, -⟩ | ⟨-, what, herror⟩
    · rfl
    · rw [herror] at hresult
      cases hresult
  -- the row is the one just inserted, or the one that had its key before
  unfold Recorded
  rw [StorageService.save_history, if_pos happlied, ← hkey]
  show ∃ r' ∈ (s'.postgresRepository.toKeyedLog.insertNew (storedRow r)).rows,
    r'.cacheKey = r.cacheKey
  rw [hrow]
  cases hfind : s'.postgresRepository.toKeyedLog.find r.cacheKey with
  | none => exact ⟨r, KeyedLog.mem_insertNew.mpr (Or.inr ⟨rfl, hfind⟩), rfl⟩
  | some r' =>
    obtain ⟨hmem, hk⟩ := KeyedLog.find_eq_some_iff.mp hfind
    exact ⟨r', KeyedLog.mem_insertNew.mpr (Or.inl hmem), hk⟩

/-- The inner `catch` clause: of a calculator's exception a record is saved, others pass. -/
theorem saveFailure_settles {op : Operation} {data : CalculatorData} {v : Int32} {e : Exception}
    (hasks : AsksFor lib json c) (hs : StandsFor op data c)
    (hc : Checker.checkArguments data = .ok ())
    (hforeign : ∀ e', e = .foreign e' → InCache c s) :
    (saveFailure { data with result := v } op.name e).Relies StorageService.exec AnyReply
      StorageService.Grows (PostAt (Settles lib json) fun s _ => Known lib json s) s := by
  cases e with
  | foreign e' =>
    exact relies_done fun s' hs' => known_of_inCache hasks ((hforeign e' rfl).grow hs')
  | calculator code what =>
    unfold saveFailure
    simp only [hs.storable, if_true, hs.makeOperationRecord_eq, ok_andThen]
    have hfiled := filedAs_of_standsFor hs hc
      (if code = ErrorCode.errorNone.toInt then some v else none) code
    refine relies_andThen StorageService.Grows.refl (fun _ _ _ hs' h => Known.grow h hs')
      (V := fun s _ => InCache c s) ?_
      fun s _ h => relies_done fun s' hs' => known_of_inCache hasks (h.grow hs')
    refine relies_tryCatch StorageService.Grows.refl (fun _ _ _ hs' h => InCache.grow h hs')
      (X := fun s _ => InCache c s)
      (Prog.Relies.mono (postAt_mono (fun _ _ h => h.1) fun _ _ h => h)
        (save_relies hfiled.key hfiled.storedRow_eq s)) fun s e h => ?_
    split
    · exact relies_done fun s' hs' => known_of_inCache hasks (h.grow hs')
    · exact relies_done fun s' hs' => h.grow hs'

/-- `handle` after a miss. -/
theorem calculateAndSave_settles {M : CalculatorMath} {request : CalculationRequest}
    {op : Operation} {data : CalculatorData} (millis : Elapsed)
    (hparse : lib.parseRequest json = .ok request) (hdata : toCalculatorData request = .ok data)
    (hop : request.operation.operation = some op) (hd : DataFor op data) (s : StorageService) :
    (calculateAndSave M lib millis request op.name data).Relies StorageService.exec AnyReply
      StorageService.Grows (PostAt (Settles lib json) fun s _ => Known lib json s) s := by
  unfold calculateAndSave
  refine relies_andThen StorageService.Grows.refl (fun _ _ _ hs h => Known.grow h hs)
    (V := fun _ _ => Checker.checkArguments data = .ok ())
    (relies_ofExcept (fun _ h _ _ => h) fun e he _ _ c hc => ?_) fun s _ hc => ?_
  · have hok := (hc.standsFor hparse hdata hop).2
    rw [he] at hok
    cases hok
  obtain ⟨c, hs⟩ := checked_calculation hd hc
  have hasks : AsksFor lib json c := ⟨request, data, op, hparse, hdata, hop, hs, hc⟩
  obtain ⟨v, hv, hend⟩ := calculateResult_spec M data
  simp only [hv]
  rcases hend with ⟨hok, -⟩ | ⟨code, what, herror, -, -⟩
  · rw [hok, hs.makeOperationRecord_eq, if_pos rfl, ok_andThen, ok_andThen]
    have hfiled := filedAs_of_standsFor hs hc (some v) ErrorCode.errorNone.toInt
    refine relies_tryCatch (V := Settles lib json) (X := fun s _ => InCache c s)
      StorageService.Grows.refl (fun _ _ _ hs' h => h.grow hs') ?_
      fun s e h => saveFailure_settles hasks hs hc fun _ _ => h
    refine relies_andThen StorageService.Grows.refl (fun _ _ _ hs' h => InCache.grow h hs')
      (save_relies hfiled.key hfiled.storedRow_eq s) fun s _ h => ?_
    exact Prog.Relies.mono (postAt_mono (fun _ _ h => h) fun _ _ h => h c hasks)
      (reply_settles (known_of_inCache hasks h.1) fun _ => ⟨c, hasks, h.2⟩)
  · rw [herror, error_andThen, thrown_tryCatch]
    exact saveFailure_settles hasks hs hc fun _ h => Exception.noConfusion h

/-- What `find` returns for a calculation is what the cache has under its key. -/
theorem find_standsFor {op : Operation} {data : CalculatorData} (hs : StandsFor op data c)
    (reply : StatementReply) (s : StorageService) :
    (StorageService.exec reply s
      (.find data.firstNumber (secondNumberForStorage data) op.name)).2 =
        .ok (s.cacheRepository.findByKey c.key) := by
  show (OperationKey.make data.firstNumber (secondNumberForStorage data) op.name).map
    s.cacheRepository.findByKey = _
  rw [hs.make]
  rfl

theorem cachedResponse_resultSource {id : String} {r : OperationRecord}
    {response : CalculationResponse} (h : cachedResponse lib id r = some response) :
    response.resultSource = some .cache := by
  unfold cachedResponse at h
  split at h
  · obtain ⟨v, -, rfl⟩ := Option.map_eq_some_iff.mp h
    rfl
  · obtain rfl := Option.some.inj h
    rfl

theorem backed_error {id : String} {e : Exception} :
    Backed lib json s (errorResponse lib id e) := by
  intro h
  rw [errorResponse_resultSource] at h
  cases h

/-- **What a call leaves behind**: from any state, and with any replies of the database, the
calculation it was asked for is in the cache when it ends, and in the table if the response says
that it was calculated. -/
theorem handle_settles (M : CalculatorMath) (lib : Protocol) (call : HandleCall)
    (s : StorageService) :
    (AtomicService.program M lib call).Relies StorageService.exec AnyReply StorageService.Grows
      (PostAt (Settles lib call.json) fun s _ => Known lib call.json s) s := by
  unfold AtomicService.program handle
  cases hparse : lib.parseRequest call.json with
  | error e =>
    refine reply_settles (fun c hc => ?_) backed_error
    obtain ⟨request, -, -, hparse', -⟩ := hc
    rw [hparse] at hparse'
    cases hparse'
  | ok request =>
    refine relies_tryCatch (V := Settles lib call.json) (X := fun s _ => Known lib call.json s)
      StorageService.Grows.refl (fun _ _ _ hs h => h.grow hs) ?_
      fun s e h => reply_settles h backed_error
    have hstable : ∀ (s s' : StorageService) (e : Exception), s.Grows s' →
        Known lib call.json s → Known lib call.json s' := fun _ _ _ hs h => h.grow hs
    unfold handleRequest
    refine relies_andThen StorageService.Grows.refl hstable
      (V := fun _ data => toCalculatorData request = .ok data)
      (relies_ofExcept (fun _ h _ _ => h) fun e he _ _ c hc => ?_) fun s data hdata => ?_
    · obtain ⟨request', data, -, hparse', hdata, -⟩ := hc
      obtain rfl := Except.ok.inj (hparse.symm.trans hparse')
      rw [he] at hdata
      cases hdata
    obtain ⟨op, hop, hd, -⟩ := toCalculatorData_ok hdata
    rw [operationToStorageName_eq, hop]
    simp only [ok_andThen]
    refine relies_andThen StorageService.Grows.refl hstable
      (V := fun s found => ∀ r, found = some r → Known lib call.json s)
      (relies_call (fun _ _ _ hs h r hr => (h r hr).grow hs) hstable fun reply s' _ _ => ?_)
      fun s found hfound => ?_
    · -- a calculation that is asked for has a key, and what is found is found under it
      have hfind : ∀ c, AsksFor lib call.json c → _ := fun c hc =>
        find_standsFor (hc.standsFor hparse hdata hop).1 reply s'
      refine ⟨StorageService.exec_grows reply s' _, fun found h r hr c hc => ?_,
        fun e he c hc => ?_⟩
      · rw [hfind c hc, hr] at h
        show (s'.cacheRepository.findByKey c.key).isSome = true
        rw [Except.ok.inj h]
        rfl
      · rw [hfind c hc] at he
        cases he
    · cases found with
      | none => exact calculateAndSave_settles call.millis hparse hdata hop hd s
      | some r =>
        unfold afterFind
        cases hr : cachedResponse lib request.requestId r with
        | none =>
          simp only [hr]
          exact relies_done fun _ _ => trivial
        | some response =>
          simp only [hr]
          refine reply_settles (hfound r rfl) fun h => ?_
          rw [cachedResponse_resultSource hr] at h
          cases h

/-- **A call whose calculation is in the cache** answers from there. -/
theorem handle_cached (M : CalculatorMath) (hlib : lib.Accepts encodable) {call : HandleCall}
    (hjson : Legible lib encodable call.json) (hasks : AsksFor lib call.json c)
    (hin : InCache c s) :
    (AtomicService.program M lib call).Relies StorageService.exec AnyReply StorageService.Grows
      (PostAt (fun _ => Emitted lib fun response => response.resultSource = some .cache)
        fun _ _ => False) s := by
  obtain ⟨request, data, op, hparse, hdata, hop, hs, -⟩ := hasks
  unfold AtomicService.program handle
  rw [hparse]
  refine relies_tryCatch (X := fun _ _ => False) StorageService.Grows.refl (fun _ _ _ _ h => h) ?_
    fun _ _ h => h.elim
  unfold handleRequest
  rw [hdata, ok_andThen, operationToStorageName_eq, hop]
  simp only [ok_andThen]
  refine relies_andThen (V := fun _ found => ∃ r, found = some r) StorageService.Grows.refl
    (fun _ _ _ _ h => h)
    (relies_call (fun _ _ _ _ h => h) (fun _ _ _ _ h => h) fun x s' hs' _ => ?_) ?_
  · have hfind := find_standsFor hs x s'
    refine ⟨StorageService.exec_grows x s' _, fun found h => ?_, fun e he => ?_⟩
    · rw [hfind] at h
      exact Except.ok.inj h ▸ Option.isSome_iff_exists.mp (hin.grow hs')
    · rw [hfind] at he
      cases he
  · rintro s' _ ⟨r, rfl⟩
    unfold afterFind
    cases hresponse : cachedResponse lib request.requestId r with
    | none =>
      simp only [hresponse]
      exact relies_done fun _ _ => trivial
    | some response =>
      have htexts := encodable_cachedResponse hlib (hjson.requestId request hparse) hresponse
      obtain ⟨text, htext⟩ := hlib.accepts
        { response with timing := some (makeTiming call.millis.tryBlock) } htexts
      simp only [hresponse, reply, HandlerM.serialize, htext]
      exact relies_done fun _ _ => ⟨response, _, cachedResponse_resultSource hresponse, htext⟩

end Relies

/-! ## Lives of the process -/

/-- A life of the process: the table it starts over, what its threads do, and the state it ends in,
or is killed in. -/
structure Life where
  history : OperationHistory
  events : List ApplicationEvent
  state : ServiceApplication

/-- The table of a life when it is over. -/
def Life.table (life : Life) : OperationHistory := life.state.storage.storage.postgresRepository

/-- Processes one after the other, each over the table that the one before has left. -/
def lives (M : CalculatorMath) (lib : Protocol) (workerThreads : Int32) :
    OperationHistory → List (List ApplicationEvent) → Option (List Life)
  | _, [] => some []
  | history, es :: rest =>
    match (launch history).run M lib workerThreads es with
    | none => none
    | some s =>
      (lives M lib workerThreads s.storage.storage.postgresRepository rest).map
        (⟨history, es, s⟩ :: ·)

section Lives

variable {M : CalculatorMath} {lib : Protocol} {encodable : String → Prop}
  {workerThreads : Int32} {history : OperationHistory} {es es' : List ApplicationEvent}
  {s s' : ServiceApplication} {w : AtomicService} {calculation : Calculation}

theorem grows_loaded (s : StorageService) (h : s.cacheRepository = .empty) :
    s.Grows (.loaded s.postgresRepository) := by
  refine ⟨List.prefix_rfl, fun k hk => ?_⟩
  rw [h] at hk
  cases hk

/-- In a run of the service the storage only grows, and every call settles. -/
theorem settles_run (hrun : (launch history).run M lib workerThreads es = some s) :
    ∃ w, AtomicService.run M lib history (served M lib workerThreads history es) = some w ∧
      Refines history s w ∧ w.Keeps StorageService.exec AnyReply StorageService.Grows
        (fun _ c => PostAt (Settles lib c.json) fun s _ => Known lib c.json s)
        (.fresh history) :=
  keeps_from (n := 0) StorageService.Grows.refl StorageService.Grows.trans grows_loaded
    (fun _ c s _ _ _ => handle_settles M lib c s) (refines_launch history)
    (Workers.keeps_start StorageService.Grows.refl _) (Nat.zero_le _) guarded_anyReply hrun

theorem settles_of_answered {k : ℕ} {c : HandleCall} {text : String}
    (hrun : (launch history).run M lib workerThreads es = some s)
    (h : Answered M lib workerThreads history es k c text) :
    Settles lib c.json s.storage.storage text := by
  obtain ⟨w, hw, hR, hkeeps⟩ := settles_run hrun
  exact hR.1.2.shared ▸ keeps_answered StorageService.Grows.refl hrun hw hkeeps h

/-- Each life is a run over its table. -/
theorem run_of_lives : ∀ {history : OperationHistory} {ess : List (List ApplicationEvent)}
    {ls : List Life}, lives M lib workerThreads history ess = some ls → ∀ life ∈ ls,
      (launch life.history).run M lib workerThreads life.events = some life.state ∧
        history.rows <+: life.history.rows
  | _, [], _, h, life, hlife => by
    obtain rfl := Option.some.inj h
    cases hlife
  | history, es :: rest, ls, h, life, hlife => by
    unfold lives at h
    split at h
    · cases h
    · rename_i s hrun
      obtain ⟨ls', hls', rfl⟩ := Option.map_eq_some_iff.mp h
      rcases List.mem_cons.mp hlife with rfl | hlife
      · exact ⟨hrun, List.prefix_rfl⟩
      · obtain ⟨w, -, hR, -⟩ := settles_run hrun
        obtain ⟨hrun', hrows⟩ := run_of_lives hls' life hlife
        exact ⟨hrun', hR.2.rows.trans hrows⟩

/-- Tables only grow, from each life to all later ones. -/
theorem lives_pairwise : ∀ {history : OperationHistory} {ess : List (List ApplicationEvent)}
    {ls : List Life}, lives M lib workerThreads history ess = some ls →
      ls.Pairwise fun a b => a.table.rows <+: b.table.rows
  | _, [], _, h => by
    obtain rfl := Option.some.inj h
    exact List.Pairwise.nil
  | history, es :: rest, ls, h => by
    unfold lives at h
    split at h
    · cases h
    · rename_i s hrun
      obtain ⟨ls', hls', rfl⟩ := Option.map_eq_some_iff.mp h
      refine List.Pairwise.cons (fun life hlife => ?_) (lives_pairwise hls')
      obtain ⟨hrun', hrows⟩ := run_of_lives hls' life hlife
      obtain ⟨w, -, hR, -⟩ := settles_run hrun'
      exact hrows.trans hR.2.rows

/-! ## Calculations that are not made again -/

/-- A request numbered from `n` on that asks for the calculation is answered from the cache, if its
texts can be encoded. -/
def CachedFrom (lib : Protocol) (encodable : String → Prop) (calculation : Calculation) (n k : ℕ)
    (c : HandleCall) : StorageService → Outcome Exception String → Prop :=
  PostAt (fun _ text => n ≤ k → AsksFor lib c.json calculation → Legible lib encodable c.json →
    Emitted lib (fun response => response.resultSource = some .cache) text) fun _ _ => True

/-- The requests that have been picked up already owe nothing of the kind. -/
theorem cachedFrom_taken
    (h : w.Keeps StorageService.exec AnyReply StorageService.Grows
      (fun _ c => PostAt (Settles lib c.json) fun s _ => Known lib c.json s) (.fresh history)) :
    w.Keeps StorageService.exec AnyReply StorageService.Grows
      (CachedFrom lib encodable calculation w.taken.length) w.shared := by
  refine ⟨StorageService.Grows.refl _, fun i k p hp => ?_, fun k out hk => ?_⟩
  · obtain ⟨c, hc, hrelies⟩ := h.working i k p hp
    have hold := (List.getElem?_eq_some_iff.mp hc).1
    exact ⟨c, hc, Prog.Relies.mono
      (postAt_mono (fun _ _ _ hn => absurd hn (by omega)) fun _ _ _ => trivial) hrelies⟩
  · obtain ⟨c, hc, -⟩ := h.answered k out hk
    have hold := (List.getElem?_eq_some_iff.mp hc).1
    refine ⟨c, hc, fun s _ => ?_⟩
    cases out with
    | value text => exact fun hn => absurd hn (by omega)
    | thrown | undefined => trivial

/-- The others find the calculation in the cache, if they ask for it. -/
theorem handle_cachedFrom (hlib : lib.Accepts encodable) (n k : ℕ) (c : HandleCall)
    {s : StorageService} (hin : InCache calculation s) :
    (AtomicService.program M lib c).Relies StorageService.exec AnyReply StorageService.Grows
      (CachedFrom lib encodable calculation n k c) s := by
  by_cases hask : AsksFor lib c.json calculation ∧ Legible lib encodable c.json
  · exact Prog.Relies.mono (postAt_mono (fun _ _ h _ _ _ => h) fun _ _ h => h.elim)
      (handle_cached M hlib hask.2 hask.1 hin)
  · exact Prog.Relies.mono
      (postAt_mono (fun _ _ _ _ ha hj => absurd ⟨ha, hj⟩ hask) fun _ _ _ => trivial)
      (handle_settles M lib c s)

end Lives

/-- **A calculation that was answered has a row, for good.** Processes run one after the other over
one table; each ends or is killed at any point, and any of its statements may fail. A request that
was answered with `CALCULATED` in one of them asked for a calculation under whose key the table has
a row when that process is over, and when any later one is. Whether it is the row of this answer is
not said: a row that had the key before stays. -/
theorem calculated_durable {M : CalculatorMath} {lib : Protocol} {workerThreads : Int32}
    {history : OperationHistory} {ess : List (List ApplicationEvent)} {ls : List Life}
    (hlives : lives M lib workerThreads history ess = some ls) {i j : ℕ} {a b : Life}
    (hi : ls[i]? = some a) (hj : ls[j]? = some b) (hij : i ≤ j) {k : ℕ} {c : HandleCall}
    {text : String}
    (hanswered : Answered M lib workerThreads a.history a.events k c text) :
    Emitted lib (fun response => response.resultSource = some .calculated →
      ∃ calculation, AsksFor lib c.json calculation ∧
        ∃ r ∈ b.table.rows, r.cacheKey = calculation.key) text := by
  have hrun := (run_of_lives hlives a (List.mem_of_getElem? hi)).1
  obtain ⟨-, response, timing, hbacked, htext⟩ := settles_of_answered hrun hanswered
  have hrows : a.table.rows <+: b.table.rows := by
    rcases Nat.lt_or_eq_of_le hij with hlt | rfl
    · obtain ⟨hli, hai⟩ := List.getElem?_eq_some_iff.mp hi
      obtain ⟨hlj, hbj⟩ := List.getElem?_eq_some_iff.mp hj
      exact hai ▸ hbj ▸ List.pairwise_iff_getElem.mp (lives_pairwise hlives) i j hli hlj hlt
    · obtain rfl := Option.some.inj (hi.symm.trans hj)
      exact List.prefix_rfl
  refine ⟨response, timing, fun hr => ?_, htext⟩
  obtain ⟨calculation, hasks, r, hmem, hkey⟩ := hbacked hr
  exact ⟨calculation, hasks, r, hrows.subset hmem, hkey⟩

/-- A library whose responses begin with their source. -/
def sourceProtocol : Protocol :=
  .plain sampleProtocol.parseRequest fun r => .ok <|
    (match r.resultSource with
      | some .calculated => "C "
      | some .cache => "S "
      | none => "- ") ++ r.requestId

theorem sourceProtocol_calculated {response : CalculationResponse}
    (h : sourceProtocol.serializeResponse response = .ok "C a") :
    response.resultSource = some .calculated := by
  have htext := congrArg String.toList (Except.ok.inj h)
  rw [String.toList_append] at htext
  cases hsource : response.resultSource with
  | none =>
    rw [hsource] at htext
    exact absurd (List.cons.inj htext).1 (by decide)
  | some source =>
    cases source with
    | calculated => rfl
    | cache =>
      rw [hsource] at htext
      exact absurd (List.cons.inj htext).1 (by decide)

/-- The process is started once more after a request that was in flight at the shutdown and has been
answered `CALCULATED`: the table has a row for it. -/
theorem calculated_durable_restarted :
    ∃ a b, lives .checked sourceProtocol 1 .empty [requestInFlight, []] = some [a, b] ∧
      Answered .checked sourceProtocol 1 a.history a.events 0 ⟨"1+2", ⟨0, 0⟩⟩ "C a" ∧
      ∃ calculation, AsksFor sourceProtocol "1+2" calculation ∧
        ∃ r ∈ b.table.rows, r.cacheKey = calculation.key := by
  have hend : ((launch .empty).run .checked sourceProtocol 1 requestInFlight).isSome = true := by
    decide +kernel
  obtain ⟨s, hs⟩ := Option.isSome_iff_exists.mp hend
  have hlives : lives .checked sourceProtocol 1 .empty [requestInFlight, []] =
      some [⟨.empty, requestInFlight, s⟩, ⟨s.storage.storage.postgresRepository, [],
        .launch s.storage.storage.postgresRepository⟩] := by
    unfold lives
    rw [hs]
    rfl
  have hanswered : Answered .checked sourceProtocol 1 .empty requestInFlight 0 ⟨"1+2", ⟨0, 0⟩⟩
      "C a" :=
    answered_of_map (l := [(0, .value "C a")]) (by decide +kernel) rfl (by simp)
  obtain ⟨response, timing, hrow, htext⟩ :=
    calculated_durable hlives (i := 0) (j := 1) rfl rfl (by decide) hanswered
  exact ⟨_, _, hlives, hanswered, hrow (sourceProtocol_calculated htext)⟩

/-- **What has been answered is answered from the cache.** Let the calculation have a row in the
table when the process starts, or let some request for it have been answered, in whatever way and
whatever its statements were replied. Then every request for it that is picked up from then on, if
its texts can be encoded, is answered from the cache. -/
theorem answered_from_cache {M : CalculatorMath} {lib : Protocol} {encodable : String → Prop}
    (hlib : lib.Accepts encodable) {workerThreads : Int32} {history : OperationHistory}
    {es es' : List ApplicationEvent} {s s' : ServiceApplication}
    (hrun : (launch history).run M lib workerThreads es = some s)
    (hrun' : s.run M lib workerThreads es' = some s') {calculation : Calculation}
    (hknown : (∃ r ∈ history.rows, r.cacheKey = calculation.key) ∨
      ∃ j d text, Answered M lib workerThreads history es j d text ∧
        AsksFor lib d.json calculation) {k : ℕ} {c : HandleCall} {text : String}
    (hlater : (es.filterMap requestOf).length ≤ k)
    (hanswered : Answered M lib workerThreads history (es ++ es') k c text)
    (hasks : AsksFor lib c.json calculation) (hjson : Legible lib encodable c.json) :
    Emitted lib (fun response => response.resultSource = some .cache) text := by
  obtain ⟨w, hw, hR, hkeeps⟩ := settles_run hrun
  have hin : ∀ t : StorageService, w.shared.Grows t → Primed history t →
      InCache calculation t := by
    intro t ht hprimed
    rcases hknown with ⟨r, hr, hkey⟩ | ⟨j, d, text, hd, hdasks⟩
    · show (t.cacheRepository.findByKey calculation.key).isSome = true
      rw [← hkey]
      exact hprimed r hr
    · have hsettled := (settles_of_answered hrun hd).1 calculation hdasks
      rw [← hR.1.2.shared] at hsettled
      exact hsettled.grow ht
  obtain ⟨w', hw', -, hkeeps'⟩ := keeps_from StorageService.Grows.refl
    StorageService.Grows.trans grows_loaded
    (fun k c t _ ht hprimed => handle_cachedFrom hlib w.taken.length k c (hin t ht hprimed)) hR
    (cachedFrom_taken hkeeps) le_rfl guarded_anyReply hrun'
  -- the second part of the run goes on where the first one ended
  have hall : AtomicService.run M lib history
      (served M lib workerThreads history (es ++ es')) = some w' := by
    rw [AtomicService.run, served, trace_append es es' hrun, runSteps_append,
      show runSteps (AtomicService.step M lib) _ (trace _ _ _ es) = some w from hw]
    exact hw'
  have hn : w.taken.length ≤ k := served_taken hrun hw ▸ hlater
  exact keeps_answered StorageService.Grows.refl
    (run_append hrun hrun') hall hkeeps' hanswered hn hasks hjson

theorem asksFor_onePlusTwo :
    AsksFor sampleProtocol "1+2" (.binary .add 1 2) ∧
      AsksFor sampleProtocol "2+1" (.binary .add 1 2) := by
  refine ⟨⟨⟨"a", .addition, [1, 2]⟩, _, .binary .add, rfl, rfl, rfl,
      standsFor_of_key ?_ ?_ rfl, rfl⟩,
    ⟨⟨"b", .addition, [2, 1]⟩, _, .binary .add, rfl, rfl, rfl, standsFor_of_key ?_ ?_ rfl, rfl⟩⟩
  · exact ⟨rfl, rfl, rfl⟩
  · decide
  · exact ⟨rfl, rfl, rfl⟩
  · decide

/-- A request for `2 + 1` once `1 + 2` has been answered. -/
def secondRequest : List ApplicationEvent :=
  [.network 0 (.request "2+1" ⟨0, 0⟩), .network 0 .submit, .network 0 .notify, .worker .check,
    .worker (.runJob (.disconnected "")), .network 0 .receive, .network 0 .respond]

/-- It is answered from the cache, under its own id. -/
theorem answered_from_cache_second :
    ∃ s s', (launch .empty).run .checked sampleProtocol 1
        (oneRequest ++ oneResponse) = some s ∧
      s.run .checked sampleProtocol 1 secondRequest = some s' ∧
      s'.responses = ["a: 3", "b from cache: 3"] ∧
      Emitted sampleProtocol (fun response => response.resultSource = some .cache)
        "b from cache: 3" := by
  have hend : (((launch .empty).run .checked sampleProtocol 1
      (oneRequest ++ oneResponse)).bind fun s =>
        s.run .checked sampleProtocol 1 secondRequest).map (fun s => s.responses) =
          some ["a: 3", "b from cache: 3"] := by
    decide +kernel
  obtain ⟨s', hboth, hs⟩ := Option.map_eq_some_iff.mp hend
  obtain ⟨s, hrun, hrun'⟩ := Option.bind_eq_some_iff.mp hboth
  have hfirst : Answered .checked sampleProtocol 1 .empty
      (oneRequest ++ oneResponse) 0 ⟨"1+2", ⟨0, 0⟩⟩ "a: 3" :=
    answered_of_map (l := [(0, .value "a: 3")]) (by decide +kernel) rfl
      (by simp)
  have hsecond : Answered .checked sampleProtocol 1 .empty
      ((oneRequest ++ oneResponse) ++ secondRequest) 1
      ⟨"2+1", ⟨0, 0⟩⟩ "b from cache: 3" :=
    answered_of_map
      (l := [(0, .value "a: 3"), (1, .value "b from cache: 3")]) (by decide +kernel) rfl (by simp)
  exact ⟨s, s', hrun, hrun', hs, answered_from_cache sampleProtocol_accepts hrun hrun'
    (Or.inr ⟨0, _, _, hfirst, asksFor_onePlusTwo.1⟩) (by decide) hsecond asksFor_onePlusTwo.2
    (legible_all _ _)⟩

end ConsoleCalculator
