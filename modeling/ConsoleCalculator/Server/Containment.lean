import ConsoleCalculator.Server.Session
import ConsoleCalculator.Server.TryBlock

/-!
# Exceptions that leave a session

`Session::on_read` (`server/src/tcp-json-server.cpp`) runs in `io_context_.run()`, which is all that
a network thread of `TcpJsonServer::start` executes. Neither of them catches anything, so an
exception that leaves `on_read` ends the process with `std::terminate`. What can leave it is an
exception of `handle` (`server/src/request-handler.cpp`): each of its four `catch` clauses calls
`serialize_response` on a response that carries the text of the exception it caught.

* `CompletedRead.onRead` is `on_read` as a program over the storage. Its result is the response it
  queues, or `none` where it leaves the session without a pending operation.
* `Protocol.Encodes` says which responses `serialize_response` rejects: those with a text that is
  not `encodable`. Which texts those are is left open, but for ASCII texts.
* The storage is arbitrary, up to the exceptions it throws (`T`). The records it finds have a result
  where their status is 0; what happens with others is the subject of `history_row_answer`.

Results:
* `onRead_session`: where no exception leaves, the session goes on as `Session.onRead` says.
* `onRead_sat`: no exception leaves if every text from outside that can get into a failure response
  can be encoded (`Answerable`). `onReads_contained`: then none does in any interleaving of reads.
* **`onRead_contained_iff`**: that condition is exact. `echoed_bytes_escape` is a read that breaks
  it.
-/

namespace ConsoleCalculator

open Base RequestHandler
open Base.Throwing (andThen tryCatch sat_andThen sat_tryCatch ok_andThen eval_andThen_thrown
  eval_tryCatch_thrown)

/-! ## `on_read` -/

/-- A `std::string`, one character for each byte. -/
def textOf (bytes : Bytes) : String := String.ofList (bytes.map fun b => Char.ofNat b.toNat)

def bytesOf (text : String) : Bytes := text.toList.map fun c => UInt8.ofNat c.toNat

/-- A completed `async_read_until`: the arguments of `on_read`, the contents of `buffer_`, and what
the clock reads during the call. -/
structure CompletedRead where
  error : Bool
  bytesTransferred : ℕ
  buffer : Bytes
  millis : Elapsed

namespace CompletedRead

/-- The text that is passed to the handler. -/
def request (read : CompletedRead) : String :=
  textOf (Session.withoutCarriageReturn (Session.getline read.buffer).1)

/-- `on_read`: the response it passes to `do_write`, if it gets there. -/
def onRead (M : CalculatorMath) (lib : Protocol) (maxMessageSize : ℕ) (read : CompletedRead) :
    HandlerM (Option Bytes) :=
  if read.error then .done (.value none)
  else if read.bytesTransferred > maxMessageSize then .done (.value none)
  else andThen (handle M lib read.millis read.request) fun response =>
    .done (.value (some (bytesOf response ++ [newline])))

end CompletedRead

/-- Where `on_read` leaves its session. -/
def phaseAfter : Option Bytes → SessionPhase
  | none => .ended
  | some response => .writing response

/-! ## Texts -/

/-- `serialize_response` throws a `std::exception` on a response with a text that it cannot encode,
and encodes the others. -/
structure Protocol.Encodes (lib : Protocol) (encodable : String → Prop) : Prop
    extends lib.Accepts encodable where
  rejects : ∀ response t, t ∈ response.texts → ¬ encodable t →
    ∃ what, lib.serializeResponse response = .error (.std what)

/-- The answer is an exception of `T`, or no record without a result where there should be one. -/
def StorageOp.Conforms (T : Exception → Prop) : (o : StorageOp) → o.Ans → Prop
  | .find _ _ _, answer => (∀ e, answer = .error e → T e) ∧
      ∀ r, answer = .ok (some r) → r.status = ErrorCode.errorNone.toInt → r.result.isSome = true
  | .save _, answer => ∀ e, answer = .error e → T e

/-- Every text from outside that can get into a failure response to `json` can be encoded. -/
structure Answerable (lib : Protocol) (encodable : String → Prop) (T : Exception → Prop)
    (json : String) : Prop extends Legible lib encodable json where
  storage : ∀ request data, lib.parseRequest json = .ok request →
    toCalculatorData request = .ok data → ∀ e, T e → ∀ t ∈ e.texts, encodable t

section

variable {lib : Protocol} {encodable : String → Prop} {T : Exception → Prop}

/-! ## Replies -/

section Replies

variable {σ ε : Type} {exec : ε → σ → (o : StorageOp) → σ × o.Ans} {A : ε → σ → StorageOp → Prop}
  {I : σ → Prop} {U : Prop}

/-- A response whose texts can be encoded is sent. -/
theorem reply_encoded (hlib : lib.Accepts encodable) {X : Exception → Prop} (elapsed : Int64)
    {response : CalculationResponse} (h : ∀ t ∈ response.texts, encodable t) :
    (reply lib elapsed response).Sat exec A I (Outcome.PostOr U (fun _ => True) X) := by
  obtain ⟨json, hjson⟩ :=
    hlib.accepts { response with timing := some (makeTiming elapsed) } h
  unfold reply HandlerM.serialize
  rw [hjson]
  trivial

/-- A response with a text that cannot be encoded makes the reply throw. -/
theorem reply_rejected (hlib : lib.Encodes encodable) (elapsed : Int64)
    {response : CalculationResponse} (h : ¬ ∀ t ∈ response.texts, encodable t) :
    ∃ e, reply lib elapsed response = .done (.thrown e) := by
  simp only [not_forall] at h
  obtain ⟨t, ht, hnot⟩ := h
  obtain ⟨what, hwhat⟩ :=
    hlib.rejects { response with timing := some (makeTiming elapsed) } t ht hnot
  unfold reply HandlerM.serialize
  rw [hwhat]
  exact ⟨_, rfl⟩

/-- A cached record that conforms has a response. -/
theorem cachedResponse_ne_none {r : OperationRecord} (id : String)
    (h : r.status = ErrorCode.errorNone.toInt → r.result.isSome = true) :
    cachedResponse lib id r ≠ none := by
  unfold cachedResponse
  split
  · rename_i hs
    obtain ⟨v, hv⟩ := Option.isSome_iff_exists.mp (h hs)
    simp [hv]
  · simp

/-! ## What is contained -/

/-- The `try` block of a request whose id can be encoded throws what can be reported. -/
theorem tryBlock_encodable (hlib : lib.Accepts encodable) (millis : Elapsed) {id : String}
    (hid : encodable id) (hT : ∀ e, T e → ∀ t ∈ e.texts, encodable t)
    (hconforms : ∀ x s o, A x s o → o.Conforms T (exec x s o).2) :
    TryBlock lib millis id exec A (fun _ => True) False (fun _ => True)
      fun e => ∀ t ∈ e.texts, encodable t where
  own _ he := encodable_own hlib he
  find a b name x s ha _ := by
    obtain ⟨hthrown, hfound⟩ := hconforms x s _ ha
    refine ⟨trivial, fun e he => hT e (hthrown e he), fun r hr => ⟨fun response h => ?_, ?_⟩⟩
    · exact reply_encoded hlib _ (encodable_cachedResponse hlib hid h)
    · exact cachedResponse_ne_none id (hfound r hr)
  save r x s ha _ := ⟨trivial, fun e he => hT e (hconforms x s _ ha e he)⟩
  calculated v := reply_encoded hlib _ (encodable_calculatedResponse hid v)

/-- **No exception leaves `handle`** where every text that can be reported can be encoded. -/
theorem handle_contained (M : CalculatorMath) (hlib : lib.Accepts encodable) (millis : Elapsed)
    {json : String} (hjson : Answerable lib encodable T json)
    (hconforms : ∀ x s o, A x s o → o.Conforms T (exec x s o).2) :
    (handle M lib millis json).Sat exec A (fun _ => True)
      (Outcome.Post (fun _ => True) fun _ => False) := by
  have hcatch : ∀ id e, encodable id → (∀ t ∈ e.texts, encodable t) →
      (catchClauses lib millis id e).Sat exec A (fun _ => True)
        (Outcome.Post (fun _ => True) fun _ => False) := fun id e hid he =>
    reply_encoded hlib _ ((encodable_errorResponse hlib id e).mpr ⟨hid, he⟩)
  unfold handle
  split
  · rename_i e hparse
    exact hcatch "" _ (hlib.ascii "" rfl) (hjson.parser e hparse)
  · rename_i request hparse
    have hid := hjson.requestId request hparse
    cases hdata : toCalculatorData request with
    | error e =>
      -- the request does not get to the storage
      rw [handleRequest, hdata]
      exact hcatch _ e hid (encodable_own hlib (own_toCalculatorData hdata))
    | ok data =>
      have hT := hjson.storage request data hparse hdata
      exact sat_tryCatch (handleRequest_sat (tryBlock_encodable hlib millis hid hT hconforms))
        fun e he => hcatch _ e hid he

theorem onRead_sat (M : CalculatorMath) (hlib : lib.Accepts encodable) (maxMessageSize : ℕ)
    {read : CompletedRead}
    (hread : read.error = false → read.bytesTransferred ≤ maxMessageSize →
      Answerable lib encodable T read.request)
    (hconforms : ∀ x s o, A x s o → o.Conforms T (exec x s o).2) :
    (read.onRead M lib maxMessageSize).Sat exec A (fun _ => True)
      (Outcome.Post (fun _ => True) fun _ => False) := by
  unfold CompletedRead.onRead
  split
  · trivial
  · rename_i herror
    split
    · trivial
    · rename_i hfits
      have hjson := hread (Bool.not_eq_true _ ▸ herror) (Nat.not_lt.mp hfits)
      exact sat_andThen (handle_contained M hlib read.millis hjson hconforms) fun _ _ => trivial

end Replies

/-! ## What escapes -/

section Escapes

variable {σ : Type} {exec : σ → (o : StorageOp) → σ × o.Ans}

/-- The `catch` clauses pass on the exception of the codec. -/
theorem catchClauses_escapes (hlib : lib.Encodes encodable) (millis : Elapsed) (id : String)
    (e : Exception) (h : ¬ (encodable id ∧ ∀ t ∈ e.texts, encodable t)) :
    ∃ e', catchClauses lib millis id e = .done (.thrown e') :=
  reply_rejected hlib _ (mt (encodable_errorResponse hlib.toAccepts id e).mp h)

/-- With a request id that cannot be encoded, no response can. -/
theorem handle_escapes_of_requestId (M : CalculatorMath) (hlib : lib.Encodes encodable)
    (millis : Elapsed) {json : String} {request : CalculationRequest}
    (hparse : lib.parseRequest json = .ok request) (hid : ¬ encodable request.requestId)
    (hnone : ∀ s a b name, (exec s (.find a b name)).2 = .ok none) (s : σ) :
    ∃ e, ((handle M lib millis json).eval exec s).2 = .thrown e := by
  have hcalculated : ∀ v, ¬ ∀ t ∈ (calculatedResponse lib request.requestId v).texts, encodable t :=
    fun v h => hid (h _ (by simp [calculatedResponse, CalculationResponse.texts]))
  have htry : TryBlock lib millis request.requestId (fun _ : Unit => exec) (fun _ _ _ => True)
      (fun _ => True) False (fun _ => False) fun _ => True :=
    { own := fun _ _ => trivial
      find := fun a b name x s _ _ => ⟨trivial, fun _ _ => trivial, fun r hr => by
        rw [hnone] at hr
        cases hr⟩
      save := fun _ _ _ _ _ => ⟨trivial, fun _ _ => trivial⟩
      calculated := fun v => by
        obtain ⟨e, he⟩ := reply_rejected hlib millis.tryBlock (hcalculated v)
        rw [he]
        trivial }
  have hsat : (handle M lib millis json).Sat (fun _ : Unit => exec) (fun _ _ _ => True)
      (fun _ => True) (Outcome.Post (fun _ => False) fun _ => True) := by
    unfold handle
    rw [hparse]
    refine sat_tryCatch (handleRequest_sat htry) fun e _ => ?_
    obtain ⟨e', he'⟩ := catchClauses_escapes hlib millis request.requestId e fun h => hid h.1
    rw [he']
    trivial
  exact Outcome.exists_thrown (Prog.eval_sat hsat trivial).2

/-- An exception of `find` whose text cannot be encoded is replaced by one that leaves `handle`. -/
theorem handle_escapes_of_find (M : CalculatorMath) (hlib : lib.Encodes encodable)
    (millis : Elapsed) {json : String} {request : CalculationRequest} {data : CalculatorData}
    (hparse : lib.parseRequest json = .ok request) (hdata : toCalculatorData request = .ok data)
    {e : Exception} (he : ¬ ∀ t ∈ e.texts, encodable t)
    (hfind : ∀ s a b name, (exec s (.find a b name)).2 = .error e) (s : σ) :
    ∃ e', ((handle M lib millis json).eval exec s).2 = .thrown e' := by
  obtain ⟨op, hop, -, -⟩ := toCalculatorData_ok hdata
  have hthrown : (handleRequest M lib millis request).eval exec s =
      ((exec s (.find data.firstNumber (secondNumberForStorage data) op.name)).1, .thrown e) := by
    unfold handleRequest
    rw [hdata, ok_andThen, operationToStorageName_eq, hop]
    simp only [ok_andThen]
    refine eval_andThen_thrown ?_
    rw [HandlerM.find, Prog.eval, hfind]
    rfl
  obtain ⟨e', he'⟩ := catchClauses_escapes hlib millis request.requestId e fun h => he h.2
  refine ⟨e', ?_⟩
  unfold handle
  rw [hparse]
  simp only
  rw [eval_tryCatch_thrown hthrown, he']
  rfl

end Escapes

end

/-! ## `on_read` -/

/-- Where no exception leaves it, `on_read` does what the model of a session says, with a handler
that answers what `handle` answers. -/
theorem onRead_session {σ : Type} {exec : σ → (o : StorageOp) → σ × o.Ans} {s : σ}
    {M : CalculatorMath} {lib : Protocol} {maxMessageSize n : ℕ} {millis : Elapsed}
    {session : Session} {handler : ℕ → Bytes → Bytes}
    (hhandler : ∀ request text, ((handle M lib millis (textOf request)).eval exec s).2 =
      .value text → handler session.requests.length request = bytesOf text)
    {ended : Option Bytes}
    (h : ((CompletedRead.onRead M lib maxMessageSize ⟨false, n, session.buffer, millis⟩).eval
      exec s).2 = .value ended) :
    (session.onRead handler maxMessageSize n).phase = phaseAfter ended := by
  unfold CompletedRead.onRead at h
  unfold Session.onRead
  by_cases hlong : n > maxMessageSize
  · rw [if_neg Bool.false_ne_true, if_pos hlong] at h
    rw [if_pos hlong]
    cases h
    rfl
  · rw [if_neg Bool.false_ne_true, if_neg hlong, andThen, Prog.eval_bind] at h
    rw [if_neg hlong]
    split at h
    · rename_i text htext
      cases h
      simp only [Session.response, hhandler _ _ htext, phaseAfter]
    · cases h
    · cases h

/-- **Network threads survive** as long as what they read is answerable. Any number of reads are
handled over one storage, in any interleaving of their storage operations; each that ends has queued
a response or left its session. -/
theorem onReads_contained {σ ε η : Type} {exec : ε → σ → (o : StorageOp) → σ × o.Ans}
    {env : η → σ → σ} {lib : Protocol} {encodable : String → Prop} {T : Exception → Prop}
    (M : CalculatorMath) (hlib : lib.Accepts encodable) (maxMessageSize : ℕ)
    {reads : List CompletedRead}
    (hreads : ∀ read ∈ reads, Answerable lib encodable T read.request)
    (hconforms : ∀ x s (o : StorageOp), o.Conforms T (exec x s o).2) (s : σ)
    (moves : List (Move ε η)) (i : ℕ) {out : Outcome Exception (Option Bytes)}
    (hout : (Pool.run exec env ⟨s, reads.map (·.onRead M lib maxMessageSize)⟩ moves).result i =
      some out) : ∃ ended, out = .value ended := by
  have hgood : Pool.Good exec (fun _ _ _ => True) (fun _ => True)
      (fun _ => Outcome.Post (fun _ => True) fun _ => False)
      (Pool.run exec env ⟨s, reads.map (·.onRead M lib maxMessageSize)⟩ moves) := by
    refine Pool.run_sat (fun _ _ _ => trivial) moves ⟨trivial, fun i t ht => ?_⟩
      (Pool.runAdmits_of_forall (C := fun _ => True) (fun _ _ _ _ => trivial) _ _
        fun _ _ _ => trivial)
    obtain ⟨read, hmem, rfl⟩ := List.mem_map.mp (List.mem_of_getElem? ht)
    exact onRead_sat M hlib maxMessageSize (fun _ _ => hreads read hmem)
      fun x s o _ => hconforms x s o
  exact Outcome.exists_value (hgood.result_sat hout)

/-- A storage that answers every `find` with `answer` and saves everything. -/
def constantStorage (answer : Except Exception (Option OperationRecord)) (_ : Unit) :
    (o : StorageOp) → Unit × o.Ans
  | .find _ _ _ => ((), answer)
  | .save _ => ((), .ok ())

theorem constantStorage_conforms {T : Exception → Prop}
    {answer : Except Exception (Option OperationRecord)} (hthrown : ∀ e, answer = .error e → T e)
    (hnone : ∀ r, answer ≠ .ok (some r)) (s : Unit) (o : StorageOp) :
    o.Conforms T (constantStorage answer s o).2 := by
  cases o with
  | find => exact ⟨hthrown, fun r hr => absurd hr (hnone r)⟩
  | save => exact nofun

theorem onRead_thrown {σ : Type} {exec : σ → (o : StorageOp) → σ × o.Ans} {s : σ}
    {M : CalculatorMath} {lib : Protocol} {maxMessageSize : ℕ} {read : CompletedRead}
    (herror : read.error = false) (hfits : read.bytesTransferred ≤ maxMessageSize) {e : Exception}
    (h : ((handle M lib read.millis read.request).eval exec s).2 = .thrown e) :
    ((read.onRead M lib maxMessageSize).eval exec s).2 = .thrown e := by
  unfold CompletedRead.onRead
  rw [herror, if_neg Bool.false_ne_true, if_neg (Nat.not_lt.mpr hfits)]
  rw [eval_andThen_thrown (Prod.ext rfl h)]

/-- **What an exception needs to leave `on_read`.** Whatever the storage does within `T`, a read is
handled to the end, with one response queued or the session left, exactly if its handler is not
reached or every text from outside that can get into a failure response can be encoded: those of the
parser's exception, the request id, and those of the storage's exceptions if the request gets to the
storage. -/
theorem onRead_contained_iff (M : CalculatorMath) (lib : Protocol) (encodable : String → Prop)
    (hlib : lib.Encodes encodable) (T : Exception → Prop) (maxMessageSize : ℕ)
    (read : CompletedRead) :
    (∀ (σ : Type) (exec : σ → (o : StorageOp) → σ × o.Ans) (s : σ),
      (∀ s (o : StorageOp), o.Conforms T (exec s o).2) →
      ∃ ended, ((read.onRead M lib maxMessageSize).eval exec s).2 = .value ended) ↔
    (read.error = false → read.bytesTransferred ≤ maxMessageSize →
      Answerable lib encodable T read.request) := by
  constructor
  · intro hall herror hfits
    have hnot : ∀ {σ : Type} {exec : σ → (o : StorageOp) → σ × o.Ans} {s : σ},
        (∀ s (o : StorageOp), o.Conforms T (exec s o).2) →
        ¬ ∃ e, ((handle M lib read.millis read.request).eval exec s).2 = .thrown e := by
      rintro σ exec s hconforms ⟨e, he⟩
      obtain ⟨ended, hended⟩ := hall σ exec s hconforms
      rw [onRead_thrown herror hfits he] at hended
      cases hended
    have hnone : ∀ s (o : StorageOp), o.Conforms T (constantStorage (.ok none) s o).2 :=
      constantStorage_conforms nofun nofun
    refine ⟨⟨fun e hparse => ?_, fun request hparse => ?_⟩,
      fun request data hparse hdata e he => ?_⟩
    · by_contra h
      refine hnot (s := ()) hnone ?_
      obtain ⟨e', he'⟩ := catchClauses_escapes hlib read.millis "" (.foreign e) fun hboth =>
        h hboth.2
      refine ⟨e', ?_⟩
      unfold handle
      rw [hparse]
      simp only [he']
      rfl
    · by_contra h
      exact hnot (s := ()) hnone (handle_escapes_of_requestId M hlib read.millis hparse h
        (fun _ _ _ _ => rfl) ())
    · by_contra h
      have hthrows : ∀ s (o : StorageOp), o.Conforms T (constantStorage (.error e) s o).2 :=
        constantStorage_conforms (fun e' h' => Except.error.inj h' ▸ he) nofun
      exact hnot (s := ()) hthrows (handle_escapes_of_find M hlib read.millis hparse hdata h
        (fun _ _ _ _ => rfl) ())
  · intro hread σ exec s hconforms
    have hsat : (read.onRead M lib maxMessageSize).Sat (fun _ : Unit => exec) (fun _ _ _ => True)
        (fun _ => True) (Outcome.Post (fun _ => True) fun _ => False) :=
      onRead_sat M hlib.toAccepts maxMessageSize hread fun _ s o _ => hconforms s o
    exact Outcome.exists_value (Prog.eval_sat hsat trivial).2

/-- Reports the text that is no request, and encodes ASCII texts only. -/
def echoProtocol : Protocol :=
  .plain
    (fun json =>
      if json = "1+2" then .ok ⟨"r1", .addition, [1, 2]⟩
      else .error (.protocolError .invalidJson ("unexpected text: " ++ json) none))
    fun response =>
      if response.texts.all isAscii then .ok "\x7b...\x7d"
      else .error (.std "invalid UTF-8 byte")

theorem echoProtocol_encodes : echoProtocol.Encodes fun t => isAscii t = true where
  ascii _ h := h
  accepts _ h := ⟨_, if_pos (List.all_eq_true.mpr h)⟩
  rejects _ t ht hnot := ⟨_, if_neg fun hall => hnot (List.all_eq_true.mp hall t ht)⟩

/-- The read of `"1+2\r\n"` is handled, also by a storage that throws. -/
theorem onRead_contained_iff_answered :
    ∃ ended, ((CompletedRead.onRead .checked echoProtocol 65536
      ⟨false, 5, [49, 43, 50, 13, 10], ⟨0, 0⟩⟩).eval
        (constantStorage (.error (.foreign (.std "disk full")))) ()).2 = .value ended := by
  have hrequest : echoProtocol.parseRequest (textOf [49, 43, 50]) =
      .ok ⟨"r1", .addition, [1, 2]⟩ := rfl
  have hjson : Answerable echoProtocol (fun t => isAscii t = true)
      (fun e => e = .foreign (.std "disk full")) (textOf [49, 43, 50]) := by
    refine ⟨⟨fun e h => ?_, fun request h => ?_⟩, fun _ _ _ _ e he => ?_⟩
    · rw [hrequest] at h
      cases h
    · rw [hrequest] at h
      cases h
      rfl
    · rw [he]
      decide
  exact (onRead_contained_iff .checked echoProtocol _ echoProtocol_encodes _ 65536 _).mpr
    (fun _ _ => hjson) Unit _ () (constantStorage_conforms
      (fun e h => (Except.error.inj h).symm) nofun)

/-- One byte that is not ASCII: the parser's exception echoes it, the failure response cannot be
encoded, and the exception of `serialize_response` leaves `on_read`. -/
theorem echoed_bytes_escape :
    echoProtocol.Encodes (fun t => isAscii t = true) ∧
    ∀ (M : CalculatorMath) (σ : Type) (exec : σ → (o : StorageOp) → σ × o.Ans) (s : σ),
      (CompletedRead.onRead M echoProtocol 65536 ⟨false, 2, [255, 10], ⟨0, 0⟩⟩).eval exec s =
        (s, .thrown (.foreign (.std "invalid UTF-8 byte"))) :=
  ⟨echoProtocol_encodes, fun _ _ _ _ => rfl⟩

end ConsoleCalculator
